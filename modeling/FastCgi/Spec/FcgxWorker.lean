/-
Module: FastCgi.Spec.FcgxWorker
Layer: Spec
Purpose: What a web server that opens a connection for every request may send,
  and what a worker owes it.
Trusted boundary: human-reviewed spec
Main exports: CFastCgiServer.Brings, CFastCgiServer.Answered
-/
import FastCgi.Model.FcgxWorker
import FastCgi.Spec.FcgxOutput
import FastCgi.Spec.FcgxRequest

namespace FastCgi

namespace CFastCgiServer

open Fcgx

end CFastCgiServer

end FastCgi
