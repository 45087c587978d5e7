/-
Module: FastCgi.Model.FastCgiRequests
Layer: Model
Purpose: The requests of one worker of the fastcgi server: the accept loop of
  `CFastCgiServer::Run` (fastcgi/fastcgi_server.cpp) with `clear`, `ParseParam`
  and `ParseParamItem`.
Trusted boundary: `FCGI_Accept` makes the parameters of its request the
  environment that `getenv` reads, and what is printed until the next
  `FCGI_Accept` is the STDOUT of that request; `FCGI_printf` with the format
  `%s` writes the characters its argument points to; the callback returns.
  `ParamMap` is an `unordered_map` here, whose order is left out
Main exports: CFastCgiServer.FastCgiCallback, CFastCgiServer.parseParam,
  CFastCgiServer.handleRequest, CFastCgiServer.acceptLoop
-/
import FastCgi.Model.CgiUtils
import FastCgi.Model.Codec

namespace FastCgi

namespace CFastCgiServer

/-- `getenv`. -/
abbrev Environment := Bytes → Option Bytes

/-- The members of `CFastCgiServer` that a request changes. -/
structure Members where
  strOutPacket : Bytes
  umParam : ParamMap

/-- `FastCgiCallback`.  The map and the string are passed by reference; `σ` is
what `m_pCgiParameter` points to and whatever else the callback may change. -/
abbrev FastCgiCallback (σ : Type) := ParamMap → σ → Bytes → ParamMap × σ × Bytes

def Members.clear (_ : Members) : Members where
  strOutPacket := []
  umParam := ∅

def Members.parseParamItem (getenv : Environment) (m : Members) (strKey : Bytes) : Members :=
  { m with umParam := m.umParam.insert strKey ((getenv strKey).getD []) }

/-- The keys of `ParseParam`, in its order. -/
def paramKeys : List Bytes :=
  [ascii "CONTENT_LENGTH", ascii "CONTENT_TYPE", ascii "DOCUMENT_ROOT", ascii "DOCUMENT_URI",
    ascii "GATEWAY_INTERFACE", ascii "HTTP_ACCEPT", ascii "HTTP_CONTENT_LENGTH",
    ascii "HTTP_CONTENT_TYPE", ascii "HTTP_COOKIE", ascii "HTTP_HOST", ascii "HTTP_USER_AGENT",
    ascii "QUERY_STRING", ascii "REDIRECT_STATUS", ascii "REMOTE_ADDR", ascii "REMOTE_PORT",
    ascii "REQUEST_METHOD", ascii "REQUEST_SCHEME", ascii "REQUEST_URI", ascii "SCRIPT_NAME",
    ascii "SERVER_ADDR", ascii "SERVER_NAME", ascii "SERVER_PORT", ascii "SERVER_PROTOCOL",
    ascii "SERVER_SOFTWARE"]

def Members.parseParam (getenv : Environment) (m : Members) : Members :=
  paramKeys.foldl (parseParamItem getenv) m

/-- `std::string::c_str`: the memory it points to. -/
def cStr (text : Bytes) : Bytes := text ++ [0]

/-- `FCGI_printf("%s", pointer)`: the characters up to the terminating zero. -/
def printString (memory : Bytes) : Bytes := memory.takeWhile (· ≠ 0)

variable {σ : Type}

/-- The body of the accept loop, and what it prints. -/
def handleRequest (callBack : Option (FastCgiCallback σ)) (getenv : Environment) (m : Members)
    (cgiParameter : σ) : Bytes × Members × σ :=
  let m := m.clear
  match callBack with
  | none => ([], m.clear, cgiParameter)
  | some callBack =>
      let m := m.parseParam getenv
      let (umParam, cgiParameter, strOutPacket) :=
        callBack m.umParam cgiParameter m.strOutPacket
      (printString (cStr strOutPacket), Members.clear ⟨strOutPacket, umParam⟩, cgiParameter)

/-- The accept loop until `FCGI_Accept` returns a negative value, and the STDOUT
of each request. -/
def acceptLoop (callBack : Option (FastCgiCallback σ)) :
    List Environment → Members → σ → List Bytes × Members × σ
  | [], m, cgiParameter => ([], m, cgiParameter)
  | getenv :: requests, m, cgiParameter =>
      let (stdout, m, cgiParameter) := handleRequest callBack getenv m cgiParameter
      let (later, m, cgiParameter) := acceptLoop callBack requests m cgiParameter
      (stdout :: later, m, cgiParameter)

end CFastCgiServer

end FastCgi
