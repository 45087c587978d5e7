/-
Module: FastCgi.Model.FastCgiServer
Layer: Model
Purpose: The processes of the fastcgi server: the loop of
  `CFastCgiServer::Run` (fastcgi/fastcgi_server.cpp), in the process that calls
  it and in every process that is forked in it.
Trusted boundary: `fork` copies the caller, its loop counter included, and the
  processes interleave in any order.  What a worker does with its descriptors
  and for a request, and the wait at the end of `Run`, do not touch the loop
  and are left out
Main exports: CFastCgiServer.Pid, CFastCgiServer.World, CFastCgiServer.Step,
  CFastCgiServer.Reachable
-/
import Mathlib.Data.Set.Insert
import Mathlib.Logic.Function.Basic
import Mathlib.Logic.Relation

namespace FastCgi

namespace CFastCgiServer

/-- A process of the tree below the call of `Run`: the iterations in which it
and its ancestors were forked.  The process that called `Run` is `[]`, and the
process that `pid` forks in iteration `i` is `pid ++ [i]`. -/
abbrev Pid := List Nat

/-- Where a process is in `Run`: before the test `i < m_usProcessCount`, in the
accept loop of iteration `i`, or behind the loop. -/
inductive Stage where
  | testing (i : Nat)
  | accepting (i : Nat)
  | left
deriving Repr, DecidableEq

/-- A process, and whether `FCGI_Accept` has returned a negative value in
it. -/
structure Process where
  stage : Stage
  acceptEnded : Bool
deriving Repr, DecidableEq

/-- A call of `fork`. -/
structure ForkCall where
  caller : Pid
  acceptEnded : Bool
  succeeded : Bool
deriving Repr, DecidableEq

/-- The processes of the tree, and the calls of `fork` they have made. -/
structure World where
  process : Pid → Option Process
  forks : List ForkCall

namespace World

def put (w : World) (pid : Pid) (process : Process) : World :=
  { w with process := Function.update w.process pid (some process) }

/-- The call of `Run`. -/
def start : World := put ⟨fun _ => none, []⟩ [] ⟨.testing 0, false⟩

/-- `fork` returns a child: the caller goes on with the next iteration, and
the child enters the accept loop of this one. -/
def forkSucceeds (w : World) (pid : Pid) (i : Nat) (acceptEnded : Bool) : World :=
  { (w.put pid ⟨.testing (i + 1), acceptEnded⟩).put (pid ++ [i]) ⟨.accepting i, false⟩ with
    forks := w.forks ++ [⟨pid, acceptEnded, true⟩] }

/-- `fork` fails: the caller goes on with the next iteration. -/
def forkFails (w : World) (pid : Pid) (i : Nat) (acceptEnded : Bool) : World :=
  { w.put pid ⟨.testing (i + 1), acceptEnded⟩ with
    forks := w.forks ++ [⟨pid, acceptEnded, false⟩] }

/-- The successful calls of `fork` in the whole tree. -/
def successfulForks (w : World) : Nat := w.forks.countP ForkCall.succeeded

end World

/-- One step of one process.  `ends` are the workers whose accept loop can
end. -/
inductive Step (processCount : UInt16) (ends : Set Pid) : World → World → Prop where
  | forkSucceeds {w : World} {pid : Pid} {i : Nat} {acceptEnded : Bool}
      (here : w.process pid = some ⟨.testing i, acceptEnded⟩) (more : i < processCount.toNat) :
      Step processCount ends w (w.forkSucceeds pid i acceptEnded)
  | forkFails {w : World} {pid : Pid} {i : Nat} {acceptEnded : Bool}
      (here : w.process pid = some ⟨.testing i, acceptEnded⟩) (more : i < processCount.toNat) :
      Step processCount ends w (w.forkFails pid i acceptEnded)
  | leave {w : World} {pid : Pid} {i : Nat} {acceptEnded : Bool}
      (here : w.process pid = some ⟨.testing i, acceptEnded⟩)
      (done : processCount.toNat ≤ i) :
      Step processCount ends w (w.put pid ⟨.left, acceptEnded⟩)
  /-- `FCGI_Accept() >= 0`: a request is served. -/
  | accept {w : World} {pid : Pid} {i : Nat} {acceptEnded : Bool}
      (here : w.process pid = some ⟨.accepting i, acceptEnded⟩) :
      Step processCount ends w w
  /-- `FCGI_Accept() < 0`: nothing follows the accept loop, so the worker goes
  on with the next iteration of the loop it was forked in. -/
  | acceptEnds {w : World} {pid : Pid} {i : Nat} {acceptEnded : Bool}
      (here : w.process pid = some ⟨.accepting i, acceptEnded⟩) (negative : pid ∈ ends) :
      Step processCount ends w (w.put pid ⟨.testing (i + 1), true⟩)

/-- The worlds that a call of `Run` can come to. -/
def Reachable (processCount : UInt16) (ends : Set Pid) : World → Prop :=
  Relation.ReflTransGen (Step processCount ends) .start

end CFastCgiServer

end FastCgi
