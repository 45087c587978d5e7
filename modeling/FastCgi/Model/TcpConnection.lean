/-
Module: FastCgi.Model.TcpConnection
Layer: Model
Purpose: A connection in the thread of its loop: `muduo::net::TcpConnection` with its
  `Channel` (mucgi/muduo_net/TcpConnection.cc, Channel.cc, Channel.h) and what
  `EPollPoller` keeps about it (EPollPoller.cc).
Trusted boundary: `write` takes any number of the bytes or fails; no descriptor is
  used for two channels at a time; the write-complete and high-water-mark callbacks
  are not set, and `forceClose`, `startRead` and `stopRead` are not called, as in
  mucgi; log lines are left out
Main exports: Muduo.Channel, Muduo.TcpConnection, Muduo.TcpConnection.handleEvent,
  Muduo.TcpConnection.connectEstablished, Muduo.TcpConnection.connectDestroyed
-/
import FastCgi.Model.Buffer

namespace FastCgi

namespace Muduo

/-! ### Channels and their poller -/

/-- `events_`: `kReadEvent` and `kWriteEvent`, or none of them. -/
structure Events where
  reading : Bool
  writing : Bool
deriving Repr, DecidableEq

/-- `kNoneEvent`. -/
def Events.none : Events := ⟨false, false⟩

/-- `index_`, as `EPollPoller` uses it. -/
inductive Index where
  | kNew
  | kAdded
  | kDeleted
deriving Repr, DecidableEq

/-- A `Channel`, and what its poller and the kernel keep for its descriptor. -/
structure Channel where
  events : Events
  index : Index
  addedToLoop : Bool
  /-- `channels_` of the poller has it. -/
  mapped : Bool
  /-- What epoll watches the descriptor for. -/
  watched : Option Events
deriving Repr, DecidableEq

namespace Channel

def fresh : Channel where
  events := .none
  index := .kNew
  addedToLoop := false
  mapped := false
  watched := none

/-- `EPOLL_CTL_ADD`.  `LOG_SYSFATAL` only logs a failure here; it is made a fault,
which never comes. -/
def epollAdd (c : Channel) : Except Fault Channel := do
  check (c.watched = none) "epoll_ctl op =ADD"
  return { c with watched := some c.events }

/-- `EPOLL_CTL_MOD`, with a failure as in `epollAdd`. -/
def epollMod (c : Channel) : Except Fault Channel := do
  check (c.watched ≠ none) "epoll_ctl op =MOD"
  return { c with watched := some c.events }

/-- `EPOLL_CTL_DEL`; a failure is logged. -/
def epollDel (c : Channel) : Channel := { c with watched := none }

/-- `EPollPoller::updateChannel`. -/
def updateChannel (c : Channel) : Except Fault Channel :=
  match c.index with
  | .kNew => do
      check (c.mapped = false) "channels_.find(fd) == channels_.end()"
      epollAdd { c with mapped := true, index := .kAdded }
  | .kDeleted => do
      check (c.mapped = true) "channels_.find(fd) != channels_.end()"
      epollAdd { c with index := .kAdded }
  | .kAdded => do
      check (c.mapped = true) "channels_.find(fd) != channels_.end()"
      if c.events = .none then
        return { epollDel c with index := .kDeleted }
      else
        epollMod c

/-- `EPollPoller::removeChannel`. -/
def removeChannel (c : Channel) : Except Fault Channel := do
  check (c.mapped = true) "channels_.find(fd) != channels_.end()"
  check (c.events = .none) "channel->isNoneEvent()"
  check (c.index = .kAdded ∨ c.index = .kDeleted) "index == kAdded || index == kDeleted"
  let c := { c with mapped := false }
  let c := if c.index = .kAdded then epollDel c else c
  return { c with index := .kNew }

/-- `update`, with new `events_`. -/
def update (events : Events) (c : Channel) : Except Fault Channel :=
  updateChannel { c with events := events, addedToLoop := true }

def enableReading (c : Channel) : Except Fault Channel := update { c.events with reading := true } c

def enableWriting (c : Channel) : Except Fault Channel := update { c.events with writing := true } c

def disableWriting (c : Channel) : Except Fault Channel :=
  update { c.events with writing := false } c

def disableAll (c : Channel) : Except Fault Channel := update .none c

def remove (c : Channel) : Except Fault Channel := do
  check (c.events = .none) "isNoneEvent()"
  removeChannel { c with addedToLoop := false }

/-- The destructor. -/
def destroy (c : Channel) : Except Fault Unit := do
  check (c.addedToLoop = false) "!addedToLoop_"
  check (c.mapped = false) "!loop_->hasChannel(this)"

end Channel

/-! ### Connections -/

/-- `StateE`. -/
inductive StateE where
  | kDisconnected
  | kConnecting
  | kConnected
  | kDisconnecting
deriving Repr, DecidableEq

/-- What `sockets::write` returned, or `errno`. -/
inductive WriteResult where
  /-- At most this many of the bytes were taken. -/
  | wrote (n : Nat)
  | wouldBlock
  /-- `EPIPE` or `ECONNRESET`. -/
  | broken
  | otherError
deriving Repr, DecidableEq

/-- What `readFd` returned: a positive count, zero, or minus one. -/
inductive ReadResult where
  | data (first : UInt8) (rest : Bytes)
  | endOfFile
  | failed
deriving Repr, DecidableEq

/-- What a message callback does with its connection. -/
inductive Call where
  | send (message : Bytes)
  | shutdown
deriving Repr, DecidableEq

/-- `readFd` and `messageCallback_`; `γ` are `inputBuffer_` and `context_`. -/
abbrev MessageCallback (γ : Type) := γ → Bytes → Except Fault (γ × List Call)

/-- What a connection does that can be seen from outside. -/
inductive Operation where
  | wrote (data : Bytes)
  | shutdownWrite
  /-- `connectionCallback_`, with `connected()`. -/
  | connection (up : Bool)
  /-- `closeCallback_`. -/
  | closed
deriving Repr, DecidableEq

/-- `revents_`. -/
structure Revents where
  pollin : Bool
  pollpri : Bool
  pollrdhup : Bool
  pollout : Bool
  pollerr : Bool
  pollhup : Bool
  pollnval : Bool
deriving Repr, DecidableEq

/-- The results of the calls of `sockets::write`; once the other side is gone, it
stays gone. -/
structure Socket where
  result : Nat → WriteResult
  stays_broken : ∀ k k', k ≤ k' → result k = .broken → result k' = .broken

structure TcpConnection (γ : Type) where
  state : StateE
  channel : Channel
  outputBuffer : Buffer
  context : γ
  socket : Socket
  /-- How often `sockets::write` was called. -/
  writes : Nat
  operations : List Operation

namespace TcpConnection

variable {γ : Type}

/-- The constructor. -/
def make (context : γ) (socket : Socket) : TcpConnection γ where
  state := .kConnecting
  channel := .fresh
  outputBuffer := .empty
  context := context
  socket := socket
  writes := 0
  operations := []

def isWriting (c : TcpConnection γ) : Bool := c.channel.events.writing

def perform (c : TcpConnection γ) (operation : Operation) : TcpConnection γ :=
  { c with operations := c.operations ++ [operation] }

/-- `sockets::write` of these bytes. -/
def write (c : TcpConnection γ) (data : Bytes) : WriteResult × TcpConnection γ :=
  let result := c.socket.result c.writes
  let c := { c with writes := c.writes + 1 }
  match result with
  | .wrote n => (.wrote (min n data.length), c.perform (.wrote (data.take n)))
  | other => (other, c)

/-- The end of `sendInLoop`: keep what was not written. -/
def keep (remaining : Bytes) (c : TcpConnection γ) : Except Fault (TcpConnection γ) := do
  if remaining = [] then
    return c
  else do
    let outputBuffer ← c.outputBuffer.append remaining
    if c.isWriting then
      return { c with outputBuffer := outputBuffer }
    else do
      let channel ← c.channel.enableWriting
      return { c with outputBuffer := outputBuffer, channel := channel }

def sendInLoop (message : Bytes) (c : TcpConnection γ) : Except Fault (TcpConnection γ) := do
  if c.state = .kDisconnected then
    return c
  else if c.isWriting = false ∧ c.outputBuffer.readableBytes = 0 then
    match c.write message with
    | (.wrote nwrote, c) => do
        check (message.length - nwrote ≤ message.length) "remaining <= len"
        c.keep (message.drop nwrote)
    | (.broken, c) => return c
    | (_, c) => c.keep message
  else
    c.keep message

def send (message : Bytes) (c : TcpConnection γ) : Except Fault (TcpConnection γ) :=
  if c.state = .kConnected then c.sendInLoop message else .ok c

def shutdownInLoop (c : TcpConnection γ) : TcpConnection γ :=
  if c.isWriting then c else c.perform .shutdownWrite

def shutdown (c : TcpConnection γ) : TcpConnection γ :=
  if c.state = .kConnected then { c with state := .kDisconnecting }.shutdownInLoop else c

/-- The calls of a message callback, one after the other. -/
def makeCalls : List Call → TcpConnection γ → Except Fault (TcpConnection γ)
  | [], c => .ok c
  | .send message :: calls, c => do
      let c ← c.send message
      makeCalls calls c
  | .shutdown :: calls, c => makeCalls calls c.shutdown

def handleClose (c : TcpConnection γ) : Except Fault (TcpConnection γ) := do
  check (c.state = .kConnected ∨ c.state = .kDisconnecting)
    "state_ == kConnected || state_ == kDisconnecting"
  let channel ← c.channel.disableAll
  return ({ c with state := .kDisconnected, channel := channel }.perform
    (.connection false)).perform .closed

def handleRead (onMessage : MessageCallback γ) (result : ReadResult) (c : TcpConnection γ) :
    Except Fault (TcpConnection γ) :=
  match result with
  | .data first rest => do
      let (context, calls) ← onMessage c.context (first :: rest)
      makeCalls calls { c with context := context }
  | .endOfFile => c.handleClose
  | .failed => .ok c

/-- The branch of `handleWrite` for a positive count. -/
def written (n : Nat) (c : TcpConnection γ) : Except Fault (TcpConnection γ) := do
  let outputBuffer ← c.outputBuffer.retrieve n
  let c := { c with outputBuffer := outputBuffer }
  if outputBuffer.readableBytes = 0 then do
    let channel ← c.channel.disableWriting
    let c := { c with channel := channel }
    return if c.state = .kDisconnecting then c.shutdownInLoop else c
  else
    return c

def handleWrite (c : TcpConnection γ) : Except Fault (TcpConnection γ) :=
  if c.isWriting then
    match c.write c.outputBuffer.readable with
    | (.wrote (n + 1), c) => c.written (n + 1)
    | (_, c) => .ok c
  else .ok c

/-- `closeCallback_` in `handleEventWithGuard`. -/
def whenHungUp (revents : Revents) (c : TcpConnection γ) : Except Fault (TcpConnection γ) :=
  if revents.pollhup && !revents.pollin then c.handleClose else .ok c

/-- `readCallback_` in `handleEventWithGuard`. -/
def whenReadable (onMessage : MessageCallback γ) (revents : Revents) (result : ReadResult)
    (c : TcpConnection γ) : Except Fault (TcpConnection γ) :=
  if revents.pollin || revents.pollpri || revents.pollrdhup then c.handleRead onMessage result
  else .ok c

/-- `writeCallback_` in `handleEventWithGuard`. -/
def whenWritable (revents : Revents) (c : TcpConnection γ) : Except Fault (TcpConnection γ) :=
  if revents.pollout then c.handleWrite else .ok c

/-- `Channel::handleEventWithGuard` with the callbacks of a connection; `errorCallback_`
only logs. -/
def handleEvent (onMessage : MessageCallback γ) (revents : Revents) (result : ReadResult)
    (c : TcpConnection γ) : Except Fault (TcpConnection γ) := do
  let c ← c.whenHungUp revents
  let c ← c.whenReadable onMessage revents result
  c.whenWritable revents

/-- With the connection callback of mucgi, which makes a new codec. -/
def connectEstablished (codec : γ) (c : TcpConnection γ) : Except Fault (TcpConnection γ) := do
  check (c.state = .kConnecting) "state_ == kConnecting"
  let channel ← c.channel.enableReading
  return { c with state := .kConnected, channel := channel, context := codec }.perform
    (.connection true)

def connectDestroyed (c : TcpConnection γ) : Except Fault (TcpConnection γ) := do
  let c ←
    if c.state = .kConnected then do
      let channel ← c.channel.disableAll
      pure ({ c with state := .kDisconnected, channel := channel }.perform (.connection false))
    else pure c
  let channel ← c.channel.remove
  return { c with channel := channel }

/-- The destructor, with that of the channel. -/
def destroy (c : TcpConnection γ) : Except Fault Unit := do
  check (c.state = .kDisconnected) "state_ == kDisconnected"
  c.channel.destroy

end TcpConnection

end Muduo

end FastCgi
