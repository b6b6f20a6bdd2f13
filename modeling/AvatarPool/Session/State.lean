import AvatarPool.Bridge.Client
import AvatarPool.Bridge.Host
import AvatarPool.Host.Lines
import AvatarPool.Host.Writer
import AvatarPool.Service
import AvatarPool.Session.Engine

/-! # A session

A session puts a service together with its engine, its callers, the hosts that serve it and the
bridges connected to them.  All of them take turns: a turn runs one of them as far as it gets, and
wakes others, which take their turns in the order they were woken.  Time passes only when the
session is told so. -/

namespace AvatarPool.Session

/-- Who takes a turn. -/
inductive Turn where
  | dispatcher
  | worker (k : Nat)
  | call (n : Nat)
  | handler (h : Nat)
  | host (i : Nat)
  | lines (i : Nat)
  | writer (i : Nat)
  | listener (b : Nat)
  | watch
  deriving DecidableEq, Repr

/-- Who waits for an answer of the service. -/
inductive Caller where
  /-- A call of the session. -/
  | call (n : Nat)
  /-- A request that a host has read. -/
  | handler (h : Nat)
  /-- A lines host, which waits for the service to stop. -/
  | lines (i : Nat)
  deriving DecidableEq, Repr

/-- What an output or input can fail with. -/
inductive StreamFault where
  | invalidData
  | brokenPipe
  deriving DecidableEq, Repr

/-- What a caller is shown. -/
inductive Answer where
  | text (r : Except Failure String)
  | artifact (r : Outcome)
  | unit (r : Except Failure Unit)
  | reply (frame : Option String)
  | response (r : Response)
  | stopped
  | fault (f : StreamFault)

/-- How the outcome of a call is shown. -/
inductive Form where
  | text
  | artifact
  /-- As the frame of a response. -/
  | reply (id : RequestId)
  /-- As a response. -/
  | response (id : RequestId)

/-- The answer that shows an outcome. -/
def Form.answer (f : Form) (outcome : Outcome) : Answer :=
  match f with
  | text => .text (outcome.map Artifact.display)
  | artifact => .artifact outcome
  | reply id => .reply (some (BridgeHost.respond id outcome).frame)
  | response id => .response (BridgeHost.respond id outcome)

/-- A call of the session. -/
structure Call where
  /-- Who takes the turn in which the call ends: the call itself, or the host that it runs. -/
  turn : Turn
  form : Form := .text
  /-- Whether the caller holds a handle of the service until the call ends. -/
  holds : Bool := false
  waiting : Bool := true
  /-- Whether the caller has gone away.  The call notices in its turn. -/
  abandoned : Bool := false
  /-- The answer, once it has arrived. -/
  arrived : Option Answer := none

/-- Where the replies to frames go. -/
inductive Outlet where
  /-- Out of the session. -/
  | view
  /-- To the writer of a lines host. -/
  | lines (i : Nat)
  /-- To the client of a bridge. -/
  | bridge (b : Nat)
  deriving DecidableEq, Repr

/-- A request frame that a host has read, on its way to a reply. -/
structure Handler where
  outlet : Outlet
  frame : String
  /-- The id to answer under, once the frame is read. -/
  id : Option RequestId := none
  outcome : Option Outcome := none

/-- A host that reads frames until their channel closes or it is cancelled. -/
structure FrameHost where
  outlet : Outlet
  /-- The call that it runs for, if there is one. -/
  call : Option Nat := none
  inbox : List String := []
  /-- Whether frames can still come. -/
  isOpen : Bool := true
  cancelled : Bool := false
  running : Bool := true

/-- Where a lines host stands. -/
inductive LinesStage where
  /-- Its writer has not been started. -/
  | starting
  | reading
  /-- The input has ended: the requests read are answered first. -/
  | answering
  /-- The service stops. -/
  | stopping (interrupted : Bool)
  /-- The service has stopped at an interruption: the requests read are answered last. -/
  | answeringLast
  /-- The last frames are written. -/
  | closing
  | ended
  deriving DecidableEq, Repr

/-- A host that reads requests by lines and writes responses by lines. -/
structure LinesHost where
  call : Nat
  input : List UInt8 := []
  /-- Whether the input has ended. -/
  atEnd : Bool := false
  cancelled : Bool := false
  stage : LinesStage := .starting
  /-- Whether the service has stopped. -/
  serviceStopped : Bool := false
  /-- Requests read and not answered. -/
  inFlight : Nat := 0
  writer : Writer := {}

/-- Whether the host still looks at its input. -/
def LinesHost.isReading (l : LinesHost) : Bool := l.stage == .starting || l.stage == .reading

/-- Whether no more frames can reach the writer. -/
def LinesHost.isSilent (l : LinesHost) : Bool :=
  l.inFlight == 0 && (l.stage == .closing || l.stage == .ended)

/-- A bridge client connected to a host of this session's service. -/
structure Link where
  client : BridgeClient Nat
  /-- The number of the host. -/
  host : Nat
  /-- Requests the host has read and not answered. -/
  inFlight : Nat := 0
  /-- Response frames on their way to the client. -/
  responses : List String := []
  /-- Whether the client still listens. -/
  listening : Bool := true
  bus : EventBus := {}
  seen : Subscriber := ⟨0⟩

/-- An invocation that the engine holds. -/
structure Invocation where
  job : Job
  worker : Nat
  deriving DecidableEq, Repr

end Session

open Session in
/-- The whole session. -/
structure Session where
  service : Service Caller
  engine : Engine
  watch : Watch := .closed
  /-- How the engine's start has ended, if it has. -/
  start : Option Startup := none
  bus : EventBus := {}
  seen : Subscriber := ⟨0⟩
  calls : List Call := []
  handlers : List Handler := []
  hosts : List FrameHost := []
  /-- The frame host that steps address. -/
  server : Option Nat := none
  /-- The lines hosts; steps address the last one. -/
  linesHosts : List LinesHost := []
  links : List Link := []
  /-- Turns to take, in order. -/
  agenda : List Turn := []
  /-- Those who had more to do than fits in a turn, and take another one in the next round. -/
  postponed : List Turn := []
  /-- Invocations the engine holds, in the order they began. -/
  held : List Invocation := []
  /-- Workers whose invocation has been released. -/
  released : List (Nat × Ending) := []
  /-- Invocations begun since the last look. -/
  started : List String := []
  invocations : Nat := 0
  /-- The most invocations ever running at once. -/
  mostRunning : Nat := 0
  /-- Frames sent out since the last look. -/
  frames : List String := []
  /-- Calls answered since the last look. -/
  done : List (Nat × Answer) := []
  /-- Whether the session holds its own handle of the service. -/
  ownsHandle : Bool := true

end AvatarPool
