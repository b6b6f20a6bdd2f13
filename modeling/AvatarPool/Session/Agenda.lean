import AvatarPool.Session.State

/-! # The agenda of a session

Who is woken takes a turn after all who were woken before.  Answers, frames and alerts wake the one
they are for; one who has used up a turn is not woken by them, for it goes on by itself in the next
round. -/

namespace AvatarPool.Session

/-- Puts a turn on the agenda, once. -/
def schedule (s : Session) (t : Turn) : Session :=
  if s.agenda.contains t then s else { s with agenda := s.agenda ++ [t] }

/-- Wakes one who waits. -/
def wake (s : Session) (t : Turn) : Session :=
  if s.postponed.contains t then s else s.schedule t

/-- Puts a turn off to the next round. -/
def postpone (s : Session) (t : Turn) : Session := { s with postponed := s.postponed ++ [t] }

/-- The next round begins. -/
def resume (s : Session) : Session := s.postponed.foldl schedule { s with postponed := [] }

def modifyCall (s : Session) (n : Nat) (f : Call → Call) : Session :=
  { s with calls := s.calls.modify n f }

def modifyHost (s : Session) (i : Nat) (f : FrameHost → FrameHost) : Session :=
  { s with hosts := s.hosts.modify i f }

def modifyLines (s : Session) (i : Nat) (f : LinesHost → LinesHost) : Session :=
  { s with linesHosts := s.linesHosts.modify i f }

def modifyLink (s : Session) (b : Nat) (f : Link → Link) : Session :=
  { s with links := s.links.modify b f }

/-! # Answers -/

/-- An answer reaches a call, which will look at it in its turn. -/
def arrive (s : Session) (n : Nat) (a : Answer) : Session :=
  match s.calls[n]? with
  | some c =>
    if c.waiting then (s.modifyCall n fun c => { c with arrived := some a }).wake (.call n) else s
  | none => s

/-- The outcome of a request reaches its caller. -/
def arriveOutcome (s : Session) (caller : Caller) (outcome : Outcome) : Session :=
  match caller with
  | .call n =>
    match s.calls[n]? with
    | some c => s.arrive n (c.form.answer outcome)
    | none => s
  | .handler h =>
    { s with handlers := s.handlers.modify h fun x => { x with outcome := some outcome } }.wake
      (.handler h)
  | .lines _ => s

/-- What a stop asked for led to reaches the one who asked. -/
def arriveStop (s : Session) (caller : Caller) (r : Except Failure Unit) : Session :=
  match caller with
  | .call n => s.arrive n (.unit r)
  | .handler _ => s
  | .lines i => (s.modifyLines i fun l => { l with serviceStopped := true }).wake (.lines i)

/-- A call ends, with an answer unless its caller has gone away. -/
def endCall (s : Session) (n : Nat) (a : Option Answer) : Session :=
  match s.calls[n]? with
  | some c =>
    let told := if c.abandoned then [] else (a.map fun a => (n, a)).toList
    { s.modifyCall n fun c => { c with waiting := false } with done := s.done ++ told }
  | none => s

/-- Whether the caller of a call has gone away. -/
def isAbandoned (s : Session) (n : Nat) : Bool := s.calls[n]?.any Call.abandoned

/-! # The service -/

/-- One output of the service takes place. -/
def carryOut (s : Session) : Output Caller → Session
  | .effect (.answered caller outcome) => s.arriveOutcome caller outcome
  | .effect (.handed k _) => s.wake (.worker k)
  | .effect (.started size) => (List.range size).foldl (fun s k => s.schedule (.worker k)) s
  | .effect (.published e) => { s with bus := s.bus.publish e }
  | .effect _ => s
  | .stopped caller => s.arriveStop caller (.ok ())
  | .stopRefused caller => s.arriveStop caller (.error .shuttingDown)
  | .dismissed k => s.wake (.worker k)
  | .roused => s.schedule .dispatcher
  | .postponed => s.postpone .dispatcher

/-- The service becomes `service`, whose outputs take place. -/
def setService (s : Session) (service : Service Caller) : Session :=
  service.outputs.foldl carryOut { s with service := { service with outputs := [] } }

/-- Sends a request to the service. -/
def request (s : Session) (job : Job) (caller : Caller) : Session :=
  s.setService (s.service.request job caller)

/-- Asks the service to stop. -/
def stopService (s : Session) (caller : Caller) : Session :=
  s.setService (s.service.stop caller)

/-- One more handle of the service. -/
def share (s : Session) : Session := { s with service := s.service.share }

/-- A handle of the service goes away. -/
def unshare (s : Session) : Session := s.setService s.service.unshare

/-- The gate of the service changes. -/
def setGate (s : Session) (gate : Gate) : Session := s.setService (s.service.setGate gate)

end AvatarPool.Session
