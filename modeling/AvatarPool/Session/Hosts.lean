import AvatarPool.Session.Agenda

/-! # Hosts of a session

A frame host takes frames and a lines host takes lines; each gives every request to a handler of its
own, which has it answered and sends the reply on.  A host that ends leaves its handlers to finish
their work. -/

namespace AvatarPool.Session

/-- Inputs that one turn takes before it lets others go first. -/
def turnBudget : Nat := 128

/-! # The far ends of replies -/

/-- Whether no more responses can reach the client of a bridge. -/
def isSilent (s : Session) (link : Link) : Bool :=
  link.inFlight == 0 && !(s.hosts[link.host]?.any FrameHost.running)

/-- The listener of a bridge is woken if no more responses can come. -/
def hushLink (s : Session) (b : Nat) : Session :=
  match s.links[b]? with
  | some link => if s.isSilent link then s.wake (.listener b) else s
  | none => s

/-- The writer of a lines host is woken if no more frames can come. -/
def hushWriter (s : Session) (i : Nat) : Session :=
  match s.linesHosts[i]? with
  | some l => if l.isSilent && l.writer.isOpen then s.wake (.writer i) else s
  | none => s

/-- A lines host that waits for its last answer is woken by it. -/
def hushLines (s : Session) (i : Nat) : Session :=
  match s.linesHosts[i]? with
  | some l =>
    if l.inFlight = 0 ∧ (l.stage = .answering ∨ l.stage = .answeringLast) then s.wake (.lines i)
    else s
  | none => s

/-! # Handlers -/

/-- One more or one less request is on its way to an outlet. -/
def countInFlight (s : Session) (outlet : Outlet) (f : Nat → Nat) : Session :=
  match outlet with
  | .view => s
  | .lines i => s.modifyLines i fun l => { l with inFlight := f l.inFlight }
  | .bridge b => s.modifyLink b fun k => { k with inFlight := f k.inFlight }

/-- A host hands a frame to a handler of its own. -/
def addHandler (s : Session) (outlet : Outlet) (frame : String) : Session :=
  let handler : Handler := { outlet := outlet, frame := frame }
  let h := s.handlers.length
  (({ s with handlers := s.handlers ++ [handler] }.share).countInFlight outlet (· + 1)).schedule
    (.handler h)

/-- A reply leaves through its outlet. -/
def send (s : Session) (outlet : Outlet) (r : Response) : Session :=
  match outlet with
  | .view => { s with frames := s.frames ++ [r.frame] }
  | .lines i =>
    match s.linesHosts[i]? with
    | some l =>
      if l.writer.isOpen then
        (s.modifyLines i fun l => { l with writer := l.writer.push r.frame }).wake (.writer i)
      else s
    | none => s
  | .bridge b =>
    (s.modifyLink b fun k => { k with responses := k.responses ++ [r.frame] }).wake (.listener b)

/-- A handler has done its part. -/
def endHandler (s : Session) (outlet : Outlet) : Session :=
  let s := s.unshare.countInFlight outlet (· - 1)
  match outlet with
  | .view => s
  | .lines i => (s.hushWriter i).hushLines i
  | .bridge b => s.hushLink b

/-- A handler sends its reply, which ends it. -/
def reply (s : Session) (outlet : Outlet) (r : Response) : Session :=
  (s.send outlet r).endHandler outlet

/-- The turn of a handler: it reads its frame, or replies with the outcome of its request.  Once the
service has ended, it refuses. -/
def runHandler (s : Session) (h : Nat) : Session :=
  match s.handlers[h]? with
  | none => s
  | some x =>
    match x.id, x.outcome with
    | some id, some outcome => s.reply x.outlet (BridgeHost.respond id outcome)
    | some _, none => s
    | none, _ =>
      match BridgeHost.readFrame x.frame with
      | .ignore => s.endHandler x.outlet
      | .reply r => s.reply x.outlet r
      | .work id job =>
        if s.service.hasEnded then
          s.reply x.outlet (BridgeHost.respond id (.error .shuttingDown))
        else
          let handlers := s.handlers.modify h fun x => { x with id := some id }
          { s with handlers := handlers }.request job (.handler h)

/-! # Frame hosts -/

/-- A frame host ends, and gives its handle back. -/
def endHost (s : Session) (i : Nat) (host : FrameHost) : Session :=
  let s := s.modifyHost i fun h => { h with inbox := [], running := false }
  let s :=
    match host.outlet with
    | .bridge b => s.hushLink b
    | _ => s
  match host.call with
  | some n => s.unshare.endCall n (some .stopped)
  | none => s.unshare

/-- A frame host takes frames, at most so many in this turn. -/
def takeFrames (s : Session) (i : Nat) : Nat → Session
  | 0 => s.postpone (.host i)
  | inputs + 1 =>
    match s.hosts[i]? with
    | none => s
    | some host =>
      if host.cancelled then s.endHost i host
      else
        match host.inbox with
        | frame :: rest =>
          let taken := s.modifyHost i fun h => { h with inbox := rest }
          (taken.addHandler host.outlet frame).takeFrames i inputs
        | [] => if host.isOpen then s else s.endHost i host

/-- The turn of a frame host. -/
def runHost (s : Session) (i : Nat) : Session :=
  match s.hosts[i]? with
  | none => s
  | some host =>
    if !host.running then s
    else if host.call.any s.isAbandoned then s.endHost i host
    else s.takeFrames i turnBudget

/-! # Lines hosts -/

/-- A lines host ends, and gives its handle back. -/
def endLines (s : Session) (i : Nat) (call : Nat) (a : Option Answer) : Session :=
  let s := s.modifyLines i fun l => { l with input := [], stage := .ended }
  ((s.hushWriter i).unshare).endCall call a

/-- A lines host waits for its writer, and tells how that ended. -/
def awaitWriter (s : Session) (i : Nat) : Session :=
  match s.linesHosts[i]? with
  | none => s
  | some l =>
    if l.writer.failed then s.endLines i l.call (some (.fault .brokenPipe))
    else if l.writer.finished then s.endLines i l.call (some .stopped)
    else s

/-- A lines host has no more frames to write. -/
def closeLines (s : Session) (i : Nat) : Session :=
  ((s.modifyLines i fun l => { l with stage := .closing }).hushWriter i).awaitWriter i

/-- An interrupted lines host waits until the requests read are answered. -/
def answerLast (s : Session) (i : Nat) : Session :=
  match s.linesHosts[i]? with
  | none => s
  | some l =>
    if l.inFlight = 0 then s.closeLines i
    else s.modifyLines i fun l => { l with stage := .answeringLast }

/-- A lines host goes on after the service has stopped. -/
def afterStop (s : Session) (i : Nat) (interrupted : Bool) : Session :=
  if interrupted then s.answerLast i else s.closeLines i

/-- A lines host has the service stop, unless that has ended already. -/
def stopFor (s : Session) (i : Nat) (interrupted : Bool) : Session :=
  if s.service.hasEnded then s.afterStop i interrupted
  else
    (s.modifyLines i fun l => { l with stage := .stopping interrupted }).stopService (.lines i)

/-- A lines host at the end of its input waits until the requests read are answered. -/
def answerLines (s : Session) (i : Nat) : Session :=
  match s.linesHosts[i]? with
  | none => s
  | some l =>
    if l.inFlight = 0 then s.stopFor i false
    else s.modifyLines i fun l => { l with stage := .answering }

/-- A lines host reads the lines that have come, each a request unless it is blank. -/
def readLines (s : Session) (i : Nat) (l : LinesHost) (bytes : List UInt8) : Session :=
  match _h : Lines.next l.atEnd bytes with
  | .partialLine => s.modifyLines i fun l => { l with input := bytes }
  | .ended => (s.modifyLines i fun l => { l with input := [] }).answerLines i
  | .invalid => s.endLines i l.call (some (.fault .invalidData))
  | .line text rest =>
    if Text.isBlank text then s.readLines i l rest
    else (s.addHandler (.lines i) text).readLines i l rest
termination_by bytes.length
decreasing_by all_goals exact Lines.next_length _h

/-- The turn of a lines host: it goes from stage to stage as far as it can. -/
def runLines (s : Session) (i : Nat) : Session :=
  match s.linesHosts[i]? with
  | none => s
  | some l =>
    if l.stage = .ended then s
    else if s.isAbandoned l.call then s.endLines i l.call none
    else
      let read (s : Session) : Session :=
        if l.cancelled then s.stopFor i true else s.readLines i l l.input
      match l.stage with
      | .starting =>
        read ((s.modifyLines i fun l => { l with stage := .reading }).schedule (.writer i))
      | .reading => read s
      | .answering => s.answerLines i
      | .stopping interrupted => if l.serviceStopped then s.afterStop i interrupted else s
      | .answeringLast => s.answerLast i
      | .closing => s.awaitWriter i
      | .ended => s

/-- The turn of a writer: it writes what is queued, and finishes when nothing more can come.  A host
that waits for it is woken by its end. -/
def runWriter (s : Session) (i : Nat) : Session :=
  match s.linesHosts[i]? with
  | none => s
  | some l =>
    if !l.writer.isOpen then s
    else
      let (writer, written) := l.writer.flush
      let writer := if writer.isOpen && l.isSilent then { writer with finished := true } else writer
      let s := s.modifyLines i fun l => { l with writer := writer }
      let s := { s with frames := s.frames ++ written }
      if !writer.isOpen && l.stage == .closing then s.wake (.lines i) else s

end AvatarPool.Session
