import AvatarPool.Session.Turns

/-! # Steps of a session

What can be done to a session from outside, and what can be seen of it once it rests again.  Every
call begins at its step; the answer shows when the call has taken its turn. -/

namespace AvatarPool.Session

/-- Which of the held invocations is meant. -/
inductive Which where
  | first
  | last
  | named (k : String)
  deriving DecidableEq, Repr

inductive Step where
  /-- A call for a job; it may hold a handle of the service until it is answered. -/
  | ask (job : Job) (form : Form) (holds : Bool)
  /-- The engine ends a held invocation. -/
  | release (which : Which) (act : Act)
  /-- The engine gets a further act to play. -/
  | script (k : String) (act : Act)
  | setGate (state : Readiness)
  | dropGate
  /-- The engine's start ends. -/
  | ready (act : Act)
  | advance (millis : Nat)
  /-- A caller goes away. -/
  | abandon (call : Nat)
  | shutdown
  /-- The session gives its own handle back. -/
  | dropClient
  /-- A call that answers one request frame. -/
  | frame (text : String)
  /-- A call that answers one request. -/
  | handle (r : Request)
  /-- Starts the frame host. -/
  | serve
  | servePush (text : String)
  | serveClose
  | serveCancel
  /-- Starts the lines host on an output of so many bytes. -/
  | lines (limit : Option Nat)
  | linesWrite (bytes : List UInt8)
  | linesEnd
  | linesCancel
  /-- Connects a bridge client. -/
  | connect (variant : ClientVariant)
  /-- A call through a bridge. -/
  | through (b : Nat) (job : Job)
  /-- The host of a bridge stops reading. -/
  | stopHost (b : Nat)

/-- What a step tells at once. -/
inductive Result where
  | nothing
  | truth (b : Bool)
  | call (n : Nat)
  | variant (v : ClientVariant)
  deriving DecidableEq, Repr

/-- A session at its start: nothing has run yet. -/
def create (config : PoolSettings) (engine : Engine) (drive : GateDrive) : Session :=
  let watch := drive.watch config.readinessTimeout
  { service := Service.ofConfig config drive.gate
    engine := engine
    watch := watch
    start := drive.start
    agenda := if watch.isWaiting then [.watch, .dispatcher] else [.dispatcher] }

/-- Adds a call; one that holds a handle of the service takes it now. -/
def newCall (s : Session) (turn : Turn) (form : Form) (holds : Bool) : Session :=
  let s := { s with calls := s.calls ++ [{ turn := turn, form := form, holds := holds }] }
  if holds then s.share else s

/-- Adds a call that `ask` sends on its way, under its number, before its first turn. -/
def begin (s : Session) (form : Form) (holds : Bool) (ask : Nat → Session → Session) :
    Session × Result :=
  let n := s.calls.length
  ((ask n (s.newCall (.call n) form holds)).schedule (.call n), .call n)

/-- Call `n` is about a request: it is worked on, answered at once, or not answered. -/
def askAs (s : Session) (n : Nat) : BridgeHost.Reading → (Response → Answer) → Session
  | .work _ job, _ => s.request job (.call n)
  | .reply r, shown => s.arrive n (shown r)
  | .ignore, _ => s.arrive n (.reply none)

/-- The id that a request is answered under. -/
def replyId : BridgeHost.Reading → RequestId
  | .work id _ => id
  | .reply r => r.id
  | .ignore => .text ""

/-- The position of the meant invocation among those held. -/
def position? (held : List Invocation) : Which → Option Nat
  | .first => if held.isEmpty then none else some 0
  | .last => if held.isEmpty then none else some (held.length - 1)
  | .named k => held.findIdx? fun i => key i.job == k

/-- Ends a held invocation. -/
def release (s : Session) (which : Which) (act : Act) : Session × Result :=
  match (position? s.held which).bind fun i => s.held[i]?.map fun x => (i, x) with
  | none => (s, .truth false)
  | some (i, x) =>
    ({ s with
        held := s.held.eraseIdx i
        released := s.released ++ [(x.worker, act.ending x.job)] }.wake (.worker x.worker),
      .truth true)

/-- The moments at which something happens by itself, with whose turn it is then. -/
def deadlines (s : Session) : List (Nat × Turn) :=
  let watch := (s.watch.deadline?.map fun d => (d, Turn.watch)).toList
  match s.service.phase with
  | .grace d => watch ++ [(d, .dispatcher)]
  | .farewell d => watch ++ (d.map fun d => (d, Turn.dispatcher)).toList
  | _ => watch

/-- Time passes. -/
def advance (s : Session) (millis : Nat) : Session :=
  let now := s.service.clock + millis
  let s := { s with service := { s.service with clock := now } }
  let due := (s.deadlines.filter fun d => d.1 ≤ now).mergeSort fun a b => a.1 ≤ b.1
  due.foldl (fun s d => s.schedule d.2) s

/-- A caller goes away, which its call, or the host that it runs, notices in its turn. -/
def abandon (s : Session) (n : Nat) : Session :=
  match s.calls[n]? with
  | some c =>
    if c.waiting then (s.modifyCall n fun c => { c with abandoned := true }).schedule c.turn else s
  | none => s

/-- Changes the gate by hand, as long as it can be changed. -/
def withGate (s : Session) (f : Gate → Gate) : Session :=
  if s.service.gate.isHeld then s.setGate (f s.service.gate) else s

/-- The engine's start ends, if it is still awaited. -/
def endStart (s : Session) (ended : Startup) : Session × Result :=
  if s.watch.isWaiting && s.start.isNone then
    ({ s with start := some ended }.wake .watch, .truth true)
  else (s, .truth false)

/-- How a bridge client of a variant mints its ids. -/
def mintingOf : ClientVariant → Minting
  | .android => .uuid
  | _ => .counter

/-- Changes a frame host, which looks at the change in its turn. -/
def withHost (s : Session) (i : Nat) (f : FrameHost → FrameHost) : Session :=
  (s.modifyHost i f).wake (.host i)

/-- Changes the frame host that steps address. -/
def withServer (s : Session) (f : FrameHost → FrameHost) : Session :=
  match s.server with
  | some i => s.withHost i f
  | none => s

/-- Starts a frame host, with a handle of its own. -/
def newHost (s : Session) (host : FrameHost) : Session :=
  let i := s.hosts.length
  ({ s with hosts := s.hosts ++ [host] }.share).schedule (.host i)

/-- Starts a frame host for a call.  No more frames reach the one before it. -/
def serve (s : Session) : Session × Result :=
  let n := s.calls.length
  let i := s.hosts.length
  let s := (s.withServer fun h => { h with isOpen := false }).newCall (.host i) .text false
  ({ s.newHost { outlet := .view, call := some n } with server := some i }, .call n)

/-- Pushes a frame to the frame host, as long as it reads. -/
def pushServer (s : Session) (frame : String) : Session × Result :=
  match s.server with
  | none => (s, .nothing)
  | some i =>
    if s.hosts[i]?.any FrameHost.isOpen then
      let (s, taken) := s.pushFrame i frame
      (s, .truth taken)
    else (s, .nothing)

/-- Changes the lines host, which looks at the change if it still reads. -/
def withLines (s : Session) (f : LinesHost → LinesHost) : Session :=
  let i := s.linesHosts.length - 1
  let s := s.modifyLines i f
  if s.linesHosts[i]?.any LinesHost.isReading then s.wake (.lines i) else s

/-- Starts a lines host for a call, with a handle of its own.  The input of the one before it
ends. -/
def serveLines (s : Session) (limit : Option Nat) : Session × Result :=
  let n := s.calls.length
  let i := s.linesHosts.length
  let s := (s.withLines fun l => { l with atEnd := true }).newCall (.lines i) .text false
  let host : LinesHost := { call := n, writer := { limit := limit } }
  (({ s with linesHosts := s.linesHosts ++ [host] }.share).schedule (.lines i), .call n)

/-- Writes to the input of the lines host, until it ends or the host does. -/
def writeLines (s : Session) (bytes : List UInt8) : Session × Result :=
  match s.linesHosts.getLast? with
  | some l =>
    if l.atEnd then (s, .nothing)
    else if l.stage = .ended then (s, .truth false)
    else (s.withLines fun l => { l with input := l.input ++ bytes }, .truth true)
  | none => (s, .nothing)

/-- Connects a bridge client to a frame host of its own. -/
def connectWith (s : Session) (minting : Minting) : Session :=
  let b := s.links.length
  let link : Link := { client := { minting := minting }, host := s.hosts.length }
  ({ s with links := s.links ++ [link] }.newHost { outlet := .bridge b }).schedule (.listener b)

/-- Connects a bridge client of a variant. -/
def connect (s : Session) (variant : ClientVariant) : Session × Result :=
  (s.connectWith (mintingOf variant), .variant variant)

/-- Cancels the host of a bridge. -/
def stopHost (s : Session) (b : Nat) : Session :=
  match s.links[b]? with
  | some link => s.withHost link.host fun h => { h with cancelled := true }
  | none => s

/-- Does one step. -/
def perform (s : Session) (step : Step) : Session × Result :=
  match step with
  | .ask job form holds => s.begin form holds fun n s => s.request job (.call n)
  | .release which act => s.release which act
  | .script k act => ({ s with engine := s.engine.script k act }, .nothing)
  | .setGate state => (s.withGate fun g => g.set state, .nothing)
  | .dropGate => (s.withGate Gate.release, .nothing)
  | .ready act => s.endStart act.startup
  | .advance millis => (s.advance millis, .nothing)
  | .abandon call => (s.abandon call, .nothing)
  | .shutdown => s.begin .text false fun n s => s.stopService (.call n)
  | .dropClient =>
    if s.ownsHandle then ({ s with ownsHandle := false }.unshare, .nothing) else (s, .nothing)
  | .frame text =>
    let r := BridgeHost.readFrame text
    s.begin (.reply (replyId r)) true fun n s => s.askAs n r fun r => .reply (some r.frame)
  | .handle r =>
    s.begin (.response r.id) true fun n s => s.askAs n (BridgeHost.readRequest r) .response
  | .serve => s.serve
  | .servePush text => s.pushServer text
  | .serveClose => (s.withServer fun h => { h with isOpen := false }, .nothing)
  | .serveCancel => (s.withServer fun h => { h with cancelled := true }, .nothing)
  | .lines limit => s.serveLines limit
  | .linesWrite bytes => s.writeLines bytes
  | .linesEnd => (s.withLines fun l => { l with atEnd := true }, .nothing)
  | .linesCancel => (s.withLines fun l => { l with cancelled := true }, .nothing)
  | .connect variant => s.connect variant
  | .through b job => s.begin .text false fun n s => s.requestThrough b job n
  | .stopHost b => (s.stopHost b, .nothing)

/-- Does steps one after the other, without running anything in between. -/
def performAll (s : Session) : List Step → Session × List Result
  | [] => (s, [])
  | step :: rest =>
    let (s, r) := s.perform step
    let (s, rs) := s.performAll rest
    (s, r :: rs)

/-- Events of a bus, by the bus they come from. -/
inductive Source where
  | service
  | link (b : Nat)
  deriving DecidableEq, Repr

/-- What can be seen of a session at rest. -/
structure View where
  /-- The calls answered since the last look, by number. -/
  done : List (Nat × Answer)
  /-- The invocations begun since the last look. -/
  started : List String
  /-- The invocations held, in the order they began. -/
  running : List String
  invocations : Nat
  /-- The counters, as long as the session has a handle of the service. -/
  stats : Option Stats
  events : List (Source × Received)
  /-- The frames sent out since the last look, in alphabetical order. -/
  frames : List String
  /-- Round trips under way, per bridge. -/
  outstanding : List Nat

/-- The events that a bridge has published since the last look. -/
def Link.news (link : Link) (b : Nat) : List (Source × Received) :=
  (link.bus.receiveAll link.seen).1.map fun r => (.link b, r)

/-- Looks at a session, which forgets what has been seen. -/
def look (s : Session) : Session × View :=
  let (events, seen) := s.bus.receiveAll s.seen
  let news := s.links.zipIdx.flatMap fun (link, b) => link.news b
  let view : View := {
    done := s.done.mergeSort fun a b => a.1 ≤ b.1
    started := s.started
    running := s.held.map fun i => key i.job
    invocations := s.invocations
    stats := if s.ownsHandle then some s.service.core.stats else none
    events := (events.map fun r => (.service, r)) ++ news
    frames := s.frames.mergeSort fun a b => decide (a ≤ b)
    outstanding := s.links.map fun link => link.client.outstanding.length }
  ({ s with
      done := []
      started := []
      frames := []
      seen := seen
      links := s.links.map fun k => { k with seen := (k.bus.receiveAll k.seen).2 } }, view)

end AvatarPool.Session
