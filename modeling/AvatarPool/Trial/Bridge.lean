import AvatarPool.Bridge.Client

/-! # Trials of the bridge client

A trial plays the host by hand: it shows what the client posts, and its steps are responses, frames
and the loss of either channel.  Some posts can be made to fail. -/

namespace AvatarPool.Trial

/-- What a caller is shown. -/
inductive BridgeAnswer where
  /-- The shown and the carried form of a result. -/
  | artifact (r : Outcome)
  /-- The shown form alone. -/
  | display (r : Except Failure String)
  | listenerStopped

/-- A call that has no answer yet. -/
inductive BridgeCall where
  /-- It waits for a result, shown alone or not.  A caller of the first kind keeps the client
  alive. -/
  | job (displayOnly : Bool)
  /-- It waits for the end of the listener. -/
  | listener
  | answered
  deriving DecidableEq, Repr

/-- Whose response a step sends. -/
inductive Addressee where
  | id (i : RequestId)
  /-- The request posted after so many others. -/
  | posted (index : Nat)

inductive BridgeStep where
  | job (j : Job) (displayOnly : Bool)
  | respond (addressee : Addressee) (resolved : Bool) (text : String)
  /-- A frame reaches the client. -/
  | frame (text : String)
  /-- A listener starts, in place of the one before it. -/
  | listen
  /-- A frame reaches the listener. -/
  | push (text : String)
  | closeResponses
  | closeHost
  /-- A caller goes away. -/
  | abandon (call : Nat)
  | dropClient

inductive BridgeResult where
  | nothing
  | call (n : Nat)
  | truth (b : Bool)

structure BridgeTrial where
  client : BridgeClient Nat
  /-- Posts to fail, by number from one. -/
  faults : List (Nat × Failure)
  posts : Nat := 0
  hostOpen : Bool := true
  /-- The ids posted, in order. -/
  posted : List RequestId := []
  /-- Requests posted in this step. -/
  fresh : List Request := []
  bus : EventBus := {}
  seen : Subscriber := ⟨0⟩
  calls : List BridgeCall := []
  done : List (Nat × BridgeAnswer) := []
  /-- The call of the listener, if one runs.  It runs on if its caller goes away. -/
  listener : Option Nat := none
  /-- Whether the trial holds a handle of the client. -/
  held : Bool := true

namespace BridgeTrial

/-- What callers are told when the client is gone. -/
def clientDropped : Failure := .channel "Bridge client dropped a pending request"

/-- A call has its answer. -/
def close (t : BridgeTrial) (n : Nat) (a : BridgeAnswer) : BridgeTrial :=
  { t with calls := t.calls.set n .answered, done := t.done ++ [(n, a)] }

/-- Gives a caller its answer, if it still waits. -/
def answer (t : BridgeTrial) (n : Nat) (outcome : Outcome) : BridgeTrial :=
  match t.calls[n]? with
  | some (.job false) => t.close n (.artifact outcome)
  | some (.job true) => t.close n (.display (outcome.map Artifact.display))
  | _ => t

/-- The client carries on with `f`, and its effects but for posts take place. -/
def carryOut (t : BridgeTrial) : List (BridgeEffect Nat) → BridgeTrial
  | [] => t
  | .answered n outcome :: rest => (t.answer n outcome).carryOut rest
  | .published e :: rest => { t with bus := t.bus.publish e }.carryOut rest
  | .posted _ :: rest => t.carryOut rest

/-- A step of the client. -/
def withClient (t : BridgeTrial) (f : BridgeClient Nat → BridgeClient Nat) : BridgeTrial :=
  let c := f t.client
  { t with client := { c with effects := [] } }.carryOut c.effects

/-- Delivers a request to the host, or says why that failed. -/
def post (t : BridgeTrial) (r : Request) : BridgeTrial × Option Failure :=
  let number := t.posts + 1
  let t := { t with posts := number }
  match t.faults.lookup number with
  | some why => (t, some why)
  | none =>
    if t.hostOpen then
      ({ t with posted := t.posted ++ [r.id], fresh := t.fresh ++ [r] }, none)
    else (t, some (.transport "bridge host channel closed"))

/-- A call of the client: admission, and the post if there is one. -/
def submit (t : BridgeTrial) (j : Job) (n : Nat) : BridgeTrial :=
  let admitted := t.client.accept j n
  let deliver (t : BridgeTrial) (r : Request) : BridgeTrial :=
    match t.post r with
    | (t, none) => t
    | (t, some why) => t.withClient fun c => c.giveUp r.id why
  (admitted.effects.filterMap BridgeEffect.posted?).foldl deliver (t.withClient fun _ => admitted)

/-- Whether anyone keeps the client alive: the trial, a listener, or a caller that waits. -/
def isAlive (t : BridgeTrial) : Bool :=
  t.held || t.listener.isSome || t.calls.any (· == .job true)

/-- Without a client the waiting callers are told so. -/
def reap (t : BridgeTrial) : BridgeTrial :=
  if t.isAlive then t
  else
    let tell (t : BridgeTrial) (n : Nat) : BridgeTrial := t.answer n (.error clientDropped)
    (List.range t.calls.length).foldl tell t

/-- The id of an addressee. -/
def idOf? (t : BridgeTrial) : Addressee → Option RequestId
  | .id i => some i
  | .posted index => t.posted[index]?

/-- Replaces a marked text wherever it stands. -/
def substitute (mark value : List Char) : List Char → List Char
  | [] => []
  | c :: rest =>
    if mark.isPrefixOf (c :: rest) then
      value ++ substitute mark value ((c :: rest).drop (max 1 mark.length))
    else c :: substitute mark value rest
termination_by cs => cs.length
decreasing_by all_goals (simp only [List.length_cons, List.length_drop]; omega)

/-- The text with every mark of a posted id replaced by that id. -/
def fill (t : BridgeTrial) (text : String) : String :=
  let step (cs : List Char) (p : RequestId × Nat) : List Char :=
    substitute ("%ID" ++ toString p.2 ++ "%").toList p.1.json.toList cs
  String.ofList (t.posted.zipIdx.foldl step text.toList)

/-- A new call. -/
def newCall (t : BridgeTrial) (c : BridgeCall) : BridgeTrial := { t with calls := t.calls ++ [c] }

/-- The responses of the listener end: it loses the connection, and its caller, if there still is
one, is told so. -/
def endListener (t : BridgeTrial) : BridgeTrial :=
  match t.listener with
  | none => t
  | some l =>
    let t := { (t.withClient BridgeClient.loseConnection) with listener := none }
    if t.calls[l]? = some .listener then t.close l .listenerStopped else t

/-- Plays one step. -/
def play (t : BridgeTrial) (step : BridgeStep) : BridgeTrial × BridgeResult :=
  let n := t.calls.length
  match step with
  | .job j displayOnly =>
    if t.held then ((t.newCall (.job displayOnly)).submit j n, .call n) else (t, .nothing)
  | .respond addressee resolved text =>
    match t.held, t.idOf? addressee with
    | true, some i =>
      let r : Response := if resolved then .resolved i text else .rejected i text
      (t.withClient fun c => c.takeResponse r, .nothing)
    | _, _ => (t, .nothing)
  | .frame text =>
    if t.held then (t.withClient fun c => c.takeFrame (t.fill text), .nothing) else (t, .nothing)
  | .listen => (({ t.endListener with listener := some n }).newCall .listener, .call n)
  | .push text =>
    match t.listener with
    | some _ => (t.withClient fun c => c.takeFrame (t.fill text), .truth true)
    | none => (t, .nothing)
  | .closeResponses => (t.endListener, .nothing)
  | .closeHost => ({ t with hostOpen := false }, .nothing)
  | .abandon k => ({ t with calls := t.calls.set k .answered }, .nothing)
  | .dropClient => ({ t with held := false }, .nothing)

/-- A frame as it is shown: the text ids of a client that mints UUIDs go by the order of posting. -/
def shownFrame (t : BridgeTrial) (index : Nat) (r : Request) : String :=
  match t.client.minting with
  | .counter => r.frame
  | .texts _ => { r with id := .text ("uuid-" ++ toString index) }.frame

/-- What can be seen after a step. -/
structure BridgeView where
  posted : List String
  done : List (Nat × BridgeAnswer)
  events : List Received
  outstanding : Option Nat

/-- Takes out what the step has left to see. -/
def look (t : BridgeTrial) : BridgeTrial × BridgeView :=
  let t := t.reap
  let first := t.posted.length - t.fresh.length
  let frames := t.fresh.zipIdx.map fun (r, i) => t.shownFrame (first + i) r
  let (events, seen) := t.bus.receiveAll t.seen
  ({ t with fresh := [], done := [], seen := seen },
    { posted := frames
      done := t.done.mergeSort fun a b => a.1 ≤ b.1
      events := events
      outstanding := if t.held then some t.client.outstanding.length else none })

end BridgeTrial

end AvatarPool.Trial
