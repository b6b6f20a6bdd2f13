import AvatarPool.Bridge.Client
import Mathlib.Data.List.Induction

/-! # Runs of a bridge

Callers, posts, hosts and listeners take turns in any order.  The client's state changes in one go
when a request is admitted, when a request whose post failed is given up, when a response or a frame
comes, and when the connection is lost; between admission and post, and between post and giving up,
anything else can happen.

Each step of the model runs under the client's lock and is one move here.  What happens outside the
lock, a post, its failure and the publication of events, is put into the state: what admission has
to post waits in `unposted`, and posts that failed wait in `failed` until they are given up.  So a
run is any sequence of moves that can be made, and all interleavings are among the runs. -/

namespace AvatarPool

variable {ω : Type}

/-- A client with the calls that are on their way to its transport. -/
structure Bridge (ω : Type) where
  client : BridgeClient ω
  /-- Requests admitted and not yet given to the transport. -/
  unposted : List Request := []
  /-- Requests given to the transport, in order. -/
  posted : List Request := []
  /-- Requests that the transport did not take, and why; they have not been given up yet. -/
  failed : List (RequestId × Failure) := []

/-- What one of the parties does in one go. -/
inductive BridgeMove (ω : Type) where
  | accept (job : Job) (caller : ω)
  /-- A request is given to the transport, which may fail. -/
  | post (request : Request) (failure : Option Failure)
  /-- A request whose post failed is given up. -/
  | giveUp (id : RequestId) (why : Failure)
  | respond (response : Response)
  | frame (text : String)
  | disconnect
  deriving DecidableEq, Repr

namespace BridgeClient

variable {c : BridgeClient ω} {text : String}

theorem takeFrame_of_ok {r : Response} (h : Response.ofFrame text = .ok r) :
    c.takeFrame text = c.takeResponse r := by
  unfold takeFrame
  rw [h]

/-- One that cannot be read is told of, and nothing else happens. -/
theorem takeFrame_of_error {e : Json.DecodeError} (h : Response.ofFrame text = .error e) :
    c.takeFrame text =
      c.warn ("undecodable response frame: " ++ (Failure.protocol e.message).message) := by
  unfold takeFrame
  rw [h]

end BridgeClient

namespace Bridge

variable {b b' : Bridge ω}

/-- A fresh bridge. -/
def ofMinting (minting : Minting) : Bridge ω := { client := { minting := minting } }

/-- Admits a request, and keeps what it is to post. -/
def accept (b : Bridge ω) (job : Job) (caller : ω) : Bridge ω :=
  let client := b.client.accept job caller
  { b with
    client := client
    unposted := b.unposted ++
      (client.effects.drop b.client.effects.length).filterMap BridgeEffect.posted? }

/-- **One move**, or none where it cannot be made: only admitted requests are posted, each once, and
only those whose post failed are given up. -/
def move (b : Bridge ω) : BridgeMove ω → Option (Bridge ω)
  | .accept job caller => some (b.accept job caller)
  | .post r failure =>
    if r ∈ b.unposted then
      some { b with
        unposted := b.unposted.erase r
        posted := b.posted ++ [r]
        failed := b.failed ++ (failure.map fun why => (r.id, why)).toList }
    else none
  | .giveUp id why =>
    if (id, why) ∈ b.failed then
      some { b with client := b.client.giveUp id why, failed := b.failed.erase (id, why) }
    else none
  | .respond r => some { b with client := b.client.takeResponse r }
  | .frame text => some { b with client := b.client.takeFrame text }
  | .disconnect => some { b with client := b.client.loseConnection }

/-- **What a move makes of a bridge**, and what it needs.  A frame is a response, or the listener says
that it is none. -/
inductive Leads (b : Bridge ω) : BridgeMove ω → Bridge ω → Prop
  | accept (job : Job) (w : ω) : Leads b (.accept job w) (b.accept job w)
  | post {r : Request} (failure : Option Failure) (h : r ∈ b.unposted) :
      Leads b (.post r failure) { b with
        unposted := b.unposted.erase r
        posted := b.posted ++ [r]
        failed := b.failed ++ (failure.map fun why => (r.id, why)).toList }
  | giveUp {id : RequestId} {why : Failure} (h : (id, why) ∈ b.failed) :
      Leads b (.giveUp id why)
        { b with client := b.client.giveUp id why, failed := b.failed.erase (id, why) }
  | respond (r : Response) : Leads b (.respond r) { b with client := b.client.takeResponse r }
  | read {text : String} {r : Response} (h : Response.ofFrame text = .ok r) :
      Leads b (.frame text) { b with client := b.client.takeResponse r }
  | misread {text : String} {e : Json.DecodeError} (h : Response.ofFrame text = .error e) :
      Leads b (.frame text) { b with
        client :=
          b.client.warn ("undecodable response frame: " ++ (Failure.protocol e.message).message) }
  | disconnect : Leads b .disconnect { b with client := b.client.loseConnection }

/-- Every proof about moves goes by these cases; the two ways in which a frame can come out are told
apart here once. -/
theorem leads_of_move {m : BridgeMove ω} (h : b.move m = some b') : Leads b m b' := by
  cases m with
  | accept job w =>
      cases h
      exact .accept job w
  | post r failure =>
      obtain ⟨hmem, rfl⟩ := Option.ite_some_none_eq_some.mp h
      exact .post failure hmem
  | giveUp id why =>
      obtain ⟨hmem, rfl⟩ := Option.ite_some_none_eq_some.mp h
      exact .giveUp hmem
  | respond r =>
      cases h
      exact .respond r
  | frame text =>
      cases h
      cases hr : Response.ofFrame text with
      | ok r =>
          rw [BridgeClient.takeFrame_of_ok hr]
          exact .read hr
      | error e =>
          rw [BridgeClient.takeFrame_of_error hr]
          exact .misread hr
  | disconnect =>
      cases h
      exact .disconnect

/-- **A run**: moves one after the other. -/
def play (b : Bridge ω) : List (BridgeMove ω) → Option (Bridge ω)
  | [] => some b
  | m :: τ => (b.move m).bind fun b' => b'.play τ

/-- Runs can be put together. -/
theorem play_append (b : Bridge ω) (τ τ' : List (BridgeMove ω)) :
    b.play (τ ++ τ') = (b.play τ).bind fun c => c.play τ' := by
  induction τ generalizing b with
  | nil => rfl
  | cons m τ ih =>
      show (b.move m).bind (fun c => c.play (τ ++ τ')) = _
      rw [play, Option.bind_assoc]
      exact congrArg _ (funext fun c => ih c)

/-- A run is taken apart where its first part is known to lead to one state. -/
theorem play_append_of_play {τ : List (BridgeMove ω)} (h : b.play τ = some b')
    (τ' : List (BridgeMove ω)) : b.play (τ ++ τ') = b'.play τ' := by
  rw [play_append, h]
  rfl

theorem play_singleton (b : Bridge ω) (m : BridgeMove ω) : b.play [m] = b.move m :=
  Option.bind_fun_some (b.move m)

/-- **Induction on runs**, with the moves made so far.  It goes from the end, so that the run so far
is at hand for the last move. -/
theorem run_induction {P : List (BridgeMove ω) → Bridge ω → Prop} (first : P [] b)
    (last : ∀ τ m c d, b.play τ = some c → P τ c → c.move m = some d → P (τ ++ [m]) d)
    {τ : List (BridgeMove ω)} (h : b.play τ = some b') : P τ b' := by
  induction τ using List.reverseRecOn generalizing b' with
  | nil =>
      cases h
      exact first
  | append_singleton τ m ih =>
      rw [play_append] at h
      obtain ⟨c, hc, hm⟩ := Option.bind_eq_some_iff.mp h
      rw [play_singleton] at hm
      exact last τ m c b' hc (ih hc) hm

/-- **Induction on runs**: what holds at first and is kept by the last move holds after every
run. -/
theorem play_induction {P : Bridge ω → Prop} (first : P b)
    (last : ∀ m c c', P c → c.move m = some c' → P c') {τ : List (BridgeMove ω)}
    (h : b.play τ = some b') : P b' := by
  induction τ generalizing b with
  | nil =>
      cases h
      exact first
  | cons m τ ih =>
      obtain ⟨c, hc, hplay⟩ := Option.bind_eq_some_iff.mp h
      exact ih (last m b c first hc) hplay

end Bridge

end AvatarPool
