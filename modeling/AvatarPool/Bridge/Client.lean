import AvatarPool.Artifact
import AvatarPool.Bridge.Minting
import AvatarPool.Cache
import AvatarPool.Event
import AvatarPool.Pending
import AvatarPool.Wire.Response

/-! # The bridge client

A client that lets a host do the work.  It has a cache and waiting callers of its own, so equal
requests cost one round trip.  Every round trip carries a fresh id, and a response finds its request
by that id alone: a late, repeated or unknown one changes nothing.  Admitting a request, posting it,
giving up a request whose post failed, taking a response and losing the connection are separate
steps, which may interleave with those of other callers.  The type `ω` names the callers. -/

namespace AvatarPool

/-- What a step does beyond the client's own state. -/
inductive BridgeEffect (ω : Type) where
  /-- A request is to be posted to the host. -/
  | posted (request : Request)
  /-- A caller gets its answer. -/
  | answered (caller : ω) (outcome : Outcome)
  | published (event : Event)
  deriving DecidableEq, Repr

/-- The request that an effect is to post. -/
def BridgeEffect.posted? {ω : Type} : BridgeEffect ω → Option Request
  | posted r => some r
  | _ => none

structure BridgeClient (ω : Type) where
  minting : Minting
  /-- Ids minted so far. -/
  minted : Nat := 0
  cache : Cache Fingerprint Artifact := {}
  pending : Pending Fingerprint ω := {}
  /-- Requests under way, by id. -/
  outstanding : List (RequestId × Fingerprint) := []
  /-- No response will come any more. -/
  disconnected : Bool := false
  effects : List (BridgeEffect ω) := []

namespace BridgeClient

variable {ω : Type}

/-- What is told when no response can come any more. -/
def lost : Failure := .transport "bridge response channel closed"

/-- Writes down effects. -/
def note (c : BridgeClient ω) (es : List (BridgeEffect ω)) : BridgeClient ω :=
  { c with effects := c.effects ++ es }

/-- Tells subscribers that something went wrong with the bridge. -/
def warn (c : BridgeClient ω) (reason : String) : BridgeClient ω :=
  c.note [.published (.transportFailure reason)]

/-- Closes the entry of a fingerprint and answers all its callers alike. -/
def answerAll (c : BridgeClient ω) (key : Fingerprint) (outcome : Outcome) : BridgeClient ω :=
  let (pending, callers) := c.pending.close key
  { c with pending := pending }.note (callers.map fun w => .answered w outcome)

/-- Takes one request: from the cache, refused after a disconnect, joined to a round trip under
way, or posted under a fresh id. -/
def accept (c : BridgeClient ω) (job : Job) (caller : ω) : BridgeClient ω :=
  match c.cache.get? job.fingerprint with
  | some artifact => c.note [.answered caller (.ok artifact)]
  | none =>
    if c.disconnected then (c.warn lost.message).note [.answered caller (.error lost)]
    else
      match c.pending.enter job.fingerprint caller with
      | (pending, .joined) => { c with pending := pending }
      | (pending, .opened) =>
        let id := c.minting.mint c.minted
        let others := c.outstanding.filter fun e => e.1 ≠ id
        { c with
          pending := pending
          minted := c.minted + 1
          outstanding := others ++ [(id, job.fingerprint)] }.note [.posted (Request.ofJob id job)]

/-- Takes a request out of those under way. -/
def withdraw (c : BridgeClient ω) (id : RequestId) : BridgeClient ω :=
  { c with outstanding := c.outstanding.filter fun e => e.1 ≠ id }

/-- Gives up the request `id`, whose post failed. -/
def giveUp (c : BridgeClient ω) (id : RequestId) (why : Failure) : BridgeClient ω :=
  let c :=
    match c.outstanding.lookup id with
    | some key => (c.withdraw id).answerAll key (.error why)
    | none => c
  c.warn why.message

/-- What the callers of a request are told by a response. -/
def outcome (key : Fingerprint) : Response → Outcome
  | .resolved _ detail =>
    match key with
    | .image _ _ => (Image.ofBase64 detail).map .image
    | .name _ => .ok (.name detail)
  | .rejected _ reason => .error (.remote reason)

/-- Keeps a success. -/
def keep (c : BridgeClient ω) (key : Fingerprint) : Outcome → BridgeClient ω
  | .ok artifact => { c with cache := (c.cache.insert key artifact).1 }
  | .error _ => c

/-- Takes a response. -/
def takeResponse (c : BridgeClient ω) (r : Response) : BridgeClient ω :=
  match c.outstanding.lookup r.id with
  | none => c
  | some key => ((c.withdraw r.id).keep key (outcome key r)).answerAll key (outcome key r)

/-- Takes a response frame. -/
def takeFrame (c : BridgeClient ω) (text : String) : BridgeClient ω :=
  match Response.ofFrame text with
  | .ok r => c.takeResponse r
  | .error e =>
    c.warn ("undecodable response frame: " ++ (Failure.protocol e.message).message)

/-- Loses the connection: every request under way fails, and every later one that is not cached. -/
def loseConnection (c : BridgeClient ω) : BridgeClient ω :=
  let gone := { c with disconnected := true, outstanding := [] }
  let failed := c.outstanding.foldl (fun c e => c.answerAll e.2 (.error lost)) gone
  if c.outstanding.isEmpty then failed else failed.warn lost.message

end BridgeClient

end AvatarPool
