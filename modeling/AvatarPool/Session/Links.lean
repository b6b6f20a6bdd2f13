import AvatarPool.Session.Hosts

/-! # Bridges of a session

A bridge client posts its requests to a frame host of the session, and a listener hands it the
responses.  When no more can come, the client has lost its connection. -/

namespace AvatarPool.Session

/-- One effect of a bridge client takes place, posts apart. -/
def carryOutBridge (b : Nat) (s : Session) : BridgeEffect Nat → Session
  | .answered n outcome => s.arriveOutcome (.call n) outcome
  | .published e => s.modifyLink b fun k => { k with bus := k.bus.publish e }
  | .posted _ => s

/-- The client of a bridge becomes `client`, whose effects take place. -/
def setClient (s : Session) (b : Nat) (client : BridgeClient Nat) : Session :=
  client.effects.foldl (carryOutBridge b)
    (s.modifyLink b fun k => { k with client := { client with effects := [] } })

/-- Puts a frame into the inbox of a frame host, and tells whether the host still takes any. -/
def pushFrame (s : Session) (i : Nat) (frame : String) : Session × Bool :=
  match s.hosts[i]? with
  | some host =>
    if host.running then
      ((s.modifyHost i fun h => { h with inbox := h.inbox ++ [frame] }).wake (.host i), true)
    else (s, false)
  | none => (s, false)

/-- Posts a request to the host of a bridge; once the host has ended, the post fails. -/
def post (b : Nat) (s : Session) (r : Request) : Session :=
  match s.links[b]? with
  | none => s
  | some link =>
    match s.pushFrame link.host r.frame with
    | (s, true) => s
    | (s, false) =>
      s.setClient b (link.client.giveUp r.id (.transport "bridge host channel closed"))

/-- The client of a bridge takes a request of call `n`, and hands out what it is to post. -/
def acceptThrough (s : Session) (b : Nat) (job : Job) (n : Nat) : Session × List Request :=
  match s.links[b]? with
  | none => (s, [])
  | some link =>
    let client := link.client.accept job n
    (s.setClient b client, client.effects.filterMap BridgeEffect.posted?)

/-- Call `n` asks for a job through a bridge. -/
def requestThrough (s : Session) (b : Nat) (job : Job) (n : Nat) : Session :=
  let (s, requests) := s.acceptThrough b job n
  requests.foldl (post b) s

/-- The client of a bridge takes one response frame. -/
def takeResponse (b : Nat) (s : Session) (frame : String) : Session :=
  match s.links[b]? with
  | none => s
  | some link => s.setClient b (link.client.takeFrame frame)

/-- The client of a bridge loses its connection. -/
def loseLink (s : Session) (b : Nat) : Session :=
  match s.links[b]? with
  | none => s
  | some link =>
    (s.modifyLink b fun k => { k with listening := false }).setClient b link.client.loseConnection

/-- The turn of a listener: it takes the responses that have come, and loses the connection when no
more can come. -/
def runListener (s : Session) (b : Nat) : Session :=
  match s.links[b]? with
  | none => s
  | some link =>
    if !link.listening then s
    else
      let s := s.modifyLink b fun k => { k with responses := [] }
      let s := link.responses.foldl (takeResponse b) s
      if s.isSilent link then s.loseLink b else s

end AvatarPool.Session
