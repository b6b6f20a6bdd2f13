/-! # Notifications

Events for the status line of a user interface.  A bus keeps only its latest events; a subscriber
that falls too far behind is told how many it missed and goes on with the oldest kept. -/

namespace AvatarPool

inductive Event where
  /-- A bridge message could not be delivered or understood. -/
  | transportFailure (reason : String)
  /-- The engine did not become ready. -/
  | readinessFailed (reason : String)
  /-- The engine is ready and the workers run. -/
  | engineReady
  deriving DecidableEq, Repr, Inhabited

/-- Events a bus keeps for subscribers that have not read them. -/
def Event.capacity : Nat := 64

/-- A bus: the number of events it has seen, the latest of them in order, and whether its publishers
are still there. -/
structure EventBus where
  published : Nat := 0
  kept : List Event := []
  isOpen : Bool := true
  deriving Repr, Inhabited

/-- A subscriber: how many events of its bus it has passed. -/
structure Subscriber where
  position : Nat
  deriving DecidableEq, Repr, Inhabited

/-- What a subscriber finds. -/
inductive Received where
  | event (e : Event)
  /-- So many events were missed. -/
  | lagged (count : Nat)
  | empty
  | closed
  deriving DecidableEq, Repr

namespace EventBus

/-- Publishes an event, forgetting the oldest one beyond the capacity. -/
def publish (b : EventBus) (e : Event) : EventBus :=
  let kept := b.kept ++ [e]
  { b with published := b.published + 1, kept := kept.drop (kept.length - Event.capacity) }

/-- A new subscriber sees the events to come. -/
def subscribe (b : EventBus) : Subscriber := ⟨b.published⟩

/-- The publishers go away. -/
def close (b : EventBus) : EventBus := { b with isOpen := false }

/-- The next event for a subscriber. -/
def receive (b : EventBus) (s : Subscriber) : Received × Subscriber :=
  let oldest := b.published - b.kept.length
  if s.position < oldest then (.lagged (oldest - s.position), ⟨oldest⟩)
  else
    match b.kept[s.position - oldest]? with
    | some e => (.event e, ⟨s.position + 1⟩)
    | none => if b.isOpen then (.empty, s) else (.closed, s)

/-- All that a subscriber has not received yet: what it missed, and every event kept. -/
def receiveAll (b : EventBus) (s : Subscriber) : List Received × Subscriber :=
  let oldest := b.published - b.kept.length
  let missed := if s.position < oldest then [Received.lagged (oldest - s.position)] else []
  (missed ++ (b.kept.drop (s.position - oldest)).map .event, ⟨b.published⟩)

end EventBus

end AvatarPool
