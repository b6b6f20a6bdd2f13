import AvatarPool.Event

/-! # Trials of an event bus

A trial publishes events on one bus and lets its subscribers receive.  Subscribers are numbered as
they come. -/

namespace AvatarPool.Trial

inductive EventStep where
  | subscribe
  /-- Events are published one after the other. -/
  | publish (events : List Event)
  /-- A subscriber receives once. -/
  | receive (subscriber : Nat)
  /-- The publishers go away. -/
  | close

inductive EventResult where
  | nothing
  /-- The number of a new subscriber. -/
  | subscriber (n : Nat)
  | received (r : Received)
  deriving DecidableEq, Repr

structure EventTrial where
  bus : EventBus := {}
  subscribers : List Subscriber := []

namespace EventTrial

/-- Plays one step. -/
def play (t : EventTrial) : EventStep → EventTrial × EventResult
  | .subscribe =>
    ({ t with subscribers := t.subscribers ++ [t.bus.subscribe] },
      .subscriber t.subscribers.length)
  | .publish events => ({ t with bus := events.foldl EventBus.publish t.bus }, .nothing)
  | .receive n =>
    match t.subscribers[n]? with
    | none => (t, .nothing)
    | some s =>
      let (found, s) := t.bus.receive s
      ({ t with subscribers := t.subscribers.set n s }, .received found)
  | .close => ({ t with bus := t.bus.close }, .nothing)

end EventTrial

end AvatarPool.Trial
