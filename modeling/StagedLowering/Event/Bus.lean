import StagedLowering.Act
import StagedLowering.Event.Basic

/-!
The event bus. A subscription's handler answers an event with a `Reaction`: a tree of steps that may
read and write the world, fail, and use the bus itself, even to publish further events. Publishing
delivers to the subscriptions that match at that moment, in order, until a handler fails; what
handlers do to the bus meanwhile changes later deliveries only.

Reactions are finite but handlers can answer each other without end, so publishing takes a bound on
the nesting of deliveries and gives `none` when it is reached.
-/
namespace StagedLowering

/-- What a handler does. `next` receives the result of the step before it. -/
inductive Reaction (ω : Type) where
  | done
  | fail (failure : Failure)
  | read (next : ω → Reaction ω)
  | write (world : ω) (next : Reaction ω)
  | subscribe (filter : Option EventKind) (handler : Event → Reaction ω) (next : Nat → Reaction ω)
  | unsubscribe (id : Nat) (next : Bool → Reaction ω)
  | publish (event : Event) (next : Except Failure Unit → Reaction ω)

/-- A subscription to one kind of event, or to all of them. -/
structure Subscription (ω : Type) where
  id : Nat
  filter : Option EventKind
  handler : Event → Reaction ω

def Subscription.accepts {ω : Type} (s : Subscription ω) (k : EventKind) : Bool :=
  match s.filter with
  | none => true
  | some k' => k' = k

/-- Subscriptions in the order they were made, and the number the next one gets. -/
structure Bus (ω : Type) where
  subscriptions : List (Subscription ω) := []
  nextId : Nat := 1

namespace Bus

variable {ω : Type}

def empty : Bus ω := {}

def subscribe (b : Bus ω) (filter : Option EventKind) (handler : Event → Reaction ω) :
    Nat × Bus ω :=
  (b.nextId, ⟨b.subscriptions ++ [⟨b.nextId, filter, handler⟩], b.nextId + 1⟩)

/-- Whether there was such a subscription, and the bus without it. -/
def unsubscribe (b : Bus ω) (id : Nat) : Bool × Bus ω :=
  let left := b.subscriptions.filter (·.id != id)
  (left.length != b.subscriptions.length, { b with subscriptions := left })

/-- The subscriptions an event of that kind goes to. -/
def accepting (b : Bus ω) (k : EventKind) : List (Subscription ω) :=
  b.subscriptions.filter (·.accepts k)

def count (b : Bus ω) : Nat := b.subscriptions.length

/-- How a listing names the filter of a subscription. -/
def filterText : Option EventKind → String
  | none => "None"
  | some .functionImported => "Some(StdlibFunctionImported)"
  | some .missingItem => "Some(StdlibMissingItem)"

def subscriptionText (s : Subscription ω) : String :=
  "EventSubscription \x7b id: " ++ toString s.id ++ ", kind: " ++ filterText s.filter ++
    ", callback: \"<function>\" \x7d"

/-- The subscriptions of a bus, for people to read. -/
def listing (b : Bus ω) : String :=
  "EventBus \x7b subscriptions: [" ++ ", ".intercalate (b.subscriptions.map subscriptionText) ++
    "] \x7d"

end Bus

/-- A bus together with the world its handlers work on. -/
structure Hub (ω : Type) where
  bus : Bus ω
  world : ω

namespace Hub

variable {ω : Type}

/-- A delivery: `none` while unfinished, otherwise success or failure and the hub it leaves. -/
abbrev Delivery (ω : Type) := Hub ω → Option (EStateM.Result Failure (Hub ω) Unit)

/-- Carry out a reaction, publishing by `publish`. -/
def react (publish : Event → Delivery ω) : Reaction ω → Delivery ω
  | .done, h => some (.ok () h)
  | .fail failure, h => some (.error failure h)
  | .read next, h => react publish (next h.world) h
  | .write world next, h => react publish next { h with world := world }
  | .subscribe filter handler next, h =>
    let (id, bus) := h.bus.subscribe filter handler
    react publish (next id) { h with bus := bus }
  | .unsubscribe id next, h =>
    let (removed, bus) := h.bus.unsubscribe id
    react publish (next removed) { h with bus := bus }
  | .publish event next, h =>
    match publish event h with
    | none => none
    | some (.ok () h') => react publish (next (.ok ())) h'
    | some (.error failure h') => react publish (next (.error failure)) h'

/-- Let the subscriptions react one after the other until one fails. -/
def deliver (reaction : Subscription ω → Delivery ω) : List (Subscription ω) → Delivery ω
  | [], h => some (.ok () h)
  | s :: rest, h =>
    match reaction s h with
    | none => none
    | some (.ok () h') => deliver reaction rest h'
    | some (.error failure h') => some (.error failure h')

/-- Publish an event, with deliveries nested at most `bound` deep. -/
def publish : Nat → Event → Delivery ω
  | 0, _, _ => none
  | bound + 1, event, h =>
    deliver (fun s => react (publish bound) (s.handler event)) (h.bus.accepting event.kind) h

/-- Publishing as an action on a session whose world is a hub. -/
def announce (bound : Nat) (event : Event) : Act (Hub ω) Unit := fun s =>
  match publish bound event s.world with
  | none => .error .unfinished s
  | some (.ok () h) => .ok () { s with world := h }
  | some (.error failure h) => .error failure { s with world := h }

end Hub

end StagedLowering
