import StagedLowering.Proofs.Deliveries

/-!
The numbers of subscriptions. A run of calls on a bus, with all that handlers do meanwhile, is
traced step by step, also when it does not come to an end; the bus at each moment is what the steps
before it have made of an empty bus. At every such moment, and so at every invocation of a handler,
the subscriptions stand in the order of their numbers, no number is given twice, and the count of
subscriptions is that of those made less those removed.
-/
namespace StagedLowering

variable {ω : Type}

/-- What happens on a bus: a subscription is made or removed, with the answer that is given, or a
handler is invoked, with the bus as it finds it. -/
inductive BusStep (ω : Type) where
  | subscribed (filter : Option EventKind) (handler : Event → Reaction ω) (id : Nat)
  | unsubscribed (id : Nat) (removed : Bool)
  | invoked (event : Event) (subscription : Subscription ω) (found : Bus ω)

namespace BusStep

/-- The number that a subscription gets. -/
def newId? : BusStep ω → Option Nat
  | .subscribed _ _ id => some id
  | _ => none

def isSubscribed : BusStep ω → Bool
  | .subscribed _ _ _ => true
  | _ => false

/-- Whether a subscription was there and is removed. -/
def isRemoved : BusStep ω → Bool
  | .unsubscribed _ removed => removed
  | _ => false

end BusStep

namespace Bus

/-- The bus after a step. -/
def after (b : Bus ω) : BusStep ω → Bus ω
  | .subscribed filter handler _ => (b.subscribe filter handler).2
  | .unsubscribed id _ => (b.unsubscribe id).2
  | .invoked _ _ _ => b

def replay (b : Bus ω) (steps : List (BusStep ω)) : Bus ω := steps.foldl after b

@[simp] theorem replay_nil (b : Bus ω) : b.replay [] = b := rfl

@[simp] theorem replay_cons (b : Bus ω) (x : BusStep ω) (steps : List (BusStep ω)) :
    b.replay (x :: steps) = (b.after x).replay steps := rfl

@[simp] theorem replay_append (b : Bus ω) (xs ys : List (BusStep ω)) :
    b.replay (xs ++ ys) = (b.replay xs).replay ys := List.foldl_append

/-- Whether a step is told as it happens on this bus. -/
def Tells (b : Bus ω) : BusStep ω → Prop
  | .subscribed filter handler id => id = (b.subscribe filter handler).1
  | .unsubscribed id removed => removed = (b.unsubscribe id).1
  | .invoked _ _ found => found = b

/-- Whether steps are told as they happen, one after the other. -/
def TellsAll (b : Bus ω) : List (BusStep ω) → Prop
  | [] => True
  | x :: steps => b.Tells x ∧ (b.after x).TellsAll steps

theorem TellsAll.append {b : Bus ω} {xs ys : List (BusStep ω)} (first : b.TellsAll xs)
    (rest : (b.replay xs).TellsAll ys) : b.TellsAll (xs ++ ys) := by
  induction xs generalizing b with
  | nil => exact rest
  | cons x xs ih => exact ⟨first.1, ih first.2 rest⟩

theorem TellsAll.split {b : Bus ω} {xs ys : List (BusStep ω)} (h : b.TellsAll (xs ++ ys)) :
    b.TellsAll xs ∧ (b.replay xs).TellsAll ys := by
  induction xs generalizing b with
  | nil => exact ⟨trivial, h⟩
  | cons x xs ih => exact ⟨⟨h.1, (ih h.2).1⟩, (ih h.2).2⟩

end Bus

/-! ### Tracing a run -/

namespace Hub

/-- The steps of a run, and how it ended if it did. -/
abbrev Traced (ω : Type) := List (BusStep ω) × Option (Ending ω)

/-- Carry out a reaction, tracing its steps. -/
def traceReact (publish : Event → Hub ω → Traced ω) : Reaction ω → Hub ω → Traced ω
  | .done, h => ([], some (.ok () h))
  | .fail failure, h => ([], some (.error failure h))
  | .read next, h => traceReact publish (next h.world) h
  | .write world next, h => traceReact publish next { h with world := world }
  | .subscribe filter handler next, h =>
    let (id, bus) := h.bus.subscribe filter handler
    let (steps, ending) := traceReact publish (next id) { h with bus := bus }
    (.subscribed filter handler id :: steps, ending)
  | .unsubscribe id next, h =>
    let (removed, bus) := h.bus.unsubscribe id
    let (steps, ending) := traceReact publish (next removed) { h with bus := bus }
    (.unsubscribed id removed :: steps, ending)
  | .publish event next, h =>
    match publish event h with
    -- What a publication without end has done by now is not lost.
    | (steps, none) => (steps, none)
    | (steps, some e) =>
      let (steps', ending) := traceReact publish (next (Ending.answer e)) (Ending.hub e)
      (steps ++ steps', ending)

/-- Deliver an event, tracing each invocation of a handler and the steps that it takes. -/
def traceDeliver (publish : Event → Hub ω → Traced ω) (event : Event) :
    List (Subscription ω) → Hub ω → Traced ω
  | [], h => ([], some (.ok () h))
  | s :: rest, h =>
    match traceReact publish (s.handler event) h with
    | (steps, some (.ok () h')) =>
      let (steps', ending) := traceDeliver publish event rest h'
      (.invoked event s h.bus :: steps ++ steps', ending)
    | (steps, ending) => (.invoked event s h.bus :: steps, ending)

/-- Publish an event, tracing the steps. -/
def tracePublish : Nat → Event → Hub ω → Traced ω
  | 0, _, _ => ([], none)
  | bound + 1, event, h =>
    traceDeliver (tracePublish bound) event (h.bus.accepting event.kind) h

section

variable {traced : Event → Hub ω → Traced ω} {publish : Event → Delivery ω}
  (erase : ∀ event h, (traced event h).2 = publish event h)

include erase

theorem traceReact_erase (reaction : Reaction ω) (h : Hub ω) :
    (traceReact traced reaction h).2 = react publish reaction h := by
  induction reaction generalizing h with
  | done => rfl
  | fail failure => rfl
  | read next ih => exact ih _ _
  | write world next ih => exact ih _
  | subscribe filter handler next _ ih => exact ih _ _
  | unsubscribe id next ih => exact ih _ _
  | publish event next ih =>
    rw [traceReact, react, ← erase]
    obtain ⟨steps, ending⟩ := traced event h
    cases ending with
    | none => rfl
    | some e => cases e <;> exact ih _ _

theorem traceDeliver_erase (event : Event) (subscriptions : List (Subscription ω)) (h : Hub ω) :
    (traceDeliver traced event subscriptions h).2 =
      deliver (fun s => react publish (s.handler event)) subscriptions h := by
  induction subscriptions generalizing h with
  | nil => rfl
  | cons s rest ih =>
    rw [traceDeliver, deliver, ← traceReact_erase erase]
    obtain ⟨steps, ending⟩ := traceReact traced (s.handler event) h
    cases ending with
    | none => rfl
    | some e =>
      cases e with
      | ok u h' => exact ih h'
      | error failure h' => rfl

end

/-- Tracing changes nothing in how a publication ends. -/
theorem tracePublish_erase (bound : Nat) (event : Event) (h : Hub ω) :
    (tracePublish bound event h).2 = publish bound event h := by
  induction bound generalizing event h with
  | zero => rfl
  | succ bound ih => exact traceDeliver_erase ih event _ h

/-- The steps of a run are told as they happen, and they are all that happens to the bus. -/
structure Traced.Follows (r : Traced ω) (h : Hub ω) : Prop where
  tells : h.bus.TellsAll r.1
  bus_eq : ∀ e, r.2 = some e → (Ending.hub e).bus = h.bus.replay r.1

theorem Traced.Follows.append {h h' : Hub ω} (steps : List (BusStep ω)) {r : Traced ω}
    (tells : h.bus.TellsAll steps) (bus_eq : h'.bus = h.bus.replay steps) (rest : r.Follows h') :
    Traced.Follows (steps ++ r.1, r.2) h := by
  refine ⟨tells.append (bus_eq ▸ rest.tells), fun e ended => ?_⟩
  rw [rest.bus_eq e ended, bus_eq, Bus.replay_append]

section

variable {traced : Event → Hub ω → Traced ω} (follows : ∀ event h, (traced event h).Follows h)

include follows

theorem traceReact_follows (reaction : Reaction ω) (h : Hub ω) :
    (traceReact traced reaction h).Follows h := by
  induction reaction generalizing h with
  | done => exact ⟨trivial, by rintro e ⟨⟩; rfl⟩
  | fail failure => exact ⟨trivial, by rintro e ⟨⟩; rfl⟩
  | read next ih => exact ih _ _
  | write world next ih =>
    have rest := ih { h with world := world }
    exact ⟨rest.tells, rest.bus_eq⟩
  | subscribe filter handler next _ ih =>
    exact .append [.subscribed filter handler _] ⟨rfl, trivial⟩ rfl (ih _ _)
  | unsubscribe id next ih =>
    exact .append [.unsubscribed id _] ⟨rfl, trivial⟩ rfl (ih _ _)
  | publish event next ih =>
    have published := follows event h
    rw [traceReact]
    generalize traced event h = r at published ⊢
    obtain ⟨steps, ending⟩ := r
    cases ending with
    | none => exact published
    | some e => exact .append steps published.tells (published.bus_eq e rfl) (ih _ _)

theorem traceDeliver_follows (event : Event) (subscriptions : List (Subscription ω)) (h : Hub ω) :
    (traceDeliver traced event subscriptions h).Follows h := by
  induction subscriptions generalizing h with
  | nil => exact ⟨trivial, by rintro e ⟨⟩; rfl⟩
  | cons s rest ih =>
    have reacted : Traced.Follows _ h := .append [.invoked event s h.bus] ⟨rfl, trivial⟩ rfl
      (traceReact_follows follows (s.handler event) h)
    rw [traceDeliver]
    generalize traceReact traced (s.handler event) h = r at reacted ⊢
    obtain ⟨steps, ending⟩ := r
    cases ending with
    | none => exact reacted
    | some e =>
      cases e with
      | ok u h' => exact .append _ reacted.tells (reacted.bus_eq _ rfl) (ih h')
      | error failure h' => exact reacted

end

theorem tracePublish_follows (bound : Nat) (event : Event) (h : Hub ω) :
    (tracePublish bound event h).Follows h := by
  induction bound generalizing event h with
  | zero => exact ⟨trivial, by rintro e ⟨⟩⟩
  | succ bound ih => exact traceDeliver_follows ih event _ h

end Hub

/-! ### The bus at each moment -/

namespace Bus

/-- The subscription with this number is on the bus. -/
def Holds (b : Bus ω) (id : Nat) : Prop := ∃ s ∈ b.subscriptions, s.id = id

theorem unsubscribe_absent {b : Bus ω} {id : Nat} (absent : ¬ b.Holds id) :
    b.unsubscribe id = (false, b) := by
  have kept : b.subscriptions.filter (·.id != id) = b.subscriptions :=
    List.filter_eq_self.2 fun s hs => bne_iff_ne.2 fun same => absent ⟨s, hs, same⟩
  simp [unsubscribe, kept]

/-- Where numbers are unique, exactly the one subscription is taken out. -/
theorem Numbered.unsubscribe_present {b : Bus ω} (h : b.Numbered) {id : Nat}
    (present : b.Holds id) : ∃ front s back, b.subscriptions = front ++ s :: back ∧ s.id = id ∧
      b.unsubscribe id = (true, { b with subscriptions := front ++ back }) := by
  obtain ⟨s, hs, rfl⟩ := present
  obtain ⟨front, back, split⟩ := List.append_of_mem hs
  refine ⟨front, s, back, split, rfl, ?_⟩
  have ordered := h.ordered
  rw [split, List.pairwise_append, List.pairwise_cons] at ordered
  have lower : front.filter (·.id != s.id) = front := List.filter_eq_self.2 fun x hx =>
    bne_iff_ne.2 (Nat.ne_of_lt (ordered.2.2 x hx s List.mem_cons_self))
  have higher : back.filter (·.id != s.id) = back := List.filter_eq_self.2 fun x hx =>
    bne_iff_ne.2 (Nat.ne_of_gt (ordered.2.1.1 x hx))
  simp [Bus.unsubscribe, split, lower, higher]

theorem not_holds_unsubscribe (b : Bus ω) (id : Nat) : ¬ (b.unsubscribe id).2.Holds id := by
  rintro ⟨s, hs, same⟩
  exact bne_iff_ne.1 (List.mem_filter.1 hs).2 same

/-- What it is to ask for the removal of a subscription and to be left with the bus `b'`. -/
structure Unsubscribes (b : Bus ω) (id : Nat) (removed : Bool) (b' : Bus ω) : Prop where
  removed_iff : removed = true ↔ b.Holds id
  removes : removed = true → ∃ front s back, b.subscriptions = front ++ s :: back ∧ s.id = id ∧
    b' = { b with subscriptions := front ++ back }
  keeps : removed = false → b' = b
  again : b'.unsubscribe id = (false, b')

theorem Numbered.unsubscribes {b : Bus ω} (h : b.Numbered) (id : Nat) :
    b.Unsubscribes id (b.unsubscribe id).1 (b.unsubscribe id).2 := by
  have again := unsubscribe_absent (b.not_holds_unsubscribe id)
  by_cases present : b.Holds id
  · obtain ⟨front, s, back, split, same, taken⟩ := h.unsubscribe_present present
    rw [taken] at again ⊢
    exact ⟨iff_of_true rfl present, fun _ => ⟨front, s, back, split, same, rfl⟩, nofun, again⟩
  · rw [unsubscribe_absent present] at again ⊢
    exact ⟨iff_of_false nofun present, nofun, fun _ => rfl, again⟩

/-- How a bus stands after steps that began with an empty one. Numbers are given out in turn, so
none is given twice, and the next one is the count of the subscriptions made and one more. -/
structure Accounts (b : Bus ω) (steps : List (BusStep ω)) : Prop where
  numbered : b.Numbered
  given : steps.filterMap BusStep.newId? = List.range' 1 (steps.countP BusStep.isSubscribed)
  nextId_eq : b.nextId = steps.countP BusStep.isSubscribed + 1
  count_eq : b.count + steps.countP BusStep.isRemoved = steps.countP BusStep.isSubscribed

theorem Accounts.empty : (Bus.empty : Bus ω).Accounts [] where
  numbered := ⟨List.Pairwise.nil, by simp [Bus.empty]⟩
  given := rfl
  nextId_eq := rfl
  count_eq := rfl

theorem Accounts.step {b : Bus ω} {steps : List (BusStep ω)} (h : b.Accounts steps) {x : BusStep ω}
    (told : b.Tells x) : (b.after x).Accounts (steps ++ [x]) := by
  have next := h.nextId_eq
  have count := h.count_eq
  cases x with
  | subscribed filter handler id =>
    obtain rfl : id = b.nextId := told
    refine ⟨h.numbered.subscribe filter handler, ?_, ?_, ?_⟩
    · simp [BusStep.newId?, BusStep.isSubscribed, h.given, next, List.range'_1_concat,
        Nat.add_comm 1]
    · simp [after, subscribe, BusStep.isSubscribed, next]
    · simp only [Bus.count] at count
      simp only [after, subscribe, Bus.count, List.length_append, List.length_singleton,
        List.countP_append, List.countP_singleton, BusStep.isSubscribed, BusStep.isRemoved,
        Bool.false_eq_true, if_true, if_false]
      omega
  | unsubscribed id removed =>
    obtain rfl : removed = (b.unsubscribe id).1 := told
    refine ⟨h.numbered.unsubscribe id, ?_, ?_, ?_⟩
    · simpa [BusStep.newId?, BusStep.isSubscribed, List.filterMap_cons] using h.given
    · simpa [after, unsubscribe, BusStep.isSubscribed] using next
    -- Only a subscription that is there counts as removed.
    · by_cases present : b.Holds id
      · obtain ⟨front, s, back, split, -, taken⟩ := h.numbered.unsubscribe_present present
        simp only [Bus.count, split, List.length_append, List.length_cons] at count
        simp only [after, taken, Bus.count, List.length_append, List.countP_append,
          List.countP_singleton, BusStep.isSubscribed, BusStep.isRemoved, Bool.false_eq_true,
          if_true, if_false]
        omega
      · simpa [after, unsubscribe_absent present, BusStep.isSubscribed, BusStep.isRemoved]
          using count
  | invoked event s found =>
    refine ⟨h.numbered, ?_, ?_, ?_⟩
    · simpa [BusStep.newId?, BusStep.isSubscribed, List.filterMap_cons] using h.given
    · simpa [after, BusStep.isSubscribed] using next
    · simpa [after, BusStep.isSubscribed, BusStep.isRemoved] using count

theorem Accounts.run {b : Bus ω} {before steps : List (BusStep ω)} (h : b.Accounts before)
    (told : b.TellsAll steps) : (b.replay steps).Accounts (before ++ steps) := by
  induction steps generalizing b before with
  | nil => simpa using h
  | cons x steps ih => simpa using ih (h.step told.1) told.2

theorem Succeeds.after {b earlier : Bus ω} (h : b.Succeeds earlier) (x : BusStep ω) :
    (b.after x).Succeeds earlier := by
  cases x with
  | subscribed filter handler id => exact h.subscribe filter handler
  | unsubscribed id removed => exact h.unsubscribe id
  | invoked event s found => exact h

/-- A number that was given out and is not on the bus is not found there by anyone later. -/
theorem Succeeds.unsubscribed_false {b earlier : Bus ω} (h : b.Succeeds earlier) {id : Nat}
    (given : id < earlier.nextId) (absent : ¬ earlier.Holds id) {steps : List (BusStep ω)}
    (told : b.TellsAll steps) {removed : Bool} (hx : .unsubscribed id removed ∈ steps) :
    removed = false := by
  induction steps generalizing b with
  | nil => cases hx
  | cons x steps ih =>
    rcases List.mem_cons.1 hx with rfl | hx
    · have gone : ¬ b.Holds id := by
        -- Whatever came later has a number that had not been given out.
        rintro ⟨s, hs, rfl⟩
        rcases h.present s hs with old | new
        · exact absent ⟨s, old, rfl⟩
        · exact Nat.not_le_of_lt given new
      exact told.1.trans (congrArg Prod.fst (unsubscribe_absent gone))
    · exact ih (h.after x) told.2 hx

/-- What is right to happen next on a bus, and what has to come of it in the steps that follow. -/
def Warrants (b : Bus ω) (later : List (BusStep ω)) : BusStep ω → Prop
  | .subscribed filter handler id => id = b.nextId ∧
    b.after (.subscribed filter handler id) =
      ⟨b.subscriptions ++ [⟨id, filter, handler⟩], id + 1⟩
  | .unsubscribed id removed =>
    b.Unsubscribes id removed (b.after (.unsubscribed id removed)) ∧
      (removed = true → ∀ removed', .unsubscribed id removed' ∈ later → removed' = false)
  | .invoked _ _ found => found = b

theorem Numbered.warrants {b : Bus ω} (h : b.Numbered) {x : BusStep ω} {later : List (BusStep ω)}
    (told : b.TellsAll (x :: later)) : b.Warrants later x := by
  obtain ⟨first, rest⟩ := told
  cases x with
  | subscribed filter handler id =>
    obtain rfl : id = b.nextId := first
    exact ⟨rfl, rfl⟩
  | unsubscribed id removed =>
    obtain rfl : removed = (b.unsubscribe id).1 := first
    have unsubscribes := h.unsubscribes id
    refine ⟨unsubscribes, fun was removed' hx => ?_⟩
    obtain ⟨s, hs, rfl⟩ := unsubscribes.removed_iff.1 was
    exact (Succeeds.refl (b.unsubscribe s.id).2).unsubscribed_false (h.below s hs)
      (b.not_holds_unsubscribe s.id) rest hx
  | invoked event s found => exact first

end Bus

namespace Hub

/-- Any calls on an empty bus, one chosen after the answers to the others, with all that handlers do
meanwhile, however deep they nest and whether or not that ends: tracing the steps changes nothing,
and they account for the bus that is left. At each moment the bus stands in the order of numbers,
the next number and the count following from the steps so far, and the step that comes is the right
one for that bus; a handler that is invoked finds it. -/
theorem bus_accounts_at_each_moment (bound : Nat) (calls : Reaction ω) (world : ω) :
    let run := traceReact (tracePublish bound) calls ⟨.empty, world⟩
    run.2 = react (publish bound) calls ⟨.empty, world⟩ ∧
      (∀ e, run.2 = some e → (Ending.hub e).bus = Bus.empty.replay run.1) ∧
      (∀ before later, run.1 = before ++ later → (Bus.empty.replay before).Accounts before) ∧
      ∀ before x later, run.1 = before ++ x :: later →
        (Bus.empty.replay before).Warrants later x := by
  intro run
  have follows : run.Follows _ := traceReact_follows (tracePublish_follows bound) calls _
  have accounts (before later : List (BusStep ω)) (split : run.1 = before ++ later) :
      (Bus.empty.replay before).Accounts before :=
    Bus.Accounts.empty.run (split ▸ follows.tells).split.1
  refine ⟨traceReact_erase (tracePublish_erase bound) calls _, follows.bus_eq, accounts, ?_⟩
  intro before x later split
  exact (accounts before _ split).numbered.warrants (split ▸ follows.tells).split.2

end Hub

end StagedLowering
