import StagedLowering.Event.Bus

/-!
Who is served when an event is published. Publishing is recorded delivery by delivery, each with the
publications that its handler makes meanwhile; the record takes nothing away from publishing and
adds nothing to it. What handlers do to the hub is a course of the same steps that anyone else can
take, so every publication, nested or not, starts from a hub that is reached from an empty bus, and
there the numbers of the subscriptions tell those that were present from those that came later.
-/
namespace StagedLowering

/-- How a publication or a delivery ended. -/
abbrev Hub.Ending (ω : Type) := EStateM.Result Failure (Hub ω) Unit

namespace Hub.Ending

variable {ω : Type}

/-- The hub that is left. -/
def hub : Ending ω → Hub ω
  | .ok () h => h
  | .error _ h => h

def failure? : Ending ω → Option Failure
  | .ok () _ => none
  | .error failure _ => some failure

/-- What a publisher is told. -/
def answer : Ending ω → Except Failure Unit
  | .ok () _ => .ok ()
  | .error failure _ => .error failure

end Hub.Ending

/-- A publication that ended. -/
structure Publication (ω : Type) where
  event : Event
  found : Hub ω
  outcome : Hub.Ending ω

/-- That publishing, on the hub it found, does end in this way. -/
def Publication.Made {ω : Type} (p : Publication ω) : Prop :=
  ∃ bound, Hub.publish bound p.event p.found = some p.outcome

/-- A delivery that ended: to whom, on which hub, and with which publications on the way. -/
structure Served (ω : Type) where
  subscription : Subscription ω
  found : Hub ω
  nested : List (Publication ω)
  outcome : Hub.Ending ω

namespace Hub

variable {ω : Type}

/-- Carry out a reaction, recording what it publishes. -/
def recordReact (publish : Event → Delivery ω) :
    Reaction ω → Hub ω → Option (List (Publication ω) × Ending ω)
  | .done, h => some ([], .ok () h)
  | .fail failure, h => some ([], .error failure h)
  | .read next, h => recordReact publish (next h.world) h
  | .write world next, h => recordReact publish next { h with world := world }
  | .subscribe filter handler next, h =>
    let (id, bus) := h.bus.subscribe filter handler
    recordReact publish (next id) { h with bus := bus }
  | .unsubscribe id next, h =>
    let (removed, bus) := h.bus.unsubscribe id
    recordReact publish (next removed) { h with bus := bus }
  | .publish event next, h =>
    (publish event h).bind fun e =>
      (recordReact publish (next (Ending.answer e)) (Ending.hub e)).map fun r =>
        (⟨event, h, e⟩ :: r.1, r.2)

/-- Deliver an event, recording the deliveries. -/
def recordDeliver (publish : Event → Delivery ω) (event : Event) :
    List (Subscription ω) → Hub ω → Option (List (Served ω) × Ending ω)
  | [], h => some ([], .ok () h)
  | s :: rest, h =>
    (recordReact publish (s.handler event) h).bind fun r =>
      match r.2 with
      | .ok () h' =>
        (recordDeliver publish event rest h').map fun r' => (⟨s, h, r.1, r.2⟩ :: r'.1, r'.2)
      | .error _ _ => some ([⟨s, h, r.1, r.2⟩], r.2)

/-- Publish an event, recording the deliveries. -/
def recordPublish : Nat → Event → Hub ω → Option (List (Served ω) × Ending ω)
  | 0, _, _ => none
  | bound + 1, event, h => recordDeliver (publish bound) event (h.bus.accepting event.kind) h

theorem recordReact_erase (publish : Event → Delivery ω) (reaction : Reaction ω) (h : Hub ω) :
    (recordReact publish reaction h).map Prod.snd = react publish reaction h := by
  induction reaction generalizing h with
  | done => rfl
  | fail failure => rfl
  | read next ih => exact ih _ _
  | write world next ih => exact ih _
  | subscribe filter handler next _ ih => exact ih _ _
  | unsubscribe id next ih => exact ih _ _
  | publish event next ih =>
    rw [recordReact, react]
    cases publish event h with
    | none => rfl
    | some e =>
      cases e <;> simp [Ending.answer, Ending.hub, ← ih, Option.map_map, Function.comp_def]

theorem recordDeliver_erase (publish : Event → Delivery ω) (event : Event)
    (subscriptions : List (Subscription ω)) (h : Hub ω) :
    (recordDeliver publish event subscriptions h).map Prod.snd =
      deliver (fun s => react publish (s.handler event)) subscriptions h := by
  induction subscriptions generalizing h with
  | nil => rfl
  | cons s rest ih =>
    rw [recordDeliver, deliver, ← recordReact_erase]
    cases recordReact publish (s.handler event) h with
    | none => rfl
    | some r =>
      obtain ⟨nested, e⟩ := r
      cases e with
      | ok u h' => simp [← ih, Option.map_map, Function.comp_def]
      | error failure h' => rfl

/-- Recording changes nothing in how a publication ends. -/
theorem recordPublish_erase (bound : Nat) (event : Event) (h : Hub ω) :
    (recordPublish bound event h).map Prod.snd = publish bound event h := by
  cases bound with
  | zero => rfl
  | succ bound => exact recordDeliver_erase _ _ _ h

end Hub

/-- A course of steps from one hub to another: the world changes, subscriptions come and go, and the
listed publications, no others, are made. -/
inductive Course {ω : Type} : Hub ω → List (Publication ω) → Hub ω → Prop where
  | rest (h : Hub ω) : Course h [] h
  | change {h h' : Hub ω} {ps : List (Publication ω)} (world : ω) :
    Course { h with world := world } ps h' → Course h ps h'
  | subscribe {h h' : Hub ω} {ps : List (Publication ω)} (filter : Option EventKind)
    (handler : Event → Reaction ω) :
    Course { h with bus := (h.bus.subscribe filter handler).2 } ps h' → Course h ps h'
  | unsubscribe {h h' : Hub ω} {ps : List (Publication ω)} (id : Nat) :
    Course { h with bus := (h.bus.unsubscribe id).2 } ps h' → Course h ps h'
  | publish {p : Publication ω} {h' : Hub ω} {ps : List (Publication ω)} :
    p.Made → Course p.outcome.hub ps h' → Course p.found (p :: ps) h'

/-- A hub whose bus came to be from an empty one. -/
def Hub.Reachable {ω : Type} (h : Hub ω) : Prop := ∃ world ps, Course ⟨.empty, world⟩ ps h

namespace Course

variable {ω : Type} {h h' h'' : Hub ω} {ps ps' : List (Publication ω)}

theorem append (c : Course h ps h') (c' : Course h' ps' h'') : Course h (ps ++ ps') h'' := by
  induction c with
  | rest h => exact c'
  | change world _ ih => exact .change world (ih c')
  | subscribe filter handler _ ih => exact .subscribe filter handler (ih c')
  | unsubscribe id _ ih => exact .unsubscribe id (ih c')
  | publish made _ ih => exact .publish made (ih c')

/-- A publication on a course is made, and there is a course that leads up to it. -/
theorem made_of_mem (c : Course h ps h') {p : Publication ω} (hp : p ∈ ps) :
    p.Made ∧ ∃ before, Course h before p.found := by
  induction c with
  | rest h => cases hp
  | change world _ ih => exact ⟨(ih hp).1, (ih hp).2.imp fun _ => .change world⟩
  | subscribe filter handler _ ih =>
    exact ⟨(ih hp).1, (ih hp).2.imp fun _ => .subscribe filter handler⟩
  | unsubscribe id _ ih => exact ⟨(ih hp).1, (ih hp).2.imp fun _ => .unsubscribe id⟩
  | publish made _ ih =>
    rcases List.mem_cons.1 hp with rfl | hp
    · exact ⟨made, [], .rest _⟩
    · obtain ⟨made', before, c'⟩ := ih hp
      exact ⟨made', _, .publish made c'⟩

end Course

theorem Hub.Reachable.along {ω : Type} {h h' : Hub ω} {ps : List (Publication ω)}
    (reachable : h.Reachable) (c : Course h ps h') : h'.Reachable := by
  obtain ⟨world, before, start⟩ := reachable
  exact ⟨world, before ++ ps, start.append c⟩

/-- What a handler does is a course, and its record lists the publications on it. -/
theorem Hub.recordReact_course {ω : Type} {bound : Nat} {reaction : Reaction ω} {h : Hub ω}
    {ps : List (Publication ω)} {e : Ending ω}
    (run : recordReact (publish bound) reaction h = some (ps, e)) : Course h ps e.hub := by
  induction reaction generalizing h ps with
  | done =>
    obtain ⟨rfl, rfl⟩ : [] = ps ∧ .ok () h = e := by simpa [recordReact] using run
    exact .rest h
  | fail failure =>
    obtain ⟨rfl, rfl⟩ : [] = ps ∧ .error failure h = e := by simpa [recordReact] using run
    exact .rest h
  | read next ih => exact ih _ run
  | write world next ih => exact .change world (ih run)
  | subscribe filter handler next _ ih => exact .subscribe filter handler (ih _ run)
  | unsubscribe id next ih => exact .unsubscribe id (ih _ run)
  | publish event next ih =>
    obtain ⟨e', made, rest⟩ := Option.bind_eq_some_iff.1 run
    obtain ⟨r, hr, pair⟩ := Option.map_eq_some_iff.1 rest
    cases pair
    exact .publish (p := ⟨event, h, e'⟩) ⟨bound, made⟩ (ih _ hr)

/-- What holds of a hub still holds after each step that delivers nothing. -/
structure Hub.Kept {ω : Type} (P : Hub ω → Prop) : Prop where
  change : ∀ {h : Hub ω} (world : ω), P h → P { h with world := world }
  subscribe : ∀ {h : Hub ω} (filter : Option EventKind) (handler : Event → Reaction ω),
    P h → P { h with bus := (h.bus.subscribe filter handler).2 }
  unsubscribe : ∀ {h : Hub ω} (id : Nat), P h → P { h with bus := (h.bus.unsubscribe id).2 }

namespace Hub.Kept

variable {ω : Type} {P : Hub ω → Prop}

theorem react (kept : Kept P) {publish : Event → Delivery ω}
    (keeps : ∀ event h e, publish event h = some e → P h → P (Ending.hub e))
    (reaction : Reaction ω) (h : Hub ω) (e : Ending ω)
    (run : Hub.react publish reaction h = some e) (start : P h) : P e.hub := by
  induction reaction generalizing h with
  | done => cases run; exact start
  | fail failure => cases run; exact start
  | read next ih => exact ih _ h run start
  | write world next ih => exact ih _ run (kept.change world start)
  | subscribe filter handler next _ ih => exact ih _ _ run (kept.subscribe filter handler start)
  | unsubscribe id next ih => exact ih _ _ run (kept.unsubscribe id start)
  | publish event next ih =>
    rw [Hub.react] at run
    cases made : publish event h with
    | none => simp [made] at run
    | some e' =>
      have after := keeps event h e' made start
      rw [made] at run
      cases e' with
      | ok u h' => exact ih _ h' run after
      | error failure h' => exact ih _ h' run after

theorem deliver {reaction : Subscription ω → Delivery ω}
    (keeps : ∀ s h e, reaction s h = some e → P h → P (Ending.hub e))
    (subscriptions : List (Subscription ω)) (h : Hub ω) (e : Ending ω)
    (run : Hub.deliver reaction subscriptions h = some e) (start : P h) : P e.hub := by
  induction subscriptions generalizing h with
  | nil => cases run; exact start
  | cons s rest ih =>
    rw [Hub.deliver] at run
    cases reacted : reaction s h with
    | none => simp [reacted] at run
    | some e' =>
      have after := keeps s h e' reacted start
      rw [reacted] at run
      cases e' with
      | ok u h' => exact ih h' run after
      | error failure h' => cases run; exact after

/-- What each single step keeps, every publication keeps. -/
theorem publish (kept : Kept P) (bound : Nat) (event : Event) (h : Hub ω) (e : Ending ω)
    (run : Hub.publish bound event h = some e) (start : P h) : P e.hub := by
  induction bound generalizing event h e with
  | zero => cases run
  | succ bound ih =>
    refine deliver (fun s h e reacted => ?_) _ h e run start
    exact kept.react ih (s.handler event) h e reacted

theorem course (kept : Kept P) {h h' : Hub ω} {ps : List (Publication ω)} (c : Course h ps h')
    (start : P h) : P h' := by
  induction c with
  | rest h => exact start
  | change world _ ih => exact ih (kept.change world start)
  | subscribe filter handler _ ih => exact ih (kept.subscribe filter handler start)
  | unsubscribe id _ ih => exact ih (kept.unsubscribe id start)
  | publish made _ ih =>
    obtain ⟨bound, made⟩ := made
    exact ih (kept.publish bound _ _ _ made start)

end Hub.Kept

/-- Subscriptions stand in the order of their numbers, all below the next one. -/
structure Bus.Numbered {ω : Type} (b : Bus ω) : Prop where
  ordered : b.subscriptions.Pairwise fun s s' => s.id < s'.id
  below : ∀ s ∈ b.subscriptions, s.id < b.nextId

namespace Bus.Numbered

variable {ω : Type} {b : Bus ω}

theorem subscribe (h : b.Numbered) (filter : Option EventKind) (handler : Event → Reaction ω) :
    (b.subscribe filter handler).2.Numbered where
  ordered := by
    refine List.pairwise_append.2 ⟨h.ordered, List.pairwise_singleton _ _, fun s hs s' hs' => ?_⟩
    rw [List.mem_singleton.1 hs']
    exact h.below s hs
  below := by
    refine List.forall_mem_append.2 ⟨fun s hs => ?_, List.forall_mem_singleton.2 ?_⟩
    · exact Nat.lt_succ_of_lt (h.below s hs)
    · exact Nat.lt_succ_self _

theorem unsubscribe (h : b.Numbered) (id : Nat) : (b.unsubscribe id).2.Numbered where
  ordered := h.ordered.filter _
  below s hs := h.below s ((List.mem_filter.1 hs).1)

end Bus.Numbered

/-- Every subscription on the bus was on the other one or has a number from there on. -/
structure Bus.Succeeds {ω : Type} (b earlier : Bus ω) : Prop where
  nextId : earlier.nextId ≤ b.nextId
  present : ∀ s ∈ b.subscriptions, s ∈ earlier.subscriptions ∨ earlier.nextId ≤ s.id

namespace Bus.Succeeds

variable {ω : Type} {b earlier : Bus ω}

theorem refl (b : Bus ω) : b.Succeeds b := ⟨Nat.le_refl _, fun _ => .inl⟩

theorem subscribe (h : b.Succeeds earlier) (filter : Option EventKind)
    (handler : Event → Reaction ω) : (b.subscribe filter handler).2.Succeeds earlier :=
  ⟨Nat.le_succ_of_le h.nextId,
    List.forall_mem_append.2 ⟨h.present, List.forall_mem_singleton.2 (.inr h.nextId)⟩⟩

theorem unsubscribe (h : b.Succeeds earlier) (id : Nat) :
    (b.unsubscribe id).2.Succeeds earlier :=
  ⟨h.nextId, fun s hs => h.present s ((List.mem_filter.1 hs).1)⟩

end Bus.Succeeds

namespace Hub

variable {ω : Type} {h h' : Hub ω} {ps : List (Publication ω)}

theorem numbered_kept : Kept fun h : Hub ω => h.bus.Numbered where
  change _ numbered := numbered
  subscribe filter handler numbered := numbered.subscribe filter handler
  unsubscribe id numbered := numbered.unsubscribe id

theorem succeeds_kept (earlier : Bus ω) : Kept fun h : Hub ω => h.bus.Succeeds earlier where
  change _ later := later
  subscribe filter handler later := later.subscribe filter handler
  unsubscribe id later := later.unsubscribe id

theorem Reachable.numbered (reachable : h.Reachable) : h.bus.Numbered := by
  obtain ⟨world, ps, start⟩ := reachable
  exact numbered_kept.course start ⟨List.Pairwise.nil, by simp [Bus.empty]⟩

/-- What has come to a bus since has numbers that were not taken. -/
theorem nextId_le_of_new (c : Course h ps h') {s : Subscription ω} (hs : s ∈ h'.bus.subscriptions)
    (new : s ∉ h.bus.subscriptions) : h.bus.nextId ≤ s.id :=
  (((succeeds_kept h.bus).course c (.refl h.bus)).present s hs).resolve_left new

/-- Each delivery finds the hub that the one before it left; the first finds `h` and the last leaves
`h'`. -/
def Chained (h : Hub ω) : List (Served ω) → Hub ω → Prop
  | [], h' => h' = h
  | d :: served, h' => d.found = h ∧ Chained d.outcome.hub served h'

/-- How a publication ends: well, with all of its audience served well, or with the failure of the
last delivery, the only one that failed. -/
def EndsAs (audience : List (Subscription ω)) (served : List (Served ω)) (e : Ending ω) : Prop :=
  (e.failure? = none ∧ served.map (·.subscription) = audience ∧
      ∀ d ∈ served, d.outcome.failure? = none) ∨
    ∃ before last failure, served = before ++ [last] ∧
      (∀ d ∈ before, d.outcome.failure? = none) ∧
      last.outcome.failure? = some failure ∧ e.failure? = some failure

theorem recordDeliver_cases {publish : Event → Delivery ω} {event : Event} {s : Subscription ω}
    {rest : List (Subscription ω)} {served : List (Served ω)} {e : Ending ω}
    (run : recordDeliver publish event (s :: rest) h = some (served, e)) :
    ∃ d : Served ω, d.subscription = s ∧ d.found = h ∧
      recordReact publish (s.handler event) h = some (d.nested, d.outcome) ∧
      ((∃ served', d.outcome.failure? = none ∧ served = d :: served' ∧
          recordDeliver publish event rest d.outcome.hub = some (served', e)) ∨
        ∃ failure, d.outcome.failure? = some failure ∧ served = [d] ∧ e = d.outcome) := by
  obtain ⟨⟨nested, e'⟩, reacted, run⟩ := Option.bind_eq_some_iff.1 run
  refine ⟨⟨s, h, nested, e'⟩, rfl, rfl, reacted, ?_⟩
  cases e' with
  | ok u h' =>
    obtain ⟨⟨served', e⟩, rest, pair⟩ := Option.map_eq_some_iff.1 run
    cases pair
    exact .inl ⟨served', rfl, rfl, rest⟩
  | error failure h' =>
    cases run
    exact .inr ⟨failure, rfl, rfl, rfl⟩

/-- What is recorded of the deliveries to an audience. -/
structure Recorded (publish : Event → Delivery ω) (event : Event) (audience : List (Subscription ω))
    (h : Hub ω) (served : List (Served ω)) (e : Ending ω) : Prop where
  recipients : served.map (·.subscription) <+: audience
  chained : Chained h served e.hub
  endsAs : EndsAs audience served e
  reacted : ∀ d ∈ served,
    recordReact publish (d.subscription.handler event) d.found = some (d.nested, d.outcome)

theorem recorded_of_recordDeliver {publish : Event → Delivery ω} {event : Event}
    {audience : List (Subscription ω)} {served : List (Served ω)} {e : Ending ω}
    (run : recordDeliver publish event audience h = some (served, e)) :
    Recorded publish event audience h served e := by
  induction audience generalizing h served with
  | nil =>
    obtain ⟨rfl, rfl⟩ : [] = served ∧ .ok () h = e := by simpa [recordDeliver] using run
    exact ⟨List.prefix_refl _, rfl, .inl ⟨rfl, rfl, by simp⟩, by simp⟩
  | cons s rest ih =>
    obtain ⟨d, rfl, rfl, reacted, ⟨served', well, rfl, others⟩ | ⟨failure, failed, rfl, rfl⟩⟩ :=
      recordDeliver_cases run
    · have later := ih others
      refine ⟨(List.prefix_cons_inj _).2 later.recipients, ⟨rfl, later.chained⟩, ?_,
        List.forall_mem_cons.2 ⟨reacted, later.reacted⟩⟩
      rcases later.endsAs with ⟨ended, all, sound⟩ | ⟨before, last, failure, rfl, sound, failed⟩
      · exact .inl ⟨ended, congrArg _ all, List.forall_mem_cons.2 ⟨well, sound⟩⟩
      · exact .inr ⟨d :: before, last, failure, rfl, List.forall_mem_cons.2 ⟨well, sound⟩, failed⟩
    · refine ⟨(List.prefix_cons_inj _).2 List.nil_prefix, ⟨rfl, rfl⟩, ?_,
        List.forall_mem_singleton.2 reacted⟩
      exact .inr ⟨[], d, failure, rfl, by simp, failed, failed⟩

/-- Along a chain of deliveries, each of them a course of its own, every one is found by a course
from where the chain begins. -/
theorem Chained.course {served : List (Served ω)} (chained : Chained h served h')
    (courses : ∀ d ∈ served, Course d.found d.nested d.outcome.hub) :
    ∀ d ∈ served, ∃ ps, Course h ps d.found := by
  induction served generalizing h with
  | nil => simp
  | cons d served ih =>
    obtain ⟨rfl, chained⟩ := chained
    obtain ⟨first, others⟩ := List.forall_mem_cons.1 courses
    refine List.forall_mem_cons.2 ⟨⟨[], .rest _⟩, fun d' hd' => ?_⟩
    obtain ⟨ps, later⟩ := ih chained others d' hd'
    exact ⟨_, first.append later⟩

end Hub

/-- Those who are subscribed to a kind of event or to all of them, in the order of subscription. -/
def Bus.audience {ω : Type} (b : Bus ω) (k : EventKind) : List (Subscription ω) :=
  b.subscriptions.filter fun s => s.filter = none ∨ s.filter = some k

theorem Bus.accepting_eq_audience {ω : Type} (b : Bus ω) (k : EventKind) :
    b.accepting k = b.audience k := by
  refine List.filter_congr fun s _ => ?_
  cases hfilter : s.filter <;> simp [Subscription.accepts, hfilter]

namespace Hub

variable {ω : Type}

/-- That publishing an event on `h` has made the deliveries `served` and no others. -/
structure ServesSnapshot (event : Event) (h : Hub ω) (served : List (Served ω)) (e : Ending ω) :
    Prop where
  /-- Served are those who were subscribed when the event was published, from the first one on and
  whatever has become of their subscriptions since. -/
  recipients : served.map (·.subscription) <+: h.bus.audience event.kind
  /-- Each of them is served once, in the order of subscription. -/
  ordered : (served.map (·.subscription)).Pairwise fun s s' => s.id < s'.id
  /-- The handler is given the event. -/
  reacted : ∀ d ∈ served, ∃ bound,
    react (publish bound) (d.subscription.handler event) d.found = some d.outcome
  /-- A delivery begins where the one before it ended. -/
  chained : Chained h served e.hub
  /-- All are served unless one fails, which ends the publication in the same way. -/
  endsAs : EndsAs (h.bus.audience event.kind) served e
  /-- Nobody is served who came after the event was published, by whatever steps. -/
  late : ∀ ps h', Course h ps h' → ∀ s ∈ h'.bus.subscriptions, s ∉ h.bus.subscriptions →
    ∀ d ∈ served, d.subscription.id ≠ s.id
  /-- What a handler publishes is made between the beginning and the end of its own delivery, on
  hubs that can be reached. -/
  nested : ∀ d ∈ served, (∃ ps, Course h ps d.found) ∧
    Course d.found d.nested d.outcome.hub ∧ ∀ p ∈ d.nested, p.Made ∧ p.found.Reachable

/-- Every publication that ends has been delivered to those who were subscribed at the time, once
and in order, up to the first handler that fails, and ends as that does. -/
theorem publish_serves_snapshot {h : Hub ω} (reachable : h.Reachable) (bound : Nat) (event : Event)
    (e : Ending ω) (ended : publish bound event h = some e) :
    ∃ served, recordPublish bound event h = some (served, e) ∧ ServesSnapshot event h served e := by
  rw [← recordPublish_erase] at ended
  obtain ⟨⟨served, _⟩, run, rfl⟩ := Option.map_eq_some_iff.1 ended
  refine ⟨served, run, ?_⟩
  cases bound with
  | zero => cases run
  | succ bound =>
    have recorded := recorded_of_recordDeliver run
    rw [Bus.accepting_eq_audience] at recorded
    have numbered := reachable.numbered
    have present (d : Served ω) (hd : d ∈ served) : d.subscription ∈ h.bus.subscriptions :=
      (List.mem_filter.1 (recorded.recipients.subset (List.mem_map_of_mem hd))).1
    have courses (d : Served ω) (hd : d ∈ served) : Course d.found d.nested d.outcome.hub :=
      recordReact_course (recorded.reacted d hd)
    have found := recorded.chained.course courses
    have ordered : (served.map (·.subscription)).Pairwise fun s s' => s.id < s'.id :=
      (numbered.ordered.filter _).sublist recorded.recipients.sublist
    have reacted (d : Served ω) (hd : d ∈ served) :
        react (publish bound) (d.subscription.handler event) d.found = some d.outcome := by
      rw [← recordReact_erase, recorded.reacted d hd]
      rfl
    -- the numbers of those present are taken when the event is published, later ones are not
    have late (ps : List (Publication ω)) (h' : Hub ω) (c : Course h ps h') (s : Subscription ω)
        (hs : s ∈ h'.bus.subscriptions) (new : s ∉ h.bus.subscriptions) (d : Served ω)
        (hd : d ∈ served) : d.subscription.id ≠ s.id := by
      have taken := numbered.below _ (present d hd)
      have free := nextId_le_of_new c hs new
      omega
    have nested (d : Served ω) (hd : d ∈ served) (p : Publication ω) (hp : p ∈ d.nested) :
        p.Made ∧ p.found.Reachable := by
      obtain ⟨ps, before⟩ := found d hd
      obtain ⟨made, ps', within⟩ := (courses d hd).made_of_mem hp
      exact ⟨made, reachable.along (before.append within)⟩
    exact ⟨recorded.recipients, ordered, fun d hd => ⟨bound, reacted d hd⟩, recorded.chained,
      recorded.endsAs, late, fun d hd => ⟨found d hd, courses d hd, nested d hd⟩⟩

/-- The first of three handlers removes the second, adds a fourth and publishes an event that the
third fails on; then the second is served all the same, the third fails again, and the fourth gets
nothing. -/
theorem publish_serves_snapshot_unsubscribed :
    let event : Event := .missingItem "IO" "x" none
    let first : Event → Reaction Unit := fun _ =>
      .unsubscribe 2 fun _ => .subscribe none (fun _ => .done) fun _ =>
        .publish (.functionImported "IO" default) fun _ => .done
    let failing : Event → Reaction Unit := fun _ => .fail (.foreign "rejected")
    let bus := (Bus.empty.subscribe (some .missingItem) first).2
    let bus := (bus.subscribe (some .missingItem) fun _ => .done).2
    let h : Hub Unit := ⟨(bus.subscribe none failing).2, ()⟩
    ∃ (served : List (Served Unit)) (e : Ending Unit),
      publish 2 event h = some e ∧ ServesSnapshot event h served e ∧
        served.map (·.subscription.id) = [1, 2, 3] ∧ e.failure? = some (.foreign "rejected") ∧
        e.hub.bus.subscriptions.map (·.id) = [1, 3, 4] := by
  intro event first failing bus bus' h
  have reachable : h.Reachable :=
    ⟨(), [], .subscribe _ _ (.subscribe _ _ (.subscribe _ _ (.rest _)))⟩
  obtain ⟨served, run, snapshot⟩ := publish_serves_snapshot reachable 2 event _ rfl
  have ids := congrArg (Option.map fun r => r.1.map (·.subscription.id)) run
  exact ⟨served, _, rfl, snapshot, (Option.some.inj ids).symm, rfl, rfl⟩

end Hub

end StagedLowering
