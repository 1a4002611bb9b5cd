import StagedLowering.Proofs.Absence

/-!
A context is what it was last given. However often its slots are filled and its delegates replaced,
and in whatever order, under each key stands the last gift for that key. Contexts that agree in
these cannot be told apart, and a delegate is never taken for the slot that its key spells.
-/
namespace StagedLowering

variable {ω δ D : Type}

/-- What can stand under a key: the content of the slot, or a delegate. -/
abbrev Key.Content (ω δ : Type) : Key → Type
  | .lowerer => HighIR → Act ω Target
  | .scrutinee => TypedValue
  | .matchAnalyzer => MatchAnalyzer ω
  | .transformArm => TransformArm ω
  | .registry => String → ImportSelection → Act ω Resolution
  | .registerFunction => FunctionDecl → Act ω Unit
  | .onMissingItem => String → Option String → Act ω Unit
  | .eventBus => Event → Act ω Unit
  | .delegate _ => Delegate ω δ

theorem Key.delegate_ne_slot (name : String) {slot : Key} (h : slot ∈ slots) :
    .delegate name ≠ slot := by
  rintro rfl
  simp [slots] at h

/-- A collaborator that is given to a context, and the key it is given under. -/
structure Gift (ω δ : Type) where
  key : Key
  content : key.Content ω δ

/-- The last of the gifts under this key. -/
def LastGift (gifts : List (Gift ω δ)) (k : Key) (x : k.Content ω δ) : Prop :=
  ∃ before after, gifts = before ++ ⟨k, x⟩ :: after ∧ ∀ g ∈ after, g.key ≠ k

theorem none_or_lastGift (gifts : List (Gift ω δ)) (k : Key) :
    (∀ g ∈ gifts, g.key ≠ k) ∨ ∃ x, LastGift gifts k x := by
  induction gifts with
  | nil => exact .inl nofun
  | cons g gifts ih =>
    rcases ih with none | ⟨x, before, after, rfl, later⟩
    · by_cases same : g.key = k
      · subst same
        exact .inr ⟨g.content, [], gifts, rfl, none⟩
      · exact .inl (List.forall_mem_cons.2 ⟨same, none⟩)
    · exact .inr ⟨x, g :: before, after, rfl, later⟩

/-- Delegates of whatever type. -/
def DelegateType.any : DelegateType ω δ (Delegate ω δ) := ⟨"delegate", some⟩

namespace Context

/-- Fill a slot or add a delegate. -/
def give (c : Context ω δ) : Gift ω δ → Context ω δ
  | ⟨.lowerer, lower⟩ => { c with lowerer? := some lower }
  | ⟨.scrutinee, value⟩ => { c with scrutinee? := some value }
  | ⟨.matchAnalyzer, analyze⟩ => { c with matchAnalyzer? := some analyze }
  | ⟨.transformArm, transform⟩ => { c with transformArm? := some transform }
  | ⟨.registry, resolve⟩ => { c with registry? := some resolve }
  | ⟨.registerFunction, register⟩ => { c with registerFunction? := some register }
  | ⟨.onMissingItem, onMissing⟩ => { c with onMissingItem? := some onMissing }
  | ⟨.eventBus, publish⟩ => { c with eventBus? := some publish }
  | ⟨.delegate key, d⟩ => c.withDelegate key d

/-- A new context after these gifts. -/
def ofGifts (gifts : List (Gift ω δ)) : Context ω δ := gifts.foldl give empty

/-- The accessor of a slot; of a delegate, the one that takes it as it is. -/
def access (c : Context ω δ) : (k : Key) → Except LoweringError (k.Content ω δ)
  | .lowerer => c.lowerer
  | .scrutinee => c.scrutinee
  | .matchAnalyzer => c.matchAnalyzer
  | .transformArm => c.transformArm
  | .registry => c.registry
  | .registerFunction => c.registerFunction
  | .onMissingItem => c.onMissingItem
  | .eventBus => c.eventBus
  | .delegate key => c.delegate .any key

/-- What the context has under a key. -/
def content? (c : Context ω δ) : (k : Key) → Option (k.Content ω δ)
  | .lowerer => c.lowerer?
  | .scrutinee => c.scrutinee?
  | .matchAnalyzer => c.matchAnalyzer?
  | .transformArm => c.transformArm?
  | .registry => c.registry?
  | .registerFunction => c.registerFunction?
  | .onMissingItem => c.onMissingItem?
  | .eventBus => c.eventBus?
  | .delegate key => c.delegate? key

/-! ### What a context shows of its contents -/

section

variable (c : Context ω δ)

theorem has_eq_isSome (k : Key) : c.has k = (c.content? k).isSome := by
  cases k with
  | delegate key =>
    rw [Bool.eq_iff_iff]
    simp [has, content?, delegate?]
  | _ => rfl

theorem access_eq_filled (k : Key) : c.access k = filled k (c.content? k) := by
  cases k with
  | delegate key =>
    simp only [access, delegate, content?]
    cases c.delegate? key <;> rfl
  | _ => rfl

theorem access_eq_ok_iff (k : Key) (x : k.Content ω δ) :
    c.access k = .ok x ↔ c.content? k = some x := by
  rw [access_eq_filled]
  cases c.content? k <;> simp [filled]

theorem access_eq_error_iff (k : Key) (e : LoweringError) :
    c.access k = .error e ↔ e = .missingCollaborator k.text ∧ c.content? k = none := by
  rw [access_eq_filled]
  cases c.content? k with
  | none =>
    refine ⟨fun same => ⟨(Except.error.inj same).symm, rfl⟩, ?_⟩
    rintro ⟨rfl, -⟩
    rfl
  | some x => simp [filled]

/-- A key is there exactly if its accessor does not report it missing. -/
theorem has_iff_access (k : Key) :
    c.has k = true ↔ ∀ name, c.access k ≠ .error (.missingCollaborator name) := by
  rw [has_eq_isSome, access_eq_filled]
  cases c.content? k <;> simp [filled]

variable (type : DelegateType ω δ D) (key : String)

theorem delegate_eq_ok_iff (x : D) : c.delegate type key = .ok x ↔
    ∃ d, c.content? (.delegate key) = some d ∧ type.view d = some x := by
  simp only [delegate, content?]
  cases c.delegate? key with
  | none => simp
  | some d => cases viewed : type.view d <;> simp [viewed]

theorem delegate_eq_collaboratorType_iff :
    c.delegate type key = .error (.collaboratorType key type.name) ↔
      ∃ d, c.content? (.delegate key) = some d ∧ type.view d = none := by
  simp only [delegate, content?]
  cases c.delegate? key with
  | none => simp
  | some d => cases viewed : type.view d <;> simp [viewed]

theorem delegate_eq_missing_iff (name : String) :
    c.delegate type key = .error (.missingCollaborator name) ↔
      key = name ∧ c.content? (.delegate key) = none := by
  simp only [delegate, content?]
  cases c.delegate? key with
  | none => simp
  | some d => cases viewed : type.view d <;> simp [viewed]

theorem has_iff_delegate : c.has (.delegate key) = true ↔
    ∀ name, c.delegate type key ≠ .error (.missingCollaborator name) := by
  simp only [ne_eq, delegate_eq_missing_iff, has_eq_isSome]
  cases c.content? (.delegate key) <;> simp

end

section

variable {c c' : Context ω δ}

theorem has_congr {k : Key} (h : c.content? k = c'.content? k) : c.has k = c'.has k := by
  rw [has_eq_isSome, has_eq_isSome, h]

theorem access_congr {k : Key} (h : c.content? k = c'.content? k) : c.access k = c'.access k := by
  rw [access_eq_filled, access_eq_filled, h]

theorem delegate_congr {key : String}
    (h : c.content? (.delegate key) = c'.content? (.delegate key)) (type : DelegateType ω δ D) :
    c.delegate type key = c'.delegate type key := by
  have found : c.delegate? key = c'.delegate? key := h
  rw [delegate, delegate, found]

theorem require_congr (h : ∀ k, c.content? k = c'.content? k) (keys : List Key) :
    c.require keys = c'.require keys := by
  rw [require, require, absent_congr fun k _ => has_congr (h k)]

end

/-! ### Gifts one after the other -/

theorem delegate?_withDelegate (c : Context ω δ) (key key' : String) (d : Delegate ω δ) :
    (c.withDelegate key d).delegate? key' = if key = key' then some d else c.delegate? key' := by
  by_cases same : key = key'
  · subst same
    have gone : (c.delegates.filter (·.1 != key)).find? (·.1 == key) = none := by simp
    simp [withDelegate, delegate?, gone]
  · have kept : (c.delegates.filter (·.1 != key)).find? (·.1 == key') =
        c.delegates.find? (·.1 == key') := by
      rw [List.find?_filter]
      refine congrArg (c.delegates.find? ·) (funext fun e => ?_)
      by_cases here : e.1 = key' <;> simp [here, Ne.symm same]
    simp [withDelegate, delegate?, kept, same]

theorem content?_give_self (c : Context ω δ) (k : Key) (x : k.Content ω δ) :
    (c.give ⟨k, x⟩).content? k = some x := by
  cases k with
  | delegate key => exact (c.delegate?_withDelegate key key x).trans (if_pos rfl)
  | _ => rfl

/-- A gift leaves alone what stands under other keys. -/
theorem content?_give_of_ne (c : Context ω δ) {g : Gift ω δ} {k : Key} (h : g.key ≠ k) :
    (c.give g).content? k = c.content? k := by
  obtain ⟨key, x⟩ := g
  -- Every slot is a field of its own; only delegates stand in one list.
  cases key with
  | delegate key =>
    cases k with
    | delegate key' => exact (c.delegate?_withDelegate key key' x).trans (if_neg (by simpa using h))
    | _ => rfl
  | _ => cases k <;> simp [give, content?, delegate?] at h ⊢

theorem content?_foldl_of_none {gifts : List (Gift ω δ)} {k : Key} (h : ∀ g ∈ gifts, g.key ≠ k)
    (c : Context ω δ) : (gifts.foldl give c).content? k = c.content? k := by
  induction gifts generalizing c with
  | nil => rfl
  | cons g gifts ih =>
    obtain ⟨first, rest⟩ := List.forall_mem_cons.1 h
    rw [List.foldl_cons, ih rest, c.content?_give_of_ne first]

theorem content?_foldl_of_lastGift {gifts : List (Gift ω δ)} {k : Key} {x : k.Content ω δ}
    (h : LastGift gifts k x) (c : Context ω δ) : (gifts.foldl give c).content? k = some x := by
  obtain ⟨before, after, rfl, later⟩ := h
  rw [List.foldl_append, List.foldl_cons, content?_foldl_of_none later, content?_give_self]

theorem content?_empty (k : Key) : (empty : Context ω δ).content? k = none := by
  cases k <;> rfl

theorem content?_ofGifts_eq_some (gifts : List (Gift ω δ)) (k : Key) (x : k.Content ω δ) :
    (ofGifts gifts).content? k = some x ↔ LastGift gifts k x := by
  refine ⟨fun found => ?_, fun last => content?_foldl_of_lastGift last empty⟩
  rcases none_or_lastGift gifts k with none | ⟨y, last⟩
  · rw [ofGifts, content?_foldl_of_none none, content?_empty] at found
    cases found
  · rw [ofGifts, content?_foldl_of_lastGift last] at found
    cases found
    exact last

theorem content?_ofGifts_eq_none (gifts : List (Gift ω δ)) (k : Key) :
    (ofGifts gifts).content? k = none ↔ ∀ g ∈ gifts, g.key ≠ k := by
  refine ⟨fun absent => ?_, fun none => ?_⟩
  · rcases none_or_lastGift gifts k with none | ⟨x, last⟩
    · exact none
    · rw [(content?_ofGifts_eq_some gifts k x).2 last] at absent
      cases absent
  · rw [ofGifts, content?_foldl_of_none none, content?_empty]

/-- A delegate comes to the end of the list, and the one before it under its key has gone. -/
theorem nodup_give {c : Context ω δ} (h : (c.delegates.map Prod.fst).Nodup) (g : Gift ω δ) :
    ((c.give g).delegates.map Prod.fst).Nodup := by
  obtain ⟨key, x⟩ := g
  cases key with
  | delegate key =>
    change ((c.delegates.filter (·.1 != key) ++ [(key, x)]).map Prod.fst).Nodup
    have others : ((c.delegates.filter (·.1 != key)).map Prod.fst).Nodup :=
      h.sublist (List.filter_sublist.map Prod.fst)
    rw [List.map_append, List.nodup_append]
    refine ⟨others, by simp, ?_⟩
    simp
  | _ => exact h

theorem nodup_foldl_give {c : Context ω δ} (h : (c.delegates.map Prod.fst).Nodup)
    (gifts : List (Gift ω δ)) : ((gifts.foldl give c).delegates.map Prod.fst).Nodup := by
  induction gifts generalizing c with
  | nil => exact h
  | cons g gifts ih => exact ih (nodup_give h g)

/-- A context is what it was last given. No key has two delegates; under each key a context has the
last gift, which a typed look-up takes only if it is of that type, and what is reported missing was
never given; a delegate does not count for the slot that its key spells, nor a slot for the
delegate. Whether something is there can be asked beforehand, to the same answer. So contexts that
were last given the same, whatever they were given before and in whatever order, show no difference.
-/
theorem determined_by_last_gifts (gifts : List (Gift ω δ)) :
    let c := ofGifts gifts
    (c.delegates.map Prod.fst).Nodup ∧
    (∀ (D : Type) (type : DelegateType ω δ D) (key : String),
      (∀ x, c.delegate type key = .ok x ↔
        ∃ d, LastGift gifts (.delegate key) d ∧ type.view d = some x) ∧
      (c.delegate type key = .error (.collaboratorType key type.name) ↔
        ∃ d, LastGift gifts (.delegate key) d ∧ type.view d = none) ∧
      (c.delegate type key = .error (.missingCollaborator key) ↔
        ∀ g ∈ gifts, g.key ≠ .delegate key) ∧
      (c.has (.delegate key) = true ↔
        ∀ name, c.delegate type key ≠ .error (.missingCollaborator name))) ∧
    (∀ k,
      (∀ x, c.access k = .ok x ↔ LastGift gifts k x) ∧
      (∀ e, c.access k = .error e ↔
        e = .missingCollaborator k.text ∧ ∀ g ∈ gifts, g.key ≠ k) ∧
      (c.has k = true ↔ ∀ name, c.access k ≠ .error (.missingCollaborator name))) ∧
    (∀ slot ∈ Key.slots,
      (∀ d, (c.give ⟨.delegate slot.text, d⟩).has slot = c.has slot ∧
        (c.give ⟨.delegate slot.text, d⟩).access slot = c.access slot) ∧
      ∀ x, (c.give ⟨slot, x⟩).has (.delegate slot.text) = c.has (.delegate slot.text) ∧
        ∀ (D : Type) (type : DelegateType ω δ D),
          (c.give ⟨slot, x⟩).delegate type slot.text = c.delegate type slot.text) ∧
    ∀ gifts' : List (Gift ω δ), (∀ k x, LastGift gifts k x ↔ LastGift gifts' k x) →
      let c' := ofGifts gifts'
      (∀ k, c.has k = c'.has k) ∧ (∀ keys, c.require keys = c'.require keys) ∧
      (∀ k, c.access k = c'.access k) ∧
      ∀ (D : Type) (type : DelegateType ω δ D) key,
        c.delegate type key = c'.delegate type key := by
  intro c
  have last (k : Key) (x : k.Content ω δ) : c.content? k = some x ↔ LastGift gifts k x :=
    content?_ofGifts_eq_some gifts k x
  have never (k : Key) : c.content? k = none ↔ ∀ g ∈ gifts, g.key ≠ k :=
    content?_ofGifts_eq_none gifts k
  refine ⟨nodup_foldl_give (c := empty) List.nodup_nil gifts,
    fun D type key => ⟨fun x => ?_, ?_, ?_, c.has_iff_delegate type key⟩,
    fun k => ⟨fun x => ?_, fun e => ?_, c.has_iff_access k⟩,
    fun slot hslot => ⟨fun d => ?_, fun x => ?_⟩, fun gifts' same => ?_⟩
  · simp only [delegate_eq_ok_iff, last]
  · simp only [delegate_eq_collaboratorType_iff, last]
  · simp only [delegate_eq_missing_iff, never, true_and]
  · rw [access_eq_ok_iff, last]
  · rw [access_eq_error_iff, never]
  · have frame := c.content?_give_of_ne (g := ⟨.delegate slot.text, d⟩)
      (Key.delegate_ne_slot slot.text hslot)
    exact ⟨has_congr frame, access_congr frame⟩
  · have frame := c.content?_give_of_ne (g := ⟨slot, x⟩)
      (Key.delegate_ne_slot slot.text hslot).symm
    exact ⟨has_congr frame, fun D type => delegate_congr frame type⟩
  · have agree (k : Key) : c.content? k = (ofGifts gifts').content? k := by
      refine Option.ext fun x => ?_
      rw [last, same, content?_ofGifts_eq_some]
    exact ⟨fun k => has_congr (agree k), require_congr agree, fun k => access_congr (agree k),
      fun D type key => delegate_congr (agree (.delegate key)) type⟩

/-- Two delegates, of which the one or the other is given twice. The delegates then stand in another
order, which does not show, and neither is found in the slot that its key spells. -/
theorem determined_by_last_gifts_reordered :
    let gifts : List (Gift Unit Nat) := [⟨.delegate "event_bus", .custom 1⟩,
      ⟨.delegate "lowerer", .custom 2⟩, ⟨.delegate "event_bus", .custom 3⟩]
    let gifts' : List (Gift Unit Nat) := [⟨.delegate "event_bus", .custom 3⟩,
      ⟨.delegate "lowerer", .custom 4⟩, ⟨.delegate "lowerer", .custom 2⟩]
    let c := ofGifts gifts
    let c' := ofGifts gifts'
    (∀ k x, LastGift gifts k x ↔ LastGift gifts' k x) ∧
    c.delegates.map Prod.fst = ["lowerer", "event_bus"] ∧
    c'.delegates.map Prod.fst = ["event_bus", "lowerer"] ∧
    (∀ k, c.has k = c'.has k) ∧ (∀ k, c.access k = c'.access k) ∧
    c.access (.delegate "event_bus") = .ok (.custom 3) ∧
    c.access .eventBus = .error (.missingCollaborator "event_bus") := by
  intro gifts gifts' c c'
  have same (k : Key) (x : k.Content Unit Nat) : LastGift gifts k x ↔ LastGift gifts' k x := by
    rw [← content?_ofGifts_eq_some, ← content?_ofGifts_eq_some]
    cases k with
    | delegate key =>
      by_cases bus : key = "event_bus"
      · subst bus
        rfl
      · by_cases lowerer : key = "lowerer"
        · subst lowerer
          rfl
        · have none : ∀ g ∈ gifts ++ gifts', g.key ≠ .delegate key := by
            simp [gifts, gifts', Ne.symm bus, Ne.symm lowerer]
          rw [(content?_ofGifts_eq_none gifts _).2 fun g hg => none g (List.mem_append_left _ hg),
            (content?_ofGifts_eq_none gifts' _).2 fun g hg => none g (List.mem_append_right _ hg)]
    | _ => rfl
  obtain ⟨-, -, accessed, -, shown⟩ := determined_by_last_gifts gifts
  obtain ⟨has, -, access, -⟩ := shown gifts' same
  refine ⟨same, rfl, rfl, has, access, ?_, ?_⟩
  · exact ((accessed (.delegate "event_bus")).1 _).2 ⟨gifts.take 2, [], rfl, nofun⟩
  · exact ((accessed .eventBus).2.1 _).2 ⟨rfl, by simp [gifts]⟩

end Context

end StagedLowering
