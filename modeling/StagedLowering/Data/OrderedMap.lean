/-!
A map that remembers the order in which its keys first came. Writing to a present key replaces its
value where it stands; a new key goes to the end. No key occurs twice, which is part of the type.
-/
namespace StagedLowering

structure OrderedMap (κ α : Type) where
  entries : List (κ × α)
  nodup : (entries.map Prod.fst).Nodup

namespace OrderedMap

variable {κ α : Type} [DecidableEq κ]

def empty : OrderedMap κ α := ⟨[], List.nodup_nil⟩

instance : Inhabited (OrderedMap κ α) := ⟨empty⟩

def keys (m : OrderedMap κ α) : List κ := m.entries.map Prod.fst
def values (m : OrderedMap κ α) : List α := m.entries.map Prod.snd
def contains (m : OrderedMap κ α) (k : κ) : Bool := k ∈ m.keys

def get? (m : OrderedMap κ α) (k : κ) : Option α := m.entries.lookup k

def put (k : κ) (a : α) : List (κ × α) → List (κ × α)
  | [] => [(k, a)]
  | (k', a') :: rest => if k' = k then (k, a) :: rest else (k', a') :: put k a rest

theorem map_fst_put (k : κ) (a : α) (es : List (κ × α)) :
    (put k a es).map Prod.fst =
      if k ∈ es.map Prod.fst then es.map Prod.fst else es.map Prod.fst ++ [k] := by
  induction es with
  | nil => simp [put]
  | cons e es ih =>
    obtain ⟨k', a'⟩ := e
    by_cases h : k' = k
    · simp [put, h]
    · have h' : ¬ k = k' := fun e => h e.symm
      by_cases hm : k ∈ es.map Prod.fst
      · rw [if_pos hm] at ih
        have hm' : k ∈ ((k', a') :: es).map Prod.fst := List.mem_cons_of_mem _ hm
        rw [if_pos hm']
        simp [put, h, ih]
      · rw [if_neg hm] at ih
        have hm' : k ∉ ((k', a') :: es).map Prod.fst := by
          intro hin
          rcases List.mem_cons.1 hin with he | hin
          · exact h' he
          · exact hm hin
        rw [if_neg hm']
        simp [put, h, ih]

theorem nodup_put (k : κ) (a : α) (es : List (κ × α)) (h : (es.map Prod.fst).Nodup) :
    ((put k a es).map Prod.fst).Nodup := by
  rw [map_fst_put]
  split
  next => exact h
  next hk =>
    refine List.nodup_append.2 ⟨h, by simp, ?_⟩
    intro x hx y hy he
    subst he
    exact hk (List.mem_singleton.1 hy ▸ hx)

def insert (m : OrderedMap κ α) (k : κ) (a : α) : OrderedMap κ α :=
  ⟨put k a m.entries, nodup_put k a m.entries m.nodup⟩

/-- Apply `f` to the value of `k`, taking `default` for an absent key. -/
def modify (m : OrderedMap κ α) (k : κ) (default : α) (f : α → α) : OrderedMap κ α :=
  m.insert k (f ((m.get? k).getD default))

/-- Give `k` the value `a` unless it has one. -/
def ensure (m : OrderedMap κ α) (k : κ) (a : α) : OrderedMap κ α :=
  if m.contains k then m else m.insert k a

def mapValues {β : Type} (m : OrderedMap κ α) (f : κ → α → β) : OrderedMap κ β :=
  ⟨m.entries.map fun e => (e.1, f e.1 e.2), by simpa [Function.comp_def] using m.nodup⟩

/-- The last value of each key, the keys in the order of their first. -/
def ofList (es : List (κ × α)) : OrderedMap κ α :=
  es.foldl (fun m e => m.insert e.1 e.2) empty

@[simp] theorem get?_empty (k : κ) : (empty : OrderedMap κ α).get? k = none := rfl

theorem keys_insert (m : OrderedMap κ α) (k : κ) (a : α) :
    (m.insert k a).keys = if k ∈ m.keys then m.keys else m.keys ++ [k] :=
  map_fst_put k a m.entries

theorem lookup_cons (k k' : κ) (a : α) (es : List (κ × α)) :
    ((k', a) :: es).lookup k = if k' = k then some a else es.lookup k := by
  by_cases h : k' = k
  · simp [h]
  · have other : (k == k') = false := beq_false_of_ne (Ne.symm h)
    rw [List.lookup_cons, other, if_neg h]

theorem lookup_put (k k' : κ) (a : α) (es : List (κ × α)) :
    (put k a es).lookup k' = if k = k' then some a else es.lookup k' := by
  induction es with
  | nil => simp [put, lookup_cons]
  | cons e es ih =>
    obtain ⟨x, b⟩ := e
    by_cases h : x = k
    · subst h
      by_cases h' : x = k' <;> simp [put, lookup_cons, h']
    · by_cases h' : x = k'
      · subst h'
        simp [put, h, Ne.symm h]
      · simp [put, lookup_cons, h, h', ih]

theorem get?_insert (m : OrderedMap κ α) (k k' : κ) (a : α) :
    (m.insert k a).get? k' = if k = k' then some a else m.get? k' :=
  lookup_put k k' a m.entries

theorem lookup_map {β : Type} (k : κ) (f : κ → α → β) (es : List (κ × α)) :
    (es.map fun e => (e.1, f e.1 e.2)).lookup k = (es.lookup k).map (f k) := by
  induction es with
  | nil => rfl
  | cons e es ih =>
    obtain ⟨x, a⟩ := e
    by_cases h : x = k
    · simp [h]
    · simp [lookup_cons, h, ih]

theorem get?_mapValues {β : Type} (m : OrderedMap κ α) (f : κ → α → β) (k : κ) :
    (m.mapValues f).get? k = (m.get? k).map (f k) :=
  lookup_map k f m.entries

/-- Where no key comes twice, every entry is found under its key. -/
theorem lookup_of_mem {es : List (κ × α)} (nodup : (es.map Prod.fst).Nodup) {e : κ × α}
    (he : e ∈ es) : es.lookup e.1 = some e.2 := by
  induction es with
  | nil => cases he
  | cons e' es ih =>
    obtain ⟨fresh, nodup⟩ := List.nodup_cons.1 nodup
    rcases List.mem_cons.1 he with rfl | he
    · exact List.lookup_cons_self
    · have other : e'.1 ≠ e.1 := fun same => fresh (List.mem_map.2 ⟨e, he, same.symm⟩)
      rw [lookup_cons, if_neg other, ih nodup he]

end OrderedMap

end StagedLowering
