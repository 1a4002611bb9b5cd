import StagedLowering.Proofs.Stage

/-!
What a context lacks. The names of absent keys come in the order in which they are asked for, so
the first absent key begins the list, and a list without absent keys is empty.
-/
namespace StagedLowering

/-- The error that names absent collaborators: the same one under two wordings. -/
def LoweringError.missing : List String → LoweringError
  | [key] => .missingCollaborator key
  | keys => .missingCollaborators keys

/-- Which wording it is depends on whether it is one name or more. -/
theorem LoweringError.missing_cases {names : List String} (h : names ≠ []) :
    (∃ name, names = [name] ∧ missing names = .missingCollaborator name) ∨
      2 ≤ names.length ∧ missing names = .missingCollaborators names := by
  match names with
  | [] => exact absurd rfl h
  | [name] => exact .inl ⟨name, rfl, rfl⟩
  | _ :: _ :: _ => exact .inr ⟨by simp, rfl⟩

/-- The collaborators that a failure names as absent, if that is what it reports. -/
def Failure.missingKeys? : Failure → Option (List String)
  | .lowering (.missingCollaborator key) => some [key]
  | .lowering (.missingCollaborators keys) => some keys
  | _ => none

@[simp] theorem Failure.missingKeys?_missing (keys : List String) :
    (Failure.lowering (.missing keys)).missingKeys? = some keys := by
  match keys with
  | [] => rfl
  | [_] => rfl
  | _ :: _ :: _ => rfl

namespace Context

variable {ω ω' δ δ' : Type} (c : Context ω δ)

/-- The names found absent so far, and this key's name if it is absent too. -/
def noteAbsent (names : List String) (k : Key) : List String :=
  if !c.has k && !names.contains k.text then names ++ [k.text] else names

theorem absent_eq_foldl (keys : List Key) : c.absent keys = keys.foldl c.noteAbsent [] := rfl

/-- Names that are found stay, in front of the later ones. -/
theorem noteAbsent_foldl_extends (names : List String) (keys : List Key) :
    names <+: keys.foldl c.noteAbsent names := by
  induction keys generalizing names with
  | nil => exact List.prefix_refl names
  | cons k keys ih =>
    have step : names <+: c.noteAbsent names k := by
      unfold noteAbsent
      split
      · exact List.prefix_append names _
      · exact List.prefix_refl names
    exact step.trans (ih _)

theorem absent_cons_of_has {k : Key} (keys : List Key) (h : c.has k = true) :
    c.absent (k :: keys) = c.absent keys := by
  simp [absent_eq_foldl, noteAbsent, h]

/-- The first absent key is the first one named. -/
theorem text_prefix_absent {k : Key} (keys : List Key) (h : c.has k = false) :
    [k.text] <+: c.absent (k :: keys) := by
  have first : c.noteAbsent [] k = [k.text] := by simp [noteAbsent, h]
  rw [absent_eq_foldl, List.foldl_cons, first]
  exact c.noteAbsent_foldl_extends [k.text] keys

theorem absent_eq_nil_iff (keys : List Key) :
    c.absent keys = [] ↔ ∀ k ∈ keys, c.has k = true := by
  refine ⟨fun none => ?_, c.absent_eq_nil keys⟩
  induction keys with
  | nil => simp
  | cons k keys ih =>
    cases h : c.has k with
    | false =>
      have named := c.text_prefix_absent keys h
      rw [none] at named
      exact absurd (List.prefix_nil.1 named) (by simp)
    | true =>
      rw [c.absent_cons_of_has keys h] at none
      exact List.forall_mem_cons.2 ⟨h, ih none⟩

/-- Contexts that have the same of the keys lack the same. -/
theorem absent_congr {c : Context ω δ} {c' : Context ω' δ'} {keys : List Key}
    (h : ∀ k ∈ keys, c.has k = c'.has k) : c.absent keys = c'.absent keys := by
  rw [absent_eq_foldl, absent_eq_foldl]
  generalize ([] : List String) = names
  induction keys generalizing names with
  | nil => rfl
  | cons k keys ih =>
    have step : c.noteAbsent names k = c'.noteAbsent names k := by
      simp only [noteAbsent, h k List.mem_cons_self]
    rw [List.foldl_cons, List.foldl_cons, step]
    exact ih (fun k' hk' => h k' (List.mem_cons_of_mem k hk')) _

theorem require_eq_error {keys : List Key} (h : c.absent keys ≠ []) :
    c.require keys = .error (.missing (c.absent keys)) := by
  unfold require
  match hkeys : c.absent keys with
  | [] => exact absurd hkeys h
  | [_] => rfl
  | _ :: _ :: _ => rfl

end Context

end StagedLowering
