import Mathlib.Data.List.Basic
import Mathlib.Data.List.Induction
import StagedLowering.Proofs.ImportReport

/-!
What an import selects. The names that are asked for are told apart into those that the module
exports and those that it does not, each once and in the order in which they first come. Asking for
all that is exported is the same as asking for it by name.
-/
namespace StagedLowering

/-- In the list `a` comes up before `b` does. -/
def Precedes (names : List String) (a b : String) : Prop := names.idxOf a < names.idxOf b

/-- Without repetitions, names stand in the order in which they first come. -/
theorem eraseDups_precedes (names : List String) : names.eraseDups.Pairwise (Precedes names) := by
  -- a name at the end comes later than all before it, whose first places it does not change
  induction names using List.reverseRecOn with
  | nil => exact .nil
  | append_singleton names n ih =>
    have earlier (a : String) (ha : a ∈ names) : (names ++ [n]).idxOf a = names.idxOf a := by
      rw [List.idxOf_append, if_pos ha]
    have before : names.eraseDups.Pairwise (Precedes (names ++ [n])) := by
      refine ih.imp_of_mem fun ha hb h => ?_
      rw [Precedes, earlier _ (List.mem_eraseDups.1 ha), earlier _ (List.mem_eraseDups.1 hb)]
      exact h
    by_cases known : n ∈ names
    · rw [eraseDups_concat_of_mem known]
      exact before
    · rw [eraseDups_concat_of_not_mem known]
      refine List.pairwise_append.2 ⟨before, List.pairwise_singleton _ _, fun a ha b hb => ?_⟩
      have listed := List.mem_eraseDups.1 ha
      rw [List.mem_singleton.1 hb, Precedes, earlier a listed, List.idxOf_append, if_neg known]
      have within := List.idxOf_lt_length_iff.2 listed
      omega

theorem nodup_of_precedes {names names' : List String} (h : names'.Pairwise (Precedes names)) :
    names'.Nodup := by
  refine h.imp fun {a b} before same => ?_
  rw [same] at before
  exact Nat.lt_irrefl _ before

/-- A list of the names that others give, in the order in which they first come, is what is left of
these without repetitions. -/
theorem eq_eraseDups {names names' : List String} (same : ∀ n, n ∈ names ↔ n ∈ names')
    (ordered : names'.Pairwise (Precedes names)) : names' = names.eraseDups := by
  have perm : names'.Perm names.eraseDups := by
    refine (List.perm_ext_iff_of_nodup (nodup_of_precedes ordered)
      (nodup_of_precedes (eraseDups_precedes names))).2 fun n => ?_
    rw [List.mem_eraseDups, same]
  refine perm.eq_of_pairwise (fun a b _ _ h h' => ?_) ordered (eraseDups_precedes names)
  exact absurd h (Nat.lt_asymm h')

theorem OrderedMap.lookup_eq_some_iff {κ α : Type} [DecidableEq κ] {es : List (κ × α)}
    (nodup : (es.map Prod.fst).Nodup) {k : κ} {a : α} : es.lookup k = some a ↔ (k, a) ∈ es := by
  constructor
  · intro found
    obtain ⟨before, after, rfl, -⟩ := List.lookup_eq_some_iff.1 found
    simp
  · exact fun he => lookup_of_mem nodup he

/-- The names are told apart into those of the functions that were found and those that are missing,
each in the order in which the names first come. -/
structure Resolution.Splits (res : Resolution) (names : List String) : Prop where
  covers : ∀ n, n ∈ names ↔ n ∈ res.resolved.map (·.name) ++ res.missing
  once : (res.resolved.map (·.name) ++ res.missing).Nodup
  resolved_ordered : (res.resolved.map (·.name)).Pairwise (Precedes names)
  missing_ordered : res.missing.Pairwise (Precedes names)

namespace Registry

variable {r : Registry} {m : String} {fs : List FunctionDecl}

/-- A module exists if it has functions, be it none. -/
theorem hasModule_eq (r : Registry) (m : String) : r.hasModule m = (r.functions? m).isSome := by
  rw [hasModule, OrderedMap.contains, functions?, Option.isSome_map, Bool.eq_iff_iff,
    decide_eq_true_iff, r.modules.isSome_get? m]

/-- What is found under a name is the function of that name in the module. -/
theorem lookup_eq_some_iff (h : r.functions? m = some fs) {n : String} {d : FunctionDecl} :
    r.lookup m n = some d ↔ d ∈ fs ∧ d.name = n := by
  obtain ⟨contents, hcontents, rfl⟩ := Option.map_eq_some_iff.1 h
  rw [lookup, hcontents, Option.bind_some, Option.map_eq_some_iff, List.mem_map]
  constructor
  · rintro ⟨sig, found, rfl⟩
    exact ⟨⟨(n, sig), (OrderedMap.lookup_eq_some_iff contents.nodup).1 found, rfl⟩, rfl⟩
  · rintro ⟨⟨e, he, rfl⟩, rfl⟩
    exact ⟨e.2, OrderedMap.lookup_of_mem contents.nodup he, rfl⟩

theorem exported?_eq_some_iff (h : r.functions? m = some fs) {n : String} {d : FunctionDecl} :
    r.exported? m n = some d ↔ (d ∈ fs ∧ d.name = n) ∧ d.exported = true := by
  rw [exported?, Option.filter_eq_some_iff, lookup_eq_some_iff h]

/-- Functions carry the name of their module. -/
theorem module_of_mem (h : r.functions? m = some fs) {d : FunctionDecl} (hd : d ∈ fs) :
    d.module = m := by
  obtain ⟨contents, -, rfl⟩ := Option.map_eq_some_iff.1 h
  obtain ⟨e, -, rfl⟩ := List.mem_map.1 hd
  rfl

/-- The names of what the module exports, in the order of definition. -/
def exports (fs : List FunctionDecl) : List String := (fs.filter (·.exported)).map (·.name)

theorem resolve_all_eq (h : r.functions? m = some fs) :
    r.resolve m .all = .ok ⟨fs.filter (·.exported), []⟩ := by
  rw [resolve, h]

theorem resolve_items_eq (h : r.functions? m = some fs) (names : List String) :
    r.resolve m (.items names) =
      .ok ⟨names.eraseDups.filterMap (r.exported? m),
        names.eraseDups.filter fun n => (r.exported? m n).isNone⟩ := by
  rw [resolve, h]
  simp only [distinct_eq_eraseDups]

/-- Whatever names are asked for, they are told apart. -/
theorem splits_of_resolve_items (h : r.functions? m = some fs) {names : List String}
    {res : Resolution} (found : r.resolve m (.items names) = .ok res) : res.Splits names := by
  rw [resolve_items_eq h] at found
  cases found
  have missing : (fun n => (r.exported? m n).isNone) = fun n => !(r.exported? m n).isSome := by
    funext n
    rw [Option.not_isSome]
  have named (n : String) (d : FunctionDecl) (found : r.exported? m n = some d) : d.name = n :=
    ((exported?_eq_some_iff h).1 found).1.2
  have resolved := map_name_filterMap named names.eraseDups
  have perm := List.filter_append_perm (fun n => (r.exported? m n).isSome) names.eraseDups
  have ordered := eraseDups_precedes names
  constructor <;> simp only [resolved, missing]
  · intro n
    rw [perm.mem_iff, List.mem_eraseDups]
  · exact perm.nodup_iff.2 (nodup_of_precedes ordered)
  · exact ordered.filter _
  · exact ordered.filter _

/-- What is found are functions of the module that are exported, and all of these that were asked
for. -/
theorem mem_resolved_iff (h : r.functions? m = some fs) {names : List String} {res : Resolution}
    (found : r.resolve m (.items names) = .ok res) (d : FunctionDecl) :
    d ∈ res.resolved ↔ d.name ∈ names ∧ d ∈ fs ∧ d.exported = true := by
  rw [resolve_items_eq h] at found
  cases found
  simp only [List.mem_filterMap, List.mem_eraseDups, exported?_eq_some_iff h]
  constructor
  · rintro ⟨n, asked, ⟨hd, rfl⟩, exported⟩
    exact ⟨asked, hd, exported⟩
  · rintro ⟨asked, hd, exported⟩
    exact ⟨d.name, asked, ⟨hd, rfl⟩, exported⟩

/-- To ask for what is exported by name, in its order, is to ask for all of it. -/
theorem resolve_items_eq_resolve_all_iff (h : r.functions? m = some fs) (names : List String) :
    r.resolve m (.items names) = r.resolve m .all ↔
      (∀ n, n ∈ names ↔ n ∈ exports fs) ∧ (exports fs).Pairwise (Precedes names) := by
  rw [resolve_all_eq h]
  constructor
  · intro same
    have splits := splits_of_resolve_items h same
    exact ⟨by simpa [exports] using splits.covers, splits.resolved_ordered⟩
  · rintro ⟨same, ordered⟩
    have own (d : FunctionDecl) (hd : d ∈ fs.filter (·.exported)) :
        r.exported? m d.name = some d := by
      obtain ⟨hd, exported⟩ := List.mem_filter.1 hd
      exact (exported?_eq_some_iff h).2 ⟨⟨hd, rfl⟩, exported⟩
    have resolved : (exports fs).filterMap (r.exported? m) = fs.filter (·.exported) := by
      rw [exports, List.filterMap_map]
      exact (List.filterMap_congr own).trans List.filterMap_some
    have missing : ((exports fs).filter fun n => (r.exported? m n).isNone) = [] := by
      rw [List.filter_eq_nil_iff]
      intro n hn
      obtain ⟨d, hd, rfl⟩ := List.mem_map.1 hn
      simp [own d hd]
    rw [resolve_items_eq h, ← eq_eraseDups same ordered, resolved, missing]

/-- A selection by name comes to exactly the distinct names, told apart by what the module exports;
a selection of all comes to what the module exports, in the order of definition, and so does a
selection of just that by name. From a module that does not exist nothing can be selected. -/
theorem resolve_exact (r : Registry) (m : String) :
    (r.hasModule m = false → ∀ selection, r.resolve m selection = .error (.unknownModule m)) ∧
    (r.hasModule m = true → ∃ fs, r.functions? m = some fs ∧
      (∀ ms ds, Reached r ms ds → fs = definedIn ds m) ∧
      r.resolve m .all = .ok ⟨fs.filter (·.exported), []⟩ ∧
      ∀ names, ∃ res, r.resolve m (.items names) = .ok res ∧ res.Splits names ∧
        (∀ n ∈ names, n ∈ res.resolved.map (·.name) ↔ ∃ d ∈ fs, d.name = n ∧ d.exported = true) ∧
        (∀ d ∈ res.resolved, d.module = m ∧ r.lookup m d.name = some d) ∧
        (r.resolve m (.items names) = r.resolve m .all ↔
          (∀ n, n ∈ names ↔ n ∈ exports fs) ∧ (exports fs).Pairwise (Precedes names))) := by
  rw [hasModule_eq]
  constructor
  · intro unknown selection
    rw [Option.isSome_eq_false_iff, Option.isNone_iff_eq_none] at unknown
    rw [resolve, unknown]
  · intro known
    obtain ⟨fs, hfs⟩ := Option.isSome_iff_exists.1 known
    refine ⟨fs, hfs, fun ms ds reached => ?_, resolve_all_eq hfs, fun names => ?_⟩
    · have history := reached.functions?_eq m
      rw [hfs] at history
      split at history
      · exact Option.some.inj history
      · cases history
    · have found := resolve_items_eq hfs names
      have mem := mem_resolved_iff hfs found
      refine ⟨_, found, splits_of_resolve_items hfs found, fun n asked => ?_, fun d hd => ?_,
        resolve_items_eq_resolve_all_iff hfs names⟩
      · rw [List.mem_map]
        constructor
        · rintro ⟨d, hd, rfl⟩
          obtain ⟨-, hd, exported⟩ := (mem d).1 hd
          exact ⟨d, hd, rfl, exported⟩
        · rintro ⟨d, hd, rfl, exported⟩
          exact ⟨d, (mem d).2 ⟨asked, hd, exported⟩, rfl⟩
      · obtain ⟨-, hd, -⟩ := (mem d).1 hd
        exact ⟨module_of_mem hfs hd, (lookup_eq_some_iff hfs).2 ⟨hd, rfl⟩⟩

end Registry

end StagedLowering
