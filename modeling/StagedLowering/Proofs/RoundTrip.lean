import StagedLowering.Proofs.Layouts

/-!
Encoders and decoders of the same data agree: what is decoded from any spelling of a value is that
value. For data that nests in itself the argument goes by the brackets that are left to open, since
each layer of a decoder opens one before it hands over to the next.
-/
namespace StagedLowering

namespace Ty

theorem layer_reads (self : Decoder Ty) (limit : Nat) (ih : self.ReadsBelow layout limit) :
    (layer self).ReadsBelow layout (limit + 1) := by
  intro room below ty deep j spelled
  cases ty with
  | int | float | string | bool | nil | regex | unknown =>
    exact JsonVariant.bind_bare spelled deep fun _ => rfl
  | named name => exact JsonVariant.bind_single Decoder.reads_string spelled deep fun _ => rfl
  | function params result =>
    rw [layout, layouts_eq_map] at deep spelled
    obtain ⟨r, built, less, told⟩ :=
      JsonVariant.exists_of_record ["params", "ret"] (by decide) rfl spelled deep
    simp only [List.forall_mem_cons] at told
    obtain ⟨hparams, hret, -⟩ := told
    -- what is left inside the record is what `self` reads
    have within : r.room < limit := by omega
    refine (built fun _ => rfl).trans ?_
    rw [ih.list.required hparams within, ih.required hret within]
    rfl

theorem decode_reads : decode.Reads layout := Decoder.reads_nested layer_reads

end Ty

theorem Literal.decode_reads : Literal.decode.Reads layout := by
  intro limit room below l deep j spelled
  cases l with
  | int value => exact JsonVariant.bind_single Decoder.reads_int64 spelled deep fun _ => rfl
  | float value => exact JsonVariant.bind_single Decoder.reads_double spelled deep fun _ => rfl
  | str value => exact JsonVariant.bind_single Decoder.reads_string spelled deep fun _ => rfl
  | bool value => exact JsonVariant.bind_single Decoder.reads_bool spelled deep fun _ => rfl
  | nil => exact JsonVariant.bind_bare spelled deep fun _ => rfl

namespace Pattern

theorem layer_reads (self : Decoder Pattern) (limit : Nat) (ih : self.ReadsBelow layout limit) :
    (layer self).ReadsBelow layout (limit + 1) := by
  intro room below p deep j spelled
  cases p with
  | wildcard => exact JsonVariant.bind_bare spelled deep fun _ => rfl
  | binding name => exact JsonVariant.bind_single Decoder.reads_string spelled deep fun _ => rfl
  | literal value => exact JsonVariant.bind_single Literal.decode_reads spelled deep fun _ => rfl
  | constructor name fields =>
    rw [layout, layouts_eq_map] at deep spelled
    obtain ⟨r, built, less, told⟩ :=
      JsonVariant.exists_of_record ["name", "fields"] (by decide) rfl spelled deep
    simp only [List.forall_mem_cons] at told
    obtain ⟨hname, hfields, -⟩ := told
    have within : r.room < limit := by omega
    refine (built fun _ => rfl).trans ?_
    rw [(Decoder.reads_string _).required hname within, ih.list.required hfields within]
    rfl

theorem decode_reads : decode.Reads layout := Decoder.reads_nested layer_reads

end Pattern

theorem ImportSelection.decode_reads : ImportSelection.decode.Reads layout := by
  intro limit room below s deep j spelled
  cases s with
  | items names =>
    exact JsonVariant.bind_single Decoder.reads_string.list spelled deep fun _ => rfl
  | all => exact JsonVariant.bind_bare spelled deep fun _ => rfl

theorem Layout.string_present (s : String) : ¬ (Layout.string s).Spelled .null := nofun

theorem ImportDecl.decode_reads : ImportDecl.decode.Reads layout := by
  intro limit room below d deep j spelled
  obtain ⟨r, read, less, told⟩ :=
    JsonRecord.exists_of_spelled ["path", "selection", "origin"] (by decide) rfl spelled deep
  simp only [List.forall_mem_cons] at told
  obtain ⟨hpath, hselection, horigin, -⟩ := told
  rw [decode, read]
  simp only [Option.bind_eq_bind, Option.bind_some, (Decoder.reads_string _).required hpath less,
    (ImportSelection.decode_reads _).required hselection less,
    (Decoder.reads_string _).optional Layout.string_present horigin less]

namespace Source

-- A guard that is there is never taken for one that is not.
theorem layout_present (s : Source) : ¬ s.layout.Spelled .null := by
  cases s <;> nofun

theorem arm_reads {self : Decoder Source} {limit : Nat} (ih : self.ReadsBelow layout limit) :
    (MatchArm.decode self).ReadsBelow armLayout limit := by
  intro room below arm deep j spelled
  rw [armLayout_eq] at deep spelled
  obtain ⟨r, read, less, told⟩ :=
    JsonRecord.exists_of_spelled ["pattern", "guard", "body"] (by decide) rfl spelled deep
  simp only [List.forall_mem_cons] at told
  obtain ⟨hpattern, hguard, hbody, -⟩ := told
  have within : r.room < limit := by omega
  rw [MatchArm.decode, read]
  simp only [Option.bind_eq_bind, Option.bind_some,
    (Pattern.decode_reads _).required hpattern within, ih.optional layout_present hguard within,
    ih.required hbody within]

theorem layer_reads (self : Decoder Source) (limit : Nat) (ih : self.ReadsBelow layout limit) :
    (layer self).ReadsBelow layout (limit + 1) := by
  intro room below s deep j spelled
  cases s with
  | number value => exact JsonVariant.bind_single Decoder.reads_int64 spelled deep fun _ => rfl
  | string value => exact JsonVariant.bind_single Decoder.reads_string spelled deep fun _ => rfl
  | boolean value => exact JsonVariant.bind_single Decoder.reads_bool spelled deep fun _ => rfl
  | identifier name => exact JsonVariant.bind_single Decoder.reads_string spelled deep fun _ => rfl
  | regex pattern flags =>
    obtain ⟨r, built, less, told⟩ :=
      JsonVariant.exists_of_record ["pattern", "flags"] (by decide) rfl spelled deep
    simp only [List.forall_mem_cons] at told
    obtain ⟨hpattern, hflags, -⟩ := told
    refine (built fun _ => rfl).trans ?_
    rw [(Decoder.reads_string _).required hpattern less,
      (Decoder.reads_string _).required hflags less]
    rfl
  | binary left op right =>
    obtain ⟨r, built, less, told⟩ :=
      JsonVariant.exists_of_record ["left", "op", "right"] (by decide) rfl spelled deep
    simp only [List.forall_mem_cons] at told
    obtain ⟨hleft, hop, hright, -⟩ := told
    have within : r.room < limit := by omega
    refine (built fun _ => rfl).trans ?_
    rw [ih.required hleft within, (Decoder.reads_string _).required hop within,
      ih.required hright within]
    rfl
  | call callee args =>
    rw [layout, layouts_eq_map] at deep spelled
    obtain ⟨r, built, less, told⟩ :=
      JsonVariant.exists_of_record ["callee", "args"] (by decide) rfl spelled deep
    simp only [List.forall_mem_cons] at told
    obtain ⟨hcallee, hargs, -⟩ := told
    have within : r.room < limit := by omega
    refine (built fun _ => rfl).trans ?_
    rw [ih.required hcallee within, ih.list.required hargs within]
    rfl
  | matching scrutinee arms =>
    rw [layout, armLayouts_eq_map] at deep spelled
    obtain ⟨r, built, less, told⟩ :=
      JsonVariant.exists_of_record ["scrutinee", "arms"] (by decide) rfl spelled deep
    simp only [List.forall_mem_cons] at told
    obtain ⟨hscrutinee, harms, -⟩ := told
    have within : r.room < limit := by omega
    refine (built fun _ => rfl).trans ?_
    rw [ih.required hscrutinee within, (arm_reads ih).list.required harms within]
    rfl
  | importing d => exact JsonVariant.bind_single ImportDecl.decode_reads spelled deep fun _ => rfl

theorem decode_reads : decode.Reads layout := Decoder.reads_nested layer_reads

end Source

theorem bindings_read :
    (Decoder.list (Decoder.pair .string Ty.decode)).Reads bindingsLayout :=
  (Decoder.reads_string.pair Ty.decode_reads).list

namespace HighIR

theorem layout_present (e : HighIR) : ¬ e.layout.Spelled .null := by
  cases e <;> nofun

theorem arm_reads {self : Decoder HighIR} {limit : Nat} (ih : self.ReadsBelow layout limit) :
    (HighArm.decode self).ReadsBelow armLayout limit := by
  intro room below arm deep j spelled
  rw [armLayout_eq] at deep spelled
  obtain ⟨r, read, less, told⟩ :=
    JsonRecord.exists_of_spelled ["pattern", "bindings", "guard", "body"] (by decide) rfl spelled
      deep
  simp only [List.forall_mem_cons] at told
  obtain ⟨hpattern, hbindings, hguard, hbody, -⟩ := told
  have within : r.room < limit := by omega
  rw [HighArm.decode, read]
  simp only [Option.bind_eq_bind, Option.bind_some,
    (Pattern.decode_reads _).required hpattern within, (bindings_read _).required hbindings within,
    ih.optional layout_present hguard within, ih.required hbody within]

theorem layer_reads (self : Decoder HighIR) (limit : Nat) (ih : self.ReadsBelow layout limit) :
    (layer self).ReadsBelow layout (limit + 1) := by
  intro room below e deep j spelled
  cases e with
  | literal value => exact JsonVariant.bind_single Literal.decode_reads spelled deep fun _ => rfl
  | identifier name ty =>
    obtain ⟨r, built, less, told⟩ :=
      JsonVariant.exists_of_record ["name", "ty"] (by decide) rfl spelled deep
    simp only [List.forall_mem_cons] at told
    obtain ⟨hname, hty, -⟩ := told
    refine (built fun _ => rfl).trans ?_
    rw [(Decoder.reads_string _).required hname less, (Ty.decode_reads _).required hty less]
    rfl
  | binary left op right ty =>
    obtain ⟨r, built, less, told⟩ :=
      JsonVariant.exists_of_record ["left", "op", "right", "ty"] (by decide) rfl spelled deep
    simp only [List.forall_mem_cons] at told
    obtain ⟨hleft, hop, hright, hty, -⟩ := told
    have within : r.room < limit := by omega
    refine (built fun _ => rfl).trans ?_
    rw [ih.required hleft within, (Decoder.reads_string _).required hop within,
      ih.required hright within, (Ty.decode_reads _).required hty within]
    rfl
  | regex pattern flags =>
    obtain ⟨r, built, less, told⟩ :=
      JsonVariant.exists_of_record ["pattern", "flags"] (by decide) rfl spelled deep
    simp only [List.forall_mem_cons] at told
    obtain ⟨hpattern, hflags, -⟩ := told
    refine (built fun _ => rfl).trans ?_
    rw [(Decoder.reads_string _).required hpattern less,
      (Decoder.reads_string _).required hflags less]
    rfl
  | call callee args ty =>
    rw [layout, layouts_eq_map] at deep spelled
    obtain ⟨r, built, less, told⟩ :=
      JsonVariant.exists_of_record ["callee", "args", "ty"] (by decide) rfl spelled deep
    simp only [List.forall_mem_cons] at told
    obtain ⟨hcallee, hargs, hty, -⟩ := told
    have within : r.room < limit := by omega
    refine (built fun _ => rfl).trans ?_
    rw [(Decoder.reads_string _).required hcallee within, ih.list.required hargs within,
      (Ty.decode_reads _).required hty within]
    rfl
  | matching scrutinee arms resultType =>
    rw [layout, armLayouts_eq_map] at deep spelled
    obtain ⟨r, built, less, told⟩ :=
      JsonVariant.exists_of_record ["scrutinee", "arms", "result_type"] (by decide) rfl spelled deep
    simp only [List.forall_mem_cons] at told
    obtain ⟨hscrutinee, harms, htype, -⟩ := told
    have within : r.room < limit := by omega
    refine (built fun _ => rfl).trans ?_
    rw [ih.required hscrutinee within, (arm_reads ih).list.required harms within,
      (Ty.decode_reads _).required htype within]
    rfl
  | importing module functions =>
    obtain ⟨r, built, less, told⟩ :=
      JsonVariant.exists_of_record ["module", "functions"] (by decide) rfl spelled deep
    simp only [List.forall_mem_cons] at told
    obtain ⟨hmodule, hfunctions, -⟩ := told
    refine (built fun _ => rfl).trans ?_
    rw [(Decoder.reads_string _).required hmodule less,
      (Decoder.reads_string.list _).required hfunctions less]
    rfl

theorem decode_reads : decode.Reads layout := Decoder.reads_nested layer_reads

end HighIR

theorem TypedValue.decode_reads : TypedValue.decode.Reads layout := by
  intro limit room below v deep j spelled
  obtain ⟨r, read, less, told⟩ :=
    JsonRecord.exists_of_spelled ["node", "ty"] (by decide) rfl spelled deep
  simp only [List.forall_mem_cons] at told
  obtain ⟨hnode, hty, -⟩ := told
  rw [decode, read]
  simp only [Option.bind_eq_bind, Option.bind_some, (HighIR.decode_reads _).required hnode less,
    (Ty.decode_reads _).required hty less]

theorem Padding.decode_reads : Padding.decode.Reads layout := by
  intro limit room below p deep j spelled
  obtain ⟨r, read, less, told⟩ :=
    JsonRecord.exists_of_spelled ["before", "after"] (by decide) rfl spelled deep
  simp only [List.forall_mem_cons] at told
  obtain ⟨hbefore, hafter, -⟩ := told
  rw [decode, read]
  simp only [Option.bind_eq_bind, Option.bind_some, (Decoder.reads_uint8 _).required hbefore less,
    (Decoder.reads_uint8 _).required hafter less]

namespace Target

theorem layer_reads (self : Decoder Target) (limit : Nat) (ih : self.ReadsBelow layout limit) :
    (layer self).ReadsBelow layout (limit + 1) := by
  intro room below t deep j spelled
  cases t with
  | identifier name => exact JsonVariant.bind_single Decoder.reads_string spelled deep fun _ => rfl
  | number text => exact JsonVariant.bind_single Decoder.reads_string spelled deep fun _ => rfl
  | string value => exact JsonVariant.bind_single Decoder.reads_string spelled deep fun _ => rfl
  | boolean value => exact JsonVariant.bind_single Decoder.reads_bool spelled deep fun _ => rfl
  | nil => exact JsonVariant.bind_bare spelled deep fun _ => rfl
  | binary left operator right padding =>
    obtain ⟨r, built, less, told⟩ :=
      JsonVariant.exists_of_record ["left", "operator", "right", "padding"] (by decide) rfl spelled
        deep
    simp only [List.forall_mem_cons] at told
    obtain ⟨hleft, hoperator, hright, hpadding, -⟩ := told
    have within : r.room < limit := by omega
    refine (built fun _ => rfl).trans ?_
    rw [ih.required hleft within, (Decoder.reads_string _).required hoperator within,
      ih.required hright within, (Padding.decode_reads _).required hpadding within]
    rfl
  | call callee args =>
    rw [layout, layouts_eq_map] at deep spelled
    obtain ⟨r, built, less, told⟩ :=
      JsonVariant.exists_of_record ["callee", "args"] (by decide) rfl spelled deep
    simp only [List.forall_mem_cons] at told
    obtain ⟨hcallee, hargs, -⟩ := told
    have within : r.room < limit := by omega
    refine (built fun _ => rfl).trans ?_
    rw [ih.required hcallee within, ih.list.required hargs within]
    rfl

theorem decode_reads : decode.Reads layout := Decoder.reads_nested layer_reads

end Target

theorem Node.decode_reads : Node.decode.Reads layout := by
  intro limit room below n deep j spelled
  cases n with
  | source tree => exact JsonVariant.bind_single Source.decode_reads spelled deep fun _ => rfl
  | high tree => exact JsonVariant.bind_single HighIR.decode_reads spelled deep fun _ => rfl
  | target tree => exact JsonVariant.bind_single Target.decode_reads spelled deep fun _ => rfl

theorem FunctionDecl.decode_reads : FunctionDecl.decode.Reads layout := by
  intro limit room below d deep j spelled
  obtain ⟨r, read, less, told⟩ :=
    JsonRecord.exists_of_spelled ["name", "module", "params", "returns", "exported"] (by decide) rfl
      spelled deep
  simp only [List.forall_mem_cons] at told
  obtain ⟨hname, hmodule, hparams, hreturns, hexported, -⟩ := told
  rw [decode, read]
  simp only [Option.bind_eq_bind, Option.bind_some, (Decoder.reads_string _).required hname less,
    (Decoder.reads_string _).withDefault hmodule less,
    (Ty.decode_reads.list _).withDefault hparams less,
    (Ty.decode_reads _).required hreturns less, (Decoder.reads_bool _).withDefault hexported less]

theorem Config.decode_reads : Config.decode.Reads layout := by
  intro limit room below c deep j spelled
  obtain ⟨r, read, less, told⟩ :=
    JsonRecord.exists_of_spelled
      ["regex_constructor", "regex_case_insensitive_constructor", "case_insensitive_flag",
       "delegate_key", "max_lowering_depth", "collect_stats"] (by decide) rfl spelled deep
  simp only [List.forall_mem_cons] at told
  obtain ⟨hregex, hinsensitive, hflag, hkey, hdepth, hstats, -⟩ := told
  rw [decode, read]
  simp only [Option.bind_eq_bind, Option.bind_some,
    (Decoder.reads_string _).withDefault hregex less,
    (Decoder.reads_string _).withDefault hinsensitive less,
    (Decoder.reads_char _).withDefault hflag less,
    (Decoder.reads_string _).withDefault hkey less,
    (Decoder.reads_uint64 _).withDefault hdepth less,
    (Decoder.reads_bool _).withDefault hstats less]

/-- Decoding turns what is encoded, and every other spelling of it, back into the value. -/
def RoundTrips {α : Type} (decode : Decoder α) (encode : α → Json) (layout : α → Layout) : Prop :=
  ∀ a, (layout a).json = encode a ∧
    ∀ room, (layout a).depth ≤ room →
      ((layout a).Finite → decode room (encode a) = some a) ∧
        ∀ j, (layout a).Spelled j → decode room j = some a

theorem RoundTrips.of_reads {α : Type} {decode : Decoder α} {encode : α → Json}
    {layout : α → Layout}
    (written : ∀ a, (layout a).json = encode a) (reads : decode.Reads layout) :
    RoundTrips decode encode layout := by
  refine fun a => ⟨written a, fun room deep => ?_⟩
  have read := reads (room + 1) room (Nat.lt_succ_self room) a deep
  exact ⟨fun finite => written a ▸ read _ (Layout.spelled_json _ finite), read⟩

/-- Trees, their parts, declarations and settings all come back from any spelling. -/
theorem data_round_trips :
    RoundTrips Node.decode Node.encode Node.layout ∧
    RoundTrips Source.decode Source.encode Source.layout ∧
    RoundTrips HighIR.decode HighIR.encode HighIR.layout ∧
    RoundTrips Target.decode Target.encode Target.layout ∧
    RoundTrips Pattern.decode Pattern.encode Pattern.layout ∧
    RoundTrips Ty.decode Ty.encode Ty.layout ∧
    RoundTrips Literal.decode Literal.encode Literal.layout ∧
    RoundTrips TypedValue.decode TypedValue.encode TypedValue.layout ∧
    RoundTrips (MatchArm.decode Source.decode) Source.encodeArm Source.armLayout ∧
    RoundTrips (HighArm.decode HighIR.decode) HighIR.encodeArm HighIR.armLayout ∧
    RoundTrips ImportDecl.decode ImportDecl.encode ImportDecl.layout ∧
    RoundTrips FunctionDecl.decode FunctionDecl.encode FunctionDecl.layout ∧
    RoundTrips Padding.decode Padding.encode Padding.layout ∧
    RoundTrips Config.decode Config.encode Config.layout :=
  ⟨.of_reads Node.json_layout Node.decode_reads,
    .of_reads Source.json_layout Source.decode_reads,
    .of_reads HighIR.json_layout HighIR.decode_reads,
    .of_reads Target.json_layout Target.decode_reads,
    .of_reads Pattern.json_layout Pattern.decode_reads,
    .of_reads Ty.json_layout Ty.decode_reads,
    .of_reads Literal.json_layout Literal.decode_reads,
    .of_reads TypedValue.json_layout TypedValue.decode_reads,
    .of_reads Source.json_armLayout fun limit => Source.arm_reads (Source.decode_reads limit),
    .of_reads HighIR.json_armLayout fun limit => HighIR.arm_reads (HighIR.decode_reads limit),
    .of_reads ImportDecl.json_layout ImportDecl.decode_reads,
    .of_reads FunctionDecl.json_layout FunctionDecl.decode_reads,
    .of_reads Padding.json_layout Padding.decode_reads,
    .of_reads Config.json_layout Config.decode_reads⟩

end StagedLowering
