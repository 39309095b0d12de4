import CommandSpec.Proofs.Outline
import CommandSpec.Proofs.Registry

/-! The fields of one option record. They can be planned exactly when every entry of the
option list is sound and no field name is claimed twice (`planFields_eq_ok_iff`); otherwise
the error states a fault that the list really has (`planFields_fault`). -/
namespace CommandSpec
open Naming

/-- The entry is an option spelled out in place, with a name, a known type, and no default
if it is required. -/
def OptionEntry.Sound : OptionEntry → Prop
  | inline o => Text.isBlankText o.name = false ∧ (∃ scalar : ScalarType, scalar.tag = o.typeTag) ∧
      ¬(o.required = true ∧ o.default.isSome = true)
  | reference _ => False

/-- The error states something that is wrong with one of the options declared at `path`. -/
def PlanError.OptionFault (path : List String) (options : List OptionEntry) : PlanError → Prop
  | .unsupportedType tag =>
    ∃ o, .inline o ∈ options ∧ o.typeTag = tag ∧ ∀ scalar : ScalarType, scalar.tag ≠ tag
  | .requiredWithDefault at' =>
    ∃ o, .inline o ∈ options ∧ at' = optionPath path o.name ∧
      o.required = true ∧ o.default.isSome = true
  | .unnamedOption at' =>
    (∃ o, .inline o ∈ options ∧ at' = optionPath path "<unnamed>" ∧
      Text.isBlankText o.name = true) ∨
    ∃ key, .reference key ∈ options ∧ at' = optionPath path key
  | .duplicateName .. => False

theorem PlanError.OptionFault.mono {path : List String} {options more : List OptionEntry}
    {e : PlanError} (h : e.OptionFault path options) (hs : options ⊆ more) :
    e.OptionFault path more := by
  cases e with
  | unsupportedType tag =>
    obtain ⟨o, ho, h⟩ := h
    exact ⟨o, hs ho, h⟩
  | requiredWithDefault at' =>
    obtain ⟨o, ho, h⟩ := h
    exact ⟨o, hs ho, h⟩
  | unnamedOption at' =>
    rcases h with ⟨o, ho, h⟩ | ⟨key, hk, h⟩
    · exact Or.inl ⟨o, hs ho, h⟩
    · exact Or.inr ⟨key, hs hk, h⟩
  | duplicateName => exact h

/-- An option that is reported is not sound. -/
theorem PlanError.OptionFault.not_sound {path : List String} {options : List OptionEntry}
    {e : PlanError} (h : e.OptionFault path options) : ¬∀ entry ∈ options, entry.Sound := by
  intro hs
  cases e with
  | unsupportedType tag =>
    obtain ⟨o, ho, rfl, hunknown⟩ := h
    obtain ⟨-, ⟨scalar, hscalar⟩, -⟩ := hs _ ho
    exact hunknown scalar hscalar
  | requiredWithDefault at' =>
    obtain ⟨o, ho, -, hr⟩ := h
    exact (hs _ ho).2.2 hr
  | unnamedOption at' =>
    rcases h with ⟨o, ho, -, hb⟩ | ⟨key, hk, -⟩
    · have hnamed := (hs _ ho).1
      rw [hb] at hnamed
      cases hnamed
    · exact hs _ hk
  | duplicateName name first second => exact h

/-! ## The type of one field -/

theorem ScalarType.ofTag?_eq_none_iff (tag : String) :
    ofTag? tag = none ↔ ∀ scalar : ScalarType, scalar.tag ≠ tag := by
  unfold ofTag?
  rw [List.find?_eq_none]
  constructor
  · intro h scalar he
    exact h scalar (by cases scalar <;> decide) (by simp [he])
  · intro h scalar _
    simpa using h scalar

namespace OptionSpec

theorem fieldType_eq_ok_iff (o : OptionSpec) (path : List String) (type : FieldType) :
    o.fieldType path = .ok type ↔
      ScalarType.ofTag? o.typeTag = some type.scalar ∧
        ¬(o.required = true ∧ o.default.isSome = true) ∧ type.kind = o.plainKind := by
  obtain ⟨scalar, kind⟩ := type
  unfold fieldType fieldKind plainKind
  cases ScalarType.ofTag? o.typeTag with
  | none => simp
  | some known =>
    cases o.required <;> cases o.default.isSome <;> simp [Except.map, eq_comm]

theorem fieldType_fault (o : OptionSpec) (path : List String) (e : PlanError)
    (h : o.fieldType path = .error e) : e.OptionFault path [.inline o] := by
  unfold fieldType at h
  split at h
  · rename_i hn
    cases h
    exact ⟨o, List.mem_singleton_self _, rfl, (ScalarType.ofTag?_eq_none_iff _).mp hn⟩
  · unfold fieldKind at h
    split at h
    · rename_i hr hd
      cases h
      exact ⟨o, List.mem_singleton_self _, rfl, hr, hd⟩
    · cases h
    · cases h

/-- The field as planned from its type is the field read off the option. -/
theorem field_eq_of_fieldType (o : OptionSpec) (path : List String) (type : FieldType)
    (h : o.fieldType path = .ok type) :
    o.field = ⟨fieldName o.name, o.name, type.typeText, o.description⟩ ∧
      o.importPath? = type.scalar.importPath? := by
  obtain ⟨hs, -, hk⟩ := (fieldType_eq_ok_iff o path type).mp h
  unfold field importPath?
  rw [hs, ← hk]
  exact ⟨rfl, rfl⟩

end OptionSpec

theorem OptionEntry.sound_inline_iff (o : OptionSpec) (path : List String) :
    (inline o).Sound ↔
      Text.isBlankText o.name = false ∧ ∃ type, o.fieldType path = .ok type := by
  have htag : (∃ scalar : ScalarType, scalar.tag = o.typeTag) ↔
      ∃ scalar, ScalarType.ofTag? o.typeTag = some scalar := by
    rw [← Option.ne_none_iff_exists', ne_eq, ScalarType.ofTag?_eq_none_iff]
    simp
  simp only [Sound, htag]
  constructor
  · rintro ⟨hb, ⟨scalar, hs⟩, hr⟩
    exact ⟨hb, ⟨scalar, o.plainKind⟩, (o.fieldType_eq_ok_iff path _).mpr ⟨hs, hr, rfl⟩⟩
  · rintro ⟨hb, type, ht⟩
    obtain ⟨hs, hr, -⟩ := (o.fieldType_eq_ok_iff path type).mp ht
    exact ⟨hb, ⟨type.scalar, hs⟩, hr⟩

/-! ## All fields of a record -/

namespace Draft

theorem planFields_inline (path : List String) (owners : Registry) (imports : List String)
    (o : OptionSpec) (rest : List OptionEntry) :
    planFields path owners imports (.inline o :: rest) =
      if Text.isBlankText o.name then
        .error (.unnamedOption (optionPath path "<unnamed>"))
      else do
        let type ← o.fieldType path
        let owners ← owners.claim (fieldName o.name) (optionPath path o.name)
        let planned ←
          planFields path owners (insertNames imports type.scalar.importPath?.toList) rest
        return (⟨fieldName o.name, o.name, type.typeText, o.description⟩ :: planned.1,
          planned.2) := by
  rw [planFields]
  split
  · rfl
  · refine bind_congr fun type => ?_
    cases type.scalar.importPath? <;> rfl

private theorem insertNames_importPaths (imports : List String) (o : OptionSpec)
    (rest : List OptionEntry) :
    insertNames imports ((inlineOptions (.inline o :: rest)).filterMap OptionSpec.importPath?) =
      insertNames (insertNames imports o.importPath?.toList)
        ((inlineOptions rest).filterMap OptionSpec.importPath?) := by
  have hc : inlineOptions (.inline o :: rest) = o :: inlineOptions rest := rfl
  rw [hc, List.filterMap_cons]
  cases o.importPath? <;> rfl

private theorem fieldClaims_inline (path : List String) (o : OptionSpec)
    (rest : List OptionEntry) :
    fieldClaims path (.inline o :: rest) =
      (fieldName o.name, optionPath path o.name) :: fieldClaims path rest := rfl

private theorem free_fieldClaims_inline (owners : Registry) (path : List String) (o : OptionSpec)
    (rest : List OptionEntry) :
    owners.Free (fieldClaims path (.inline o :: rest)) ↔
      fieldName o.name ∉ owners.map Prod.fst ∧
        Registry.Free ((fieldName o.name, optionPath path o.name) :: owners)
          (fieldClaims path rest) := by
  rw [fieldClaims_inline]
  exact Registry.free_cons_iff ..

theorem planFields_eq_ok_iff (path : List String) (owners : Registry)
    (imports imports' : List String) (options : List OptionEntry) (fields : List RecordField) :
    planFields path owners imports options = .ok (fields, imports') ↔
      (∀ entry ∈ options, entry.Sound) ∧ owners.Free (fieldClaims path options) ∧
        fields = (inlineOptions options).map OptionSpec.field ∧
        imports' = insertNames imports
          ((inlineOptions options).filterMap OptionSpec.importPath?) := by
  induction options generalizing owners imports imports' fields with
  | nil => simp [planFields, inlineOptions, fieldClaims, Registry.Free, insertNames, eq_comm]
  | cons entry rest ih =>
    cases entry with
    | reference key => simp [planFields, OptionEntry.Sound]
    | inline o =>
      rw [planFields_inline, free_fieldClaims_inline, insertNames_importPaths]
      constructor
      · intro h
        split at h
        · cases h
        · rename_i hb
          obtain ⟨type, ht, h⟩ := bind_eq_ok h
          obtain ⟨owners₁, hc, h⟩ := bind_eq_ok h
          obtain ⟨planned, hp, h⟩ := bind_eq_ok h
          cases h
          obtain ⟨hn, rfl⟩ := (Registry.claim_eq_ok_iff ..).mp hc
          obtain ⟨hs, hf, hfields, himports⟩ := (ih ..).mp hp
          obtain ⟨hfield, himport⟩ := o.field_eq_of_fieldType path type ht
          have hsound : (OptionEntry.inline o).Sound :=
            (OptionEntry.sound_inline_iff o path).mpr ⟨by simpa using hb, type, ht⟩
          refine ⟨List.forall_mem_cons.mpr ⟨hsound, hs⟩, ⟨hn, hf⟩, ?_, ?_⟩
          · rw [hfields, ← hfield]
            rfl
          · rw [himports, himport]
      · rintro ⟨hs, ⟨hn, hf⟩, rfl, rfl⟩
        obtain ⟨hsound, hs⟩ := List.forall_mem_cons.mp hs
        obtain ⟨hb, type, ht⟩ := (OptionEntry.sound_inline_iff o path).mp hsound
        obtain ⟨hfield, himport⟩ := o.field_eq_of_fieldType path type ht
        have hp := (ih _ (insertNames imports type.scalar.importPath?.toList) _ _).mpr
          ⟨hs, hf, rfl, rfl⟩
        have hc := (Registry.claim_eq_ok_iff owners _ (fieldName o.name)
          (optionPath path o.name)).mpr ⟨hn, rfl⟩
        rw [if_neg (by simp [hb]), ht, ok_bind, hc, ok_bind, hp, ok_bind, himport]
        exact congrArg (fun field => Except.ok (field :: _, _)) hfield.symm

/-- A failure states the fault of an option, or a field name that is claimed twice. -/
theorem planFields_fault (path : List String) (owners : Registry) (imports : List String)
    (options : List OptionEntry) (e : PlanError)
    (h : planFields path owners imports options = .error e) :
    e.OptionFault path options ∨ e.Clash (owners.reverse ++ fieldClaims path options) := by
  induction options generalizing owners imports with
  | nil => cases h
  | cons entry rest ih =>
    cases entry with
    | reference key =>
      cases h
      exact Or.inl (Or.inr ⟨key, List.mem_cons_self .., rfl⟩)
    | inline o =>
      rw [planFields_inline] at h
      split at h
      · rename_i hb
        cases h
        exact Or.inl (Or.inl ⟨o, List.mem_cons_self .., rfl, hb⟩)
      · rcases bind_eq_error h with ht | ⟨type, ht, h⟩
        · exact Or.inl ((o.fieldType_fault path e ht).mono (by simp))
        · rw [fieldClaims_inline]
          rcases bind_eq_error h with hc | ⟨owners₁, hc, h⟩
          · refine Or.inr ((Registry.claim_clash _ _ _ e hc).mono ?_)
            exact (List.Sublist.refl _).append
              (List.singleton_sublist.mpr (List.mem_cons_self ..))
          · obtain ⟨-, rfl⟩ := (Registry.claim_eq_ok_iff ..).mp hc
            rcases bind_eq_error h with hp | ⟨planned, _, h⟩
            · rcases ih _ _ hp with hf | hf
              · exact Or.inl (hf.mono (List.subset_cons_self ..))
              · exact Or.inr (by simpa using hf)
            · cases h

end Draft
end CommandSpec
