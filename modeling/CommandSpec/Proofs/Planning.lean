import CommandSpec.Proofs.Inheritance
import CommandSpec.Proofs.RecordFields

/-! When a document can be planned, and what the plan is. Every check of the planner concerns
one option, the field names of one record, or one of two registries of names; a run over the
outline passes exactly when all of them hold (`Draft.addAll_eq_ok_iff`), and a failure states
one that does not (`Draft.addAll_fault`). -/
namespace CommandSpec

namespace DeclaredRecord

/-- All entries are sound, and no field name is taken twice. -/
def Sound (r : DeclaredRecord) : Prop :=
  (∀ entry ∈ r.options, entry.Sound) ∧ (r.claims.map Prod.fst).Nodup

theorem parentClaims_reverse (r : DeclaredRecord) : r.parentClaims.reverse = r.parentClaims := by
  unfold parentClaims
  cases r.parent <;> rfl

theorem free_fieldClaims_iff (r : DeclaredRecord) :
    Registry.Free r.parentClaims (fieldClaims r.path r.options) ↔
      (r.claims.map Prod.fst).Nodup := by
  have hparent : Registry.Free [] r.parentClaims := by
    unfold parentClaims
    cases r.parent <;> simp [Registry.Free]
  rw [← Registry.free_nil_iff, claims, Registry.free_append_iff, parentClaims_reverse,
    List.append_nil]
  exact (and_iff_right hparent).symm

end DeclaredRecord

/-! ## One node -/

namespace Draft

/-- Adds a record that is known to be sound. -/
def withRecord (d : Draft) (r : DeclaredRecord) : Draft :=
  { d with
    typeNames := (r.typeName, r.owner) :: d.typeNames
    plan.imports := insertNames d.plan.imports r.importPaths
    plan.records := d.plan.records ++ [r.record] }

theorem addRecord_eq (d : Draft) (r : DeclaredRecord) :
    d.addRecord r.identifier r.parent r.options r.path r.owner = do
      let typeNames ← d.typeNames.claim r.typeName r.owner
      let planned ← planFields r.path r.parentClaims d.plan.imports r.options
      return { d with
        typeNames
        plan.imports := planned.2
        plan.records := d.plan.records ++ [⟨r.identifier, r.parent, planned.1⟩] } := rfl

theorem addRecord_eq_ok_iff (d d' : Draft) (r : DeclaredRecord) :
    d.addRecord r.identifier r.parent r.options r.path r.owner = .ok d' ↔
      r.Sound ∧ r.typeName ∉ d.typeNames.map Prod.fst ∧ d' = d.withRecord r := by
  have hfields := planFields_eq_ok_iff r.path r.parentClaims d.plan.imports
  rw [addRecord_eq, DeclaredRecord.Sound, ← DeclaredRecord.free_fieldClaims_iff]
  constructor
  · intro h
    obtain ⟨typeNames, hc, h⟩ := bind_eq_ok h
    obtain ⟨planned, hp, h⟩ := bind_eq_ok h
    obtain ⟨hn, rfl⟩ := (Registry.claim_eq_ok_iff ..).mp hc
    obtain ⟨hs, hf, hfields, himports⟩ := (hfields ..).mp hp
    cases h
    refine ⟨⟨hs, hf⟩, hn, ?_⟩
    rw [hfields, himports]
    rfl
  · rintro ⟨⟨hs, hf⟩, hn, rfl⟩
    rw [(Registry.claim_eq_ok_iff ..).mpr ⟨hn, rfl⟩, ok_bind,
      (hfields ..).mpr ⟨hs, hf, rfl, rfl⟩]
    rfl

theorem addRecord_fault (d : Draft) (r : DeclaredRecord) (e : PlanError)
    (h : d.addRecord r.identifier r.parent r.options r.path r.owner = .error e) :
    (e.OptionFault r.path r.options ∨ e.Clash r.claims) ∨
      e.Clash (d.typeNames.reverse ++ [(r.typeName, r.owner)]) := by
  rw [addRecord_eq] at h
  rcases bind_eq_error h with hc | ⟨typeNames, _, h⟩
  · exact Or.inr (Registry.claim_clash _ _ _ e hc)
  · rcases bind_eq_error h with hp | ⟨planned, _, h⟩
    · have hf := planFields_fault r.path r.parentClaims _ r.options e hp
      rw [DeclaredRecord.parentClaims_reverse] at hf
      exact Or.inl hf
    · cases h

theorem declare_eq_ok_iff (d d' : Draft) (record : Option DeclaredRecord) :
    d.declare record = .ok d' ↔
      (∀ r ∈ record, r.Sound ∧ r.typeName ∉ d.typeNames.map Prod.fst) ∧
        d' = record.elim d d.withRecord := by
  cases record with
  | none => simp [declare, eq_comm]
  | some r =>
    have h := addRecord_eq_ok_iff d d' r
    simpa [declare, and_assoc] using h

theorem addMethods_eq_ok_iff (d d' : Draft) (methods : List Method) (owner : String) :
    d.addMethods methods owner = .ok d' ↔
      d.methodNames.Free (methods.map fun m => (m.name, owner)) ∧
        d' = { d with
          methodNames := (methods.map fun m => (m.name, owner)).reverse ++ d.methodNames
          plan.methods := d.plan.methods ++ methods } := by
  rw [addMethods_eq]
  constructor
  · intro h
    obtain ⟨methodNames, hc, rfl⟩ := map_eq_ok h
    obtain ⟨hf, rfl⟩ := (Registry.claimAll_eq_ok_iff ..).mp hc
    exact ⟨hf, rfl⟩
  · rintro ⟨hf, rfl⟩
    rw [(Registry.claimAll_eq_ok_iff ..).mpr ⟨hf, rfl⟩, map_ok]

/-- What a node adds when none of its names is taken. -/
def extend (d : Draft) (b : NodeBindings) : Draft :=
  { d with
    typeNames := b.typeClaims.reverse ++ d.typeNames
    methodNames := b.methodClaims.reverse ++ d.methodNames
    plan :=
      { imports := insertNames d.plan.imports b.importPaths
        methods := d.plan.methods ++ b.methods
        records := d.plan.records ++ b.records
        table := d.plan.table ++ b.table } }

private theorem typeClaims_free_iff (d : Draft) (b : NodeBindings) :
    d.typeNames.Free b.typeClaims ↔ ∀ r ∈ b.record, r.typeName ∉ d.typeNames.map Prod.fst := by
  unfold NodeBindings.typeClaims Registry.Free
  cases b.record <;> simp

private theorem withRecord_methodNames (d : Draft) (record : Option DeclaredRecord) :
    (record.elim d d.withRecord).methodNames = d.methodNames := by
  cases record <;> rfl

theorem add_eq_ok_iff (d d' : Draft) (b : NodeBindings) :
    d.add b = .ok d' ↔
      (∀ r ∈ b.record, r.Sound) ∧ d.typeNames.Free b.typeClaims ∧
        d.methodNames.Free b.methodClaims ∧ d' = d.extend b := by
  let d₁ := b.record.elim d d.withRecord
  have hmethods : d₁.methodNames = d.methodNames := withRecord_methodNames d b.record
  have hextend : { d₁ with
      methodNames := b.methodClaims.reverse ++ d₁.methodNames
      plan.methods := d₁.plan.methods ++ b.methods
      plan.table := d₁.plan.table ++ b.table } = d.extend b := by
    dsimp only [d₁, extend, NodeBindings.typeClaims, NodeBindings.importPaths,
      NodeBindings.records]
    cases b.record <;> simp [withRecord, insertNames]
  unfold add
  rw [typeClaims_free_iff]
  constructor
  · intro h
    obtain ⟨_, hd, h⟩ := bind_eq_ok h
    obtain ⟨_, hm, h⟩ := bind_eq_ok h
    obtain ⟨hr, rfl⟩ := (declare_eq_ok_iff ..).mp hd
    obtain ⟨hf, rfl⟩ := (addMethods_eq_ok_iff ..).mp hm
    cases h
    exact ⟨fun r h => (hr r h).1, fun r h => (hr r h).2, hmethods ▸ hf, hextend⟩
  · rintro ⟨hs, ht, hf, rfl⟩
    rw [(declare_eq_ok_iff ..).mpr ⟨fun r h => ⟨hs r h, ht r h⟩, rfl⟩, ok_bind,
      (addMethods_eq_ok_iff ..).mpr ⟨hmethods.symm ▸ hf, rfl⟩, ok_bind]
    exact congrArg Except.ok hextend

/-- A failure states a fault of the node's record, or a name that is taken already. -/
theorem add_fault (d : Draft) (b : NodeBindings) (e : PlanError) (h : d.add b = .error e) :
    (∃ r ∈ b.record, e.OptionFault r.path r.options ∨ e.Clash r.claims) ∨
      e.Clash (d.typeNames.reverse ++ b.typeClaims) ∨
      e.Clash (d.methodNames.reverse ++ b.methodClaims) := by
  rcases bind_eq_error h with hd | ⟨d₁, hd, h⟩
  · unfold NodeBindings.typeClaims
    cases hr : b.record with
    | none =>
      rw [hr] at hd
      cases hd
    | some r =>
      rw [hr] at hd
      rcases addRecord_fault d r e hd with hf | hf
      · exact Or.inl ⟨r, rfl, hf⟩
      · exact Or.inr (Or.inl hf)
  · obtain ⟨-, rfl⟩ := (declare_eq_ok_iff ..).mp hd
    rcases bind_eq_error h with hm | ⟨_, _, h⟩
    · rw [addMethods_eq, withRecord_methodNames] at hm
      exact Or.inr (Or.inr (Registry.claimAll_clash _ _ e (map_eq_error hm)))
    · cases h

/-! ## All nodes -/

theorem addAll_eq_ok_iff (d d' : Draft) (bs : List NodeBindings) :
    d.addAll bs = .ok d' ↔
      (∀ b ∈ bs, ∀ r ∈ b.record, r.Sound) ∧
        d.typeNames.Free (bs.flatMap NodeBindings.typeClaims) ∧
        d.methodNames.Free (bs.flatMap NodeBindings.methodClaims) ∧ d' = bs.foldl extend d := by
  induction bs generalizing d with
  | nil => simp [addAll, Registry.Free, pure, Except.pure, eq_comm]
  | cons b bs ih =>
    rw [addAll_cons, List.flatMap_cons, List.flatMap_cons, Registry.free_append_iff,
      Registry.free_append_iff, List.forall_mem_cons, List.foldl_cons]
    constructor
    · intro h
      obtain ⟨d₁, ha, h⟩ := bind_eq_ok h
      obtain ⟨hr, ht, hm, rfl⟩ := (add_eq_ok_iff ..).mp ha
      obtain ⟨hrs, hts, hms, hd⟩ := (ih _).mp h
      exact ⟨⟨hr, hrs⟩, ⟨ht, hts⟩, ⟨hm, hms⟩, hd⟩
    · rintro ⟨⟨hr, hrs⟩, ⟨ht, hts⟩, ⟨hm, hms⟩, hd⟩
      rw [(add_eq_ok_iff d _ b).mpr ⟨hr, ht, hm, rfl⟩, ok_bind]
      exact (ih _).mpr ⟨hrs, hts, hms, hd⟩

theorem addAll_fault (d : Draft) (bs : List NodeBindings) (e : PlanError)
    (h : d.addAll bs = .error e) :
    (∃ b ∈ bs, ∃ r ∈ b.record, e.OptionFault r.path r.options ∨ e.Clash r.claims) ∨
      e.Clash (d.typeNames.reverse ++ bs.flatMap NodeBindings.typeClaims) ∨
      e.Clash (d.methodNames.reverse ++ bs.flatMap NodeBindings.methodClaims) := by
  induction bs generalizing d with
  | nil => cases h
  | cons b bs ih =>
    rw [addAll_cons] at h
    rw [List.flatMap_cons, List.flatMap_cons, ← List.append_assoc, ← List.append_assoc]
    rcases bind_eq_error h with ha | ⟨d₁, ha, h⟩
    · rcases add_fault d b e ha with ⟨r, hr, hf⟩ | hf | hf
      · exact Or.inl ⟨b, List.mem_cons_self .., r, hr, hf⟩
      · exact Or.inr (Or.inl (hf.mono (List.sublist_append_left _ _)))
      · exact Or.inr (Or.inr (hf.mono (List.sublist_append_left _ _)))
    · obtain ⟨-, -, -, rfl⟩ := (add_eq_ok_iff ..).mp ha
      rcases ih _ h with ⟨b', hb, r, hr, hf⟩ | hf | hf
      · exact Or.inl ⟨b', List.mem_cons_of_mem _ hb, r, hr, hf⟩
      · exact Or.inr (Or.inl (by simpa [extend] using hf))
      · exact Or.inr (Or.inr (by simpa [extend] using hf))

theorem foldl_extend_plan (d : Draft) (bs : List NodeBindings) :
    (bs.foldl extend d).plan =
      { imports := insertNames d.plan.imports (bs.flatMap NodeBindings.importPaths)
        methods := d.plan.methods ++ bs.flatMap NodeBindings.methods
        records := d.plan.records ++ bs.flatMap NodeBindings.records
        table := d.plan.table ++ bs.flatMap NodeBindings.table } := by
  induction bs generalizing d with
  | nil => simp [insertNames]
  | cons b bs ih =>
    rw [List.foldl_cons, ih]
    simp [extend, insertNames, List.foldl_append]

end Draft

/-! ## The whole document -/

namespace Document

/-- The type names that records take, each with what it stands for. -/
def typeClaims (document : Document) (config : Config) : List (String × String) :=
  (document.outline config).flatMap NodeBindings.typeClaims

/-- The method names that nodes take, each with what it stands for. -/
def methodClaims (document : Document) (config : Config) : List (String × String) :=
  (document.outline config).flatMap NodeBindings.methodClaims

theorem typeClaims_names (document : Document) (config : Config) :
    (document.typeClaims config).map Prod.fst =
      (document.declaredRecords config).map DeclaredRecord.typeName := by
  simp only [typeClaims, NodeBindings.typeClaims, declaredRecords, List.map_flatMap, List.map_map]
  rfl

theorem methodClaims_names (document : Document) (config : Config) :
    (document.methodClaims config).map Prod.fst =
      (document.topDownPlan config).methods.map Method.name := by
  simp only [methodClaims, NodeBindings.methodClaims, topDownPlan, List.map_flatMap,
    List.map_map]
  rfl

end Document

theorem Plan.build_eq_ok_iff (document : Document) (config : Config) (p : Plan) :
    Plan.build document config = .ok p ↔
      (∀ r ∈ document.declaredRecords config, r.Sound) ∧
        (Draft.start config).typeNames.Free (document.typeClaims config) ∧
        ((document.methodClaims config).map Prod.fst).Nodup ∧
        p = document.topDownPlan config := by
  have hplan : ((document.outline config).foldl Draft.extend (Draft.start config)).plan =
      document.topDownPlan config := by
    have himports : (document.outline config).flatMap NodeBindings.importPaths =
        (document.declaredRecords config).flatMap DeclaredRecord.importPaths :=
      List.flatMap_assoc.symm
    have hrecords : (document.outline config).flatMap NodeBindings.records =
        (document.declaredRecords config).map DeclaredRecord.record :=
      List.map_flatMap.symm
    rw [Draft.foldl_extend_plan, himports, hrecords]
    rfl
  have hstart : (Draft.start config).methodNames = [] := rfl
  rw [build_eq_addAll, ← Registry.free_nil_iff, ← hstart, ← document.forall_outline_iff]
  constructor
  · intro h
    obtain ⟨d, ha, rfl⟩ := map_eq_ok h
    obtain ⟨hr, ht, hm, rfl⟩ := (Draft.addAll_eq_ok_iff ..).mp ha
    exact ⟨hr, ht, hm, hplan⟩
  · rintro ⟨hr, ht, hm, rfl⟩
    rw [(Draft.addAll_eq_ok_iff ..).mpr ⟨hr, ht, hm, rfl⟩, map_ok, hplan]

theorem Plan.build_fault (document : Document) (config : Config) (e : PlanError)
    (h : Plan.build document config = .error e) :
    (∃ r ∈ document.declaredRecords config, e.OptionFault r.path r.options ∨ e.Clash r.claims) ∨
      e.Clash ((Draft.start config).typeNames.reverse ++ document.typeClaims config) ∨
      e.Clash (document.methodClaims config) := by
  rw [build_eq_addAll] at h
  rcases Draft.addAll_fault (Draft.start config) _ e (map_eq_error h) with ⟨b, hb, r, hr, hf⟩ | hf
  · exact Or.inl ⟨r, (document.mem_declaredRecords config r).mpr ⟨b, hb, hr⟩, hf⟩
  · exact Or.inr hf

end CommandSpec
