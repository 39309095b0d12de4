import CommandSpec.Proofs.Plannable
import CommandSpec.Proofs.DocComments

/-! The command table comes on top of everything else. With the table switched on, planning keeps
rows and reserves one type name, which no record can have; so each step of planning commutes with
forgetting both (`Draft.untabled`), and the layout of the plan only gets longer at its end. -/
namespace CommandSpec

/-- The configuration with the command table switched on or off. -/
def Config.withTable (c : Config) (on : Bool) : Config := { c with commandTable := on }

/-! ## Planning -/

/-- What reserves the type name of the rows. -/
def tableClaim : String × String := (tableEntryTypeName, "command table")

def Registry.untabled (r : Registry) : Registry := r.filter (· != tableClaim)

def Plan.untabled (p : Plan) : Plan := { p with table := [] }

def NodeBindings.untabled (b : NodeBindings) : NodeBindings := { b with table := [] }

/-- No record is named like the rows, so none meets their reservation. -/
theorem Registry.claim_untabled (r : Registry) (identifier owner : String) :
    r.untabled.claim (recordTypeName identifier) owner =
      untabled <$> r.claim (recordTypeName identifier) owner := by
  have hname := recordTypeName_ne_tableEntryTypeName identifier
  have hlookup : r.untabled.lookup (recordTypeName identifier) =
      r.lookup (recordTypeName identifier) := by
    unfold untabled
    induction r with
    | nil => rfl
    | cons c r ih =>
      by_cases hc : c = tableClaim
      · have hother : (recordTypeName identifier == c.1) = false := by
          rw [hc]
          exact beq_false_of_ne hname
        rw [List.filter_cons_of_neg (by simp [hc]), ih, List.lookup_cons, hother]
      · rw [List.filter_cons_of_pos (by simp [hc]), List.lookup_cons, List.lookup_cons, ih]
  have hkept : (recordTypeName identifier, owner) ≠ tableClaim := fun h =>
    hname (congrArg Prod.fst h)
  unfold claim
  rw [hlookup]
  cases r.lookup (recordTypeName identifier) with
  | some first => rfl
  | none => simp [untabled, hkept]

namespace Draft

/-- The draft of the same run without a command table. -/
def untabled (d : Draft) : Draft :=
  { d with typeNames := d.typeNames.untabled, plan := d.plan.untabled }

theorem declare_untabled (d : Draft) (record : Option DeclaredRecord) :
    d.untabled.declare record = untabled <$> d.declare record := by
  cases record with
  | none => rfl
  | some r =>
    unfold declare addRecord
    rw [map_bind]
    refine (congrArg (· >>= _) (d.typeNames.claim_untabled r.identifier r.owner)).trans ?_
    rw [bind_map_left]
    refine bind_congr fun typeNames => ?_
    rw [map_bind]
    exact bind_congr fun planned => rfl

theorem addMethods_untabled (d : Draft) (methods : List Method) (owner : String) :
    d.untabled.addMethods methods owner = untabled <$> d.addMethods methods owner := by
  simp only [addMethods_eq, Functor.map_map]
  rfl

theorem add_untabled (d : Draft) (b : NodeBindings) :
    d.untabled.add b.untabled = untabled <$> d.add b := by
  unfold add
  rw [map_bind]
  refine (congrArg (· >>= _) (d.declare_untabled b.record)).trans ?_
  rw [bind_map_left]
  refine bind_congr fun d₁ => ?_
  rw [map_bind]
  refine (congrArg (· >>= _) (d₁.addMethods_untabled b.methods b.owner)).trans ?_
  rw [bind_map_left]
  exact bind_congr fun d₂ => rfl

theorem addAll_untabled (d : Draft) (bs : List NodeBindings) :
    d.untabled.addAll (bs.map NodeBindings.untabled) = untabled <$> d.addAll bs := by
  induction bs generalizing d with
  | nil => rfl
  | cons b bs ih =>
    rw [List.map_cons, addAll_cons, addAll_cons, add_untabled, bind_map_left, map_bind]
    exact bind_congr fun d₁ => ih d₁

theorem start_untabled (config : Config) :
    (start (config.withTable true)).untabled = start (config.withTable false) := by
  simp [start, untabled, Registry.untabled, Plan.untabled, tableClaim, Config.withTable,
    Config.structText, Config.traitText, Config.runtimeText]

end Draft

theorem Document.outline_untabled (document : Document) (config : Config) :
    document.outline (config.withTable false) =
      (document.outline (config.withTable true)).map NodeBindings.untabled := by
  unfold outline
  rw [List.map_cons, List.map_map]
  rfl

/-- Without the command table the same is planned but for the rows. -/
theorem Plan.build_untabled (document : Document) (config : Config) :
    Plan.build document (config.withTable false) =
      Plan.untabled <$> Plan.build document (config.withTable true) := by
  have hrun := (Draft.start (config.withTable true)).addAll_untabled
    (document.outline (config.withTable true))
  rw [build_eq_addAll, build_eq_addAll, document.outline_untabled, Functor.map_map,
    ← Draft.start_untabled]
  refine (congrArg (Draft.plan <$> ·) hrun).trans ?_
  rw [Functor.map_map]
  rfl

/-! ## Source -/

/-- The text of the command table inside the module. -/
def Plan.tableText (p : Plan) : String := blockText "    " 1 (Layout.commandTable p)

namespace Layout

theorem moduleBody_table (config : Config) (p : Plan) :
    moduleBody (config.withTable true) p =
      moduleBody (config.withTable false) p.untabled ++ .blank :: commandTable p := by
  have hoff : moduleBody (config.withTable false) p.untabled ++ [] =
      moduleBody (config.withTable false) p.untabled := List.append_nil _
  simp only [moduleBody, Config.withTable, Bool.false_eq_true, if_false, if_true,
    List.append_nil] at hoff ⊢
  rfl

/-- The implementation ends with a line, and so does all before the table. -/
theorem moduleBody_lineEnd (config : Config) (p : Plan) :
    ∃ text, blockText "    " 1 (moduleBody (config.withTable false) p) = text ++ "\n" := by
  obtain ⟨steps, hsteps⟩ : ∃ steps,
      moduleBody (config.withTable false) p = steps ++ [.line "\x7d"] := by
    unfold moduleBody defaultImplementation
    rw [if_neg (by simp [Config.withTable]), List.append_nil]
    exact ⟨_, (List.append_assoc _ [_, _, _, _, _] [_]).symm⟩
  obtain ⟨text, htext⟩ := SourceText.AgreesOutsideDocs.lineText_eq 1 "\x7d"
  refine ⟨blockText "    " 1 steps ++ text, ?_⟩
  rw [hsteps, blockText_append, String.append_assoc, ← htext]
  simp [blockText, Step.textAt]

end Layout

/-- **The command table is only added.** With the table on and off planning fails alike and with
the same error. Otherwise the plans differ in the rows only, and the source with the table is the
source without it, with an empty line and the table between its last line and those before. -/
theorem commandTable_only_added (document : Document) (config : Config) :
    (∃ e, Plan.build document (config.withTable true) = .error e ∧
      Plan.build document (config.withTable false) = .error e) ∨
    ∃ p front, Plan.build document (config.withTable true) = .ok p ∧
      Plan.build document (config.withTable false) = .ok { p with table := [] } ∧
      generateText document (config.withTable false) = .ok (front ++ "\n" ++ "\x7d\n") ∧
      generateText document (config.withTable true) =
        .ok (front ++ "\n" ++ "\n" ++ p.tableText ++ "\x7d\n") := by
  have hoff := Plan.build_untabled document config
  cases hon : Plan.build document (config.withTable true) with
  | error e =>
    rw [hon] at hoff
    exact Or.inl ⟨e, rfl, hoff⟩
  | ok p =>
    rw [hon] at hoff
    obtain ⟨body, hbody⟩ := Layout.moduleBody_lineEnd config p.untabled
    refine Or.inr ⟨p, config.moduleOpening ++ body, rfl, hoff, ?_, ?_⟩
    · rw [generateText_eq_source document _ _ hoff, Plan.source_eq, hbody]
      simp only [String.append_assoc]
      rfl
    · have htable : blockText "    " 1 (.blank :: Layout.commandTable p) =
          "\n" ++ p.tableText := by
        simp [blockText, Step.textAt, Plan.tableText]
      rw [generateText_eq_source document _ _ hon, Plan.source_eq, Layout.moduleBody_table,
        blockText_append, hbody, htable]
      simp only [String.append_assoc]
      rfl

end CommandSpec
