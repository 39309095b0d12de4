import CommandSpec.Proofs.DocComments
import CommandSpec.Proofs.Planning
import CommandSpec.Proofs.References

/-! Free text cannot reach the code. Two documents that are alike once their free text is taken
away (`Document.bare`) are planned alike: each step of planning commutes with taking it away, so
errors are the same, and plans differ in descriptions only. Descriptions stay in doc comments, so
without a command table the sources are the same outside those. -/
namespace CommandSpec

/-! ## Documents without free text -/

/-- What the code depends on. Of a default only its presence is kept. -/
def OptionSpec.bare (o : OptionSpec) : OptionSpec where
  name := o.name
  typeTag := o.typeTag
  default := o.default.map fun _ => ""
  required := o.required

def OptionEntry.bare : OptionEntry → OptionEntry
  | inline o => inline o.bare
  | reference key => reference key

def Declaration.bare (d : Declaration) : Declaration where
  options := d.options.map OptionEntry.bare

namespace CommandForest

def bare : CommandForest → CommandForest
  | nil => nil
  | node name declaration children siblings =>
    node name declaration.bare children.bare siblings.bare

theorem Ordered.bare (forest : CommandForest) (h : forest.Ordered) : forest.bare.Ordered :=
  Ordered.of_names rfl (fun _ _ _ _ => ⟨_, rfl⟩) forest h

theorem isEmpty_bare (forest : CommandForest) : forest.bare.isEmpty = forest.isEmpty := by
  cases forest <;> rfl

end CommandForest

/-- The document without free text, argument bounds, components and version. -/
def Document.bare (d : Document) : Document where
  options := d.options.map OptionEntry.bare
  commands := ⟨d.commands.forest.bare, d.commands.ordered.bare⟩

/-! ## Planning a node -/

theorem OptionSpec.fieldType_bare (o : OptionSpec) (path : List String) :
    o.bare.fieldType path = o.fieldType path := by
  unfold fieldType fieldKind bare
  simp only [Option.isSome_map]

def DeclaredRecord.bare (r : DeclaredRecord) : DeclaredRecord :=
  { r with options := r.options.map OptionEntry.bare }

def NodeBindings.bare (b : NodeBindings) : NodeBindings where
  record := b.record.map DeclaredRecord.bare
  methods := b.methods.map Method.bare
  owner := b.owner
  table := []

namespace Draft

def bare (d : Draft) : Draft := { d with plan := d.plan.bare }

theorem planFields_bare (path : List String) (owners : Registry) (imports : List String)
    (options : List OptionEntry) :
    planFields path owners imports (options.map OptionEntry.bare) =
      (fun planned => (planned.1.map RecordField.bare, planned.2)) <$>
        planFields path owners imports options := by
  induction options generalizing owners imports with
  | nil => rfl
  | cons entry rest ih =>
    cases entry with
    | reference key => rfl
    | inline o =>
      have hname : o.bare.name = o.name := rfl
      rw [List.map_cons, OptionEntry.bare, planFields_inline, planFields_inline,
        OptionSpec.fieldType_bare, hname]
      by_cases hb : Text.isBlankText o.name = true
      · rw [if_pos hb, if_pos hb]
        rfl
      · rw [if_neg hb, if_neg hb, map_bind]
        refine bind_congr fun type => ?_
        rw [map_bind]
        refine bind_congr fun owners => ?_
        rw [ih, bind_map_left, map_bind]
        exact bind_congr fun planned => rfl

theorem addRecord_bare (d : Draft) (r : DeclaredRecord) :
    d.bare.addRecord r.identifier r.parent r.bare.options r.path r.owner =
      bare <$> d.addRecord r.identifier r.parent r.options r.path r.owner := by
  unfold addRecord
  rw [map_bind]
  refine bind_congr fun typeNames => ?_
  rw [map_bind]
  refine (congrArg (· >>= _) (planFields_bare ..)).trans ?_
  rw [bind_map_left]
  refine bind_congr fun planned => congrArg Except.ok ?_
  simp [bare, Plan.bare, OptionRecord.bare]

theorem declare_bare (d : Draft) (record : Option DeclaredRecord) :
    d.bare.declare (record.map DeclaredRecord.bare) = bare <$> d.declare record := by
  cases record with
  | none => rfl
  | some r => exact d.addRecord_bare r

theorem addMethods_bare (d : Draft) (methods : List Method) (owner : String) :
    d.bare.addMethods (methods.map Method.bare) owner = bare <$> d.addMethods methods owner := by
  have hclaims : (methods.map Method.bare).map (fun m => (m.name, owner)) =
      methods.map fun m => (m.name, owner) := by
    rw [List.map_map]
    rfl
  rw [addMethods_eq, addMethods_eq, hclaims, Functor.map_map]
  simp [bare, Plan.bare]

theorem add_bare (d : Draft) (b : NodeBindings) : d.bare.add b.bare = bare <$> d.add b := by
  unfold add
  rw [map_bind]
  refine (congrArg (· >>= _) (d.declare_bare b.record)).trans ?_
  rw [bind_map_left]
  refine bind_congr fun d₁ => ?_
  rw [map_bind]
  refine (congrArg (· >>= _) (d₁.addMethods_bare b.methods b.owner)).trans ?_
  rw [bind_map_left]
  exact bind_congr fun d₂ => rfl

theorem addAll_bare (d : Draft) (bs : List NodeBindings) :
    d.bare.addAll (bs.map NodeBindings.bare) = bare <$> d.addAll bs := by
  induction bs generalizing d with
  | nil => rfl
  | cons b bs ih =>
    rw [List.map_cons, addAll_cons, addAll_cons, add_bare, bind_map_left, map_bind]
    exact bind_congr fun d₁ => ih d₁

end Draft

/-! ## The outline -/

def Site.bare (s : Site) : Site :=
  ⟨⟨s.path, s.declaration.bare, s.children.bare⟩, s.inherited⟩

theorem CommandForest.sites_bare (forest : CommandForest) (path : List String)
    (inherited : Option EmbeddedRecord) :
    forest.bare.sites path inherited = (forest.sites path inherited).map Site.bare := by
  induction forest generalizing path inherited with
  | nil => rfl
  | node name declaration children siblings ihc ihs =>
    have hinForce : Site.inForce ⟨⟨path ++ [name], declaration.bare, children.bare⟩, inherited⟩ =
        Site.inForce ⟨⟨path ++ [name], declaration, children⟩, inherited⟩ := by
      simp [Site.inForce, Site.ownRecord, Declaration.bare]
    simp only [bare, sites, List.map_cons, List.map_append, hinForce, ihc, ihs]
    rfl

theorem Site.bindings_bare (s : Site) (config : Config) (h : config.commandTable = false) :
    s.bare.bindings config = (s.bindings config).bare := by
  have hoptions : s.bare.declaration.options.isEmpty = s.declaration.options.isEmpty := by
    simp [bare, Declaration.bare]
  have hbranch : s.bare.isBranch = s.isBranch := by
    simp [CommandVisit.isBranch, bare, CommandForest.isEmpty_bare]
  have hinForce : s.bare.inForce = s.inForce := by
    unfold inForce ownRecord
    rw [hoptions]
    rfl
  have hrecord : s.bare.declaredRecord = s.declaredRecord.map DeclaredRecord.bare := by
    unfold declaredRecord
    rw [hoptions]
    cases s.declaration.options.isEmpty <;> rfl
  have hmethods : s.bare.methods = s.methods.map Method.bare := by
    unfold methods
    rw [hinForce, hbranch]
    cases s.isBranch <;> rfl
  simp only [bindings, NodeBindings.bare, hrecord, hmethods, h]
  rfl

namespace Document

theorem globalRecord_bare (document : Document) (config : Config) :
    document.bare.globalRecord config = document.globalRecord config := by
  simp [globalRecord, bare]

theorem rootBindings_bare (document : Document) (config : Config) :
    document.bare.rootBindings config = (document.rootBindings config).bare := by
  have hrecord : document.bare.rootRecord config =
      (document.rootRecord config).map DeclaredRecord.bare := by
    have hoptions : document.bare.options.isEmpty = document.options.isEmpty := by simp [bare]
    unfold rootRecord
    rw [hoptions]
    cases document.options.isEmpty <;> rfl
  simp only [rootBindings, NodeBindings.bare, globalRecord_bare, hrecord]
  rfl

theorem outline_bare (document : Document) (config : Config) (h : config.commandTable = false) :
    document.bare.outline config = (document.outline config).map NodeBindings.bare := by
  have hsites : document.bare.sites config = (document.sites config).map Site.bare := by
    unfold sites
    rw [globalRecord_bare]
    exact document.commands.forest.sites_bare [] _
  rw [outline, outline, rootBindings_bare, hsites, List.map_cons, List.map_map, List.map_map]
  exact congrArg _ (List.map_congr_left fun s _ => s.bindings_bare config h)

end Document

/-- Planning does not read free text, and carries descriptions along. -/
theorem Plan.build_bare (document : Document) (config : Config)
    (h : config.commandTable = false) :
    Plan.build document.bare config = Plan.bare <$> Plan.build document config := by
  have hrun := (Draft.start config).addAll_bare (document.outline config)
  rw [build_eq_addAll, build_eq_addAll, document.outline_bare config h, Functor.map_map]
  refine (congrArg (Draft.plan <$> ·) hrun).trans ?_
  rw [Functor.map_map]
  rfl

/-! ## Two documents -/

open SourceText in
/-- **Free text stays in doc comments.** Without a command table, documents that are alike but
for descriptions, usages, bindings, the texts of defaults, argument bounds, components and version
give the same error, or sources that are the same once the lines of doc comments are deleted. -/
theorem generateText_ignores_free_text (document other : Document) (config : Config)
    (htable : config.commandTable = false) (h : document.bare = other.bare) :
    (∃ e, generateText document config = .error e ∧ generateText other config = .error e) ∨
      ∃ text text', generateText document config = .ok text ∧
        generateText other config = .ok text' ∧
        linesOutsideDocs text.toList = linesOutsideDocs text'.toList := by
  have hplans : Plan.bare <$> Plan.build document config =
      Plan.bare <$> Plan.build other config := by
    rw [← Plan.build_bare document config htable, h, Plan.build_bare other config htable]
  cases hp : Plan.build document config with
  | error e =>
    rw [hp] at hplans
    have hp' := map_eq_error hplans.symm
    refine Or.inl ⟨.plan e, ?_, ?_⟩
    · simp [generateText, generate, hp]
    · simp [generateText, generate, hp']
  | ok p =>
    rw [hp] at hplans
    obtain ⟨p', hp', hbare⟩ := map_eq_ok hplans.symm
    refine Or.inr ⟨_, _, generateText_eq_source document config p hp,
      generateText_eq_source other config p' hp', ?_⟩
    rw [linesOutsideDocs_source config p htable, linesOutsideDocs_source config p' htable, hbare]

/-- A document with texts that try to leave their comments. -/
def hostileTexts : Document where
  options := [.inline
    { name := "level"
      typeTag := "int"
      description := some "ends here\n\x7d\r\n\n*/ fn intruder() \x7b\x7d"
      default := some "1\n\x7d" }]
  commands := ({} : Commands).insert "run"
    { description := some "\n    \x7d\n// fn intruder();", usage := some "run", maxArgs := 3 }
  version := some "2"

/-- The same document without those texts. -/
def quietTexts : Document where
  options := [.inline { name := "level", typeTag := "int", default := some "0" }]
  commands := ({} : Commands).insert "run" { usage := some "run it" }

open SourceText in
theorem hostileTexts_stay_in_comments :
    ({} : Config).commandTable = false ∧ hostileTexts.bare = quietTexts.bare ∧
      ∃ text text', generateText hostileTexts {} = .ok text ∧
        generateText quietTexts {} = .ok text' ∧ text ≠ text' ∧
        linesOutsideDocs text.toList = linesOutsideDocs text'.toList := by
  have hbare : hostileTexts.bare = quietTexts.bare := by decide +kernel
  have hbuild : Plan.build hostileTexts {} = .ok (hostileTexts.topDownPlan {}) :=
    eq_ok_of_toOption (by decide +kernel)
  have hbuild' : Plan.build quietTexts {} = .ok (quietTexts.topDownPlan {}) :=
    eq_ok_of_toOption (by decide +kernel)
  have hsource := generateText_eq_source hostileTexts {} _ hbuild
  have hsource' := generateText_eq_source quietTexts {} _ hbuild'
  rcases generateText_ignores_free_text hostileTexts quietTexts {} rfl hbare with
    ⟨e, he, -⟩ | ⟨text, text', ht, ht', hlines⟩
  · rw [hsource] at he
    cases he
  · refine ⟨rfl, hbare, text, text', ht, ht', ?_, hlines⟩
    obtain rfl := Except.ok.inj (hsource.symm.trans ht)
    obtain rfl := Except.ok.inj (hsource'.symm.trans ht')
    decide +kernel

end CommandSpec
