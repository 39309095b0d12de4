import CommandSpec.Proofs.Outline
import CommandSpec.Proofs.Registry

/-! Searching the records met so far for the nearest ancestor finds the record that is
handed down. The planner keeps the records of the commands it has met by path and asks for
every proper beginning of a path; over a whole walk this gives each command what it inherits
in `CommandForest.sites`, so planning is a run over the outline of the document
(`Plan.build_eq_addAll`). -/
namespace CommandSpec
open Naming

namespace Draft

/-- Adds the methods of one node. -/
def addMethods (d : Draft) (methods : List Method) (owner : String) : Except PlanError Draft :=
  methods.foldlM (fun d m => d.addMethod m owner) d

theorem addMethods_eq (d : Draft) (methods : List Method) (owner : String) :
    d.addMethods methods owner =
      (fun methodNames => { d with methodNames, plan.methods := d.plan.methods ++ methods }) <$>
        d.methodNames.claimAll (methods.map fun m => (m.name, owner)) := by
  induction methods generalizing d with
  | nil => simp [addMethods, Registry.claimAll]
  | cons m methods ih =>
    rw [List.map_cons, Registry.claimAll_cons]
    unfold addMethods at ih ⊢
    rw [List.foldlM_cons]
    unfold addMethod
    cases d.methodNames.claim m.name owner with
    | error e => rfl
    | ok methodNames =>
      refine (ih _).trans ?_
      simp [bind, Except.bind]

theorem addMethod_eq (d : Draft) (m : Method) (owner : String) :
    d.addMethod m owner = d.addMethods [m] owner := by
  simp [addMethods]

theorem addHooks_eq (d : Draft) (path : List String) (options description : Option String)
    (owner : String) :
    d.addHooks path options description owner =
      d.addMethods (hooks path options description) owner := by
  simp [addHooks, addMethods, hooks]

/-- Adds the record of a node that declares options. -/
def declare (d : Draft) : Option DeclaredRecord → Except PlanError Draft
  | some r => d.addRecord r.identifier r.parent r.options r.path r.owner
  | none => .ok d

/-- Adds what one node contributes, its record before its methods. -/
def add (d : Draft) (b : NodeBindings) : Except PlanError Draft := do
  let d ← d.declare b.record
  let d ← d.addMethods b.methods b.owner
  return { d with plan.table := d.plan.table ++ b.table }

/-- Keeps the record of a command for its descendants to find. -/
def remember (v : CommandVisit) (d : Draft) : Draft :=
  if v.declaration.options.isEmpty then d
  else { d with recordsByPath :=
    (v.path, ⟨nodeIdentifier v.path, methodName v.path none⟩) :: d.recordsByPath }

theorem visit_eq (config : Config) (v : CommandVisit) (d : Draft) :
    visit config v d =
      remember v <$> d.add (Site.bindings config ⟨v, d.ancestorRecord v.path⟩) := by
  unfold visit add declare remember
  cases ho : v.declaration.options.isEmpty <;> cases hb : v.isBranch <;>
    cases ht : config.commandTable <;>
    simp [ho, hb, ht, Site.bindings, Site.declaredRecord, Site.methods, Site.tableEntry,
      Site.inForce, Site.ownRecord, Site.owner, addHooks_eq, addMethod_eq, addMethods_eq]

/-! ## What planning a node leaves alone -/

/-- The draft with other records to search. -/
def withRecords (d : Draft) (globalRecord : Option EmbeddedRecord)
    (recordsByPath : List (List String × EmbeddedRecord)) : Draft :=
  { d with globalRecord, recordsByPath }

theorem addRecord_withRecords (d : Draft) (globalRecord : Option EmbeddedRecord)
    (recordsByPath : List (List String × EmbeddedRecord)) (identifier : String)
    (parent : Option EmbeddedRecord) (options : List OptionEntry) (path : List String)
    (owner : String) :
    (d.withRecords globalRecord recordsByPath).addRecord identifier parent options path owner =
      (·.withRecords globalRecord recordsByPath) <$>
        d.addRecord identifier parent options path owner := by
  simp only [addRecord, withRecords, map_bind]
  rfl

theorem addMethods_withRecords (d : Draft) (methods : List Method) (owner : String)
    (globalRecord : Option EmbeddedRecord)
    (recordsByPath : List (List String × EmbeddedRecord)) :
    (d.withRecords globalRecord recordsByPath).addMethods methods owner =
      (·.withRecords globalRecord recordsByPath) <$> d.addMethods methods owner := by
  simp only [addMethods_eq, Functor.map_map]
  rfl

theorem add_withRecords (d : Draft) (b : NodeBindings) (globalRecord : Option EmbeddedRecord)
    (recordsByPath : List (List String × EmbeddedRecord)) :
    (d.withRecords globalRecord recordsByPath).add b =
      (·.withRecords globalRecord recordsByPath) <$> d.add b := by
  unfold add declare
  cases b.record with
  | none =>
    simp only [ok_bind, addMethods_withRecords, map_bind, bind_map_left]
    rfl
  | some r =>
    simp only [addRecord_withRecords, addMethods_withRecords, map_bind, bind_map_left]
    rfl

/-- The draft without the records to search. -/
def forget (d : Draft) : Draft := d.withRecords none []

theorem add_forget (d : Draft) (b : NodeBindings) : d.forget.add b = forget <$> d.add b :=
  add_withRecords d b none []

theorem add_records (d d' : Draft) (b : NodeBindings) (h : d.add b = .ok d') :
    d'.globalRecord = d.globalRecord ∧ d'.recordsByPath = d.recordsByPath := by
  have hw := add_withRecords d b d.globalRecord d.recordsByPath
  rw [show d.withRecords d.globalRecord d.recordsByPath = d from rfl, h] at hw
  have hd : d' = d'.withRecords d.globalRecord d.recordsByPath := Except.ok.inj hw
  rw [hd]
  exact ⟨rfl, rfl⟩

theorem remember_forget (v : CommandVisit) (d : Draft) : (remember v d).forget = d.forget := by
  unfold remember
  split <;> rfl

/-! ## The search -/

/-- The record in force at `path`, as far as the commands met so far tell. -/
def recordAt (d : Draft) (path : List String) : Option EmbeddedRecord :=
  (ancestorRecord.search d path path.length).or d.globalRecord

private theorem search_append (d : Draft) (path rest : List String) (len : Nat)
    (h : len ≤ path.length) :
    ancestorRecord.search d (path ++ rest) len = ancestorRecord.search d path len := by
  induction len with
  | zero => rfl
  | succ len ih =>
    simp only [ancestorRecord.search, List.take_append_of_le_length h, ih (by omega)]

theorem ancestorRecord_append (d : Draft) (path : List String) (name : String) :
    d.ancestorRecord (path ++ [name]) = d.recordAt path := by
  simp [ancestorRecord, recordAt, search_append]

theorem recordAt_append (d : Draft) (path : List String) (name : String) :
    d.recordAt (path ++ [name]) =
      (d.recordsByPath.lookup (path ++ [name])).or (d.recordAt path) := by
  have hl : (path ++ [name]).length = path.length + 1 := by simp
  simp only [recordAt, hl, ancestorRecord.search, search_append, Nat.le_refl, Option.or_assoc]
  rw [← hl, List.take_length]

/-- Records kept elsewhere than on the way to `path` do not change the record in force. -/
theorem recordAt_congr (d d' : Draft) (path : List String)
    (hg : d'.globalRecord = d.globalRecord)
    (hp : ∀ p, p <+: path → d'.recordsByPath.lookup p = d.recordsByPath.lookup p) :
    d'.recordAt path = d.recordAt path := by
  have hs (len : Nat) :
      ancestorRecord.search d' path len = ancestorRecord.search d path len := by
    induction len with
    | zero => rfl
    | succ len ih => simp only [ancestorRecord.search, ih, hp _ (List.take_prefix _ _)]
  simp only [recordAt, hs, hg]

/-- No command at or below the top-level names has been met. -/
def Unmet (d : Draft) (path names : List String) : Prop :=
  ∀ name ∈ names, ∀ e ∈ d.recordsByPath, ¬ path ++ [name] <+: e.1

/-- Visits only add records, each under the path of a visited command. -/
theorem visits_records (config : Config) (vs : List CommandVisit) (d d' : Draft)
    (h : vs.foldlM (fun d v => visit config v d) d = .ok d') :
    d'.globalRecord = d.globalRecord ∧ ∃ added, d'.recordsByPath = added ++ d.recordsByPath ∧
      ∀ e ∈ added, ∃ v ∈ vs, v.path = e.1 := by
  induction vs generalizing d with
  | nil =>
    cases h
    exact ⟨rfl, [], rfl, by simp⟩
  | cons v vs ih =>
    rw [List.foldlM_cons, visit_eq, bind_map_left] at h
    obtain ⟨d₁, ha, h⟩ := bind_eq_ok h
    obtain ⟨hg₁, hr₁⟩ := add_records d d₁ _ ha
    obtain ⟨hg, added, hr, hm⟩ := ih _ h
    have later : ∀ e ∈ added, ∃ w ∈ v :: vs, w.path = e.1 := fun e he => by
      obtain ⟨w, hw, hp⟩ := hm e he
      exact ⟨w, List.mem_cons_of_mem _ hw, hp⟩
    unfold remember at hg hr
    split at hg
    · rw [if_pos (by assumption)] at hr
      exact ⟨hg.trans hg₁, added, hr.trans (by rw [hr₁]), later⟩
    · rw [if_neg (by assumption)] at hr
      refine ⟨hg.trans hg₁, added ++ [(v.path, ⟨nodeIdentifier v.path, methodName v.path none⟩)],
        hr.trans (by simp [hr₁]), fun e he => ?_⟩
      rcases List.mem_append.mp he with he | he
      · exact later e he
      · rw [List.mem_singleton] at he
        subst he
        exact ⟨v, List.mem_cons_self .., rfl⟩

/-- Walking part of a tree leaves the record in force above it as it was. -/
theorem recordAt_visits (config : Config) (forest : CommandForest) (path : List String)
    (d d' : Draft)
    (h : (forest.visits path).foldlM (fun d v => visit config v d) d = .ok d') :
    d'.recordAt path = d.recordAt path := by
  obtain ⟨hg, added, hr, hm⟩ := visits_records config _ d d' h
  refine recordAt_congr d d' path hg fun p hp => ?_
  have hn : added.lookup p = none := by
    rw [List.lookup_eq_none_iff]
    intro e he
    obtain ⟨v, hv, hve⟩ := hm e he
    obtain ⟨name, _, hpre⟩ := forest.prefix_of_mem_visits path v hv
    refine bne_iff_ne.mpr fun heq => ?_
    have h₁ := hpre.length_le
    have h₂ := hp.length_le
    rw [hve, ← heq, List.length_append, List.length_singleton] at h₁
    omega
  rw [hr, List.lookup_append, hn, Option.none_or]

/-- A command is found under its own path once it has been planned, if it has a record. -/
theorem recordAt_remember (d : Draft) (path : List String) (name : String)
    (declaration : Declaration) (children : CommandForest) (names : List String)
    (hu : d.Unmet path names) (hn : name ∈ names) :
    (remember ⟨path ++ [name], declaration, children⟩ d).recordAt (path ++ [name]) =
      Site.inForce ⟨⟨path ++ [name], declaration, children⟩, d.recordAt path⟩ := by
  rw [recordAt_append]
  unfold remember Site.inForce Site.ownRecord
  cases ho : declaration.options.isEmpty with
  | true =>
    have hl : d.recordsByPath.lookup (path ++ [name]) = none := by
      rw [List.lookup_eq_none_iff]
      intro e he
      exact bne_iff_ne.mpr fun heq => hu name hn e he (heq ▸ List.prefix_refl _)
    simp [hl]
  | false =>
    have hp : ∀ p, p <+: path → p ≠ path ++ [name] := by
      rintro p hp rfl
      have := hp.length_le
      rw [List.length_append, List.length_singleton] at this
      omega
    have hc (e : EmbeddedRecord) : recordAt { d with
        recordsByPath := (path ++ [name], e) :: d.recordsByPath } path = d.recordAt path :=
      recordAt_congr d _ path rfl fun p h => by
        rw [List.lookup_cons, beq_false_of_ne (hp p h)]
    simp [hc]

/-- The sub-commands of a command are unmet when it has just been planned. -/
theorem unmet_children (d : Draft) (path : List String) (name : String)
    (declaration : Declaration) (children : CommandForest) (names below : List String)
    (hu : d.Unmet path names) (hn : name ∈ names) :
    (remember ⟨path ++ [name], declaration, children⟩ d).Unmet (path ++ [name]) below := by
  intro child _ e he hpre
  have old : e ∈ d.recordsByPath → False := fun he =>
    hu name hn e he ((List.prefix_append _ _).trans hpre)
  unfold remember at he
  split at he
  · exact old he
  · rcases List.mem_cons.mp he with rfl | he
    · have := hpre.length_le
      simp at this
    · exact old he

/-- The later siblings of a command are unmet when it and its sub-commands have been walked. -/
theorem unmet_siblings (config : Config) (path : List String) (name : String)
    (declaration : Declaration) (children siblings : CommandForest) (d d' : Draft)
    (hu : d.Unmet path siblings.names) (hne : name ∉ siblings.names)
    (h : ((CommandForest.node name declaration children .nil).visits path).foldlM
      (fun d v => visit config v d) d = .ok d') : d'.Unmet path siblings.names := by
  obtain ⟨-, added, hr, hm⟩ := visits_records config _ d d' h
  intro other ho e he hpre
  rw [hr] at he
  rcases List.mem_append.mp he with he | he
  · obtain ⟨v, hv, hve⟩ := hm e he
    obtain ⟨this, ht, hb⟩ := CommandForest.prefix_of_mem_visits _ path v hv
    simp only [CommandForest.names, List.mem_singleton] at ht
    subst ht
    have heq := List.prefix_of_prefix_length_le hpre (hve ▸ hb) (by simp)
    rw [List.prefix_append_right_inj] at heq
    simp at heq
    exact hne (heq ▸ ho)
  · exact hu other ho e he hpre

/-- Adds what a list of nodes contributes. -/
def addAll (d : Draft) (bs : List NodeBindings) : Except PlanError Draft := bs.foldlM add d

theorem addAll_cons (d : Draft) (b : NodeBindings) (bs : List NodeBindings) :
    d.addAll (b :: bs) = (d.add b >>= fun d => d.addAll bs) := rfl

theorem addAll_forget (d : Draft) (bs : List NodeBindings) :
    d.forget.addAll bs = forget <$> d.addAll bs := by
  induction bs generalizing d with
  | nil => rfl
  | cons b bs ih =>
    rw [addAll_cons, addAll_cons, add_forget, bind_map_left, map_bind]
    exact bind_congr fun d => ih d

/-- **Search is inheritance.** From a draft that has met nothing of a forest, walking it with
the search is adding what its sites contribute. -/
theorem visits_eq_addAll (config : Config) (forest : CommandForest) (path : List String)
    (d : Draft) (hu : d.Unmet path forest.names) (ho : forest.Ordered) :
    forget <$> (forest.visits path).foldlM (fun d v => visit config v d) d =
      d.forget.addAll ((forest.sites path (d.recordAt path)).map (Site.bindings config)) := by
  induction forest generalizing path d with
  | nil => rfl
  | node name declaration children siblings ihc ihs =>
    have hn : name ∈ (CommandForest.node name declaration children siblings).names :=
      List.mem_cons_self ..
    unfold addAll at ihc ihs ⊢
    simp only [CommandForest.visits, CommandForest.sites, List.map_cons, List.map_append,
      List.foldlM_cons, List.foldlM_append]
    rw [visit_eq, ancestorRecord_append, add_forget]
    simp only [map_bind, bind_map_left]
    refine bind_congr_ok _ _ _ fun d₁ h₁ => ?_
    -- planning the command leaves alone what the search looks at
    obtain ⟨hg₁, hr₁⟩ := add_records d d₁ _ h₁
    have hu₁ : d₁.Unmet path (CommandForest.node name declaration children siblings).names := by
      unfold Unmet
      rw [hr₁]
      exact hu
    have hat : d₁.recordAt path = d.recordAt path :=
      recordAt_congr d d₁ path hg₁ fun _ _ => by rw [hr₁]
    -- below it, the search starts from the command's own record if it has one
    rw [← hat, ← remember_forget ⟨path ++ [name], declaration, children⟩ d₁,
      ← recordAt_remember d₁ path name declaration children _ hu₁ hn,
      ← ihc _ _ (unmet_children d₁ path name declaration children _ _ hu₁ hn) ho.2.1,
      bind_map_left]
    refine bind_congr_ok _ _ _ fun d₂ h₂ => ?_
    -- beside it, what it and its sub-commands kept lies on no path that is searched
    have hrun : ((CommandForest.node name declaration children .nil).visits path).foldlM
        (fun d v => visit config v d) d = .ok d₂ := by
      simp only [CommandForest.visits, List.append_nil, List.foldlM_cons]
      rw [visit_eq, ancestorRecord_append, h₁]
      exact h₂
    have hne : name ∉ siblings.names := fun hm =>
      String.lt_irrefl _ (CommandForest.Above.lt_of_mem_names siblings name ho.1 ho.2.2 name hm)
    have hu₂ := unmet_siblings config path name declaration children siblings d d₂
      (fun other hm => hu other (List.mem_cons_of_mem _ hm)) hne hrun
    rw [ihs path d₂ hu₂ ho.2.2, recordAt_visits config _ path d d₂ hrun, hat]

/-- A walk that keeps its draft as a state hands it from one command to the next. -/
private theorem run_walk (visit : CommandVisit → StateT Draft (Except PlanError) PUnit)
    (f : CommandVisit → Draft → Except PlanError Draft)
    (hv : ∀ v d, (visit v).run d = (fun d => (⟨⟩, d)) <$> f v d) (c : Commands) (d : Draft) :
    (c.walk visit).run d =
      (fun d => (⟨⟩, d)) <$> (c.forest.visits []).foldlM (fun d v => f v d) d := by
  rw [Commands.walk, CommandForest.walk_eq_forM]
  generalize c.forest.visits [] = vs
  induction vs generalizing d with
  | nil => rfl
  | cons v vs ih =>
    rw [List.forM_cons, StateT.run_bind, hv, List.foldlM_cons, map_bind, bind_map_left]
    exact bind_congr fun d => ih d

theorem addRoot_eq (config : Config) (document : Document) :
    (start config).addRoot config document =
      (fun d => { d with globalRecord := document.globalRecord config }) <$>
        (start config).add (document.rootBindings config) := by
  unfold addRoot add declare Document.rootBindings Document.rootRecord Document.globalRecord
  cases document.options.isEmpty <;> simp [addHooks_eq, start, addMethods_eq]

end Draft

/-- Planning is a run over the outline of the document. -/
theorem Plan.build_eq_addAll (document : Document) (config : Config) :
    Plan.build document config =
      Draft.plan <$> (Draft.start config).addAll (document.outline config) := by
  unfold Plan.build Document.outline
  rw [Draft.addAll_cons, Draft.addRoot_eq, bind_map_left, map_bind]
  refine bind_congr_ok _ _ _ fun d₁ h₁ => ?_
  let d₀ : Draft := { d₁ with globalRecord := document.globalRecord config }
  have hu : d₀.Unmet [] document.commands.forest.names := by
    intro name _ e he
    rw [show d₀.recordsByPath = [] from (Draft.add_records _ _ _ h₁).2] at he
    cases he
  have hsearch := Draft.visits_eq_addAll config document.commands.forest [] d₀ hu
    document.commands.ordered
  rw [show d₀.forget = d₁.forget from rfl, Draft.addAll_forget] at hsearch
  have hplan (x : Except PlanError Draft) :
      Draft.plan <$> x = Draft.plan <$> Draft.forget <$> x := by
    rw [Functor.map_map]
    rfl
  dsimp only
  rw [Draft.run_walk _ (Draft.visit config) (fun v d => ?_) document.commands d₀, bind_map_left]
  · rw [hplan (d₁.addAll _)]
    refine Eq.trans ?_ (congrArg (Functor.map Draft.plan) hsearch)
    rw [← hplan]
    rfl
  · cases h : Draft.visit config v d <;> simp [h]

end CommandSpec
