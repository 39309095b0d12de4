import CommandSpec.Proofs.TopDownPlan
import Mathlib.Data.List.Infix
import Mathlib.Data.List.Nodup

/-! Inheritance loses and repeats no option. From the record of a node's methods, looking up
one parent after the other meets the options declared on the node, on its ancestors from the
nearest on, and on the document. Parents are looked up by identifier, which is sound because
the registry of type names keeps the identifiers of a plan apart. -/
namespace CommandSpec
open Naming

def OptionEntry.declaredName : OptionEntry → String
  | inline o => o.name
  | reference key => key

/-- The names of the options declared at a path, in order. -/
def Document.declaredAt (document : Document) (path : List String) : List String :=
  match document.nodeAt? path with
  | some command => command.options.map OptionEntry.declaredName
  | none => []

/-- The options declared on the node at `path` and on the nodes above it, the nearest first. -/
def Document.declaredAlong (document : Document) (path : List String) : List String :=
  path.inits.reverse.flatMap document.declaredAt

/-- The records met from an identifier on, each found by its identifier. -/
inductive Plan.Chain (p : Plan) : Option String → List OptionRecord → Prop
  | stop : Chain p none []
  | link (identifier : String) (r : OptionRecord) (rest : List OptionRecord)
      (found : p.record? identifier = some r)
      (above : Chain p (r.parent.map EmbeddedRecord.identifier) rest) :
      Chain p (some identifier) (r :: rest)

def OptionRecord.optionNames (r : OptionRecord) : List String := r.fields.map RecordField.optionName

/-- The names of the methods of a node. The root has hooks even without commands. -/
def nodeMethodNames (path : List String) (command : Command) : List String :=
  if path.isEmpty || command.isBranch then
    [methodName path (some "hook_before"), methodName path (some "hook_after")]
  else [methodName path none]

/-! ## Records by identifier -/

theorem find?_eq_some_of_nodup (records : List OptionRecord)
    (h : (records.map OptionRecord.identifier).Nodup) (r : OptionRecord) (hr : r ∈ records) :
    records.find? (·.identifier == r.identifier) = some r := by
  induction records with
  | nil => cases hr
  | cons head rest ih =>
    obtain ⟨hnew, hrest⟩ := List.nodup_cons.mp h
    rcases List.mem_cons.mp hr with rfl | hr
    · simp
    · have hne : head.identifier ≠ r.identifier := fun e => hnew (e ▸ List.mem_map_of_mem hr)
      rw [List.find?_cons_of_neg (by simpa using hne)]
      exact ih hrest hr

/-- Different type names come from different identifiers. -/
theorem Document.topDownPlan_identifiers_nodup (document : Document) (config : Config)
    (h : ((document.declaredRecords config).map DeclaredRecord.typeName).Nodup) :
    ((document.topDownPlan config).records.map OptionRecord.identifier).Nodup := by
  refine List.Nodup.of_map recordTypeName ?_
  rw [List.map_map, topDownPlan, List.map_map]
  exact h

/-! ## Parents come first -/

/-- The parent of every record is one of those seen before it. -/
def ParentsSeen (seen : List String) : List OptionRecord → Prop
  | [] => True
  | r :: rest =>
    (∀ parent ∈ r.parent, parent.identifier ∈ seen) ∧ ParentsSeen (r.identifier :: seen) rest

theorem parentsSeen_append (seen : List String) (records more : List OptionRecord) :
    ParentsSeen seen (records ++ more) ↔
      ParentsSeen seen records ∧
        ParentsSeen ((records.map OptionRecord.identifier).reverse ++ seen) more := by
  induction records generalizing seen with
  | nil => simp [ParentsSeen]
  | cons r records ih => simp [ParentsSeen, ih, and_assoc]

/-- Below a node whose record has been seen, every parent has been seen. -/
theorem sites_parentsSeen (forest : CommandForest) (path : List String)
    (inherited : Option EmbeddedRecord) (seen : List String)
    (hi : ∀ e ∈ inherited, e.identifier ∈ seen) :
    ParentsSeen seen ((forest.sites path inherited).flatMap Site.records) := by
  induction forest generalizing path inherited seen with
  | nil => trivial
  | node name declaration children siblings ihc ihs =>
    simp only [CommandForest.sites, List.flatMap_cons, List.flatMap_append]
    rw [parentsSeen_append, parentsSeen_append]
    refine ⟨?_, ihc _ _ _ ?_, ihs _ _ _ ?_⟩
    · unfold Site.records Site.declaredRecord
      cases declaration.options.isEmpty with
      | true => trivial
      | false => exact ⟨hi, trivial⟩
    · intro e he
      unfold Site.inForce Site.ownRecord at he
      unfold Site.records Site.declaredRecord
      cases ho : declaration.options.isEmpty with
      | true =>
        simp only [ho, if_true, Option.none_or] at he
        exact List.mem_append_right _ (hi e he)
      | false =>
        simp [ho] at he
        subst he
        exact List.mem_cons_self ..
    · intro e he
      exact List.mem_append_right _ (List.mem_append_right _ (hi e he))

/-! ## The options met along a chain -/

theorem Document.declaredAlong_append (document : Document) (path : List String)
    (name : String) :
    document.declaredAlong (path ++ [name]) =
      document.declaredAt (path ++ [name]) ++ document.declaredAlong path := by
  simp [declaredAlong, List.inits_append]

theorem Document.declaredAlong_eq_nil_iff (document : Document) (path : List String) :
    document.declaredAlong path = [] ↔
      ∀ above ∈ path.inits, document.declaredAt above = [] := by
  simp [declaredAlong, List.flatMap_eq_nil_iff]

/-- A record of sound options has all of them as fields, in order. -/
theorem DeclaredRecord.optionNames_record (r : DeclaredRecord)
    (hs : ∀ entry ∈ r.options, entry.Sound) :
    r.record.optionNames = r.options.map OptionEntry.declaredName := by
  have hall (options : List OptionEntry) (hs : ∀ entry ∈ options, entry.Sound) :
      (inlineOptions options).map (fun o => o.field.optionName) =
        options.map OptionEntry.declaredName := by
    induction options with
    | nil => rfl
    | cons entry rest ih =>
      obtain ⟨he, hrest⟩ := List.forall_mem_cons.mp hs
      cases entry with
      | reference key => exact he.elim
      | inline o => exact congrArg (o.name :: ·) (ih hrest)
  rw [← hall r.options hs, record, OptionRecord.optionNames, List.map_map]
  rfl

/-- A chain that starts at a record meets an option. -/
theorem Plan.Chain.eq_none_iff (p : Plan) (hp : ∀ r ∈ p.records, r.optionNames ≠ [])
    (options : Option String) (chain : List OptionRecord) (h : p.Chain options chain) :
    options = none ↔ chain.flatMap OptionRecord.optionNames = [] := by
  cases h with
  | stop => simp
  | link identifier r rest found above =>
    have hne := hp r (List.mem_of_find?_eq_some found)
    simp [hne]

/-- What the induction over the tree needs of a plan: records are found by their identifiers,
and every record declared in `sites` is planned with all its options. -/
structure Plan.Holds (p : Plan) (sites : List Site) : Prop where
  found : ∀ r ∈ p.records, p.record? r.identifier = some r
  planned : ∀ s ∈ sites, ∀ r ∈ s.declaredRecord, r.record ∈ p.records
  sound : ∀ s ∈ sites, ∀ r ∈ s.declaredRecord, ∀ entry ∈ r.options, entry.Sound

theorem Plan.Holds.of_subset {p : Plan} {sites more : List Site} (h : p.Holds more)
    (hs : sites ⊆ more) : p.Holds sites :=
  ⟨h.found, fun s hm => h.planned s (hs hm), fun s hm => h.sound s (hs hm)⟩

/-- One step down: the chain of a command goes on with the chain it inherits. -/
theorem Site.chain_inForce (document : Document) (p : Plan) (path : List String) (name : String)
    (s : Site) (hpath : s.path = path ++ [name]) (hp : p.Holds [s]) (chain : List OptionRecord)
    (hc : p.Chain (s.inherited.map EmbeddedRecord.identifier) chain)
    (hn : chain.flatMap OptionRecord.optionNames = document.declaredAlong path)
    (hd : document.declaredAt s.path = s.declaration.options.map OptionEntry.declaredName) :
    ∃ chain, p.Chain (s.inForce.map EmbeddedRecord.identifier) chain ∧
      chain.flatMap OptionRecord.optionNames = document.declaredAlong s.path := by
  have halong : document.declaredAlong s.path =
      s.declaration.options.map OptionEntry.declaredName ++ document.declaredAlong path := by
    rw [← hd, hpath, document.declaredAlong_append]
  unfold inForce ownRecord
  cases ho : s.declaration.options.isEmpty with
  | true =>
    rw [List.isEmpty_iff.mp ho] at halong
    exact ⟨chain, hc, hn.trans halong.symm⟩
  | false =>
    let r : DeclaredRecord :=
      ⟨nodeIdentifier s.path, s.inherited, s.declaration.options, s.path, s.owner⟩
    have hr : s.declaredRecord = some r := if_neg (by simp [ho])
    have hmem := List.mem_singleton_self s
    refine ⟨r.record :: chain,
      .link _ _ _ (hp.found r.record (hp.planned s hmem r hr)) hc, ?_⟩
    rw [List.flatMap_cons, hn, halong, r.optionNames_record (hp.sound s hmem r hr)]

/-- Every command of a forest has a chain when the node above it has one. -/
theorem sites_chain (document : Document) (p : Plan) (forest : CommandForest)
    (path : List String) (inherited : Option EmbeddedRecord)
    (hp : p.Holds (forest.sites path inherited))
    (hd : ∀ v ∈ forest.visits path,
      document.declaredAt v.path = v.declaration.options.map OptionEntry.declaredName)
    (chain : List OptionRecord) (hc : p.Chain (inherited.map EmbeddedRecord.identifier) chain)
    (hn : chain.flatMap OptionRecord.optionNames = document.declaredAlong path) :
    ∀ s ∈ forest.sites path inherited, ∃ chain,
      p.Chain (s.inForce.map EmbeddedRecord.identifier) chain ∧
        chain.flatMap OptionRecord.optionNames = document.declaredAlong s.path := by
  induction forest generalizing path inherited chain with
  | nil => simp [CommandForest.sites]
  | node name declaration children siblings ihc ihs =>
    simp only [CommandForest.visits, CommandForest.sites] at hp hd ⊢
    obtain ⟨hhere, hbelow⟩ := List.forall_mem_cons.mp hd
    obtain ⟨hchildren, hsiblings⟩ := List.forall_mem_append.mp hbelow
    obtain ⟨own, howned, hown⟩ := Site.chain_inForce document p path name
      ⟨⟨path ++ [name], declaration, children⟩, inherited⟩ rfl
      (hp.of_subset (by simp)) chain hc hn hhere
    refine List.forall_mem_cons.mpr ⟨⟨own, howned, hown⟩, List.forall_mem_append.mpr ⟨?_, ?_⟩⟩
    · exact ihc _ _ (hp.of_subset fun s hs => List.mem_cons_of_mem _
        (List.mem_append_left _ hs)) hchildren own howned hown
    · exact ihs _ _ (hp.of_subset fun s hs => List.mem_cons_of_mem _
        (List.mem_append_right _ hs)) hsiblings chain hc hn

/-! ## The records of a plan -/

/-- A parent that has been seen stands in front of the record. -/
theorem ParentsSeen.exists_before (before after : List OptionRecord) (r : OptionRecord)
    (h : ParentsSeen [] (before ++ r :: after)) (parent : EmbeddedRecord)
    (hp : parent ∈ r.parent) : ∃ above ∈ before, above.identifier = parent.identifier := by
  obtain ⟨-, hr, -⟩ := (parentsSeen_append [] before (r :: after)).mp h
  have hseen := hr parent hp
  rw [List.append_nil, List.mem_reverse] at hseen
  exact List.mem_map.mp hseen

namespace Document

theorem topDownPlan_records (document : Document) (config : Config) :
    (document.topDownPlan config).records =
      (document.rootRecord config).toList.map DeclaredRecord.record ++
        (document.sites config).flatMap Site.records := by
  simp only [topDownPlan, declaredRecords, outline, List.flatMap_cons, List.map_append,
    List.flatMap_map, List.map_flatMap]
  rfl

/-- The record of a document comes first and has no parent. -/
theorem topDownPlan_parentsSeen (document : Document) (config : Config) :
    ParentsSeen [] (document.topDownPlan config).records := by
  rw [topDownPlan_records, parentsSeen_append]
  unfold sites globalRecord rootRecord
  cases document.options.isEmpty with
  | true => exact ⟨trivial, sites_parentsSeen _ _ _ _ (by simp)⟩
  | false =>
    refine ⟨⟨by rintro parent ⟨⟩, trivial⟩, sites_parentsSeen _ _ _ _ ?_⟩
    rintro parent ⟨⟩
    exact List.mem_cons_self ..

theorem declaredAt_of_nodeAt? (document : Document) (path : List String) (command : Command)
    (h : document.nodeAt? path = some command) :
    document.declaredAt path = command.options.map OptionEntry.declaredName := by
  unfold declaredAt
  rw [h]

theorem declaredAt_eq_nil_iff (document : Document) (path : List String) :
    document.declaredAt path = [] ↔
      ∀ command, document.nodeAt? path = some command → command.options = [] := by
  unfold declaredAt
  cases document.nodeAt? path <;> simp

/-- No record is without options. -/
theorem topDownPlan_optionNames_ne_nil (document : Document) (config : Config)
    (hs : ∀ r ∈ document.declaredRecords config, r.Sound) :
    ∀ r ∈ (document.topDownPlan config).records, r.optionNames ≠ [] := by
  intro r hr
  obtain ⟨d, hd, rfl⟩ := List.mem_map.mp hr
  obtain ⟨hne, -⟩ := document.exists_node_of_mem_declaredRecords config d hd
  rw [d.optionNames_record (hs d hd).1]
  simpa using hne

/-- The chain of the document's own record. -/
theorem root_chain (document : Document) (config : Config) (p : Plan)
    (found : ∀ r ∈ p.records, p.record? r.identifier = some r)
    (planned : ∀ r ∈ document.rootRecord config,
      r.record ∈ p.records ∧ ∀ entry ∈ r.options, entry.Sound) :
    ∃ chain, p.Chain ((document.globalRecord config).map EmbeddedRecord.identifier) chain ∧
      chain.flatMap OptionRecord.optionNames = document.declaredAlong [] := by
  have halong : document.declaredAlong [] =
      document.options.map OptionEntry.declaredName :=
    (List.append_nil _).trans (document.declaredAt_of_nodeAt? [] document.root rfl)
  unfold rootRecord at planned
  unfold globalRecord
  cases ho : document.options.isEmpty with
  | true => exact ⟨[], .stop, by rw [halong, List.isEmpty_iff.mp ho]; rfl⟩
  | false =>
    obtain ⟨hr, hs⟩ := planned _ (if_neg (by simp [ho]))
    refine ⟨_, .link _ _ _ (found _ hr) .stop, ?_⟩
    rw [List.flatMap_cons, DeclaredRecord.optionNames_record _ hs, halong]
    exact List.append_nil _

/-- The record in force at a node heads a chain of all options declared along its path. -/
theorem exists_chain (document : Document) (config : Config) (p : Plan)
    (h : Plan.build document config = .ok p)
    (found : ∀ r ∈ p.records, p.record? r.identifier = some r) :
    (∃ chain, p.Chain ((document.globalRecord config).map EmbeddedRecord.identifier) chain ∧
      chain.flatMap OptionRecord.optionNames = document.declaredAlong []) ∧
    ∀ s ∈ document.sites config, ∃ chain,
      p.Chain (s.inForce.map EmbeddedRecord.identifier) chain ∧
        chain.flatMap OptionRecord.optionNames = document.declaredAlong s.path := by
  obtain ⟨hs, -, -, rfl⟩ := (Plan.build_eq_ok_iff ..).mp h
  have hdeclared : ∀ b ∈ document.outline config, ∀ r ∈ b.record,
      r.record ∈ (document.topDownPlan config).records ∧ ∀ entry ∈ r.options, entry.Sound :=
    (document.forall_outline_iff config _).mpr fun r hr =>
      ⟨List.mem_map_of_mem hr, (hs r hr).1⟩
  obtain ⟨hroot, hsites⟩ := List.forall_mem_cons.mp hdeclared
  have hsites := List.forall_mem_map.mp hsites
  obtain ⟨chain, hc, hn⟩ := document.root_chain config _ found hroot
  refine ⟨⟨chain, hc, hn⟩, sites_chain document _ _ [] (document.globalRecord config)
    ⟨found, fun s hm r hr => (hsites s hm r hr).1, fun s hm r hr => (hsites s hm r hr).2⟩
    (fun v hv => ?_) chain hc hn⟩
  obtain ⟨command, hcommand, hnode⟩ := document.nodeAt?_of_mem_visits v hv
  rw [document.declaredAt_of_nodeAt? v.path command hnode, hcommand]
  rfl

end Document

/-! ## The methods of a node -/

/-- A command is never the root. -/
theorem CommandForest.path_ne_nil_of_mem_sites (forest : CommandForest) (path : List String)
    (inherited : Option EmbeddedRecord) (s : Site) (h : s ∈ forest.sites path inherited) :
    s.path ≠ [] := by
  have hv : s.toCommandVisit ∈ forest.visits path :=
    forest.sites_toCommandVisit path inherited ▸ List.mem_map_of_mem h
  obtain ⟨name, -, hp⟩ := forest.prefix_of_mem_visits path _ hv
  rintro hnil
  rw [hnil, List.prefix_nil] at hp
  simp at hp

theorem hooks_options (path : List String) (options description : Option String) :
    ∀ m ∈ hooks path options description, m.options = options := by
  simp [hooks]

theorem Site.methods_names (s : Site) (command : Command)
    (hb : s.isBranch = command.isBranch) (hne : s.path ≠ []) :
    s.methods.map Method.name = nodeMethodNames s.path command := by
  have hempty : s.path.isEmpty = false := by simpa using hne
  unfold methods nodeMethodNames
  rw [hb, hempty, Bool.false_or]
  cases command.isBranch <;> rfl

theorem Site.methods_options (s : Site) :
    ∀ m ∈ s.methods, m.options = s.inForce.map EmbeddedRecord.identifier := by
  unfold methods
  cases s.isBranch with
  | true => exact hooks_options _ _ _
  | false => simp

/-- What a node adds: methods of its names, all with one record, which heads a chain of the
options declared along its path. -/
theorem Document.exists_bindings (document : Document) (config : Config) (p : Plan)
    (h : Plan.build document config = .ok p)
    (found : ∀ r ∈ p.records, p.record? r.identifier = some r)
    (path : List String) (command : Command) (hn : document.nodeAt? path = some command) :
    ∃ b ∈ document.outline config, b.methods.map Method.name = nodeMethodNames path command ∧
      ∃ options chain, (∀ m ∈ b.methods, m.options = options) ∧ p.Chain options chain ∧
        chain.flatMap OptionRecord.optionNames = document.declaredAlong path := by
  obtain ⟨⟨chain, hc, halong⟩, hsites⟩ := document.exists_chain config p h found
  rcases document.root_or_site config path command hn with ⟨rfl, rfl⟩ | ⟨s, hs, hv⟩
  · exact ⟨_, List.mem_cons_self .., rfl, _, chain, hooks_options _ _ _, hc, halong⟩
  · obtain rfl : s.path = path := congrArg CommandVisit.path hv
    obtain ⟨chain, hc, halong⟩ := hsites s hs
    have hnames := s.methods_names command (congrArg CommandVisit.isBranch hv)
      (CommandForest.path_ne_nil_of_mem_sites _ _ _ s hs)
    exact ⟨s.bindings config, List.mem_cons_of_mem _ (List.mem_map_of_mem hs), hnames,
      _, chain, s.methods_options, hc, halong⟩

/-- Methods of different nodes have different names, so a name tells its node. -/
theorem mem_methods_of_name (bs : List NodeBindings)
    (h : ((bs.flatMap NodeBindings.methods).map Method.name).Nodup) (b : NodeBindings)
    (hb : b ∈ bs) (m : Method) (hm : m ∈ bs.flatMap NodeBindings.methods)
    (hname : m.name ∈ b.methods.map Method.name) : m ∈ b.methods := by
  obtain ⟨m', hm', hname⟩ := List.mem_map.mp hname
  have hmem : m' ∈ bs.flatMap NodeBindings.methods := List.mem_flatMap.mpr ⟨b, hb, hm'⟩
  exact List.inj_on_of_nodup_map h hmem hm hname ▸ hm'

/-- **No option is lost or repeated by inheritance.** -/
theorem Plan.build_chains (document : Document) (config : Config) (p : Plan)
    (h : Plan.build document config = .ok p) :
    (∀ r ∈ p.records, p.record? r.identifier = some r) ∧
    (∀ before r after, p.records = before ++ r :: after →
      ∀ parent ∈ r.parent, ∃ above ∈ before, p.record? parent.identifier = some above) ∧
    ∀ path command, document.nodeAt? path = some command →
      ∃ options chain,
        (∀ name ∈ nodeMethodNames path command, ∃ m ∈ p.methods, m.name = name) ∧
        (∀ m ∈ p.methods, m.name ∈ nodeMethodNames path command → m.options = options) ∧
        p.Chain options chain ∧
        chain.flatMap OptionRecord.optionNames = document.declaredAlong path ∧
        (options = none ↔ ∀ above command, above <+: path →
          document.nodeAt? above = some command → command.options = []) := by
  obtain ⟨hs, ht, hm, hplan⟩ := (Plan.build_eq_ok_iff ..).mp h
  -- the registry keeps type names apart, and so the identifiers they are made of
  have hidentifiers : (p.records.map OptionRecord.identifier).Nodup := by
    rw [hplan]
    refine document.topDownPlan_identifiers_nodup config ?_
    rw [← document.typeClaims_names]
    exact ht.1
  have found := find?_eq_some_of_nodup p.records hidentifiers
  refine ⟨found, fun before r after hsplit parent hp => ?_, fun path command hn => ?_⟩
  · have hseen : ParentsSeen [] (before ++ r :: after) :=
      hsplit ▸ hplan ▸ document.topDownPlan_parentsSeen config
    obtain ⟨above, hbefore, hid⟩ := hseen.exists_before before after r parent hp
    have hmem : above ∈ p.records := hsplit ▸ List.mem_append_left _ hbefore
    exact ⟨above, hbefore, hid ▸ found above hmem⟩
  · obtain ⟨b, hb, hnames, options, chain, hoptions, hc, halong⟩ :=
      document.exists_bindings config p h found path command hn
    have hmethods : p.methods = (document.outline config).flatMap NodeBindings.methods :=
      congrArg Plan.methods hplan
    refine ⟨options, chain, fun name hname => ?_, fun m hmem hname => ?_, hc, halong, ?_⟩
    · obtain ⟨m, hmem, rfl⟩ := List.mem_map.mp (hnames ▸ hname)
      exact ⟨m, hmethods ▸ List.mem_flatMap.mpr ⟨b, hb, hmem⟩, rfl⟩
    · refine hoptions m (mem_methods_of_name _ ?_ b hb m (hmethods ▸ hmem) (hnames ▸ hname))
      rw [document.methodClaims_names] at hm
      exact hm
    · have hne : ∀ r ∈ p.records, r.optionNames ≠ [] :=
        hplan ▸ document.topDownPlan_optionNames_ne_nil config hs
      rw [Plan.Chain.eq_none_iff p hne options chain hc, halong, document.declaredAlong_eq_nil_iff]
      simp only [List.mem_inits, document.declaredAt_eq_nil_iff]
      exact forall_congr' fun above => forall_comm

/-- Below `a b c`, which declares nothing, the chain goes to `a` although `a BC` has a record
under the identifier of `a b c`. -/
theorem sharedIdentifier_chain :
    ∃ p options chain, Plan.build sharedIdentifier {} = .ok p ∧ p.Chain options chain ∧
      (∀ m ∈ p.methods, m.name = "a_b_c_d" → m.options = options) ∧
      chain.flatMap OptionRecord.optionNames = ["wait", "verbose"] := by
  have h : Plan.build sharedIdentifier {} = .ok (sharedIdentifier.topDownPlan {}) :=
    eq_ok_of_toOption (by decide +kernel)
  have hn : sharedIdentifier.nodeAt? ["a", "b", "c", "d"] = some {} := by decide +kernel
  obtain ⟨-, -, hnodes⟩ := Plan.build_chains _ _ _ h
  obtain ⟨options, chain, -, hoptions, hc, halong, -⟩ := hnodes _ _ hn
  have hnames : "a_b_c_d" ∈ nodeMethodNames ["a", "b", "c", "d"] {} := by decide +kernel
  refine ⟨_, options, chain, h, hc, fun m hm hname => hoptions m hm (hname ▸ hnames), ?_⟩
  rw [halong]
  decide +kernel

end CommandSpec
