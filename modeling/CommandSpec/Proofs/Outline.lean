import CommandSpec.Bindings.Plan
import CommandSpec.Proofs.Visits

/-! The bindings of a document read off its tree from the top down. The only thing handed
from a node to its sub-commands is the record in force; what a node adds is then a function of
the node and that record. No name is checked here: `Planning` shows when the checks let a plan
through, and that it is then the one defined here. -/
namespace CommandSpec
open Naming

/-! ## Option records -/

/-- A field holds a value for sure when the option is required or has a default. -/
def OptionSpec.plainKind (o : OptionSpec) : FieldKind :=
  if o.required || o.default.isSome then .concrete else .optional

def OptionSpec.field (o : OptionSpec) : RecordField where
  name := fieldName o.name
  optionName := o.name
  typeText := match ScalarType.ofTag? o.typeTag with
    | some scalar => FieldType.typeText ⟨scalar, o.plainKind⟩
    | none => ""
  description := o.description

def OptionSpec.importPath? (o : OptionSpec) : Option String :=
  (ScalarType.ofTag? o.typeTag).bind ScalarType.importPath?

def inlineOptions (options : List OptionEntry) : List OptionSpec :=
  options.filterMap OptionEntry.option?

/-- The field names that options take, each with the path of its option. -/
def fieldClaims (path : List String) (options : List OptionEntry) : List (String × String) :=
  (inlineOptions options).map fun o => (fieldName o.name, optionPath path o.name)

/-- The options one node declares, and the record that is to hold them. -/
structure DeclaredRecord where
  identifier : String
  parent : Option EmbeddedRecord
  options : List OptionEntry
  /-- The node that declares the options. -/
  path : List String
  /-- What the record's type name stands for. -/
  owner : String

namespace DeclaredRecord

def typeName (r : DeclaredRecord) : String := recordTypeName r.identifier

def record (r : DeclaredRecord) : OptionRecord :=
  ⟨r.identifier, r.parent, (inlineOptions r.options).map OptionSpec.field⟩

def importPaths (r : DeclaredRecord) : List String :=
  (inlineOptions r.options).filterMap OptionSpec.importPath?

def parentClaims (r : DeclaredRecord) : List (String × String) :=
  match r.parent with
  | some parent => [(parent.field, parent.typeName)]
  | none => []

/-- All field names of the record, the embedded record's first. -/
def claims (r : DeclaredRecord) : List (String × String) :=
  r.parentClaims ++ fieldClaims r.path r.options

end DeclaredRecord

/-! ## What a node adds -/

structure NodeBindings where
  record : Option DeclaredRecord
  methods : List Method
  /-- What the method names stand for. -/
  owner : String
  table : List TableEntry

namespace NodeBindings

def records (b : NodeBindings) : List OptionRecord :=
  b.record.toList.map DeclaredRecord.record

def importPaths (b : NodeBindings) : List String :=
  b.record.toList.flatMap DeclaredRecord.importPaths

def typeClaims (b : NodeBindings) : List (String × String) :=
  b.record.toList.map fun r => (r.typeName, r.owner)

def methodClaims (b : NodeBindings) : List (String × String) :=
  b.methods.map fun m => (m.name, b.owner)

end NodeBindings

def hooks (path : List String) (options description : Option String) : List Method :=
  [⟨methodName path (some "hook_before"), .hookBefore, options, description⟩,
   ⟨methodName path (some "hook_after"), .hookAfter, options, none⟩]

/-- A command and the record it inherits from the nodes above it. -/
structure Site extends CommandVisit where
  inherited : Option EmbeddedRecord

namespace Site

def ownRecord (s : Site) : Option EmbeddedRecord :=
  if s.declaration.options.isEmpty then none
  else some ⟨nodeIdentifier s.path, methodName s.path none⟩

/-- The record passed to the command's methods and inherited below it. -/
def inForce (s : Site) : Option EmbeddedRecord := s.ownRecord.or s.inherited

def owner (s : Site) : String := " ".intercalate s.path

def declaredRecord (s : Site) : Option DeclaredRecord :=
  if s.declaration.options.isEmpty then none
  else some ⟨nodeIdentifier s.path, s.inherited, s.declaration.options, s.path, s.owner⟩

theorem options_of_declaredRecord (s : Site) (r : DeclaredRecord)
    (h : s.declaredRecord = some r) :
    r.path = s.path ∧ r.options = s.declaration.options ∧ r.options ≠ [] := by
  obtain ⟨hne, h⟩ := Option.ite_none_left_eq_some.mp h
  cases h
  exact ⟨rfl, rfl, mt List.isEmpty_iff.mpr hne⟩

def records (s : Site) : List OptionRecord :=
  s.declaredRecord.toList.map DeclaredRecord.record

def methods (s : Site) : List Method :=
  let options := s.inForce.map EmbeddedRecord.identifier
  let description := s.declaration.description.or s.declaration.usage
  if s.isBranch then hooks s.path options description
  else [⟨methodName s.path none, .action, options, description⟩]

def tableEntry (s : Site) : TableEntry where
  path := s.path
  identifier := nodeIdentifier s.path
  method := if s.isBranch then none else some (methodName s.path none)
  options := s.inForce.map EmbeddedRecord.identifier
  usage := s.declaration.usage
  description := s.declaration.description
  minArgs := s.declaration.minArgs
  maxArgs := s.declaration.maxArgs
  hasSubcommands := s.isBranch

def bindings (config : Config) (s : Site) : NodeBindings where
  record := s.declaredRecord
  methods := s.methods
  owner := s.owner
  table := if config.commandTable then [s.tableEntry] else []

end Site

/-- The commands below `path` from the top down: each inherits what is in force above it. -/
def CommandForest.sites (path : List String) (inherited : Option EmbeddedRecord) :
    CommandForest → List Site
  | nil => []
  | node name declaration children siblings =>
    let here : Site := ⟨⟨path ++ [name], declaration, children⟩, inherited⟩
    here :: (children.sites (path ++ [name]) here.inForce ++ siblings.sites path inherited)

theorem CommandForest.sites_toCommandVisit (forest : CommandForest) (path : List String)
    (inherited : Option EmbeddedRecord) :
    (forest.sites path inherited).map Site.toCommandVisit = forest.visits path := by
  induction forest generalizing path inherited with
  | nil => rfl
  | node name declaration children siblings ihc ihs =>
    simp only [sites, visits, List.map_cons, List.map_append, ihc, ihs]

/-! ## The whole document -/

namespace Document

def globalRecord (document : Document) (config : Config) : Option EmbeddedRecord :=
  if document.options.isEmpty then none
  else some ⟨config.globalOptionsText, fieldName config.globalOptionsText⟩

def sites (document : Document) (config : Config) : List Site :=
  document.commands.forest.sites [] (document.globalRecord config)

def rootRecord (document : Document) (config : Config) : Option DeclaredRecord :=
  if document.options.isEmpty then none
  else some ⟨config.globalOptionsText, none, document.options, [], "global options"⟩

def rootBindings (document : Document) (config : Config) : NodeBindings where
  record := document.rootRecord config
  methods := hooks [] ((document.globalRecord config).map EmbeddedRecord.identifier) none
  owner := "root"
  table := []

/-- What every node adds, the root first and the commands in walk order. -/
def outline (document : Document) (config : Config) : List NodeBindings :=
  document.rootBindings config :: (document.sites config).map (Site.bindings config)

def declaredRecords (document : Document) (config : Config) : List DeclaredRecord :=
  (document.outline config).flatMap fun b => b.record.toList

/-- The paths that the bindings import, as often as they are needed. -/
def importPaths (document : Document) (config : Config) : List String :=
  [config.runtimeText ++ "::CommandError", config.runtimeText ++ "::Context"] ++
    (document.declaredRecords config).flatMap DeclaredRecord.importPaths

/-- A node is the root or has a site. -/
theorem root_or_site (document : Document) (config : Config) (path : List String)
    (command : Command) (h : document.nodeAt? path = some command) :
    (path = [] ∧ command = document.root) ∨
      ∃ s ∈ document.sites config, s.toCommandVisit = Commands.asVisit path command := by
  rcases (document.nodeAt?_eq_some_iff path command).mp h with h | h
  · exact Or.inl h
  · rw [← CommandForest.sites_toCommandVisit _ _ (document.globalRecord config)] at h
    obtain ⟨s, hs, he⟩ := List.mem_map.mp h
    exact Or.inr ⟨s, hs, he⟩

theorem nodeAt?_of_mem_sites (document : Document) (config : Config) (s : Site)
    (h : s ∈ document.sites config) : ∃ command,
      s.toCommandVisit = Commands.asVisit s.path command ∧
        document.nodeAt? s.path = some command := by
  refine document.nodeAt?_of_mem_visits s.toCommandVisit ?_
  rw [← CommandForest.sites_toCommandVisit _ _ (document.globalRecord config)]
  exact List.mem_map_of_mem h

theorem mem_declaredRecords (document : Document) (config : Config) (r : DeclaredRecord) :
    r ∈ document.declaredRecords config ↔ ∃ b ∈ document.outline config, r ∈ b.record := by
  simp [declaredRecords, List.mem_flatMap, Option.mem_toList]

/-- The node that declares the options of a record. -/
theorem exists_node_of_mem_declaredRecords (document : Document) (config : Config)
    (r : DeclaredRecord) (h : r ∈ document.declaredRecords config) :
    r.options ≠ [] ∧
      ∃ command, document.nodeAt? r.path = some command ∧ command.options = r.options := by
  obtain ⟨b, hb, hr⟩ := (document.mem_declaredRecords config r).mp h
  rcases List.mem_cons.mp hb with rfl | hb
  · obtain ⟨hne, hr⟩ := Option.ite_none_left_eq_some.mp hr
    cases hr
    exact ⟨mt List.isEmpty_iff.mpr hne, document.root, rfl, rfl⟩
  · obtain ⟨s, hs, rfl⟩ := List.mem_map.mp hb
    obtain ⟨command, hv, hn⟩ := document.nodeAt?_of_mem_sites config s hs
    obtain ⟨hpath, hoptions, hne⟩ := s.options_of_declaredRecord r hr
    refine ⟨hne, command, hpath ▸ hn, hoptions ▸ ?_⟩
    exact congrArg (·.declaration.options) hv.symm

theorem forall_outline_iff (document : Document) (config : Config)
    (P : DeclaredRecord → Prop) :
    (∀ b ∈ document.outline config, ∀ r ∈ b.record, P r) ↔
      ∀ r ∈ document.declaredRecords config, P r := by
  constructor
  · intro h r hr
    obtain ⟨b, hb, hr⟩ := (document.mem_declaredRecords config r).mp hr
    exact h b hb r hr
  · intro h b hb r hr
    exact h r ((document.mem_declaredRecords config r).mpr ⟨b, hb, hr⟩)

end Document

/-- Names put one after the other into a list in ascending order. -/
def insertNames (names : List String) (more : List String) : List String :=
  more.foldl (fun names name => insertName name names) names

/-- The plan read off the tree from the top down. -/
def Document.topDownPlan (document : Document) (config : Config) : Plan where
  imports := insertNames [] (document.importPaths config)
  methods := (document.outline config).flatMap NodeBindings.methods
  records := (document.declaredRecords config).map DeclaredRecord.record
  table := (document.outline config).flatMap NodeBindings.table

end CommandSpec
