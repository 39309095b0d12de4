import CommandSpec.Proofs.Visits
import CommandSpec.Proofs.WrittenFields

/-! Whole documents read back from what was written of them. Maps are written in name order, so
inserting their entries one by one appends each of them, and the map comes out as it was. A
document reads back if its references have the form that decoding asks for and its components
have names (`Document.ofNode_toNode`). -/
namespace CommandSpec

/-! ## Components -/

theorem insertEntry_last (name : String) (value : α) (entries : List (String × α))
    (h : (entries ++ [(name, value)]).Pairwise (·.1 < ·.1)) :
    insertEntry name value entries = entries ++ [(name, value)] := by
  induction entries with
  | nil => rfl
  | cons head rest ih =>
    obtain ⟨other, kept⟩ := head
    obtain ⟨hhead, hrest⟩ := List.pairwise_cons.mp h
    have hlt : other < name := hhead (name, value) (by simp)
    have hne : name ≠ other := fun e => String.lt_irrefl _ (e ▸ hlt)
    have hnlt : ¬name < other := fun h => String.lt_irrefl _ (String.lt_trans h hlt)
    rw [insertEntry, if_neg hnlt, if_neg hne, ih hrest, List.cons_append]

/-- A component has a name unless its key is empty. -/
def IsNamed (c : String × OptionSpec) : Prop := c.2.named c.1 = c.2

def inlineEntry (c : String × OptionSpec) : String × OptionEntry := (c.1, .inline c.2)

theorem readEntryMap_written (m : NameMap OptionEntry) (components : List (String × OptionSpec))
    (h : (m.entries ++ components.map inlineEntry).Pairwise (·.1 < ·.1)) :
    ∃ m', readEntryMap m (components.map fun c => fieldNode c.1 c.2.toNode) = .ok m' ∧
      m'.entries = m.entries ++ components.map inlineEntry := by
  induction components generalizing m with
  | nil => exact ⟨m, rfl, (List.append_nil _).symm⟩
  | cons c rest ih =>
    obtain ⟨name, o⟩ := c
    rw [List.map_cons, List.append_cons] at h
    have hinsert : (m.insert name (.inline o)).entries = m.entries ++ [(name, .inline o)] :=
      insertEntry_last name _ m.entries (List.pairwise_append.mp h).1
    obtain ⟨m', hread, hentries⟩ := ih (m.insert name (.inline o)) (hinsert ▸ h)
    refine ⟨m', ?_, ?_⟩
    · have he : OptionEntry.ofNode o.toNode = .ok (.inline o) :=
        (OptionEntry.inline o).ofNode_toNode trivial
      simp only [List.map_cons, readEntryMap, fieldNode, Node.readString, Node.untagged, he,
        ok_bind]
      exact hread
    · rw [hentries, hinsert, List.append_assoc]
      rfl

theorem componentsOf_written (m : NameMap OptionSpec) (components : List (String × OptionSpec))
    (hnamed : ∀ c ∈ components, IsNamed c)
    (h : (m.entries ++ components).Pairwise (·.1 < ·.1)) :
    ∃ m', componentsOf m (components.map inlineEntry) = .ok m' ∧
      m'.entries = m.entries ++ components := by
  induction components generalizing m with
  | nil => exact ⟨m, rfl, (List.append_nil _).symm⟩
  | cons c rest ih =>
    obtain ⟨name, o⟩ := c
    obtain ⟨ho, hrest⟩ := List.forall_mem_cons.mp hnamed
    have ho : o.named name = o := ho
    rw [List.append_cons] at h
    have hinsert : (m.insert name o).entries = m.entries ++ [(name, o)] :=
      insertEntry_last name _ m.entries (List.pairwise_append.mp h).1
    obtain ⟨m', hread, hentries⟩ := ih (m.insert name o) hrest (hinsert ▸ h)
    refine ⟨m', ?_, ?_⟩
    · simp only [List.map_cons, inlineEntry, componentsOf, ho]
      exact hread
    · rw [hentries, hinsert, List.append_assoc]
      rfl

theorem NameMap.eq_of_entries {m m' : NameMap α} (h : m.entries = m'.entries) : m = m' := by
  cases m
  cases m'
  cases h
  rfl

theorem readNamedOptions_written (m : NameMap OptionSpec) (hnamed : ∀ c ∈ m.entries, IsNamed c) :
    readNamedOptions (namedOptionsNode m) = .ok m := by
  have hmap : (m.entries.map inlineEntry).Pairwise (·.1 < ·.1) :=
    List.pairwise_map.mpr m.ordered
  obtain ⟨entries, hread, hentries⟩ := readEntryMap_written .empty m.entries hmap
  obtain ⟨m', hcomponents, hm⟩ := componentsOf_written .empty m.entries hnamed m.ordered
  have hopt : Node.readOptional (namedOptionsNode m) = .ok (some (namedOptionsNode m)) := rfl
  have hnode : Node.readEntries (namedOptionsNode m) "a map" =
      .ok (m.entries.map fun c => fieldNode c.1 c.2.toNode) := rfl
  have hentries : entries.entries = m.entries.map inlineEntry := hentries
  unfold readNamedOptions
  simp only [hopt, ok_bind, hnode, hread, hentries, hcomponents]
  exact congrArg Except.ok (NameMap.eq_of_entries hm)

theorem readComponents_written (m : NameMap OptionSpec) (hnamed : ∀ c ∈ m.entries, IsNamed c) :
    readComponents (componentsNode m) = .ok m := by
  unfold componentsNode NameMap.isEmpty
  cases h : m.entries.isEmpty with
  | true => exact congrArg Except.ok (NameMap.eq_of_entries (List.isEmpty_iff.mp h).symm)
  | false =>
    change (readNamedOptions (namedOptionsNode m) >>= Except.ok) = _
    rw [readNamedOptions_written m hnamed]
    rfl

/-! ## Commands -/

namespace CommandForest

/-- The commands of one forest before those of another on the top level. -/
def beside : CommandForest → CommandForest → CommandForest
  | nil, more => more
  | node name declaration children siblings, more =>
    node name declaration children (siblings.beside more)

theorem beside_assoc (f g h : CommandForest) : (f.beside g).beside h = f.beside (g.beside h) := by
  induction f with
  | nil => rfl
  | node name declaration children siblings _ ih => simp only [beside, ih]

theorem names_beside (f g : CommandForest) : (f.beside g).names = f.names ++ g.names := by
  induction f with
  | nil => rfl
  | node name declaration children siblings _ ih => simp only [beside, names, ih, List.cons_append]

theorem beside_nil (f : CommandForest) : f.beside nil = f := by
  induction f with
  | nil => rfl
  | node name declaration children siblings _ ih => rw [beside, ih]

theorem Ordered.of_beside (f g : CommandForest) (h : (f.beside g).Ordered) : g.Ordered := by
  induction f with
  | nil => exact h
  | node name declaration children siblings _ ih => exact ih h.2.2

/-- A command whose name comes last is appended. -/
theorem insert_last (f : CommandForest) (name : String) (declaration : Declaration)
    (children siblings : CommandForest)
    (h : (f.beside (node name declaration children siblings)).Ordered) :
    f.insert name declaration children = f.beside (node name declaration children nil) := by
  induction f with
  | nil => rfl
  | node other kept below rest _ ih =>
    obtain ⟨habove, -, hrest⟩ := h
    have hlt : other < name :=
      Above.lt_of_mem_names _ other habove hrest name (by simp [names_beside, names])
    have hne : name ≠ other := fun e => String.lt_irrefl _ (e ▸ hlt)
    have hnlt : ¬name < other := fun h => String.lt_irrefl _ (String.lt_trans h hlt)
    rw [insert, if_neg hnlt, if_neg hne, ih hrest, beside]

/-- Every option entry of the forest has the property. -/
def AllEntries (P : OptionEntry → Prop) : CommandForest → Prop
  | nil => True
  | node _ declaration children siblings =>
    (∀ e ∈ declaration.options, P e) ∧ children.AllEntries P ∧ siblings.AllEntries P

end CommandForest

namespace Declaration

/-- The slots of a command, given the entries of its sub-commands. -/
def slots (d : Declaration) (children : List (Node × Node)) : Slots :=
  [("usage", d.usage.map .text),
   ("description", d.description.map .text),
   ("options", if d.options.isEmpty then none else some (optionListNode d.options)),
   ("commands", if children.isEmpty then none else some (.map children)),
   ("minArgs", some (.int d.minArgs.toNat)),
   ("maxArgs", some (.int d.maxArgs.toNat))]

theorem toNode_eq (d : Declaration) (children : List (Node × Node)) :
    d.toNode children = .map (d.slots children).entries := by
  unfold toNode
  rw [Slots.optionalField_eq, Slots.optionalField_eq, Slots.unless_eq, Slots.unless_eq]
  have hcounts : [countField "minArgs" d.minArgs, countField "maxArgs" d.maxArgs] =
      Slots.entries [("minArgs", some (.int d.minArgs.toNat)),
        ("maxArgs", some (.int d.maxArgs.toNat))] := rfl
  rw [hcounts]
  simp only [← Slots.entries_append]
  rfl

end Declaration

namespace Command

/-- A field of a command, its sub-commands among them. -/
def setField (field : String) (v : Node) (c : Command) : Except DecodeError Command := do
  if field == "commands" then
    let commands ← Commands.ofNode v
    return { c with commands }
  else
    let d ← c.toDeclaration.setField field v
    return { c with toDeclaration := d }

theorem ofFields_eq (seen : List String) (c : Command) (fields : List (Node × Node)) :
    ofFields seen c fields = readFields fieldNames setField seen c fields := by
  induction fields generalizing seen c with
  | nil => rfl
  | cons entry rest ih =>
    obtain ⟨key, v⟩ := entry
    rw [ofFields, readFields]
    simp only [← ih]
    refine bind_congr fun name => ?_
    unfold setField
    cases name == "commands" <;> simp

/-- The slots of a command are read as the command, if the entries of its sub-commands are. -/
theorem fold_slots (d : Declaration) (children : List (Node × Node)) (commands : Commands)
    (hoptions : ∀ e ∈ d.options, e.Decodable)
    (hcommands : Commands.ofEntries {} children = .ok commands) :
    (d.slots children).foldlM (fillSlot setField) {} = .ok { d with commands } := by
  obtain ⟨usage, description, options, minArgs, maxArgs⟩ := d
  have husage : fillSlot setField {} ("usage", usage.map .text) = .ok { usage } := by
    cases usage <;> rfl
  have hdescription : fillSlot setField { usage } ("description", description.map .text) =
      .ok { usage, description } := by
    cases description <;> rfl
  have hoptions : fillSlot setField { usage, description }
      ("options", if options.isEmpty then none else some (optionListNode options)) =
        .ok { usage, description, options } := by
    cases options with
    | nil => rfl
    | cons e rest =>
      have hset (d : Declaration) :
          d.setField "options" (optionListNode (e :: rest)) =
            .ok { d with options := e :: rest } := by
        unfold Declaration.setField
        simp only [readOptionList_written _ hoptions, ok_bind]
        rfl
      change ((_ : Declaration).setField "options" (optionListNode (e :: rest)) >>= _) = _
      rw [hset]
      rfl
  have hcommands : fillSlot setField { usage, description, options }
      ("commands", if children.isEmpty then none else some (.map children)) =
        .ok { usage, description, options, commands } := by
    cases children with
    | nil =>
      cases hcommands
      rfl
    | cons entry rest =>
      change (Commands.ofEntries {} (entry :: rest) >>= _) = _
      rw [hcommands]
      rfl
  have hmin : fillSlot setField { usage, description, options, commands }
      ("minArgs", some (.int minArgs.toNat)) =
        .ok { usage, description, options, commands, minArgs } :=
    fillSlot_count setField _ minArgs _ _ fun v hv => by
      have hname : ("minArgs" == "commands") = false := rfl
      simp only [setField, hname, Declaration.setField, hv, ok_bind]
      rfl
  have hmax : fillSlot setField { usage, description, options, commands, minArgs }
      ("maxArgs", some (.int maxArgs.toNat)) =
        .ok { usage, description, options, commands, minArgs, maxArgs } :=
    fillSlot_count setField _ maxArgs _ _ fun v hv => by
      have hname : ("maxArgs" == "commands") = false := rfl
      simp only [setField, hname, Declaration.setField, hv, ok_bind]
      rfl
  unfold Declaration.slots
  rw [foldlM_cons_ok _ husage, foldlM_cons_ok _ hdescription, foldlM_cons_ok _ hoptions,
    foldlM_cons_ok _ hcommands, foldlM_cons_ok _ hmin, foldlM_cons_ok _ hmax]
  rfl

end Command

theorem Commands.eq_of_forest {c c' : Commands} (h : c.forest = c'.forest) : c = c' := by
  cases c
  cases c'
  cases h
  rfl

theorem Command.ofBody_toNode (d : Declaration) (children : List (Node × Node))
    (commands : Commands) (hoptions : ∀ e ∈ d.options, e.Decodable)
    (hcommands : Commands.ofEntries {} children = .ok commands) :
    Command.ofBody (d.toNode children) = .ok { d with commands } := by
  have hfit : (d.slots children).Fit fieldNames :=
    ⟨by simp [Declaration.slots, fieldNames], by simp [Declaration.slots]⟩
  rw [d.toNode_eq children]
  calc Command.ofBody (.map (d.slots children).entries)
      = readFields fieldNames setField [] {} (d.slots children).entries := ofFields_eq [] {} _
    _ = (d.slots children).foldlM (fillSlot setField) {} :=
        (readFields_readsFields fieldNames setField).write [] {} (d.slots children) hfit (by simp)
    _ = .ok { d with commands } := fold_slots d children commands hoptions hcommands

/-- The entries of a forest are read one by one, behind the commands that are there. -/
theorem Commands.ofEntries_toEntries (forest : CommandForest) (c c' : Commands)
    (hc : c'.forest = c.forest.beside forest) (h : forest.AllEntries OptionEntry.Decodable) :
    Commands.ofEntries c forest.toEntries = .ok c' := by
  induction forest generalizing c c' with
  | nil =>
    rw [CommandForest.beside_nil] at hc
    exact congrArg Except.ok (Commands.eq_of_forest hc.symm)
  | node name d children siblings ihc ihs =>
    -- the order of the whole map makes this command the last of those inserted so far
    obtain ⟨hoptions, hchildren, hsiblings⟩ := h
    have hordered : (c.forest.beside (.node name d children siblings)).Ordered := hc ▸ c'.ordered
    have hbelow : children.Ordered := (CommandForest.Ordered.of_beside _ _ hordered).2.1
    have hbody : Command.ofBody (d.toNode children.toEntries) =
        .ok { d with commands := ⟨children, hbelow⟩ } :=
      Command.ofBody_toNode d children.toEntries _ hoptions
        (ihc {} ⟨children, hbelow⟩ rfl hchildren)
    have hinsert : (c.insert name { d with commands := ⟨children, hbelow⟩ }).forest =
        c.forest.beside (.node name d children .nil) :=
      c.forest.insert_last name d children siblings hordered
    have hrest : c'.forest = (c.insert name { d with commands := ⟨children, hbelow⟩ }).forest.beside
        siblings := by
      rw [hc, hinsert, CommandForest.beside_assoc]
      rfl
    rw [CommandForest.toEntries, fieldNode, Commands.ofEntries]
    simp only [Node.readString, Node.untagged, ok_bind, hbody]
    exact ihs _ _ hrest hsiblings

theorem Commands.ofNode_toNode (c : Commands) (h : c.forest.AllEntries OptionEntry.Decodable) :
    Commands.ofNode c.toNode = .ok c :=
  Commands.ofEntries_toEntries c.forest {} c rfl h

/-! ## Documents -/

namespace Document

/-- What every document that was decoded satisfies. -/
structure WellFormed (d : Document) : Prop where
  options : ∀ e ∈ d.options, e.Decodable
  commands : d.commands.forest.AllEntries OptionEntry.Decodable
  components : ∀ c ∈ d.components.entries, IsNamed c

def slots (d : Document) : Slots :=
  [("optionapi", some (versionNode d.version)),
   ("options", some (optionListNode d.options)),
   ("commands", some d.commands.toNode),
   ("components", some (componentsNode d.components)),
   ("minArgs", some (.int d.minArgs.toNat)),
   ("maxArgs", some (.int d.maxArgs.toNat))]

theorem fold_slots (d : Document) (h : d.WellFormed) :
    d.slots.foldlM (fillSlot setField) {} = .ok d := by
  obtain ⟨version, options, commands, components, minArgs, maxArgs⟩ := d
  obtain ⟨hoptions, hcommands, hcomponents⟩ := h
  have hversion : fillSlot setField {} ("optionapi", some (versionNode version)) =
      .ok { version } := by
    cases version <;> rfl
  have hoptions : fillSlot setField { version } ("options", some (optionListNode options)) =
      .ok { version, options } := by
    simp only [fillSlot, setField, readOptionList_written options hoptions, ok_bind]
    rfl
  have hcommands : fillSlot setField { version, options } ("commands", some commands.toNode) =
      .ok { version, options, commands } := by
    simp only [fillSlot, setField, commands.ofNode_toNode hcommands, ok_bind]
    rfl
  have hcomponents : fillSlot setField { version, options, commands }
      ("components", some (componentsNode components)) =
        .ok { version, options, commands, components } := by
    have hopt : (componentsNode components).readOptional = .ok (some (componentsNode components)) :=
      rfl
    simp only [fillSlot, setField, hopt, readComponents_written components hcomponents, ok_bind]
    rfl
  have hmin : fillSlot setField { version, options, commands, components }
      ("minArgs", some (.int minArgs.toNat)) =
        .ok { version, options, commands, components, minArgs } :=
    fillSlot_count setField _ minArgs _ _ fun v hv => by
      simp only [setField, hv, ok_bind]
      rfl
  have hmax : fillSlot setField { version, options, commands, components, minArgs }
      ("maxArgs", some (.int maxArgs.toNat)) =
        .ok { version, options, commands, components, minArgs, maxArgs } :=
    fillSlot_count setField _ maxArgs _ _ fun v hv => by
      simp only [setField, hv, ok_bind]
      rfl
  unfold slots
  rw [foldlM_cons_ok _ hversion, foldlM_cons_ok _ hoptions, foldlM_cons_ok _ hcommands,
    foldlM_cons_ok _ hcomponents, foldlM_cons_ok _ hmin, foldlM_cons_ok _ hmax]
  rfl

/-- A well-formed document reads back from the tree that it writes. -/
theorem ofNode_toNode (d : Document) (h : d.WellFormed) : ofNode d.toNode = .ok d := by
  have hfit : d.slots.Fit fieldNames := ⟨by simp [slots, fieldNames], by simp [slots]⟩
  calc ofNode d.toNode
      = readFields fieldNames setField [] {} d.slots.entries := rfl
    _ = d.slots.foldlM (fillSlot setField) {} :=
        (readFields_readsFields fieldNames setField).write [] {} d.slots hfit (by simp)
    _ = .ok d := d.fold_slots h

end Document
end CommandSpec
