import CommandSpec.Load
import CommandSpec.Proofs.FieldOrder
import CommandSpec.Proofs.NamedEntries
import Mathlib.Data.List.Nodup

/-! What becomes of the definitions of a text. A tree defines a command for each entry of a map of
commands, at every level, and an option for each entry of its named options (`Node.commandsUnder`,
`Node.componentEntries`). Decoding keeps them all, each as it is written, exactly if no two have
one path or one name (`Document.keeps_iff`); of those that have, only the last is left. -/
namespace CommandSpec

variable {α γ : Type}

/-! ## What a tree defines -/

namespace Node

/-- The entries of a map, its tags set aside. -/
def mapEntries (n : Node) : List (Node × Node) :=
  match n.untagged with
  | map entries => entries
  | _ => []

/-- The values of all fields of one name. -/
def fieldValues (field : String) (fields : List (Node × Node)) : List Node :=
  (fields.filter fun e => e.1.readFieldName.toOption = some field).map Prod.snd

/-- The entries whose keys are names. -/
def named (entries : List (Node × Node)) : List (String × Node) :=
  entries.filterMap fun e => e.1.readString.toOption.map fun name => (name, e.2)

/-- The options that the components of a document define. -/
def componentEntries (n : Node) : List (String × Node) :=
  (fieldValues "components" n.mapEntries).flatMap fun components =>
    (fieldValues "options" components.mapEntries).flatMap fun options => named options.mapEntries

mutual

/-- The commands that a map of commands below `path` defines on all levels, each with its body. -/
def commandsIn (path : List String) : Node → List (List String × Node)
  | map entries => commandsInEntries path entries
  | tagged _ content => content.commandsIn path
  | _ => []

def commandsInEntries (path : List String) : List (Node × Node) → List (List String × Node)
  | [] => []
  | (key, body) :: rest =>
    match key.readString with
    | .ok name =>
      (path ++ [name], body) ::
        (body.commandsUnder (path ++ [name]) ++ commandsInEntries path rest)
    | .error _ => commandsInEntries path rest

/-- The commands that the body of the command at `path` defines. -/
def commandsUnder (path : List String) : Node → List (List String × Node)
  | map fields => commandsInFields path fields
  | tagged _ content => content.commandsUnder path
  | _ => []

def commandsInFields (path : List String) : List (Node × Node) → List (List String × Node)
  | [] => []
  | (key, v) :: rest =>
    (if key.readFieldName.toOption = some "commands" then v.commandsIn path else []) ++
      commandsInFields path rest

end

theorem fieldValues_cons (field : String) (e : Node × Node) (rest : List (Node × Node)) :
    fieldValues field (e :: rest) =
      (if e.1.readFieldName.toOption = some field then [e.2] else []) ++
        fieldValues field rest := by
  unfold fieldValues
  rw [List.filter_cons]
  by_cases he : e.1.readFieldName.toOption = some field
  · simp [he]
  · simp [he]

theorem fieldValues_cons_self {field : String} {e : Node × Node}
    (he : e.1.readFieldName = .ok field) (rest : List (Node × Node)) :
    fieldValues field (e :: rest) = e.2 :: fieldValues field rest := by
  have hname : e.1.readFieldName.toOption = some field := congrArg Except.toOption he
  rw [fieldValues_cons, if_pos hname]
  rfl

theorem fieldValues_cons_other {field other : String} {e : Node × Node}
    (he : e.1.readFieldName = .ok other) (hne : other ≠ field) (rest : List (Node × Node)) :
    fieldValues field (e :: rest) = fieldValues field rest := by
  have hname : e.1.readFieldName.toOption = some other := congrArg Except.toOption he
  rw [fieldValues_cons, hname, if_neg fun h => hne (Option.some.inj h)]
  rfl

theorem commandsInFields_eq (path : List String) (fields : List (Node × Node)) :
    commandsInFields path fields = (fieldValues "commands" fields).flatMap (commandsIn path) := by
  induction fields with
  | nil => rfl
  | cons e rest ih =>
    obtain ⟨key, v⟩ := e
    rw [commandsInFields, fieldValues_cons, List.flatMap_append, ih]
    split
    · rw [List.flatMap_singleton]
    · rfl

theorem commandsUnder_eq (path : List String) : ∀ n : Node,
    n.commandsUnder path = (fieldValues "commands" n.mapEntries).flatMap (commandsIn path)
  | map fields => by
    rw [commandsUnder, commandsInFields_eq]
    rfl
  | tagged _ content => by
    rw [commandsUnder, content.commandsUnder_eq path]
    rfl
  | null | bool _ | int _ | float _ | text _ | scalar _ | seq _ | fault _ => by
    rw [commandsUnder]
    · rfl
    all_goals simp

/-! ## Reading a map -/

theorem readEntries_eq_mapEntries {n : Node} {expected : String} {entries : List (Node × Node)}
    (h : n.readEntries expected = .ok entries) : entries = n.mapEntries := by
  unfold readEntries at h
  unfold mapEntries
  split at h
  · rename_i hn
    cases h
    rw [hn]
  · rename_i hn
    cases h
    rw [hn]
  · rename_i hn
    split at h
    · cases h
      rw [hn]
    · cases h
  · cases h

/-- What is absent has no entries. -/
theorem readOptional_cases {n : Node} {n? : Option Node} (h : n.readOptional = .ok n?) :
    (n? = none ∧ n.mapEntries = []) ∨ n? = some n := by
  unfold readOptional at h
  split at h
  · cases h
    exact Or.inl ⟨rfl, rfl⟩
  · obtain ⟨absent, -, rfl⟩ := map_eq_ok h
    cases absent with
    | true => exact Or.inl ⟨rfl, rfl⟩
    | false => exact Or.inr rfl
  · cases h
  · cases h
    exact Or.inr rfl

end Node

theorem Shape.readUnlessAbsent_cases {absent a : α} {read : Node → Except DecodeError α} {n : Node}
    (h : readUnlessAbsent absent read n = .ok a) :
    (a = absent ∧ n.mapEntries = []) ∨ read n = .ok a := by
  obtain ⟨n?, hn, h⟩ := bind_eq_ok h
  rcases Node.readOptional_cases hn with ⟨rfl, hentries⟩ | rfl
  · cases h
    exact Or.inl ⟨rfl, hentries⟩
  · exact Or.inr h

/-! ## Fields of a record -/

/-- A field that was read does not come again. -/
theorem readFields_seen {known : List String}
    (setField : String → Node → α → Except DecodeError α) {field : String} (hfield : field ∈ known)
    (fields : List (Node × Node)) (seen : List String) (hs : field ∈ seen) (a b : α)
    (h : readFields known setField seen a fields = .ok b) : Node.fieldValues field fields = [] := by
  induction fields generalizing seen a with
  | nil => rfl
  | cons e rest ih =>
    obtain ⟨past, a', hpass, h⟩ :=
      ((readFields_readsRecord known setField).cons_eq_ok_iff ..).mp h
    cases hpass with
    | field he hknown hnew hset =>
      rw [Node.fieldValues_cons_other he fun heq => hnew (heq ▸ hs)]
      exact ih _ (List.mem_cons_of_mem _ hs) a' h
    | unknown he hknown hskip =>
      rw [Node.fieldValues_cons_other he fun heq => hknown (heq ▸ hfield)]
      exact ih _ hs a h

/-- A record that was read has each of its fields once at most, and what that stores is there. -/
theorem readFields_field {known : List String}
    (setField : String → Node → α → Except DecodeError α) {field : String} (hfield : field ∈ known)
    (stored : α → γ)
    (hother : ∀ other v a a', other ∈ known → other ≠ field → setField other v a = .ok a' →
      stored a' = stored a)
    (fields : List (Node × Node)) (seen : List String) (hs : field ∉ seen) (a b : α)
    (h : readFields known setField seen a fields = .ok b) :
    (Node.fieldValues field fields = [] ∧ stored b = stored a) ∨
      ∃ v c c', Node.fieldValues field fields = [v] ∧ setField field v c = .ok c' ∧
        stored b = stored c' := by
  have hr := readFields_readsRecord known setField
  induction fields generalizing seen a with
  | nil =>
    rw [hr.nil] at h
    cases h
    exact Or.inl ⟨rfl, rfl⟩
  | cons e rest ih =>
    obtain ⟨past, a', hpass, h⟩ := (hr.cons_eq_ok_iff ..).mp h
    cases hpass with
    | @field other _ he hknown hnew hset =>
      by_cases heq : other = field
      · subst heq
        have hmem : other ∈ other :: seen := List.mem_cons_self ..
        refine Or.inr ⟨e.2, a, a', ?_, hset, hr.keeps_seen stored hother rest _ hmem a' b h⟩
        rw [Node.fieldValues_cons_self he, readFields_seen setField hfield rest _ hmem a' b h]
      · rw [Node.fieldValues_cons_other he heq, ← hother other e.2 a a' hknown heq hset]
        exact ih _ (List.not_mem_cons_of_ne_of_not_mem (Ne.symm heq) hs) a' h
    | unknown he hknown hskip =>
      rw [Node.fieldValues_cons_other he fun heq => hknown (heq ▸ hfield)]
      exact ih _ hs a h

/-! ## Commands -/

/-- The visit of a command that is read from its body. -/
def visitOf (e : List String × Node) : Option CommandVisit :=
  (Command.ofBody e.2).toOption.map (Commands.asVisit e.1)

namespace Commands

/-- A command of a new name is visited with all below it, and so are the others. -/
theorem visits_insert (c : Commands) (name : String) (command : Command) (path : List String)
    (h : name ∉ c.forest.names) :
    ((c.insert name command).forest.visits path).Perm
      (asVisit (path ++ [name]) command ::
        (command.commands.forest.visits (path ++ [name]) ++ c.forest.visits path)) := by
  rw [CommandForest.names_eq_rows] at h
  have hrows := insertEntry_perm name (command.toDeclaration, command.commands.forest)
    c.forest.rows h
  rw [CommandForest.visits_eq_rows, CommandForest.visits_eq_rows c.forest, insert,
    CommandForest.rows_insert]
  exact hrows.flatMap_right _

theorem mem_names_insert (c : Commands) (name other : String) (command : Command)
    (hn : name ∉ c.forest.names) (h : other ∈ (c.insert name command).forest.names) :
    other = name ∨ other ∈ c.forest.names := by
  rw [CommandForest.names_eq_rows] at h hn ⊢
  rw [insert, CommandForest.rows_insert] at h
  have hp := (insertEntry_perm name (command.toDeclaration, command.commands.forest)
    c.forest.rows hn).map Prod.fst
  exact List.mem_cons.mp (hp.mem_iff.mp h)

end Commands

/-- What a body holds under `commands` is read as its sub-commands. -/
theorem readFields_commands {known : List String}
    (setField : String → Node → α → Except DecodeError α) (hknown : "commands" ∈ known)
    (stored : α → Commands)
    (hset : ∀ v a a', setField "commands" v a = .ok a' → Commands.ofNode v = .ok (stored a'))
    (hother : ∀ other v a a', other ∈ known → other ≠ "commands" →
      setField other v a = .ok a' → stored a' = stored a)
    (fields : List (Node × Node)) (a b : α) (h : readFields known setField [] a fields = .ok b) :
    (Node.fieldValues "commands" fields = [] ∧ stored b = stored a) ∨
      ∃ v, Node.fieldValues "commands" fields = [v] ∧ Commands.ofNode v = .ok (stored b) := by
  rcases readFields_field setField hknown stored hother fields [] List.not_mem_nil a b h with
    hnone | ⟨v, c, c', hone, hv, hstored⟩
  · exact Or.inl hnone
  · exact Or.inr ⟨v, hone, hstored ▸ hset v c c' hv⟩

theorem Command.setField_commands (v : Node) (c c' : Command)
    (h : setField "commands" v c = .ok c') : Commands.ofNode v = .ok c'.commands := by
  obtain ⟨commands, hv, h⟩ := bind_eq_ok h
  cases h
  exact hv

theorem Command.setField_other (other : String) (v : Node) (c c' : Command) (_ : other ∈ fieldNames)
    (hne : other ≠ "commands") (h : setField other v c = .ok c') : c'.commands = c.commands := by
  unfold setField at h
  rw [beq_false_of_ne hne, if_neg Bool.false_ne_true] at h
  obtain ⟨d, -, h⟩ := bind_eq_ok h
  cases h
  rfl

theorem Node.sizeOf_fieldValues {field : String} {fields : List (Node × Node)} {v : Node}
    (h : v ∈ fieldValues field fields) : sizeOf v < 1 + sizeOf fields := by
  obtain ⟨e, he, rfl⟩ := List.mem_map.mp h
  have hlt := List.sizeOf_lt_of_mem (List.mem_filter.mp he).1
  obtain ⟨key, v⟩ := e
  simp only [Prod.mk.sizeOf_spec] at hlt ⊢
  omega

mutual

/-- If no path is defined twice, the commands of a map are those that it defines. -/
theorem Commands.kept_ofNode (n : Node) (c : Commands) (h : Commands.ofNode n = .ok c)
    (path : List String) (hd : ((n.commandsIn path).map Prod.fst).Nodup) :
    ((c.forest.visits path).map some).Perm ((n.commandsIn path).map visitOf) := by
  match n with
  | .null =>
    cases h
    exact .refl _
  | .map entries =>
    rw [Node.commandsIn] at hd ⊢
    rw [Commands.ofNode] at h
    exact Commands.kept_ofEntries entries {} c h path hd (by simp [CommandForest.names])
  | .tagged _ content =>
    rw [Node.commandsIn] at hd ⊢
    rw [Commands.ofNode] at h
    exact Commands.kept_ofNode content c h path hd
  | .scalar s =>
    rw [Commands.ofNode] at h
    obtain ⟨-, -, rfl⟩ := map_eq_ok h
    rw [Node.commandsIn] <;> simp [CommandForest.visits]
  | .bool _ | .int _ | .float _ | .text _ | .seq _ | .fault _ => cases h
termination_by sizeOf n

theorem Commands.kept_ofEntries (entries : List (Node × Node)) (c c' : Commands)
    (h : Commands.ofEntries c entries = .ok c') (path : List String)
    (hd : ((Node.commandsInEntries path entries).map Prod.fst).Nodup)
    (hnew : ∀ name ∈ c.forest.names,
      path ++ [name] ∉ (Node.commandsInEntries path entries).map Prod.fst) :
    ((c'.forest.visits path).map some).Perm
      ((c.forest.visits path).map some ++ (Node.commandsInEntries path entries).map visitOf) := by
  match entries with
  | [] =>
    rw [Commands.ofEntries] at h
    cases h
    simp [Node.commandsInEntries]
  | (key, body) :: rest =>
    obtain ⟨name, command, hname, hbody, h⟩ := (Commands.ofEntries_readsMap.cons_eq_ok_iff ..).mp h
    have hentries : Node.commandsInEntries path ((key, body) :: rest) =
        (path ++ [name], body) ::
          (body.commandsUnder (path ++ [name]) ++ Node.commandsInEntries path rest) := by
      rw [Node.commandsInEntries]
      simp only [hname]
    rw [hentries] at hd hnew ⊢
    rw [List.map_cons, List.map_append] at hd hnew
    obtain ⟨hpath, hd⟩ := List.nodup_cons.mp hd
    obtain ⟨hbelow, hrest, -⟩ := List.nodup_append.mp hd
    have hfresh : name ∉ c.forest.names := fun hn => hnew name hn (List.mem_cons_self ..)
    have hinsert := (c.visits_insert name command path hfresh).map some
    rw [List.map_cons, List.map_append] at hinsert
    have hcommand := Command.kept_ofBody body command hbody (path ++ [name]) hbelow
    have hlater := Commands.kept_ofEntries rest (c.insert name command) c' h path hrest
      fun other ho hm => by
        rcases c.mem_names_insert name other command hfresh ho with rfl | ho
        · exact hpath (List.mem_append_right _ hm)
        · exact hnew other ho (List.mem_cons_of_mem _ (List.mem_append_right _ hm))
    have hvisit : visitOf (path ++ [name], body) =
        some (Commands.asVisit (path ++ [name]) command) := by
      simp [visitOf, hbody, Except.toOption]
    have hfirst := hinsert.trans ((hcommand.append_right _).cons _)
    rw [List.map_cons, List.map_append, hvisit]
    -- those of this command move behind the commands that were there
    refine hlater.trans ((hfirst.append_right _).trans (.trans ?_ List.perm_middle.symm))
    rw [List.cons_append, ← List.append_assoc]
    exact (List.perm_append_comm.append_right _).cons _
termination_by sizeOf entries

theorem Command.kept_ofBody (n : Node) (c : Command) (h : Command.ofBody n = .ok c)
    (path : List String) (hd : ((n.commandsUnder path).map Prod.fst).Nodup) :
    ((c.commands.forest.visits path).map some).Perm ((n.commandsUnder path).map visitOf) := by
  match n with
  | .null =>
    cases h
    exact .refl _
  | .map fields =>
    rw [Node.commandsUnder, Node.commandsInFields_eq] at hd ⊢
    rw [Command.ofBody, Command.ofFields_eq] at h
    rcases readFields_commands Command.setField (by decide) (·.commands)
      Command.setField_commands Command.setField_other fields {} c h with
      ⟨hnone, hc⟩ | ⟨v, hone, hv⟩
    · rw [hnone, hc]
      exact .refl _
    · have hlt := Node.sizeOf_fieldValues (hone ▸ List.mem_singleton_self v)
      rw [hone, List.flatMap_singleton] at hd ⊢
      exact Commands.kept_ofNode v c.commands hv path hd
  | .tagged _ content =>
    rw [Node.commandsUnder] at hd ⊢
    rw [Command.ofBody] at h
    exact Command.kept_ofBody content c h path hd
  | .scalar s =>
    rw [Command.ofBody] at h
    obtain ⟨-, -, rfl⟩ := map_eq_ok h
    rw [Node.commandsUnder] <;> simp [CommandForest.visits]
  | .bool _ | .int _ | .float _ | .text _ | .seq _ | .fault _ => cases h
termination_by sizeOf n

end

/-! ## Named options -/

/-- The entry that a body gives under its name. -/
def entryOf (e : String × Node) : Option (String × OptionEntry) :=
  (OptionEntry.ofNode e.2).toOption.map fun entry => (e.1, entry)

/-- A component is an option, named after its key. -/
def namedOption : String × OptionEntry → Option (String × OptionSpec)
  | (name, .inline o) => some (name, o.named name)
  | (_, .reference _) => none

/-- The component that is read from a body. -/
def componentOf (e : String × Node) : Option (String × OptionSpec) := (entryOf e).bind namedOption

theorem NameMap.nodup_names (m : NameMap α) : (m.entries.map Prod.fst).Nodup := by
  have hlt : (m.entries.map Prod.fst).Pairwise (· < ·) := List.pairwise_map.mpr m.ordered
  exact hlt.imp fun h => name_lt_ne h

/-- An entry whose name is new to the map, and to the names that come after it, joins the others. -/
theorem NameMap.insert_kept (m : NameMap α) (name : String) (x : α) (names : List String)
    (hd : (m.entries.map Prod.fst ++ name :: names).Nodup) :
    (m.insert name x).entries.Perm ((name, x) :: m.entries) ∧
      ((m.insert name x).entries.map Prod.fst ++ names).Nodup := by
  have hfresh : name ∉ m.entries.map Prod.fst := fun hn =>
    (List.nodup_append.mp hd).2.2 name hn name (List.mem_cons_self ..) rfl
  have hp := insertEntry_perm name x m.entries hfresh
  exact ⟨hp, (((hp.map Prod.fst).append_right _).trans List.perm_middle.symm).nodup_iff.mpr hd⟩

theorem readEntryMap_kept (entries : List (Node × Node)) (m m' : NameMap OptionEntry)
    (h : readEntryMap m entries = .ok m')
    (hd : (m.entries.map Prod.fst ++ (Node.named entries).map Prod.fst).Nodup) :
    (m'.entries.map some).Perm (m.entries.map some ++ (Node.named entries).map entryOf) := by
  induction entries generalizing m with
  | nil =>
    cases h
    simp [Node.named]
  | cons e rest ih =>
    obtain ⟨name, entry, hname, hentry, h⟩ := (readEntryMap_readsMap.cons_eq_ok_iff ..).mp h
    have hnamed : Node.named (e :: rest) = (name, e.2) :: Node.named rest :=
      List.filterMap_cons_some (by rw [hname]; rfl)
    have hentry : entryOf (name, e.2) = some (name, entry) := by
      simp [entryOf, hentry, Except.toOption]
    rw [hnamed, List.map_cons] at hd
    obtain ⟨hinsert, hd⟩ := m.insert_kept name entry _ hd
    rw [hnamed, List.map_cons, hentry]
    exact (ih _ h hd).trans (((hinsert.map some).append_right _).trans List.perm_middle.symm)

theorem componentsOf_kept (entries : List (String × OptionEntry)) (m m' : NameMap OptionSpec)
    (h : componentsOf m entries = .ok m')
    (hd : (m.entries.map Prod.fst ++ entries.map Prod.fst).Nodup) :
    (m'.entries.map some).Perm (m.entries.map some ++ entries.map namedOption) := by
  induction entries generalizing m with
  | nil =>
    cases h
    simp
  | cons e rest ih =>
    obtain ⟨name, entry⟩ := e
    cases entry with
    | reference key => cases h
    | inline o =>
      obtain ⟨hinsert, hd⟩ := m.insert_kept name (o.named name) _ hd
      exact (ih _ h hd).trans (((hinsert.map some).append_right _).trans List.perm_middle.symm)

/-- If no name is given twice, the named options are those that stand in the map. -/
theorem readNamedOptions_kept (n : Node) (m : NameMap OptionSpec) (h : readNamedOptions n = .ok m)
    (hd : ((Node.named n.mapEntries).map Prod.fst).Nodup) :
    (m.entries.map some).Perm ((Node.named n.mapEntries).map componentOf) := by
  rcases Shape.readUnlessAbsent_cases h with ⟨rfl, hnone⟩ | h
  · rw [hnone]
    exact .refl _
  · obtain ⟨entries, hn, h⟩ := bind_eq_ok h
    obtain rfl := Node.readEntries_eq_mapEntries hn
    obtain ⟨read, hread, h⟩ := bind_eq_ok h
    have hentries := (readEntryMap_kept n.mapEntries .empty read hread hd).map (·.bind namedOption)
    have hcomponents := componentsOf_kept read.entries .empty m h read.nodup_names
    rw [List.map_map] at hentries
    refine hcomponents.trans (hentries.trans ?_)
    rw [NameMap.empty, List.map_nil, List.nil_append, List.map_map]
    exact .refl _

theorem readComponents_kept (n : Node) (m : NameMap OptionSpec)
    (h : Shape.components.read n = .ok m)
    (hd : (((Node.fieldValues "options" n.mapEntries).flatMap fun options =>
      Node.named options.mapEntries).map Prod.fst).Nodup) :
    (m.entries.map some).Perm (((Node.fieldValues "options" n.mapEntries).flatMap fun options =>
      Node.named options.mapEntries).map componentOf) := by
  rcases Shape.readUnlessAbsent_cases h with ⟨rfl, hnone⟩ | h
  · rw [hnone]
    exact .refl _
  · obtain ⟨fields, hn, h⟩ := bind_eq_ok h
    obtain rfl := Node.readEntries_eq_mapEntries hn
    rcases readFields_field (fun _ v _ => readNamedOptions v) (List.mem_singleton_self _) id
      (fun _ _ _ _ ho hne _ => absurd (List.mem_singleton.mp ho) hne) n.mapEntries []
      List.not_mem_nil .empty m h with ⟨hnone, hm⟩ | ⟨v, _, m', hone, hv, hm⟩
    · obtain rfl : m = .empty := hm
      rw [hnone]
      exact .refl _
    · obtain rfl : m = m' := hm
      rw [hone, List.flatMap_singleton] at hd ⊢
      exact readNamedOptions_kept v m hv hd

/-! ## Documents -/

namespace Document

/-- The document has a command for each one that the tree defines, and an option for each component,
all as they are read from their bodies, and no others. -/
structure Keeps (d : Document) (n : Node) : Prop where
  commands : ((d.commands.forest.visits []).map some).Perm ((n.commandsUnder []).map visitOf)
  components : (d.components.entries.map some).Perm (n.componentEntries.map componentOf)

theorem setField_commands (v : Node) (d d' : Document) (h : setField "commands" v d = .ok d') :
    Commands.ofNode v = .ok d'.commands := by
  obtain ⟨commands, hv, h⟩ := bind_eq_ok h
  cases h
  exact hv

theorem setField_components (v : Node) (d d' : Document) (h : setField "components" v d = .ok d') :
    Shape.components.read v = .ok d'.components := by
  have hstore := Shape.store_unlessAbsent (.empty : NameMap OptionSpec) readComponents
    (fun components : NameMap OptionSpec => ({ d with components } : Document)) v
  obtain ⟨components, hv, h⟩ := bind_eq_ok (hstore.symm.trans h)
  cases h
  exact hv

theorem setField_other (field : String) (v : Node) (d d' : Document) (hf : field ∈ fieldNames)
    (h : setField field v d = .ok d') :
    (field ≠ "commands" → d'.commands = d.commands) ∧
      (field ≠ "components" → d'.components = d.components) := by
  obtain ⟨change, hchange, hall⟩ := setsApart.change field hf v d d' h
  obtain rfl : change d = d' := Except.ok.inj ((hall d).symm.trans h)
  cases hchange <;> exact ⟨fun hne => by first | rfl | exact absurd rfl hne,
    fun hne => by first | rfl | exact absurd rfl hne⟩

theorem keeps_of_nodup (n : Node) (d : Document) (h : ofNode n = .ok d)
    (hcommands : ((n.commandsUnder []).map Prod.fst).Nodup)
    (hcomponents : (n.componentEntries.map Prod.fst).Nodup) : d.Keeps n := by
  obtain ⟨fields, hn, h⟩ := bind_eq_ok h
  obtain rfl := Node.readEntries_eq_mapEntries hn
  rw [Node.commandsUnder_eq] at hcommands
  rw [Node.componentEntries] at hcomponents
  constructor
  · rw [Node.commandsUnder_eq]
    rcases readFields_commands setField (by decide) (·.commands) setField_commands
      (fun field v d d' hf hne h => (setField_other field v d d' hf h).1 hne) n.mapEntries {} d h
      with ⟨hnone, hd⟩ | ⟨v, hone, hv⟩
    · rw [hnone, hd]
      exact .refl _
    · rw [hone, List.flatMap_singleton] at hcommands ⊢
      exact Commands.kept_ofNode v d.commands hv [] hcommands
  · rw [Node.componentEntries]
    rcases readFields_field setField (by decide) (·.components)
      (fun field v d d' hf hne h => (setField_other field v d d' hf h).2 hne) n.mapEntries []
      List.not_mem_nil {} d h with ⟨hnone, hd⟩ | ⟨v, d₁, d₂, hone, hv, hd⟩
    · rw [hnone, hd]
      exact .refl _
    · rw [hone, List.flatMap_singleton] at hcomponents ⊢
      rw [hd]
      exact readComponents_kept v d₂.components (setField_components v d₁ d₂ hv) hcomponents

/-- What is read under different keys was defined under different keys. -/
theorem nodup_of_kept (key : α → γ) {read : γ × Node → Option α} {as : List α}
    {es : List (γ × Node)} (hkey : ∀ e a, read e = some a → key a = e.1)
    (h : (as.map some).Perm (es.map read)) (hn : (as.map key).Nodup) :
    (es.map Prod.fst).Nodup := by
  have hread : es.map (fun e => (read e).map key) = es.map fun e => some e.1 := by
    refine List.map_congr_left fun e he => ?_
    obtain ⟨a, -, ha⟩ := List.mem_map.mp (h.mem_iff.mpr (List.mem_map_of_mem he))
    rw [← ha, Option.map_some, hkey e a ha.symm]
  have hperm := h.map (Option.map key)
  rw [List.map_map, List.map_map] at hperm
  have hsome : ((es.map Prod.fst).map some).Nodup := by
    rw [List.map_map]
    refine (hread ▸ hperm).nodup_iff.mp ?_
    have hkeys := List.Nodup.map (fun _ _ => Option.some.inj) hn
    rwa [List.map_map] at hkeys
  exact hsome.of_map _

theorem Keeps.nodup {d : Document} {n : Node} (h : d.Keeps n) :
    ((n.commandsUnder []).map Prod.fst).Nodup ∧ (n.componentEntries.map Prod.fst).Nodup := by
  constructor
  · refine nodup_of_kept CommandVisit.path (fun e v hv => ?_) h.commands ?_
    · obtain ⟨command, -, rfl⟩ := Option.map_eq_some_iff.mp hv
      rfl
    · have hlt : ((d.commands.forest.visits []).map (·.path)).Pairwise (· < ·) :=
        List.pairwise_map.mpr (d.commands.forest.visits_pairwise d.commands.ordered [])
      have hne {path path' : List String} (h : path < path') : path ≠ path' :=
        fun he => List.lt_irrefl _ (he ▸ h)
      exact hlt.imp hne
  · refine nodup_of_kept Prod.fst (fun e o ho => ?_) h.components d.components.nodup_names
    obtain ⟨entry, he, ho⟩ := Option.bind_eq_some_iff.mp ho
    obtain ⟨entry, -, rfl⟩ := Option.map_eq_some_iff.mp he
    cases entry <;> cases ho
    rfl

/-- **Definitions are kept unless one is given twice.** A text that is decoded keeps all commands
that it defines, on every level, and all components, exactly if no two commands have one path and no
two components one name; where the text is taken for blank, it must not define any. -/
theorem keeps_iff (text : String) (d : Document) (h : ofText text = .ok d) :
    d.Keeps (Yaml.Source.ofText text).root ↔
      (((Yaml.Source.ofText text).root.commandsUnder []).map Prod.fst).Nodup ∧
        ((Yaml.Source.ofText text).root.componentEntries.map Prod.fst).Nodup ∧
        (isBlankDocument text = true →
          (Yaml.Source.ofText text).root.commandsUnder [] = [] ∧
            (Yaml.Source.ofText text).root.componentEntries = []) := by
  unfold ofText at h
  by_cases hblank : isBlankDocument text = true
  · rw [if_pos hblank] at h
    cases h
    constructor
    · intro hk
      have hcommands := List.map_eq_nil_iff.mp (List.nil_perm.mp hk.commands)
      have hcomponents := List.map_eq_nil_iff.mp (List.nil_perm.mp hk.components)
      exact ⟨hk.nodup.1, hk.nodup.2, fun _ => ⟨hcommands, hcomponents⟩⟩
    · rintro ⟨-, -, hnothing⟩
      obtain ⟨hcommands, hcomponents⟩ := hnothing hblank
      exact ⟨hcommands ▸ .refl _, hcomponents ▸ .refl _⟩
  · rw [if_neg hblank] at h
    obtain ⟨d', hd, h⟩ := bind_eq_ok h
    have hd' : d' = d := by
      split at h <;> cases h
      rfl
    constructor
    · intro hk
      exact ⟨hk.nodup.1, hk.nodup.2, fun hb => absurd hb hblank⟩
    · rintro ⟨hcommands, hcomponents, -⟩
      exact keeps_of_nodup _ d (hd' ▸ hd) hcommands hcomponents

/-- Commands on two levels, one of them without a body, and a component. -/
def nestedText : String :=
  "commands:\n  stop:\n  serve:\n    commands:\n      fast:\n        usage: serve fast\n" ++
    "components:\n  options:\n    port:\n      type: int\n"

theorem nestedText_kept :
    ∃ d, ofText nestedText = .ok d ∧ d.Keeps (Yaml.Source.ofText nestedText).root ∧
      (Yaml.Source.ofText nestedText).root.componentEntries.map Prod.fst = ["port"] ∧
      ((Yaml.Source.ofText nestedText).root.commandsUnder []).map Prod.fst =
        [["stop"], ["serve"], ["serve", "fast"]] := by
  have hread : ((Yaml.Source.ofText nestedText).root.commandsUnder []).map Prod.fst =
        [["stop"], ["serve"], ["serve", "fast"]] ∧
      (Yaml.Source.ofText nestedText).root.componentEntries.map Prod.fst = ["port"] ∧
      (ofText nestedText).toOption.isSome = true ∧ ¬isBlankDocument nestedText = true := by
    decide +kernel
  obtain ⟨hcommands, hcomponents, hsome, hblank⟩ := hread
  obtain ⟨d, hd⟩ := isSome_toOption_iff.mp hsome
  refine ⟨d, hd, (keeps_iff nestedText d hd).mpr ⟨?_, ?_, fun h => absurd h hblank⟩, hcomponents,
    hcommands⟩
  · rw [hcommands]
    decide
  · rw [hcomponents]
    decide

def twoCommandsText : String := "commands:\n  a:\n    usage: x\n  a:\n    usage: y\n"

def twoComponentsText : String :=
  "components:\n  options:\n    p:\n      type: int\n    p:\n      type: bool\n"

/-- Of two commands with one name, and of two components, the first is gone without an error, where
a field that stands twice is one. -/
theorem repeatedKeys_dropped :
    (∃ d, ofText twoCommandsText = .ok d ∧
      (d.commands.forest.visits []).map (fun v => (v.path, v.declaration.usage)) =
        [(["a"], some "y")] ∧
      ¬d.Keeps (Yaml.Source.ofText twoCommandsText).root) ∧
    (∃ d, ofText twoComponentsText = .ok d ∧
      d.components.entries.map (fun c => (c.1, c.2.typeTag)) = [("p", "bool")] ∧
      ¬d.Keeps (Yaml.Source.ofText twoComponentsText).root) ∧
    ofText "commands:\n  a:\n    usage: x\n    usage: y\n" =
      .error (.duplicateField "usage") := by
  refine ⟨?_, ?_, eq_error_of_failure? (by decide +kernel)⟩
  · have hread : (ofText twoCommandsText).toOption.map (fun d =>
        (d.commands.forest.visits []).map fun v => (v.path, v.declaration.usage)) =
        some [(["a"], some "y")] := by decide +kernel
    obtain ⟨d, hd, hvisits⟩ := Option.map_eq_some_iff.mp hread
    refine ⟨d, eq_ok_of_toOption hd, hvisits, fun hk => absurd hk.nodup.1 ?_⟩
    decide +kernel
  · have hread : (ofText twoComponentsText).toOption.map (fun d =>
        d.components.entries.map fun c => (c.1, c.2.typeTag)) = some [("p", "bool")] := by
      decide +kernel
    obtain ⟨d, hd, hentries⟩ := Option.map_eq_some_iff.mp hread
    refine ⟨d, eq_ok_of_toOption hd, hentries, fun hk => absurd hk.nodup.2 ?_⟩
    decide +kernel

end Document

end CommandSpec
