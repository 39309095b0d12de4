import CommandSpec.Proofs.NamedEntries
import CommandSpec.Proofs.TopDownPlan
import Mathlib.Data.List.Flatten

/-! Documents with one more command. What a new command and those below it add to a plan stands
in one place, because a walk meets a command and what is below it without anything in between;
all other nodes add what they added before (`Document.gains_addCommand`). So the plan of the
smaller document is found as well, and is the other one without that place. -/
namespace CommandSpec

/-- The document with one more command below the node at a path. -/
def Document.addCommand? (d : Document) (path : List String) (name : String)
    (command : Command) : Option Document :=
  d.modifyAt? path fun parent => { parent with commands := parent.commands.insert name command }

/-! ## Among siblings -/

variable {α : Type}

/-- An entry of a new name stands between those that were there. -/
theorem insertEntry_of_new {name : String} {entries : List (String × α)}
    (h : name ∉ entries.map Prod.fst) (x : α) :
    ∃ before after, entries = before ++ after ∧
      insertEntry name x entries = before ++ (name, x) :: after := by
  induction entries with
  | nil => exact ⟨[], [], rfl, rfl⟩
  | cons head rest ih =>
    obtain ⟨other, kept⟩ := head
    obtain ⟨hne, hrest⟩ : name ≠ other ∧ name ∉ rest.map Prod.fst := by simpa using h
    rcases name_trichotomy name other with hlt | he | hlt
    · exact ⟨[], (other, kept) :: rest, rfl, insertEntry_of_lt hlt ..⟩
    · exact absurd he hne
    · obtain ⟨before, after, hold, hnew⟩ := ih hrest
      refine ⟨(other, kept) :: before, after, congrArg _ hold, ?_⟩
      rw [insertEntry_of_gt hlt, hnew, List.cons_append]

/-- An entry of a name that was there takes its place. -/
theorem insertEntry_of_kept {name : String} {before : List (String × α)}
    (h : ∀ e ∈ before, e.1 < name) (x z : α) (after : List (String × α)) :
    insertEntry name x (before ++ (name, z) :: after) = before ++ (name, x) :: after := by
  induction before with
  | nil => exact insertEntry_self ..
  | cons head rest ih =>
    obtain ⟨hhead, hrest⟩ := List.forall_mem_cons.mp h
    rw [List.cons_append, insertEntry_of_gt hhead, ih hrest, List.cons_append]

namespace Commands

theorem not_mem_names_of_find? (c : Commands) (name : String) (h : c.find? name = none) :
    name ∉ c.forest.names := by
  obtain ⟨forest, ho⟩ := c
  unfold find? at h
  induction forest with
  | nil => exact List.not_mem_nil
  | node other declaration children siblings _ ih =>
    unfold find?.go at h
    split at h
    · cases h
    · rename_i hne
      intro hm
      rcases List.mem_cons.mp hm with rfl | hm
      · exact hne rfl
      · exact ih ho.2.2 h hm

/-- A command that is found stands behind the smaller names and before the greater ones. -/
theorem rows_of_find? (c : Commands) (name : String) (command : Command)
    (h : c.find? name = some command) :
    ∃ before after, c.forest.rows =
        before ++ (name, command.toDeclaration, command.commands.forest) :: after ∧
      (∀ e ∈ before, e.1 < name) ∧ ∀ e ∈ after, name < e.1 := by
  obtain ⟨forest, ho⟩ := c
  unfold find? at h
  induction forest with
  | nil => cases h
  | node other declaration children siblings _ ih =>
    have hlater (e : String × (Declaration × CommandForest)) (he : e ∈ siblings.rows) :
        other < e.1 := by
      refine CommandForest.Above.lt_of_mem_names siblings other ho.1 ho.2.2 e.1 ?_
      rw [CommandForest.names_eq_rows]
      exact List.mem_map_of_mem he
    unfold find?.go at h
    split at h
    · rename_i heq
      cases h
      subst heq
      exact ⟨[], siblings.rows, rfl, List.forall_mem_nil _, hlater⟩
    · obtain ⟨before, after, hrows, hbefore, hafter⟩ := ih ho.2.2 h
      have hother : other < name := by
        refine hlater (name, command.toDeclaration, command.commands.forest) ?_
        exact hrows ▸ List.mem_append_right _ (List.mem_cons_self ..)
      exact ⟨(other, declaration, children) :: before, after, congrArg _ hrows,
        List.forall_mem_cons.mpr ⟨hother, hbefore⟩, hafter⟩

end Commands

/-! ## Sites -/

/-- The sites of one command and those below it. -/
def rowSites (path : List String) (inherited : Option EmbeddedRecord)
    (row : String × (Declaration × CommandForest)) : List Site :=
  (CommandForest.node row.1 row.2.1 row.2.2 .nil).sites path inherited

theorem CommandForest.sites_eq_rows (f : CommandForest) (path : List String)
    (inherited : Option EmbeddedRecord) :
    f.sites path inherited = f.rows.flatMap (rowSites path inherited) := by
  induction f with
  | nil => rfl
  | node name declaration children siblings _ ih =>
    simp only [sites, rows, List.flatMap_cons, rowSites, ih, List.append_nil, List.cons_append]

theorem prefix_of_mem_rowSites (path : List String) (inherited : Option EmbeddedRecord)
    (row : String × (Declaration × CommandForest)) (s : Site)
    (h : s ∈ rowSites path inherited row) : path ++ [row.1] <+: s.path := by
  have hv : s.toCommandVisit ∈ (CommandForest.node row.1 row.2.1 row.2.2 .nil).visits path := by
    rw [← CommandForest.sites_toCommandVisit _ _ inherited]
    exact List.mem_map_of_mem h
  obtain ⟨name, hn, hp⟩ := CommandForest.prefix_of_mem_visits _ path _ hv
  cases List.mem_singleton.mp hn
  exact hp

/-- What stands below a command is not below a sibling of it. -/
theorem not_prefix_of_sibling {path place : List String} {name : String}
    (hplace : path ++ [name] <+: place) (inherited : Option EmbeddedRecord)
    (rows : List (String × (Declaration × CommandForest))) (hrows : ∀ r ∈ rows, r.1 ≠ name)
    (s : Site) (hs : s ∈ rows.flatMap (rowSites path inherited)) : ¬place <+: s.path := by
  intro hp
  obtain ⟨row, hr, hs⟩ := List.mem_flatMap.mp hs
  have hsame := List.prefix_of_prefix_length_le (prefix_of_mem_rowSites path inherited row s hs)
    (hplace.trans hp) (by simp)
  rw [List.prefix_append_right_inj] at hsame
  exact hrows row hr (by simpa using hsame)

/-- The sites `grown` are the sites `old`, as far as their bindings go, and those of a command
below `path`, all in one place. -/
def Gains (config : Config) (path : List String) (name : String) (command : Command)
    (old grown : List Site) : Prop :=
  ∃ before before' after inherited,
    old = before ++ after ∧
      grown = before' ++
        rowSites path inherited (name, command.toDeclaration, command.commands.forest) ++ after ∧
      before'.map (Site.bindings config) = before.map (Site.bindings config) ∧
      ∀ s ∈ before' ++ after, ¬path ++ [name] <+: s.path

/-- A new command among siblings. -/
theorem Commands.gains_insert (config : Config) (c : Commands) (name : String)
    (command : Command) (h : c.find? name = none) (path : List String)
    (inherited : Option EmbeddedRecord) :
    Gains config path name command (c.forest.sites path inherited)
      ((c.insert name command).forest.sites path inherited) := by
  have hnew := c.not_mem_names_of_find? name h
  rw [CommandForest.names_eq_rows] at hnew
  obtain ⟨before, after, hold, hgrown⟩ := insertEntry_of_new hnew
    (command.toDeclaration, command.commands.forest)
  have hothers : ∀ r ∈ before ++ after, r.1 ≠ name := by
    rintro r hr rfl
    exact hnew (hold ▸ List.mem_map_of_mem hr)
  refine ⟨before.flatMap (rowSites path inherited), before.flatMap (rowSites path inherited),
    after.flatMap (rowSites path inherited), inherited, ?_, ?_, rfl, fun s hs => ?_⟩
  · rw [CommandForest.sites_eq_rows, hold, List.flatMap_append]
  · rw [CommandForest.sites_eq_rows, insert, CommandForest.rows_insert, hgrown,
      List.flatMap_append, List.flatMap_cons, List.append_assoc]
  · rw [← List.flatMap_append] at hs
    exact not_prefix_of_sibling List.prefix_rfl inherited _ hothers s hs

/-- A branch whose sub-commands gain a command further down. -/
theorem Commands.gains_below (config : Config) (c : Commands) (parent : String)
    (old : Command) (commands : Commands) (hfind : c.find? parent = some old)
    (hbranch : old.commands.forest.isEmpty = false) (hkept : commands.forest.isEmpty = false)
    (base rest : List String) (name : String) (command : Command)
    (hbelow : ∀ inherited, Gains config (base ++ parent :: rest) name command
      (old.commands.forest.sites (base ++ [parent]) inherited)
      (commands.forest.sites (base ++ [parent]) inherited))
    (inherited : Option EmbeddedRecord) :
    Gains config (base ++ parent :: rest) name command (c.forest.sites base inherited)
      ((c.insert parent { old with commands }).forest.sites base inherited) := by
  obtain ⟨first, last, hrows, hfirst, hlast⟩ := c.rows_of_find? parent old hfind
  let here (children : CommandForest) : Site :=
    ⟨⟨base ++ [parent], old.toDeclaration, children⟩, inherited⟩
  -- a node's bindings do not depend on its sub-commands once it has some
  have hbindings : (here commands.forest).bindings config =
      (here old.commands.forest).bindings config := by
    simp only [here, Site.bindings, Site.methods, Site.tableEntry, CommandVisit.isBranch, hbranch,
      hkept, Site.declaredRecord, Site.inForce, Site.ownRecord, Site.owner]
  have hrow (children : CommandForest) :
      rowSites base inherited (parent, old.toDeclaration, children) =
        here children :: children.sites (base ++ [parent]) (here children).inForce := by
    rw [rowSites, CommandForest.sites, CommandForest.sites, List.append_nil]
  obtain ⟨before, before', after, below, hold, hgrown, hmap, hothers⟩ :=
    hbelow (here old.commands.forest).inForce
  have hplace : base ++ [parent] <+: base ++ parent :: rest ++ [name] := by
    simp [List.prefix_append_right_inj]
  refine ⟨first.flatMap (rowSites base inherited) ++ here old.commands.forest :: before,
    first.flatMap (rowSites base inherited) ++ here commands.forest :: before',
    after ++ last.flatMap (rowSites base inherited), below, ?_, ?_, ?_, fun s hs => ?_⟩
  · rw [CommandForest.sites_eq_rows, hrows, List.flatMap_append, List.flatMap_cons, hrow, hold]
    simp only [List.append_assoc, List.cons_append]
  · rw [CommandForest.sites_eq_rows, insert, CommandForest.rows_insert, hrows,
      insertEntry_of_kept hfirst, List.flatMap_append, List.flatMap_cons, hrow]
    refine (congrArg (fun sites => _ ++ (_ :: sites ++ _)) hgrown).trans ?_
    simp only [List.append_assoc, List.cons_append]
  · simp only [List.map_append, List.map_cons, hmap, hbindings]
  · have hcommand : ¬base ++ parent :: rest ++ [name] <+: (here commands.forest).path := by
      intro hp
      have hlength := hp.length_le
      simp [here] at hlength
    simp only [List.mem_append, List.mem_cons] at hs
    rcases hs with (hs | rfl | hs) | hs | hs
    · exact not_prefix_of_sibling hplace inherited first (fun r hr => name_lt_ne (hfirst r hr)) s hs
    · exact hcommand
    · exact hothers s (List.mem_append_left _ hs)
    · exact hothers s (List.mem_append_right _ hs)
    · exact not_prefix_of_sibling hplace inherited last
        (fun r hr => (name_lt_ne (hlast r hr)).symm) s hs

/-! ## Further down -/

theorem CommandForest.isEmpty_insert (f : CommandForest) (name : String)
    (declaration : Declaration) (children : CommandForest) :
    (f.insert name declaration children).isEmpty = false := by
  cases f with
  | nil => rfl
  | node =>
    unfold insert
    split
    · rfl
    · split <;> rfl

namespace Commands

/-- A command at a path is changed by changing the command its first name stands for. -/
theorem modify?_cons (f : Command → Command) (c c' : Commands) (name : String)
    (rest : List String) (h : c.modify? f (name :: rest) = some c') (parent : Command)
    (hp : c.findPath? (name :: rest) = some parent) :
    ∃ old grown, c.find? name = some old ∧ c' = c.insert name grown ∧
      ((rest = [] ∧ old = parent ∧ grown = f parent) ∨
        (old.commands.findPath? rest = some parent ∧ ∃ commands,
          old.commands.modify? f rest = some commands ∧ grown = { old with commands })) := by
  cases rest with
  | nil =>
    obtain ⟨old, hfind, hc⟩ := Option.map_eq_some_iff.mp h
    have hold : old = parent := Option.some.inj (hfind.symm.trans hp)
    exact ⟨old, f old, hfind, hc.symm, Or.inl ⟨rfl, hold, congrArg f hold⟩⟩
  | cons next rest =>
    rw [c.findPath?_cons name (next :: rest) (List.cons_ne_nil next rest)] at hp
    obtain ⟨old, hfind, hp⟩ := Option.bind_eq_some_iff.mp hp
    obtain ⟨old', hfind', h⟩ := Option.bind_eq_some_iff.mp h
    obtain rfl : old = old' := Option.some.inj (hfind.symm.trans hfind')
    obtain ⟨commands, hm, hc⟩ := Option.bind_eq_some_iff.mp h
    exact ⟨old, _, hfind, (Option.some.inj hc).symm, Or.inr ⟨hp, commands, hm, rfl⟩⟩

theorem isEmpty_of_findPath? (c : Commands) (path : List String) (command : Command)
    (h : c.findPath? path = some command) : c.forest.isEmpty = false := by
  obtain ⟨forest, ho⟩ := c
  cases forest with
  | nil =>
    cases path with
    | nil => cases h
    | cons name rest => cases rest <;> cases h
  | node => rfl

theorem isEmpty_of_modify? (f : Command → Command) (c c' : Commands) (path : List String)
    (h : c.modify? f path = some c') : c'.forest.isEmpty = false := by
  match path with
  | [] => cases h
  | [name] =>
    obtain ⟨command, -, rfl⟩ := Option.map_eq_some_iff.mp h
    exact CommandForest.isEmpty_insert ..
  | name :: next :: rest =>
    obtain ⟨command, -, h⟩ := Option.bind_eq_some_iff.mp h
    obtain ⟨commands, -, h⟩ := Option.bind_eq_some_iff.mp h
    cases h
    exact CommandForest.isEmpty_insert ..

/-- A new command below a branch, at any depth. -/
theorem gains_modify (config : Config) (name : String) (command parent : Command)
    (hbranch : parent.isBranch = true) (hnew : parent.commands.find? name = none)
    (path : List String) (c c' : Commands) (hp : c.findPath? path = some parent)
    (hm : c.modify? (fun parent => { parent with commands := parent.commands.insert name command })
      path = some c') (base : List String) (inherited : Option EmbeddedRecord) :
    Gains config (base ++ path) name command (c.forest.sites base inherited)
      (c'.forest.sites base inherited) := by
  induction path generalizing c c' base inherited with
  | nil => cases hp
  | cons first rest ih =>
    obtain ⟨old, grown, hfind, rfl, hcase⟩ := modify?_cons _ c c' first rest hm parent hp
    rcases hcase with ⟨rfl, rfl, rfl⟩ | ⟨hbelow, commands, hadded, rfl⟩
    · have hold : old.commands.forest.isEmpty = false := by simpa [Command.isBranch] using hbranch
      refine c.gains_below config first old _ hfind hold (CommandForest.isEmpty_insert ..)
        base [] name command (fun inherited => ?_) inherited
      exact old.commands.gains_insert config name command hnew _ inherited
    · refine c.gains_below config first old commands hfind (isEmpty_of_findPath? _ _ _ hbelow)
        (isEmpty_of_modify? _ _ _ _ hadded) base rest name command (fun inherited => ?_) inherited
      have hgains := ih old.commands commands hbelow hadded (base ++ [first]) inherited
      rwa [List.append_assoc] at hgains

end Commands

/-! ## The whole document -/

namespace Document

/-- The sites of a command and of those below it. -/
def sitesBelow (d : Document) (config : Config) (path : List String) : List Site :=
  (d.sites config).filter fun s => path.isPrefixOf s.path

theorem gains_addCommand (config : Config) (d d' : Document) (path : List String) (name : String)
    (parent command : Command) (hparent : d.nodeAt? path = some parent)
    (hbranch : path = [] ∨ parent.isBranch = true) (hnew : parent.commands.find? name = none)
    (hadd : d.addCommand? path name command = some d') :
    d'.rootBindings config = d.rootBindings config ∧
      Gains config path name command (d.sites config) (d'.sites config) := by
  unfold addCommand? modifyAt? at hadd
  unfold nodeAt? at hparent
  cases path with
  | nil =>
    cases hadd
    cases hparent
    exact ⟨rfl, d.commands.gains_insert config name command hnew [] _⟩
  | cons first rest =>
    obtain ⟨commands, hm, rfl⟩ := Option.map_eq_some_iff.mp hadd
    have hbranch := hbranch.resolve_left (List.cons_ne_nil first rest)
    exact ⟨rfl, Commands.gains_modify config name command parent hbranch hnew (first :: rest)
      d.commands commands hparent hm [] _⟩

/-- The outline of the greater document is that of the other one and the new sites in one
place. -/
theorem outline_addCommand (config : Config) (d d' : Document) (path : List String)
    (name : String) (parent command : Command) (hparent : d.nodeAt? path = some parent)
    (hbranch : path = [] ∨ parent.isBranch = true) (hnew : parent.commands.find? name = none)
    (hadd : d.addCommand? path name command = some d') :
    (d'.sitesBelow config (path ++ [name])).map Site.toCommandVisit =
        (CommandForest.node name command.toDeclaration command.commands.forest .nil).visits path ∧
      ∃ before after, d.outline config = before ++ after ∧
        d'.outline config = before ++
          (d'.sitesBelow config (path ++ [name])).map (Site.bindings config) ++ after := by
  obtain ⟨hroot, before, before', after, inherited, hold, hgrown, hsame, hothers⟩ :=
    gains_addCommand config d d' path name parent command hparent hbranch hnew hadd
  have hbelow : d'.sitesBelow config (path ++ [name]) =
      rowSites path inherited (name, command.toDeclaration, command.commands.forest) := by
    have hnone (sites : List Site) (hs : ∀ s ∈ sites, ¬path ++ [name] <+: s.path) :
        sites.filter (fun s => (path ++ [name]).isPrefixOf s.path) = [] := by
      simpa using hs
    have hall : (rowSites path inherited (name, command.toDeclaration,
        command.commands.forest)).filter (fun s => (path ++ [name]).isPrefixOf s.path) =
          rowSites path inherited (name, command.toDeclaration, command.commands.forest) := by
      refine List.filter_eq_self.mpr fun s hs => ?_
      simpa using prefix_of_mem_rowSites path inherited _ s hs
    rw [sitesBelow, hgrown, List.filter_append, List.filter_append,
      hnone before' fun s hs => hothers s (List.mem_append_left _ hs),
      hnone after fun s hs => hothers s (List.mem_append_right _ hs), hall]
    simp
  refine ⟨?_, d.rootBindings config :: before.map (Site.bindings config),
    after.map (Site.bindings config), ?_, ?_⟩
  · rw [hbelow, rowSites, CommandForest.sites_toCommandVisit]
  · rw [outline, hold, List.map_append, List.cons_append]
  · rw [hbelow, outline, hgrown, hroot]
    simp only [List.map_append, hsame, List.append_assoc, List.cons_append]

end Document

/-! ## Plans -/

theorem Registry.Free.sublist {r : Registry} {claims fewer : List (String × String)}
    (h : r.Free claims) (hs : fewer.Sublist claims) : r.Free fewer :=
  ⟨(hs.map Prod.fst).nodup h.1, fun name hn => h.2 name ((hs.map Prod.fst).subset hn)⟩

/-- A document whose nodes add some of what those of another document add is planned when the
other is. -/
theorem Plan.build_of_outline_sublist (config : Config) (d d' : Document)
    (hs : (d.outline config).Sublist (d'.outline config)) (p' : Plan)
    (h : Plan.build d' config = .ok p') : Plan.build d config = .ok (d.topDownPlan config) := by
  obtain ⟨hsound, htypes, hmethods, -⟩ := (Plan.build_eq_ok_iff ..).mp h
  refine (Plan.build_eq_ok_iff ..).mpr ⟨?_, ?_, ?_, rfl⟩
  · intro r hr
    exact hsound r ((hs.flatMap _).subset hr)
  · exact htypes.sublist (hs.flatMap _)
  · exact ((hs.flatMap _).map Prod.fst).nodup hmethods

theorem Site.flatMap_bindings {β : Type} (config : Config) (f : NodeBindings → List β)
    (g : Site → List β) (h : ∀ s, f (Site.bindings config s) = g s)
    (before after : List NodeBindings) (sites : List Site) :
    (before ++ sites.map (Site.bindings config) ++ after).flatMap f =
      before.flatMap f ++ sites.flatMap g ++ after.flatMap f := by
  rw [List.flatMap_append, List.flatMap_append, List.flatMap_map]
  simp only [h]

/-- The rows of the command table that a command adds. -/
def Site.table (config : Config) (s : Site) : List TableEntry := (s.bindings config).table

/-- **A new command disturbs nothing.** When a document is planned that has one more command,
with sub-commands of its own, at the root or below a branch, it is planned without that command
too. The greater plan has the methods, records and table rows of the other one in order, and
those of the new commands in one place; it imports all that the other one does. -/
theorem Plan.build_without_addedCommand (config : Config) (d d' : Document)
    (path : List String) (name : String) (parent command : Command)
    (hparent : d.nodeAt? path = some parent) (hbranch : path = [] ∨ parent.isBranch = true)
    (hnew : parent.commands.find? name = none)
    (hadd : d.addCommand? path name command = some d') (p' : Plan)
    (hplan : Plan.build d' config = .ok p') :
    let new := d'.sitesBelow config (path ++ [name])
    new.map Site.toCommandVisit =
        (CommandForest.node name command.toDeclaration command.commands.forest .nil).visits path ∧
      ∃ p, Plan.build d config = .ok p ∧
        (∃ before after, p.methods = before ++ after ∧
          p'.methods = before ++ new.flatMap Site.methods ++ after) ∧
        (∃ before after, p.records = before ++ after ∧
          p'.records = before ++ new.flatMap Site.records ++ after) ∧
        (∃ before after, p.table = before ++ after ∧
          p'.table = before ++ new.flatMap (Site.table config) ++ after) ∧
        p.imports ⊆ p'.imports := by
  intro new
  obtain ⟨hvisits, before, after, hold, hgrown⟩ :=
    Document.outline_addCommand config d d' path name parent command hparent hbranch hnew hadd
  have hs : (d.outline config).Sublist (d'.outline config) := by
    rw [hold, hgrown, List.append_assoc]
    exact (List.sublist_append_right _ _).append_left before
  have hp := Plan.build_of_outline_sublist config d d' hs p' hplan
  obtain ⟨-, -, -, rfl⟩ := (Plan.build_eq_ok_iff ..).mp hplan
  have hmethods (d : Document) :
      (d.topDownPlan config).methods = (d.outline config).flatMap NodeBindings.methods := rfl
  have hrecords (d : Document) :
      (d.topDownPlan config).records = (d.outline config).flatMap NodeBindings.records :=
    List.map_flatMap
  have htable (d : Document) :
      (d.topDownPlan config).table = (d.outline config).flatMap NodeBindings.table := rfl
  refine ⟨hvisits, d.topDownPlan config, hp, ?_, ?_, ?_, fun path hpath => ?_⟩
  · refine ⟨before.flatMap NodeBindings.methods, after.flatMap NodeBindings.methods, ?_, ?_⟩
    · rw [hmethods, hold, List.flatMap_append]
    · rw [hmethods, hgrown, Site.flatMap_bindings config _ Site.methods fun _ => rfl]
  · refine ⟨before.flatMap NodeBindings.records, after.flatMap NodeBindings.records, ?_, ?_⟩
    · rw [hrecords, hold, List.flatMap_append]
    · rw [hrecords, hgrown, Site.flatMap_bindings config _ Site.records fun _ => rfl]
  · refine ⟨before.flatMap NodeBindings.table, after.flatMap NodeBindings.table, ?_, ?_⟩
    · rw [htable, hold, List.flatMap_append]
    · rw [htable, hgrown, Site.flatMap_bindings config _ (Site.table config) fun _ => rfl]
  · have himports : (d.importPaths config).Sublist (d'.importPaths config) :=
      ((hs.flatMap _).flatMap _).append_left _
    rcases (mem_insertNames path [] _).mp hpath with hpath | hpath
    · cases hpath
    · exact (mem_insertNames path [] _).mpr (Or.inr (himports.subset hpath))

/-- The commands of `sharedIdentifier` without `a b` and what is below it. -/
def withoutSharedIdentifier : Document where
  options := [.inline { name := "verbose", typeTag := "bool" }]
  commands := ({} : Commands).insert "a"
    { options := [.inline { name := "wait", typeTag := "duration", required := true }]
      commands := ({} : Commands).insert "BC"
          { options := [.inline { name := "port", typeTag := "int" }]
            commands := ({} : Commands).insert "x" {} } }

/-- The sub-command `b` of `a` in `sharedIdentifier`. -/
def sharingCommand : Command where
  commands := ({} : Commands).insert "c" { commands := ({} : Commands).insert "d" {} }

/-- The new commands `a b c` and `a b c d` inherit from `a`, though `a b c` derives the identifier
of `a BC`. -/
theorem sharedIdentifier_added :
    let config : Config := { commandTable := true }
    let new := sharedIdentifier.sitesBelow config ["a", "b"]
    withoutSharedIdentifier.addCommand? ["a"] "b" sharingCommand = some sharedIdentifier ∧
      new.map (fun s => (s.path, s.inForce.map EmbeddedRecord.identifier)) =
        [(["a", "b"], some "A"), (["a", "b", "c"], some "A"), (["a", "b", "c", "d"], some "A")] ∧
      ∃ p p', Plan.build withoutSharedIdentifier config = .ok p ∧
        Plan.build sharedIdentifier config = .ok p' ∧
        (∃ before after, p.methods = before ++ after ∧
          p'.methods = before ++ new.flatMap Site.methods ++ after) ∧
        p.imports ⊆ p'.imports := by
  intro config new
  have hadd : withoutSharedIdentifier.addCommand? ["a"] "b" sharingCommand =
      some sharedIdentifier := by decide +kernel
  have hplan : Plan.build sharedIdentifier config = .ok (sharedIdentifier.topDownPlan config) :=
    eq_ok_of_toOption (by decide +kernel)
  obtain ⟨-, p, hp, hmethods, -, -, himports⟩ := Plan.build_without_addedCommand config
    withoutSharedIdentifier sharedIdentifier ["a"] "b" _ _ rfl (Or.inr (by decide +kernel))
    (by decide +kernel) hadd _ hplan
  exact ⟨hadd, by decide +kernel, p, _, hp, hplan, hmethods, himports⟩

end CommandSpec
