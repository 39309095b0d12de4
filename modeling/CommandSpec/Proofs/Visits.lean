import CommandSpec.Spec.Edit
import CommandSpec.Spec.Walk

/-! The commands of a tree as one list in walk order. A walk is a run over this list
(`walk_eq_forM`), which is ordered by path (`CommandForest.visits_pairwise`), and a command stands
in it exactly when looking up its path from the top level finds it (`Commands.mem_visits_iff`,
`Document.nodeAt?_eq_some_iff`). -/
namespace CommandSpec

namespace CommandForest

/-- The commands below `path`, each before its sub-commands, siblings in name order. -/
def visits (path : List String) : CommandForest → List CommandVisit
  | nil => []
  | node name declaration children siblings =>
    ⟨path ++ [name], declaration, children⟩ ::
      (children.visits (path ++ [name]) ++ siblings.visits path)

/-- The names on the top level. -/
def names : CommandForest → List String
  | nil => []
  | node name _ _ siblings => name :: siblings.names

theorem walk_eq_forM [Monad m] [LawfulMonad m] (visit : CommandVisit → m PUnit)
    (forest : CommandForest) (path : List String) :
    forest.walk visit path = forM (forest.visits path) visit := by
  induction forest generalizing path with
  | nil => rfl
  | node name declaration children siblings ihc ihs =>
    simp only [walk, visits, ihc, ihs, List.forM_cons, List.forM_append]

/-- Every command below `path` stands at or below one of the top-level names. -/
theorem prefix_of_mem_visits (forest : CommandForest) (path : List String) (v : CommandVisit)
    (h : v ∈ forest.visits path) : ∃ name ∈ forest.names, path ++ [name] <+: v.path := by
  induction forest generalizing path with
  | nil => simp [visits] at h
  | node name declaration children siblings ihc ihs =>
    simp only [visits, List.mem_cons, List.mem_append] at h
    rcases h with rfl | h | h
    · exact ⟨name, List.mem_cons_self .., List.prefix_refl _⟩
    · obtain ⟨below, _, hp⟩ := ihc _ h
      exact ⟨name, List.mem_cons_self .., (List.prefix_append _ _).trans hp⟩
    · obtain ⟨other, ho, hp⟩ := ihs _ h
      exact ⟨other, List.mem_cons_of_mem _ ho, hp⟩

/-- The names on one level ascend, so all names of `forest` come after its bound. -/
theorem Above.lt_of_mem_names (forest : CommandForest) (bound : String)
    (ha : forest.Above bound) (ho : forest.Ordered) (name : String) (h : name ∈ forest.names) :
    bound < name := by
  induction forest generalizing bound with
  | nil => simp [names] at h
  | node other declaration children siblings _ ih =>
    rcases List.mem_cons.mp h with rfl | h
    · exact ha
    · exact String.lt_trans ha (ih other ho.1 ho.2.2 h)

/-- What stands below a path comes after it. -/
theorem lt_of_mem_visits (forest : CommandForest) (path : List String) (v : CommandVisit)
    (h : v ∈ forest.visits path) : path < v.path := by
  obtain ⟨name, -, rest, hp⟩ := forest.prefix_of_mem_visits path v h
  have hnil : ([] : List String) < name :: rest := List.nil_lt_cons name rest
  have hlt : path ++ [] < path ++ name :: rest := List.append_left_lt hnil
  rwa [List.append_nil, List.append_cons, hp] at hlt

/-- A walk meets ever later paths in the order of their names, a command before what stands
below it. -/
theorem visits_pairwise (forest : CommandForest) (ho : forest.Ordered) (path : List String) :
    (forest.visits path).Pairwise (·.path < ·.path) := by
  induction forest generalizing path with
  | nil => exact .nil
  | node name declaration children siblings ihc ihs =>
    obtain ⟨habove, hchildren, hsiblings⟩ := ho
    -- later siblings differ from this command in the first name behind `path`
    have hlater (v w : CommandVisit) (hv : path ++ [name] <+: v.path)
        (hw : w ∈ siblings.visits path) : v.path < w.path := by
      obtain ⟨rest, hv⟩ := hv
      obtain ⟨other, ho, more, hw⟩ := siblings.prefix_of_mem_visits path w hw
      have hlt := habove.lt_of_mem_names siblings name hsiblings other ho
      rw [← hv, ← hw, List.append_assoc, List.append_assoc]
      exact List.append_left_lt (List.cons_lt_cons_iff.mpr (Or.inl hlt))
    rw [visits, List.pairwise_cons, List.pairwise_append]
    refine ⟨fun w hw => ?_, ihc hchildren _, ihs hsiblings _, fun v hv w hw => ?_⟩
    · rcases List.mem_append.mp hw with hw | hw
      · exact lt_of_mem_visits children _ w hw
      · exact hlater _ w (List.prefix_refl _) hw
    · obtain ⟨below, -, hp⟩ := children.prefix_of_mem_visits _ v hv
      exact hlater v w ((List.prefix_append _ _).trans hp) hw

end CommandForest

namespace Commands

/-- A command as it is visited below `path`. -/
def asVisit (path : List String) (command : Command) : CommandVisit :=
  ⟨path, command.toDeclaration, command.commands.forest⟩

private theorem go_eq_some (name : String) (forest : CommandForest) (ho : forest.Ordered)
    (command : Command) (h : find?.go name forest ho = some command) (base : List String) :
    asVisit (base ++ [name]) command ∈ forest.visits base ∧
      (∀ v ∈ command.commands.forest.visits (base ++ [name]), v ∈ forest.visits base) ∧
      name ∈ forest.names := by
  induction forest with
  | nil => simp [find?.go] at h
  | node other declaration children siblings _ ih =>
    unfold find?.go at h
    split at h
    · rename_i heq
      cases h
      subst heq
      refine ⟨List.mem_cons_self .., fun v hv => ?_, List.mem_cons_self ..⟩
      exact List.mem_cons_of_mem _ (List.mem_append_left _ hv)
    · obtain ⟨hm, hb, hn⟩ := ih ho.2.2 h
      exact ⟨List.mem_cons_of_mem _ (List.mem_append_right _ hm),
        fun v hv => List.mem_cons_of_mem _ (List.mem_append_right _ (hb v hv)),
        List.mem_cons_of_mem _ hn⟩

theorem findPath?_cons (c : Commands) (name : String) (rest : List String) (h : rest ≠ []) :
    c.findPath? (name :: rest) =
      (c.find? name).bind fun command => command.commands.findPath? rest := by
  cases rest with
  | nil => exact absurd rfl h
  | cons => rfl

/-- A command found by its path is visited under that path. -/
theorem mem_visits_of_findPath? (path : List String) (c : Commands) (command : Command)
    (h : c.findPath? path = some command) (base : List String) :
    asVisit (base ++ path) command ∈ c.forest.visits base := by
  induction path generalizing c base with
  | nil => simp [findPath?] at h
  | cons name rest ih =>
    by_cases hr : rest = []
    · subst hr
      exact (go_eq_some name c.forest c.ordered command h base).1
    · rw [findPath?_cons c name rest hr] at h
      obtain ⟨parent, hp, h⟩ := Option.bind_eq_some_iff.mp h
      have hm := ih parent.commands h (base ++ [name])
      rw [List.append_assoc] at hm
      exact (go_eq_some name c.forest c.ordered parent hp base).2.1 _ hm

/-- Later siblings are found past the first command. -/
private theorem findPath?_of_siblings (name : String) (declaration : Declaration)
    (children siblings : CommandForest) (ho : (CommandForest.node name declaration children
      siblings).Ordered) (path : List String) (command : Command)
    (h : Commands.findPath? ⟨siblings, ho.2.2⟩ path = some command) :
    Commands.findPath? ⟨.node name declaration children siblings, ho⟩ path = some command := by
  have skip (other : String) (found : Command)
      (hf : Commands.find? ⟨siblings, ho.2.2⟩ other = some found) :
      Commands.find? ⟨.node name declaration children siblings, ho⟩ other = some found := by
    have hn := (go_eq_some other siblings ho.2.2 found hf []).2.2
    have hlt := CommandForest.Above.lt_of_mem_names siblings name ho.1 ho.2.2 other hn
    have hne : name ≠ other := fun e => String.lt_irrefl _ (e ▸ hlt)
    unfold find? find?.go
    rw [if_neg hne]
    exact hf
  cases path with
  | nil => simp [findPath?] at h
  | cons other rest =>
    by_cases hr : rest = []
    · subst hr
      exact skip other command h
    · rw [findPath?_cons _ _ _ hr] at h ⊢
      obtain ⟨parent, hp, h⟩ := Option.bind_eq_some_iff.mp h
      rw [skip other parent hp]
      exact h

/-- A visited command is found by its path. -/
theorem findPath?_of_mem_visits (forest : CommandForest) (ho : forest.Ordered)
    (base : List String) (v : CommandVisit) (h : v ∈ forest.visits base) :
    ∃ path command, v = asVisit (base ++ path) command ∧
      Commands.findPath? ⟨forest, ho⟩ path = some command := by
  induction forest generalizing base with
  | nil => simp [CommandForest.visits] at h
  | node name declaration children siblings ihc ihs =>
    have here : Commands.find? ⟨.node name declaration children siblings, ho⟩ name =
        some { declaration with commands := ⟨children, ho.2.1⟩ } := by
      simp [find?, find?.go]
    simp only [CommandForest.visits, List.mem_cons, List.mem_append] at h
    rcases h with rfl | h | h
    · exact ⟨[name], _, rfl, here⟩
    · obtain ⟨path, command, rfl, hf⟩ := ihc ho.2.1 _ h
      have hne : path ≠ [] := by
        rintro rfl
        simp [findPath?] at hf
      refine ⟨name :: path, command, by simp, ?_⟩
      rw [findPath?_cons _ _ _ hne, here]
      exact hf
    · obtain ⟨path, command, rfl, hf⟩ := ihs ho.2.2 _ h
      exact ⟨path, command, rfl,
        findPath?_of_siblings name declaration children siblings ho path command hf⟩

theorem asVisit_inj (path path' : List String) (command command' : Command)
    (h : asVisit path command = asVisit path' command') : path = path' ∧ command = command' := by
  obtain ⟨declaration, ⟨forest, _⟩⟩ := command
  obtain ⟨declaration', ⟨forest', _⟩⟩ := command'
  simp only [asVisit, CommandVisit.mk.injEq] at h
  obtain ⟨rfl, rfl, rfl⟩ := h
  exact ⟨rfl, rfl⟩

theorem mem_visits_iff (c : Commands) (v : CommandVisit) :
    v ∈ c.forest.visits [] ↔
      ∃ path command, v = asVisit path command ∧ c.findPath? path = some command := by
  constructor
  · exact findPath?_of_mem_visits c.forest c.ordered [] v
  · rintro ⟨path, command, rfl, h⟩
    exact mem_visits_of_findPath? path c command h []

end Commands

namespace Document

/-- The nodes of a document are its root and the commands visited below it. -/
theorem nodeAt?_eq_some_iff (d : Document) (path : List String) (command : Command) :
    d.nodeAt? path = some command ↔
      (path = [] ∧ command = d.root) ∨
        Commands.asVisit path command ∈ d.commands.forest.visits [] := by
  have visited : Commands.asVisit path command ∈ d.commands.forest.visits [] ↔
      d.commands.findPath? path = some command := by
    rw [Commands.mem_visits_iff]
    constructor
    · rintro ⟨path', command', he, h⟩
      obtain ⟨rfl, rfl⟩ := Commands.asVisit_inj _ _ _ _ he
      exact h
    · intro h
      exact ⟨path, command, rfl, h⟩
  rw [visited]
  cases path with
  | nil => simp [nodeAt?, Commands.findPath?, eq_comm]
  | cons name rest => simp [nodeAt?]

theorem nodeAt?_of_mem_visits (d : Document) (v : CommandVisit)
    (h : v ∈ d.commands.forest.visits []) :
    ∃ command, v = Commands.asVisit v.path command ∧ d.nodeAt? v.path = some command := by
  obtain ⟨path, command, rfl, -⟩ := (Commands.mem_visits_iff d.commands v).mp h
  exact ⟨command, rfl, (d.nodeAt?_eq_some_iff path command).mpr (Or.inr h)⟩

end Document
end CommandSpec
