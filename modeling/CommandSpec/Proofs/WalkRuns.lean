import CommandSpec.Proofs.Visits

/-! Walks with a visitor that keeps a state and may fail. Such a walk is a run over the list of all
commands that stops at the first failure. The list has each command once, in the order of paths
compared name by name, so that a command stands right before all that is below it, and it is as
long as the tree counts commands (`Commands.walk_in_path_order`). -/
namespace CommandSpec

variable {α σ ε : Type}

/-- One step after the other, up to the first that fails. What a failing step leaves of the state
stays. -/
def runUntilFailure (step : α → σ → Except ε PUnit × σ) : List α → σ → Except ε PUnit × σ
  | [], s => (.ok ⟨⟩, s)
  | a :: rest, s =>
    match step a s with
    | (.ok _, s') => runUntilFailure step rest s'
    | (.error e, s') => (.error e, s')

theorem run_forM (visit : α → ExceptT ε (StateM σ) PUnit) (as : List α) (s : σ) :
    ((forM as visit : ExceptT ε (StateM σ) PUnit).run).run s =
      runUntilFailure (fun a s => ((visit a).run).run s) as s := by
  induction as generalizing s with
  | nil => rfl
  | cons a rest ih =>
    rw [List.forM_cons, ExceptT.run_bind, StateT.run_bind, runUntilFailure]
    obtain ⟨result, s'⟩ := (visit a).run.run s
    cases result with
    | ok => exact ih s'
    | error e => rfl

theorem not_lt_of_prefix {path longer : List String} (h : path <+: longer) : ¬longer < path := by
  obtain ⟨rest, rfl⟩ := h
  intro hlt
  cases rest with
  | nil =>
    rw [List.append_nil] at hlt
    exact List.lt_irrefl path hlt
  | cons name rest =>
    have hnil : ([] : List String) < name :: rest := List.nil_lt_cons name rest
    have hgt : path ++ [] < path ++ name :: rest := List.append_left_lt hnil
    rw [List.append_nil] at hgt
    exact List.lt_asymm hlt hgt

/-- What lies between a path and one that goes on from it goes on from it as well. -/
theorem prefix_of_between {first between last : List String} (hp : first <+: last)
    (hlow : first < between) (hhigh : between < last) : first <+: between := by
  induction first generalizing between last with
  | nil => exact List.nil_prefix
  | cons name rest ih =>
    obtain ⟨more, rfl⟩ := hp
    cases between with
    | nil => cases hlow
    | cons other tail =>
      rw [List.cons_append, List.cons_lt_cons_iff] at hhigh
      rcases List.cons_lt_cons_iff.mp hlow with hlt | ⟨rfl, hrest⟩
      · rcases hhigh with hgt | ⟨rfl, -⟩
        · exact absurd hgt (String.lt_asymm hlt)
        · exact absurd hlt (String.lt_irrefl _)
      · rcases hhigh with hgt | ⟨-, hhigh⟩
        · exact absurd hgt (String.lt_irrefl _)
        · exact List.cons_prefix_cons.mpr ⟨rfl, ih (List.prefix_append ..) hrest hhigh⟩

def CommandVisit.isAbove (v w : CommandVisit) : Bool := v.path.isPrefixOf w.path

/-- All that is below a command stands right behind it. -/
def DescendantsFollow (visits : List CommandVisit) : Prop :=
  ∀ before v after, visits = before ++ v :: after → ∃ below later, after = below ++ later ∧
    (∀ w ∈ below, v.path <+: w.path) ∧ ∀ w ∈ before ++ later, ¬v.path <+: w.path

namespace CommandForest

theorem length_visits (forest : CommandForest) (path : List String) :
    (forest.visits path).length = forest.count := by
  induction forest generalizing path with
  | nil => rfl
  | node name declaration children siblings ihc ihs =>
    rw [visits, List.length_cons, List.length_append, ihc, ihs, count]
    omega

/-- In the order of paths, what is below a command comes before all else that follows it. -/
theorem descendantsFollow_visits (forest : CommandForest) (ho : forest.Ordered)
    (path : List String) : DescendantsFollow (forest.visits path) := by
  intro before v after hsplit
  have hsorted := forest.visits_pairwise ho path
  rw [hsplit, List.pairwise_append, List.pairwise_cons] at hsorted
  obtain ⟨-, ⟨hafter, hsorted⟩, hbefore⟩ := hsorted
  refine ⟨after.takeWhile v.isAbove, after.dropWhile v.isAbove,
    List.takeWhile_append_dropWhile.symm, fun w hw => ?_, ?_⟩
  · have habove := List.all_eq_true.mp List.all_takeWhile w hw
    exact List.isPrefixOf_iff_prefix.mp habove
  have hlater : ∀ w ∈ after.dropWhile v.isAbove, ¬v.path <+: w.path := by
    have hfirst := List.head?_dropWhile_not v.isAbove after
    have hsub : (after.dropWhile v.isAbove).Sublist after := List.dropWhile_sublist _
    cases hdrop : after.dropWhile v.isAbove with
    | nil => exact nofun
    | cons x rest =>
      rw [hdrop] at hfirst hsub
      have hx : ¬v.path <+: x.path := by
        intro habove
        rw [← List.isPrefixOf_iff_prefix] at habove
        exact Bool.noConfusion (habove.symm.trans hfirst)
      have hrest := (List.pairwise_cons.mp (hsorted.sublist hsub)).1
      -- what lies behind `x` cannot be below `v` again, for then `x` would be, too
      refine List.forall_mem_cons.mpr ⟨hx, fun w hw hprefix => hx ?_⟩
      exact prefix_of_between hprefix (hafter x (hsub.subset (List.mem_cons_self ..))) (hrest w hw)
  refine List.forall_mem_append.mpr ⟨fun w hw hprefix => ?_, hlater⟩
  exact not_lt_of_prefix hprefix (hbefore w hw v (List.mem_cons_self ..))

end CommandForest

namespace Commands

/-- **A walk is a run over all commands in the order of their paths.** Whatever state the visitor
keeps and wherever it fails, the walk does what a run over the list of all commands does that stops
at the first failure and gives it back. Paths ascend strictly in the list, compared name by name,
and all that is below a command stands right behind it; a command is in the list under its path just
if looking the path up finds it; and there are as many as the tree counts. -/
theorem walk_in_path_order (c : Commands) :
    (∀ (σ ε : Type) (visit : CommandVisit → ExceptT ε (StateM σ) PUnit) (s : σ),
      ((c.walk visit).run).run s =
        runUntilFailure (fun v s => ((visit v).run).run s) (c.forest.visits []) s) ∧
    (c.forest.visits []).Pairwise (·.path < ·.path) ∧
    DescendantsFollow (c.forest.visits []) ∧
    (∀ v, v ∈ c.forest.visits [] ↔
      ∃ path command, v = asVisit path command ∧ c.findPath? path = some command) ∧
    (c.forest.visits []).length = c.forest.count := by
  refine ⟨fun σ ε visit s => ?_, c.forest.visits_pairwise c.ordered [],
    c.forest.descendantsFollow_visits c.ordered [], c.mem_visits_iff, c.forest.length_visits []⟩
  rw [walk, CommandForest.walk_eq_forM]
  exact run_forM visit _ s

/-- A visitor that notes each path and fails at one of them. -/
private def noteUntil (stop : List String) (v : CommandVisit) :
    ExceptT String (StateM (List (List String))) PUnit := do
  modify (v.path :: ·)
  if v.path = stop then throw "stop"

example :
    ((((({} : Commands).insert "foo" {}).insert "bar"
      { commands := ({} : Commands).insert "baz" {} }).walk
        (noteUntil ["bar", "baz"])).run).run [] =
      (.error "stop", [["bar", "baz"], ["bar"]]) := by rfl

end Commands
end CommandSpec
