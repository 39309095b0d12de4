import CommandSpec.Proofs.Scopes

/-! Sessions of scopes. What a sequence of steps opens and emits is its history, which knows
nothing of flags. After any steps the report holds the messages of the history under the names on
the way to their scopes, and a tracker is invalid exactly when a message was emitted at it or at a
scope derived from it (`ScopeSession.run_told_by_history`). Flags show this because a base tracker
shares its flag with no other, and because the bases around a scope are those around the scopes it
was derived from. -/
namespace CommandSpec

/-! ## Histories -/

/-- How a scope came to be. -/
inductive Opening where
  | report
  | field (outer : Nat) (name : String)
  | tracker (outer : Nat)

/-- The scope that another was opened from. -/
def Opening.outer? : Opening → Option Nat
  | report => none
  | field outer _ | tracker outer => some outer

/-- The name by which a scope was entered. -/
def Opening.names : Opening → List String
  | field _ name => [name]
  | report | tracker _ => []

/-- Openings with the last one first. A scope has the number of those before it. -/
abbrev Openings := List Opening

namespace Openings

/-- How a scope came to be, by its number. -/
def opening? : Openings → Nat → Option Opening
  | [], _ => none
  | opening :: older, scope =>
    if scope = older.length then some opening else opening? older scope

/-- The names on the way from the report to a scope. -/
def path : Openings → Nat → List String
  | [], _ => []
  | opening :: older, scope =>
    if scope = older.length then
      (match opening.outer? with
        | some outer => path older outer
        | none => []) ++ opening.names
    else path older scope

/-- The scope is the ancestor itself, or it was opened from a scope that is derived from it. -/
def Derived : Openings → (ancestor scope : Nat) → Prop
  | [], _, _ => False
  | opening :: older, ancestor, scope =>
    if scope = older.length then
      scope = ancestor ∨ ∃ outer, opening.outer? = some outer ∧ Derived older ancestor outer
    else Derived older ancestor scope

theorem path_older (opening : Opening) (older : Openings) {scope : Nat}
    (h : scope < older.length) : path (opening :: older) scope = path older scope :=
  if_neg (Nat.ne_of_lt h)

theorem derived_older (opening : Opening) (older : Openings) (ancestor : Nat) {scope : Nat}
    (h : scope < older.length) :
    Derived (opening :: older) ancestor scope ↔ Derived older ancestor scope := by
  rw [Derived, if_neg (Nat.ne_of_lt h)]

/-- A new scope is derived from those that its outer scope is derived from. -/
theorem derived_last (opening : Opening) (older : Openings) {ancestor outer : Nat}
    (ho : opening.outer? = some outer) (ha : ancestor < older.length) :
    Derived (opening :: older) ancestor older.length ↔ Derived older ancestor outer := by
  rw [Derived, if_pos rfl, ho]
  constructor
  · rintro (h | ⟨_, h, hd⟩)
    · omega
    · cases h
      exact hd
  · intro hd
    exact Or.inr ⟨outer, rfl, hd⟩

/-- Nothing is derived from a scope that is opened later. -/
theorem ancestor_lt_of_derived (openings : Openings) (ancestor scope : Nat)
    (h : Derived openings ancestor scope) : ancestor < openings.length := by
  induction openings generalizing scope with
  | nil => cases h
  | cons opening older ih =>
    rw [Derived] at h
    split at h
    · rcases h with rfl | ⟨outer, -, h⟩
      · simp_all
      · exact Nat.lt_succ_of_lt (ih outer h)
    · exact Nat.lt_succ_of_lt (ih scope h)

end Openings

/-- The openings of a sequence of steps and the messages it emits, each with its scope. -/
structure History where
  openings : Openings := [.report]
  messages : List (Nat × String) := []

namespace History

/-- Takes in one step, unless it is on a scope that was never opened. -/
def step (h : History) : ScopeStep → History
  | .emit scope message =>
    if scope < h.openings.length then { h with messages := h.messages ++ [(scope, message)] }
    else h
  | .enter scope name =>
    if scope < h.openings.length then { h with openings := .field scope name :: h.openings }
    else h
  | .track scope =>
    if scope < h.openings.length then { h with openings := .tracker scope :: h.openings }
    else h

def ofSteps (steps : List ScopeStep) : History := steps.foldl step {}

/-- A message was emitted at the scope or at one derived from it. -/
def Concerns (h : History) (scope : Nat) : Prop :=
  ∃ message ∈ h.messages, h.openings.Derived scope message.1

end History

/-! ## What a session has to do with its history -/

namespace ScopeSession

def run (steps : List ScopeStep) : ScopeSession := steps.foldl step {}

/-- Scope number `k` is a tracker made by tracking, with this flag. -/
def IsBase (s : ScopeSession) (k flag : Nat) : Prop :=
  ∃ inner, s.scopes[k]? = some (.tracker flag none inner)

/-- The session is one that this history leads to. -/
structure Follows (s : ScopeSession) (h : History) : Prop where
  length : s.scopes.length = h.openings.length
  /-- Messages were emitted at scopes that are there. -/
  opened : ∀ message ∈ h.messages, message.1 < h.openings.length
  errors : s.report.errors = h.messages.map fun m => ⟨h.openings.path m.1, m.2⟩
  path : ∀ (k : Nat) (scope : Scope), s.scopes[k]? = some scope → scope.path = h.openings.path k
  /-- No flag is used before it was added. -/
  flag_lt : ∀ (k : Nat) (scope : Scope), s.scopes[k]? = some scope →
    ∀ f, f ∈ scope.bases ∨ f ∈ scope.ownFlags → f < s.report.flags.length
  isBase : ∀ k, (∃ flag, s.IsBase k flag) ↔ ∃ outer, h.openings.opening? k = some (.tracker outer)
  /-- Trackers that are no bases have other flags than the bases. -/
  apart : ∀ t flag, s.IsBase t flag → ∀ (k : Nat) (scope : Scope), s.scopes[k]? = some scope →
    flag ∉ scope.ownFlags
  bases : ∀ t flag, s.IsBase t flag → ∀ (k : Nat) (scope : Scope), s.scopes[k]? = some scope →
    (flag ∈ scope.bases ↔ h.openings.Derived t k)
  isRaised : ∀ t flag, s.IsBase t flag → (s.report.isRaised flag = true ↔ h.Concerns t)

theorem follows_start : Follows {} {} where
  length := rfl
  opened := by simp
  errors := rfl
  path := by
    intro k scope h
    cases k with
    | zero => cases h; rfl
    | succ k => simp at h
  flag_lt := by
    intro k scope h f hf
    cases k with
    | zero => cases h; simp [Scope.root, Scope.bases, Scope.ownFlags] at hf
    | succ k => simp at h
  isBase := by
    intro k
    cases k <;> simp [IsBase, Scope.root, Openings.opening?]
  apart := by
    rintro t flag ⟨inner, h⟩
    cases t <;> simp [Scope.root] at h
  bases := by
    rintro t flag ⟨inner, h⟩
    cases t <;> simp [Scope.root] at h
  isRaised := by
    rintro t flag ⟨inner, h⟩
    cases t <;> simp [Scope.root] at h

variable {s : ScopeSession} {h : History}

/-- Emitting raises the flags of just those trackers that the scope is derived from. -/
theorem Follows.emit (hf : Follows s h) {k : Nat} {scope : Scope}
    (hk : s.scopes[k]? = some scope) (message : String) :
    Follows { s with report := scope.emit message s.report }
      { h with messages := h.messages ++ [(k, message)] } where
  length := hf.length
  opened := by
    have hlt : k < h.openings.length := hf.length ▸ (List.getElem?_eq_some_iff.mp hk).1
    intro m hm
    rcases List.mem_append.mp hm with hm | hm
    · exact hf.opened m hm
    · cases List.mem_singleton.mp hm
      exact hlt
  errors := by
    rw [scope.errors_emit, hf.errors, hf.path k scope hk, List.map_append]
    rfl
  path := hf.path
  flag_lt := by
    intro j other hj f hmem
    rw [scope.length_flags_emit]
    exact hf.flag_lt j other hj f hmem
  isBase := hf.isBase
  apart := hf.apart
  bases := hf.bases
  isRaised := by
    intro t flag ht
    have hbases := hf.bases t flag ht k scope hk
    have hraised : (scope.emit message s.report).isRaised flag = true ↔
        s.report.isRaised flag = true ∨ flag ∈ scope.bases := by
      rw [scope.isRaised_emit]
      refine or_congr_right ⟨?_, fun hb => ⟨hf.flag_lt k scope hk flag (Or.inl hb), Or.inl hb⟩⟩
      rintro ⟨-, hb | hown⟩
      · exact hb
      · exact absurd hown (hf.apart t flag ht k scope hk)
    rw [hraised, hbases, hf.isRaised t flag ht]
    simp only [History.Concerns, List.mem_append, List.mem_singleton, or_and_right, exists_or,
      exists_eq_left]

/-- What opening a scope does. Of the flags that a message at the new scope raises, those of bases
are the ones of the outer scope and the `added` ones, which no scope had before; the new scope is
a base if there are such. Flags of other trackers are new or were those of the outer scope. -/
structure Opens (opening : Opening) (outer : Scope) (r : Report) (added : List Nat) (new : Scope)
    (r' : Report) : Prop where
  grown : r.Extends r'
  path : new.path = outer.path ++ opening.names
  bases : new.bases = added ++ outer.bases
  ownFlags : ∀ f ∈ new.ownFlags,
    f ∈ outer.ownFlags ∨ r.flags.length ≤ f ∧ f < r'.flags.length ∧ f ∉ added
  unused : ∀ f ∈ added, r.flags.length ≤ f ∧ f < r'.flags.length
  isBase : ∀ flag, (∃ inner, new = .tracker flag none inner) ↔ flag ∈ added
  isTracker : (∃ outer, opening = .tracker outer) ↔ ∃ flag, flag ∈ added

theorem opens_field (number : Nat) (outer : Scope) (name : String) (r : Report) :
    Opens (.field number name) outer r [] (outer.field name r).1 (outer.field name r).2 where
  grown := outer.extends_field name r
  path := outer.path_field name r
  bases := outer.bases_field name r
  ownFlags := fun f hf => by
    obtain ⟨hle, hlt⟩ := outer.ownFlags_field name r f hf
    exact Or.inr ⟨hle, hlt, List.not_mem_nil⟩
  unused := by simp
  isBase := fun flag => iff_of_false
    (fun ⟨inner, hinner⟩ => outer.field_ne_base name r flag inner hinner) List.not_mem_nil
  isTracker := by simp

theorem opens_track (number : Nat) (outer : Scope) (r : Report) :
    Opens (.tracker number) outer r [r.flags.length] (outer.track r).1 (outer.track r).2 where
  grown := (Report.Extends.refl r).addFlag
  path := (List.append_nil _).symm
  bases := rfl
  ownFlags := fun f hf => Or.inl hf
  unused := by simp [Scope.track, Report.addFlag]
  isBase := by simp [Scope.track, eq_comm]
  isTracker := by simp

theorem Follows.flag_lt_of_isBase (hf : Follows s h) {t flag : Nat} (ht : s.IsBase t flag) :
    flag < s.report.flags.length := by
  obtain ⟨inner, ht⟩ := ht
  exact hf.flag_lt t _ ht flag (Or.inl (List.mem_cons_self ..))

section opening

variable {opening : Opening} {number : Nat} {outer new : Scope} {r' : Report} {added : List Nat}

/-- A scope is an old one, or the new one with the number of those before it. -/
theorem Follows.scope_cases (hf : Follows s h) {k : Nat} {scope : Scope}
    (hs : (s.scopes ++ [new])[k]? = some scope) :
    (k < h.openings.length ∧ s.scopes[k]? = some scope) ∨
      (k = h.openings.length ∧ scope = new) := by
  rw [← hf.length]
  rcases Nat.lt_or_ge k s.scopes.length with hlt | hge
  · rw [List.getElem?_append_left hlt] at hs
    exact Or.inl ⟨hlt, hs⟩
  · rw [List.getElem?_append_right hge, List.getElem?_singleton] at hs
    split at hs
    · cases hs
      exact Or.inr ⟨by omega, rfl⟩
    · cases hs

theorem Follows.isBase_open_iff (hf : Follows s h)
    (hnew : Opens opening outer s.report added new r') (t flag : Nat) :
    IsBase ⟨r', s.scopes ++ [new]⟩ t flag ↔
      s.IsBase t flag ∨ (t = h.openings.length ∧ flag ∈ added) := by
  constructor
  · rintro ⟨inner, ht⟩
    rcases hf.scope_cases ht with ⟨-, hold⟩ | ⟨rfl, hinner⟩
    · exact Or.inl ⟨inner, hold⟩
    · exact Or.inr ⟨rfl, (hnew.isBase flag).mp ⟨inner, hinner.symm⟩⟩
  · rintro (⟨inner, ht⟩ | ⟨rfl, ht⟩)
    · exact ⟨inner, (List.getElem?_append_left (List.getElem?_eq_some_iff.mp ht).1).trans ht⟩
    · obtain ⟨inner, rfl⟩ := (hnew.isBase flag).mpr ht
      exact ⟨inner, by simp [← hf.length]⟩

theorem Follows.lt_of_isBase (hf : Follows s h) {t flag : Nat} (ht : s.IsBase t flag) :
    t < h.openings.length := by
  obtain ⟨inner, ht⟩ := ht
  exact hf.length ▸ (List.getElem?_eq_some_iff.mp ht).1

/-- The flags of an opened scope are not those of older bases unless its outer scope has them. -/
theorem Follows.apart_open (hf : Follows s h) (hk : s.scopes[number]? = some outer)
    (hnew : Opens opening outer s.report added new r') (t flag : Nat)
    (ht : IsBase ⟨r', s.scopes ++ [new]⟩ t flag) (k : Nat) (scope : Scope)
    (hs : (s.scopes ++ [new])[k]? = some scope) : flag ∉ scope.ownFlags := by
  intro hown
  rcases (hf.isBase_open_iff hnew t flag).mp ht with hold | ⟨-, hadded⟩ <;>
    rcases hf.scope_cases hs with ⟨-, hs⟩ | ⟨-, rfl⟩
  · exact hf.apart t flag hold k scope hs hown
  · have hlt := hf.flag_lt_of_isBase hold
    rcases hnew.ownFlags flag hown with hown | ⟨hle, -, -⟩
    · exact hf.apart t flag hold number outer hk hown
    · omega
  · have hlt := hf.flag_lt k scope hs flag (Or.inr hown)
    have hle := (hnew.unused flag hadded).1
    omega
  · rcases hnew.ownFlags flag hown with hown | ⟨-, -, hnot⟩
    · have hlt := hf.flag_lt number outer hk flag (Or.inr hown)
      have hle := (hnew.unused flag hadded).1
      omega
    · exact hnot hadded

/-- An opened scope has the bases that it is derived from. -/
theorem Follows.bases_open (hf : Follows s h) (hk : s.scopes[number]? = some outer)
    (ho : opening.outer? = some number) (hnew : Opens opening outer s.report added new r')
    (t flag : Nat) (ht : IsBase ⟨r', s.scopes ++ [new]⟩ t flag) (k : Nat) (scope : Scope)
    (hs : (s.scopes ++ [new])[k]? = some scope) :
    flag ∈ scope.bases ↔ Openings.Derived (opening :: h.openings) t k := by
  rcases (hf.isBase_open_iff hnew t flag).mp ht with hold | ⟨rfl, hadded⟩ <;>
    rcases hf.scope_cases hs with ⟨hlt, hs⟩ | ⟨rfl, rfl⟩
  · rw [hf.bases t flag hold k scope hs]
    exact (Openings.derived_older opening h.openings t hlt).symm
  · have hlt := hf.flag_lt_of_isBase hold
    have hnot : flag ∉ added := fun hadded => by
      have hle := (hnew.unused flag hadded).1
      omega
    rw [hnew.bases, List.mem_append, or_iff_right hnot, hf.bases t flag hold number outer hk]
    exact (Openings.derived_last opening h.openings ho (hf.lt_of_isBase hold)).symm
  · refine iff_of_false (fun hb => ?_) (fun hd => ?_)
    · have hlt := hf.flag_lt k scope hs flag (Or.inl hb)
      have hle := (hnew.unused flag hadded).1
      omega
    · rw [Openings.derived_older opening h.openings _ hlt] at hd
      exact Nat.lt_irrefl _ (Openings.ancestor_lt_of_derived _ _ _ hd)
  · refine iff_of_true (hnew.bases ▸ List.mem_append_left _ hadded) ?_
    rw [Openings.Derived, if_pos rfl]
    exact Or.inl rfl

/-- Opening a scope concerns no tracker, and a new one has not been concerned yet. -/
theorem Follows.isRaised_open (hf : Follows s h)
    (hnew : Opens opening outer s.report added new r') (t flag : Nat)
    (ht : IsBase ⟨r', s.scopes ++ [new]⟩ t flag) :
    r'.isRaised flag = true ↔ History.Concerns { h with openings := opening :: h.openings } t := by
  have hconcerns : History.Concerns { h with openings := opening :: h.openings } t ↔
      h.Concerns t := by
    refine exists_congr fun m => and_congr_right fun hm => ?_
    exact Openings.derived_older opening h.openings t (hf.opened m hm)
  rw [hconcerns, hnew.grown.isRaised]
  rcases (hf.isBase_open_iff hnew t flag).mp ht with hold | ⟨rfl, hadded⟩
  · exact hf.isRaised t flag hold
  · refine iff_of_false ?_ ?_
    · have hle := (hnew.unused flag hadded).1
      simp [Report.isRaised, List.getElem?_eq_none hle]
    · rintro ⟨m, -, hd⟩
      exact Nat.lt_irrefl _ (Openings.ancestor_lt_of_derived _ _ _ hd)

theorem Follows.open_ (hf : Follows s h) (hk : s.scopes[number]? = some outer)
    (ho : opening.outer? = some number) (hnew : Opens opening outer s.report added new r') :
    Follows ⟨r', s.scopes ++ [new]⟩ { h with openings := opening :: h.openings } where
  length := by simp [hf.length]
  opened := fun m hm => Nat.lt_succ_of_lt (hf.opened m hm)
  errors := by
    rw [hnew.grown.errors, hf.errors]
    refine List.map_congr_left fun m hm => ?_
    rw [Openings.path_older opening h.openings (hf.opened m hm)]
  path := by
    intro k scope hs
    rcases hf.scope_cases hs with ⟨hlt, hs⟩ | ⟨rfl, rfl⟩
    · rw [hf.path k scope hs]
      exact (Openings.path_older opening h.openings hlt).symm
    · rw [hnew.path, hf.path number outer hk]
      simp [Openings.path, ho]
  flag_lt := by
    intro k scope hs f hmem
    have hle := hnew.grown.length_le
    rcases hf.scope_cases hs with ⟨-, hs⟩ | ⟨rfl, rfl⟩
    · exact Nat.lt_of_lt_of_le (hf.flag_lt k scope hs f hmem) hle
    · rw [hnew.bases, List.mem_append] at hmem
      rcases hmem with (hadded | hb) | hown
      · exact (hnew.unused f hadded).2
      · exact Nat.lt_of_lt_of_le (hf.flag_lt number outer hk f (Or.inl hb)) hle
      · rcases hnew.ownFlags f hown with hown | ⟨-, hlt, -⟩
        · exact Nat.lt_of_lt_of_le (hf.flag_lt number outer hk f (Or.inr hown)) hle
        · exact hlt
  isBase := by
    intro k
    simp only [hf.isBase_open_iff hnew, exists_or, exists_and_left, ← hnew.isTracker]
    rw [Openings.opening?]
    by_cases hlast : k = h.openings.length
    · have hnone : ¬∃ flag, s.IsBase k flag := fun ⟨flag, ht⟩ =>
        Nat.ne_of_lt (hf.lt_of_isBase ht) hlast
      rw [if_pos hlast, or_iff_right hnone]
      simp [hlast]
    · rw [if_neg hlast, ← hf.isBase]
      simp [hlast]
  apart := hf.apart_open hk hnew
  bases := hf.bases_open hk ho hnew
  isRaised := hf.isRaised_open hnew

end opening

/-! ## Runs -/

theorem Follows.step (hf : Follows s h) (step : ScopeStep) :
    Follows (s.step step) (h.step step) := by
  -- the session has the scope of a step exactly when the history has its opening
  have hscope (k : Nat) : (∃ scope, s.scopes[k]? = some scope ∧ k < h.openings.length) ∨
      s.scopes[k]? = none ∧ ¬k < h.openings.length := by
    rw [← hf.length]
    rcases Nat.lt_or_ge k s.scopes.length with hlt | hge
    · exact Or.inl ⟨_, List.getElem?_eq_getElem hlt, hlt⟩
    · exact Or.inr ⟨List.getElem?_eq_none hge, Nat.not_lt.mpr hge⟩
  cases step with
  | emit k message =>
    rcases hscope k with ⟨scope, hk, hlt⟩ | ⟨hk, hlt⟩ <;>
      simp only [ScopeSession.step, History.step, hk, hlt, if_true, if_false]
    · exact hf.emit hk message
    · exact hf
  | enter k name =>
    rcases hscope k with ⟨outer, hk, hlt⟩ | ⟨hk, hlt⟩ <;>
      simp only [ScopeSession.step, History.step, hk, hlt, if_true, if_false]
    · exact hf.open_ hk rfl (opens_field k outer name s.report)
    · exact hf
  | track k =>
    rcases hscope k with ⟨outer, hk, hlt⟩ | ⟨hk, hlt⟩ <;>
      simp only [ScopeSession.step, History.step, hk, hlt, if_true, if_false]
    · exact hf.open_ hk rfl (opens_track k outer s.report)
    · exact hf

theorem run_follows (steps : List ScopeStep) : Follows (run steps) (.ofSteps steps) := by
  have hfold (s : ScopeSession) (h : History) (hf : Follows s h) :
      Follows (steps.foldl ScopeSession.step s) (steps.foldl History.step h) := by
    induction steps generalizing s h with
    | nil => exact hf
    | cons step rest ih => exact ih _ _ (hf.step step)
  exact hfold _ _ follows_start

theorem mem_trackedFlags_iff (s : ScopeSession) (k : Nat) (invalid : Bool) :
    (k, invalid) ∈ s.trackedFlags ↔ ∃ flag, s.IsBase k flag ∧ s.report.isRaised flag = invalid := by
  unfold trackedFlags IsBase
  rw [List.mem_filterMap]
  constructor
  · rintro ⟨⟨scope, number⟩, hmem, hflag⟩
    rw [List.mem_zipIdx_iff_getElem?] at hmem
    split at hflag
    · rename_i flag inner number' heq
      cases heq
      cases hflag
      exact ⟨flag, ⟨inner, hmem⟩, rfl⟩
    · cases hflag
  · rintro ⟨flag, ⟨inner, hk⟩, rfl⟩
    exact ⟨(.tracker flag none inner, k), List.mem_zipIdx_iff_getElem?.mpr hk, rfl⟩

/-- **Reports and trackers tell what happened.** After any steps the report holds the emitted
messages in their order, each under the names by which its scope was entered. The trackers are the
scopes that were made by tracking, and such a one is invalid exactly when a message was emitted at
it or at a scope that is derived from it. -/
theorem run_told_by_history (steps : List ScopeStep) :
    (run steps).report.errors =
      (History.ofSteps steps).messages.map
        (fun (scope, message) => ⟨(History.ofSteps steps).openings.path scope, message⟩) ∧
    ∀ scope invalid, (scope, invalid) ∈ (run steps).trackedFlags ↔
      (∃ outer, (History.ofSteps steps).openings.opening? scope = some (.tracker outer)) ∧
        (invalid = true ↔ (History.ofSteps steps).Concerns scope) := by
  have hf := run_follows steps
  refine ⟨hf.errors, fun scope invalid => ?_⟩
  rw [mem_trackedFlags_iff, ← hf.isBase]
  constructor
  · rintro ⟨flag, hbase, rfl⟩
    exact ⟨⟨flag, hbase⟩, hf.isRaised scope flag hbase⟩
  · rintro ⟨⟨flag, hbase⟩, hinvalid⟩
    refine ⟨flag, hbase, Bool.eq_iff_iff.mpr ?_⟩
    rw [hf.isRaised scope flag hbase, hinvalid]

/-- Trackers around two fields of a tracker: a message in the first leaves the second valid. -/
example : (run [.track 0, .enter 1 "left", .enter 1 "right", .track 2, .track 3,
    .emit 4 "broken"]).trackedFlags = [(1, true), (4, true), (5, false)] := by decide

end ScopeSession
end CommandSpec
