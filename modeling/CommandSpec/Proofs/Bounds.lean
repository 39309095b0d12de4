import CommandSpec.Proofs.Scopes
import CommandSpec.Proofs.Visits
import CommandSpec.Spec.Bounds

/-! The argument bounds of a whole tree. Checking goes through scopes that keep the path of a
message and trackers that notice it; seen from outside, the report of a document is the list of
the rules its nodes break, in walk order, and its verdict is whether that list is empty
(`Document.validate_eq`, `Document.faults_reported_in_order`). -/
namespace CommandSpec

/-! ## Reports -/

/-- Faults were added to a report, and bases that a message passes with these flags know of them. -/
structure Report.Noted (bases : List Nat) (r : Report) (faults : List FieldError)
    (r' : Report) : Prop where
  errors : r'.errors = r.errors ++ faults
  length_le : r.flags.length ≤ r'.flags.length
  isRaised : ∀ flag ∈ bases, flag < r.flags.length →
    r'.isRaised flag = (r.isRaised flag || !faults.isEmpty)

namespace Report

theorem Extends.noted {r r' : Report} (h : r.Extends r') (bases : List Nat) :
    r.Noted bases [] r' where
  errors := by rw [h.errors, List.append_nil]
  length_le := h.length_le
  isRaised := fun flag _ _ => by rw [h.isRaised]; simp

theorem Noted.append {bases : List Nat} {r r₁ r₂ : Report} {faults more : List FieldError}
    (h : r.Noted bases faults r₁) (hm : r₁.Noted bases more r₂) :
    r.Noted bases (faults ++ more) r₂ where
  errors := by rw [hm.errors, h.errors, List.append_assoc]
  length_le := Nat.le_trans h.length_le hm.length_le
  isRaised := fun flag hb hlt => by
    have hempty : (faults ++ more).isEmpty = (faults.isEmpty && more.isEmpty) := by
      cases faults <;> rfl
    rw [hm.isRaised flag hb (Nat.lt_of_lt_of_le hlt h.length_le), h.isRaised flag hb hlt, hempty,
      Bool.not_and, Bool.or_assoc]

end Report

theorem Scope.emit_noted (s : Scope) (message : String) (r : Report) :
    r.Noted s.bases [⟨s.path, message⟩] (s.emit message r) where
  errors := s.errors_emit message r
  length_le := Nat.le_of_eq (s.length_flags_emit message r).symm
  isRaised := fun flag hb hlt => by
    have hraised := (s.isRaised_emit message r flag).mpr (Or.inr ⟨hlt, Or.inl hb⟩)
    simp [hraised]

/-! ## The rules -/

/-- The rules that a node breaks: its own bounds first, then that arguments leave their place to
sub-commands. -/
def brokenRules (minArgs maxArgs : UInt32) (children : CommandForest) : List String :=
  (if minArgs > maxArgs then [minAboveMax] else []) ++
    if !children.isEmpty && maxArgs != 0 then [argsBesideCommands] else []

theorem Scope.emit_if_noted (s : Scope) (broken : Prop) [Decidable broken] (message : String)
    (r : Report) :
    r.Noted s.bases ((if broken then [message] else []).map (FieldError.mk s.path))
      (if broken then s.emit message r else r) := by
  by_cases h : broken
  · rw [if_pos h, if_pos h]
    exact s.emit_noted message r
  · rw [if_neg h, if_neg h]
    exact (Report.Extends.refl r).noted _

/-- One fault for every rule that a node at `path` breaks. -/
def faultsAt (path : List String) (minArgs maxArgs : UInt32) (children : CommandForest) :
    List FieldError :=
  (brokenRules minArgs maxArgs children).map (FieldError.mk path)

def CommandVisit.faults (v : CommandVisit) : List FieldError :=
  faultsAt v.path v.declaration.minArgs v.declaration.maxArgs v.children

/-- The faults of all nodes, the root's first and those of the commands in walk order. -/
def Document.faults (d : Document) : List FieldError :=
  faultsAt [] d.minArgs d.maxArgs d.commands.forest ++
    (d.commands.forest.visits []).flatMap CommandVisit.faults

theorem checkBounds_noted (minArgs maxArgs : UInt32) (children : CommandForest) (scope : Scope)
    (r : Report) :
    r.Noted scope.bases (faultsAt scope.path minArgs maxArgs children)
      (checkBounds minArgs maxArgs children scope r) := by
  unfold faultsAt brokenRules
  rw [List.map_append]
  exact (scope.emit_if_noted _ minAboveMax r).append (scope.emit_if_noted _ argsBesideCommands _)

theorem CommandForest.checkBounds_noted (forest : CommandForest) (scope : Scope) (r : Report) :
    r.Noted scope.bases ((forest.visits scope.path).flatMap CommandVisit.faults)
      (forest.checkBounds scope r) := by
  induction forest generalizing scope r with
  | nil => exact (Report.Extends.refl r).noted _
  | node name declaration children siblings ihc ihs =>
    -- below the command, messages have its path and pass the same bases
    have hpath := scope.path_field name r
    have hbases := scope.bases_field name r
    have hopened := (scope.extends_field name r).noted scope.bases
    have hhere := CommandSpec.checkBounds_noted declaration.minArgs declaration.maxArgs children
      (scope.field name r).1 (scope.field name r).2
    have hbelow := ihc (scope.field name r).1 (CommandSpec.checkBounds declaration.minArgs
      declaration.maxArgs children (scope.field name r).1 (scope.field name r).2)
    rw [hpath, hbases] at hhere hbelow
    simp only [visits, List.flatMap_cons, List.flatMap_append]
    exact hopened.append (hhere.append (hbelow.append (ihs scope _)))

namespace Document

theorem checkBounds_noted (d : Document) (scope : Scope) (hscope : scope.path = []) (r : Report) :
    r.Noted scope.bases d.faults (d.checkBounds scope r) := by
  have hroot := CommandSpec.checkBounds_noted d.minArgs d.maxArgs d.commands.forest scope r
  have hbelow := d.commands.forest.checkBounds_noted scope
    (CommandSpec.checkBounds d.minArgs d.maxArgs d.commands.forest scope r)
  rw [hscope] at hroot hbelow
  exact hroot.append hbelow

/-- **Validation reports every broken rule,** or succeeds when there is none. -/
theorem validate_eq (d : Document) :
    d.validate = if d.faults.isEmpty then .ok () else .error d.faults := by
  have h := d.checkBounds_noted (Scope.root.track {}).1 rfl (Scope.root.track {}).2
  have hverdict := h.isRaised 0 (List.mem_singleton_self 0) Nat.zero_lt_one
  have herrors : (d.checkBounds (Scope.root.track {}).1 (Scope.root.track {}).2).errors =
      d.faults := h.errors
  have hinvalid : (Scope.root.track {}).1.isInvalid
      (d.checkBounds (Scope.root.track {}).1 (Scope.root.track {}).2) = !d.faults.isEmpty :=
    hverdict
  unfold validate
  simp only [hinvalid, herrors]
  cases d.faults.isEmpty <;> rfl

end Document

/-! ## Nodes within their bounds -/

/-- The bounds are in order, and a command with sub-commands takes no arguments. -/
def Command.WithinBounds (c : Command) : Prop :=
  c.minArgs ≤ c.maxArgs ∧ (c.isBranch = true → c.minArgs = 0 ∧ c.maxArgs = 0)

theorem brokenRules_eq_nil_iff (minArgs maxArgs : UInt32) (children : CommandForest) :
    brokenRules minArgs maxArgs children = [] ↔
      minArgs ≤ maxArgs ∧ (children.isEmpty = false → minArgs = 0 ∧ maxArgs = 0) := by
  unfold brokenRules
  have hzero (h : minArgs ≤ maxArgs) (hm : maxArgs = 0) : minArgs = 0 := by
    subst hm
    exact UInt32.le_antisymm h (UInt32.zero_le)
  cases hc : children.isEmpty with
  | true => simp
  | false =>
    by_cases hm : maxArgs = 0
    · subst hm
      simp
    · simp [hm]

theorem Command.faultsAt_eq_nil_iff (path : List String) (c : Command) :
    faultsAt path c.minArgs c.maxArgs c.commands.forest = [] ↔ c.WithinBounds := by
  unfold faultsAt WithinBounds Command.isBranch
  rw [List.map_eq_nil_iff, brokenRules_eq_nil_iff, Bool.not_eq_true']

theorem Document.faults_eq_nil_iff (d : Document) :
    d.faults = [] ↔ ∀ path command, d.nodeAt? path = some command → command.WithinBounds := by
  unfold faults
  rw [List.append_eq_nil_iff, List.flatMap_eq_nil_iff]
  constructor
  · rintro ⟨hroot, hvisits⟩ path command hn
    rcases (d.nodeAt?_eq_some_iff path command).mp hn with ⟨-, rfl⟩ | hv
    · exact (d.root.faultsAt_eq_nil_iff []).mp hroot
    · exact (command.faultsAt_eq_nil_iff path).mp (hvisits _ hv)
  · intro h
    refine ⟨(d.root.faultsAt_eq_nil_iff []).mpr (h [] d.root rfl), fun v hv => ?_⟩
    obtain ⟨command, hc, hn⟩ := d.nodeAt?_of_mem_visits v hv
    rw [hc]
    exact (command.faultsAt_eq_nil_iff v.path).mpr (h v.path command hn)

/-! ## Order -/

/-- The order of reporting: by path, and at one node the bounds before the sub-commands. -/
def FieldError.Precedes (e e' : FieldError) : Prop :=
  e.path < e'.path ∨ e.path = e'.path ∧ e.message = minAboveMax ∧ e'.message = argsBesideCommands

theorem mem_brokenRules_iff (minArgs maxArgs : UInt32) (children : CommandForest)
    (message : String) :
    message ∈ brokenRules minArgs maxArgs children ↔
      message = minAboveMax ∧ maxArgs < minArgs ∨
        message = argsBesideCommands ∧ children.isEmpty = false ∧ maxArgs ≠ 0 := by
  unfold brokenRules
  rw [List.mem_append]
  refine or_congr ?_ ?_
  · by_cases h : minArgs > maxArgs <;> simp [h]
  · rw [← Bool.not_eq_true', ← bne_iff_ne, ← Bool.and_eq_true]
    by_cases h : (!children.isEmpty && maxArgs != 0) = true <;> simp [h]

theorem faultsAt_pairwise (path : List String) (minArgs maxArgs : UInt32)
    (children : CommandForest) :
    (faultsAt path minArgs maxArgs children).Pairwise FieldError.Precedes := by
  unfold faultsAt brokenRules
  rw [List.map_append, List.pairwise_append]
  refine ⟨?_, ?_, fun e he e' he' => ?_⟩
  · split <;> simp
  · split <;> simp
  · split at he <;> split at he' <;> simp at he he'
    subst he he'
    exact Or.inr ⟨rfl, rfl, rfl⟩

theorem path_of_mem_faultsAt (path : List String) (minArgs maxArgs : UInt32)
    (children : CommandForest) (e : FieldError) (h : e ∈ faultsAt path minArgs maxArgs children) :
    e.path = path := by
  obtain ⟨message, -, rfl⟩ := List.mem_map.mp h
  rfl

namespace Document

theorem faults_pairwise (d : Document) : d.faults.Pairwise FieldError.Precedes := by
  have hvisits := d.commands.forest.visits_pairwise d.commands.ordered []
  have hpath (v : CommandVisit) (e : FieldError) (he : e ∈ v.faults) : e.path = v.path :=
    path_of_mem_faultsAt _ _ _ _ e he
  unfold faults
  rw [List.pairwise_append, List.pairwise_flatMap]
  refine ⟨faultsAt_pairwise _ _ _ _, ⟨fun v _ => faultsAt_pairwise _ _ _ _, ?_⟩, ?_⟩
  · refine hvisits.imp fun {v w} hlt e he e' he' => Or.inl ?_
    rwa [hpath v e he, hpath w e' he']
  · intro e he e' he'
    obtain ⟨v, hv, he'⟩ := List.mem_flatMap.mp he'
    refine Or.inl ?_
    rw [path_of_mem_faultsAt _ _ _ _ e he, hpath v e' he']
    exact d.commands.forest.lt_of_mem_visits [] v hv

/-- A fault says of the node at its path which rule it breaks. -/
theorem mem_faults_iff (d : Document) (path : List String) (message : String) :
    ⟨path, message⟩ ∈ d.faults ↔ ∃ command, d.nodeAt? path = some command ∧
      message ∈ brokenRules command.minArgs command.maxArgs command.commands.forest := by
  have hat (v : List String) (minArgs maxArgs : UInt32) (children : CommandForest) :
      ⟨path, message⟩ ∈ faultsAt v minArgs maxArgs children ↔
        path = v ∧ message ∈ brokenRules minArgs maxArgs children := by
    simp [faultsAt, eq_comm, and_comm]
  unfold faults
  rw [List.mem_append, hat, List.mem_flatMap]
  constructor
  · rintro (⟨rfl, hm⟩ | ⟨v, hv, hm⟩)
    · exact ⟨d.root, rfl, hm⟩
    · obtain ⟨command, hc, hn⟩ := d.nodeAt?_of_mem_visits v hv
      obtain ⟨hpath, hm⟩ := (hat v.path _ _ _).mp hm
      rw [hc] at hm
      exact ⟨command, hpath ▸ hn, hm⟩
  · rintro ⟨command, hn, hm⟩
    rcases (d.nodeAt?_eq_some_iff path command).mp hn with ⟨rfl, rfl⟩ | hv
    · exact Or.inl ⟨rfl, hm⟩
    · exact Or.inr ⟨_, hv, (hat _ _ _ _).mpr ⟨rfl, hm⟩⟩

/-- **Validation reports each broken rule once, in walk order.** The messages that checking adds
to a report are those of the root and then of all commands as they are visited. They stand in
strict order, and each is about the node at its path: that its minimum is above its maximum, or
that it takes arguments beside its sub-commands. Validation as a whole, which asks a tracker
instead of the report, fails with the same messages if there are any. -/
theorem faults_reported_in_order (d : Document) :
    (∀ r, (d.checkBounds .root r).errors = r.errors ++ d.faults) ∧
    d.faults.Pairwise FieldError.Precedes ∧
    (∀ path message, ⟨path, message⟩ ∈ d.faults ↔ ∃ command, d.nodeAt? path = some command ∧
      (message = minAboveMax ∧ command.maxArgs < command.minArgs ∨
        message = argsBesideCommands ∧ command.isBranch = true ∧ command.maxArgs ≠ 0)) ∧
    (d.validate = .ok () ↔ d.faults = []) ∧
    (∀ errors, d.validate = .error errors ↔ d.faults = errors ∧ errors ≠ []) := by
  refine ⟨fun r => (d.checkBounds_noted .root rfl r).errors, d.faults_pairwise,
    fun path message => ?_, ?_, fun errors => ?_⟩
  · rw [mem_faults_iff]
    refine exists_congr fun command => and_congr_right fun _ => ?_
    rw [mem_brokenRules_iff, Command.isBranch, Bool.not_eq_true']
  · rw [validate_eq]
    cases d.faults <;> simp
  · rw [validate_eq]
    cases d.faults with
    | nil => simp [eq_comm]
    | cons e rest => simp +contextual [eq_comm]

end Document
end CommandSpec
