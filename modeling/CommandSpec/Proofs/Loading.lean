import CommandSpec.Load
import CommandSpec.Proofs.Bounds
import CommandSpec.Proofs.References
import CommandSpec.Text.Utf8

/-! Loading in stages. Each stage decides the outcome only when those before it succeed: what a
reader gives is decoded, then the bounds of the whole tree are checked, then references are
resolved.
Resolving changes no bounds, so a document that was loaded is within them and holds no
reference. -/
namespace CommandSpec

theorem mapError_eq_ok_iff (x : Except ε α) (f : ε → δ) (a : α) :
    x.mapError f = .ok a ↔ x = .ok a := by
  cases x with
  | error e' => exact ⟨nofun, nofun⟩
  | ok b =>
    have hmapped : (Except.ok b : Except ε α).mapError f = .ok b := rfl
    simp [hmapped]

theorem mapError_eq_error_iff (x : Except ε α) (f : ε → δ) (e : δ) :
    x.mapError f = .error e ↔ ∃ e', x = .error e' ∧ f e' = e := by
  cases x with
  | error e' =>
    have hmapped : (Except.error e' : Except ε α).mapError f = .error (f e') := rfl
    simp [hmapped]
  | ok b => exact ⟨nofun, nofun⟩

namespace Document

theorem faults_mapEntries (f : OptionEntry → OptionEntry) (d : Document) :
    (d.mapEntries f).faults = d.faults := by
  simp only [faults, mapEntries, Commands.mapEntries, CommandForest.visits_mapEntries,
    List.flatMap_map, CommandVisit.faults, Declaration.mapEntries, faultsAt, brokenRules,
    CommandForest.isEmpty_mapEntries]
  rfl

theorem faults_of_resolve (d d' : Document) (h : d.resolve = .ok d') : d'.faults = d.faults := by
  obtain ⟨-, rfl⟩ := (d.resolve_eq_ok_iff d').mp h
  exact d.faults_mapEntries _

/-! ## Checking and resolving -/

theorem complete_of_faults (d : Document) (h : d.faults ≠ []) :
    d.complete = .error (.validation d.faults) := by
  unfold complete
  rw [d.validate_eq, if_neg (by simpa using h)]
  rfl

theorem complete_of_no_faults (d : Document) (h : d.faults = []) :
    d.complete = d.resolve.mapError .undefinedReference := by
  unfold complete
  rw [d.validate_eq, if_pos (by simp [h])]
  rfl

theorem complete_eq_ok_iff (d d' : Document) :
    d.complete = .ok d' ↔ d.faults = [] ∧ d.resolve = .ok d' := by
  by_cases h : d.faults = []
  · simp [d.complete_of_no_faults h, h, mapError_eq_ok_iff]
  · simp [d.complete_of_faults h, h]

/-- What completing a document gives is complete. -/
theorem complete_of_complete (d d' : Document) (h : d.complete = .ok d') :
    d'.complete = .ok d' := by
  obtain ⟨hf, hr⟩ := (d.complete_eq_ok_iff d').mp h
  refine (d'.complete_eq_ok_iff d').mpr ⟨(d.faults_of_resolve d' hr).trans hf, ?_⟩
  exact d'.resolve_of_references_nil (d.references_of_resolve d' hr)

theorem complete_validation_iff (d : Document) :
    (∃ errors, d.complete = .error (.validation errors)) ↔ d.faults ≠ [] := by
  by_cases h : d.faults = []
  · simp [d.complete_of_no_faults h, h, mapError_eq_error_iff]
  · simp [d.complete_of_faults h, h]

theorem complete_undefinedReference_iff (d : Document) :
    (∃ key, d.complete = .error (.undefinedReference key)) ↔
      d.faults = [] ∧ ∃ key ∈ d.references, ∀ o, ¬d.Names key o := by
  by_cases h : d.faults = []
  · simp only [d.complete_of_no_faults h, h, true_and, mapError_eq_error_iff]
    constructor
    · rintro ⟨key, key', hr, -⟩
      obtain ⟨before, after, hsplit, -, hkey⟩ := d.resolve_error key' hr
      exact ⟨key', by simp [hsplit], hkey⟩
    · rintro ⟨key, hk, hnone⟩
      cases hr : d.resolve with
      | error key' => exact ⟨key', key', rfl, rfl⟩
      | ok d' =>
        obtain ⟨o, ho⟩ := ((d.resolve_eq_ok_iff d').mp hr).1 key hk
        exact absurd ho (hnone o)
  · simp [d.complete_of_faults h, h]

/-! ## From a reader -/

end Document

/-- Whether the error comes from reading and decoding. -/
def LoadError.isDecoding : LoadError → Bool
  | io _ | decode _ => true
  | validation _ | undefinedReference _ => false

theorem readText_toUTF8 (text : String) : readText text.toUTF8 = .ok text := by
  unfold readText
  rw [Text.fromUTF8?_toUTF8]

namespace Document

theorem parseReader_eq (input : Except String ByteArray) :
    parseReader input = ofReader input >>= complete := by
  unfold parseReader ofReader parse
  simp only [bind_assoc]

/-- A reader of the bytes of a text gives the document of the text. -/
theorem ofReader_toUTF8 (text : String) :
    ofReader (.ok text.toUTF8) = (ofText text).mapError .decode := by
  have hbytes : ofReader (.ok text.toUTF8) =
      (readText text.toUTF8 >>= fun text => (ofText text).mapError .decode) := rfl
  rw [hbytes, readText_toUTF8, ok_bind]

theorem isDecoding_of_ofReader (input : Except String ByteArray) (e : LoadError)
    (h : ofReader input = .error e) : e.isDecoding = true := by
  rcases bind_eq_error h with h | ⟨bytes, -, h⟩
  · obtain ⟨text, -, rfl⟩ := (mapError_eq_error_iff _ _ _).mp h
    rfl
  · rcases bind_eq_error h with h | ⟨text, -, h⟩
    · unfold readText at h
      split at h
      · cases h
      · cases h
        rfl
    · obtain ⟨e', -, rfl⟩ := (mapError_eq_error_iff _ _ _).mp h
      rfl

theorem isDecoding_of_complete (d : Document) (e : LoadError) (h : d.complete = .error e) :
    e.isDecoding = false := by
  by_cases hf : d.faults = []
  · rw [d.complete_of_no_faults hf] at h
    obtain ⟨key, -, rfl⟩ := (mapError_eq_error_iff _ _ _).mp h
    rfl
  · rw [d.complete_of_faults hf] at h
    cases h
    rfl

/-- **The outcome is decided stage by stage.** A document that is loaded has every node within its
bounds and no reference left. Decoding errors are passed on as they are; with a decoded document,
a broken bound anywhere outweighs undefined references. -/
theorem parseReader_staged (input : Except String ByteArray) :
    (∀ d, parseReader input = .ok d → ∀ path command, d.nodeAt? path = some command →
      command.WithinBounds ∧ ∀ e ∈ command.options, e.isReference = false) ∧
    (∀ e, ofReader input = .error e ↔ parseReader input = .error e ∧ e.isDecoding = true) ∧
    ((∃ errors, parseReader input = .error (.validation errors)) ↔
      ∃ d, ofReader input = .ok d ∧
        ∃ path command, d.nodeAt? path = some command ∧ ¬command.WithinBounds) ∧
    ((∃ key, parseReader input = .error (.undefinedReference key)) ↔
      ∃ d, ofReader input = .ok d ∧
        (∀ path command, d.nodeAt? path = some command → command.WithinBounds) ∧
        ∃ key ∈ d.references, ∀ o, ¬d.Names key o) := by
  have hbroken (d : Document) : d.faults ≠ [] ↔
      ∃ path command, d.nodeAt? path = some command ∧ ¬command.WithinBounds := by
    simp [ne_eq, faults_eq_nil_iff]
  simp only [← hbroken, ← faults_eq_nil_iff, parseReader_eq]
  cases hd : ofReader input with
  | error e =>
    -- later stages did not run, and their errors are not of this kind
    have he := isDecoding_of_ofReader input e hd
    simp only [error_bind]
    refine ⟨nofun, fun e' => ⟨fun h => ⟨h, Except.error.inj h ▸ he⟩, And.left⟩, ?_, ?_⟩
    · refine iff_of_false ?_ (by simp)
      rintro ⟨errors, h⟩
      cases h
      cases he
    · refine iff_of_false ?_ (by simp)
      rintro ⟨key, h⟩
      cases h
      cases he
  | ok d =>
    simp only [ok_bind]
    refine ⟨fun d' h path command hn => ⟨?_, fun e he => ?_⟩, fun e => ?_, ?_, ?_⟩
    · obtain ⟨hf, hr⟩ := (d.complete_eq_ok_iff d').mp h
      exact d'.faults_eq_nil_iff.mp ((d.faults_of_resolve d' hr).trans hf) path command hn
    · obtain ⟨-, hr⟩ := (d.complete_eq_ok_iff d').mp h
      have hnone := d'.references_eq_nil_iff.mp (d.references_of_resolve d' hr)
      exact hnone e ((d'.mem_entries_iff e).mpr ⟨path, command, hn, he⟩)
    · refine iff_of_false nofun ?_
      rintro ⟨h, he⟩
      rw [d.isDecoding_of_complete e h] at he
      cases he
    · simpa using d.complete_validation_iff
    · simpa using d.complete_undefinedReference_iff

/-- A root with arguments beside its sub-command, whose option names no component. -/
def bothFaults : Document where
  maxArgs := 2
  commands := ({} : Commands).insert "a" { options := [.reference (referenceKey "Gone")] }

def bothFaultsText : String :=
  "maxArgs: 2\ncommands:\n  a:\n    options:\n    - $ref: '#/components/options/Gone'\n"

theorem bothFaults_bounds_first :
    ofReader (.ok bothFaultsText.toUTF8) = .ok bothFaults ∧
      (∃ key ∈ bothFaults.references, ∀ o, ¬bothFaults.Names key o) ∧
      ∃ errors, parseReader (.ok bothFaultsText.toUTF8) = .error (.validation errors) := by
  have htext : ofText bothFaultsText = .ok bothFaults := eq_ok_of_toOption (by decide +kernel)
  have hread : ofReader (.ok bothFaultsText.toUTF8) = .ok bothFaults := by
    rw [ofReader_toUTF8, htext]
    rfl
  have hgone : ∀ o, ¬bothFaults.Names (referenceKey "Gone") o := by
    rintro o ⟨name, -, h⟩
    cases h
  have hroot : ¬bothFaults.root.WithinBounds := fun h => absurd (h.2 rfl).2 (by decide)
  obtain ⟨-, -, hvalidation, -⟩ := parseReader_staged (.ok bothFaultsText.toUTF8)
  exact ⟨hread, ⟨_, List.mem_singleton_self _, hgone⟩,
    hvalidation.mpr ⟨bothFaults, hread, [], bothFaults.root, rfl, hroot⟩⟩

end Document
end CommandSpec
