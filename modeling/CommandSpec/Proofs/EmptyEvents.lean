import CommandSpec.Decode.Document
import CommandSpec.Proofs.Runs
import CommandSpec.Proofs.VacantScan
import CommandSpec.Yaml.Source

/-! Reading tokens that stand outside of documents. Whatever documents they start are empty, so
the reader gives no node but empty scalars (`events_of_frames`), and what is built and decoded of
these is the empty document if it is anything (`Source.decode_of_vacant`). -/
namespace CommandSpec.Yaml

/-- Events of documents that hold nothing. -/
inductive Event.IsEmpty : Event → Prop where
  | documentStart : IsEmpty .documentStart
  | documentEnd : IsEmpty .documentEnd
  | scalar : IsEmpty (.scalar { text := "" } none)

theorem Token.frames {t : Token} (h : t.isFrame = true) :
    (∃ major minor, t = .versionDirective major minor) ∨
      (∃ handle expansion, t = .tagDirective handle expansion) ∨ t = .documentStart ∨
      t = .documentEnd ∨ t = .streamEnd := by
  cases t <;> simp [Token.isFrame] at h ⊢

namespace Reader

/-- Outside of nodes nothing is expected but documents and their ends. -/
structure Outside (r : Reader) : Prop where
  frames : ∀ t ∈ r.tokens, t.isFrame = true
  goal : (r.later = [] ∧
      (r.goal = .implicitDocument ∨ r.goal = .document ∨ r.goal = .documentEnd)) ∨
    (r.later = [.documentEnd] ∧ (r.goal = .documentContent ∨ r.goal = .blockNode))

theorem directives_frames {ts rest : List Token} {versioned : Bool}
    {handles handles' : List (String × String)} (h : ∀ t ∈ ts, t.isFrame = true)
    (hread : directives ts versioned handles = some (handles', rest)) :
    ∀ t ∈ rest, t.isFrame = true := by
  induction ts generalizing versioned handles with
  | nil =>
    cases hread
    exact h
  | cons t ts ih =>
    obtain ⟨-, hts⟩ := List.forall_mem_cons.mp h
    unfold directives at hread
    split at hread
    · rename_i heq
      cases heq
      split at hread
      · cases hread
      · exact ih hts hread
    · rename_i heq
      cases heq
      split at hread
      · cases hread
      · exact ih hts hread
    · cases hread
      exact h

theorem Outside.openDocument {r : Reader} {e : Event} {ts : List Token} {explicit : Bool}
    (hts : ∀ t ∈ ts, t.isFrame = true) (h : openDocument ts explicit = .event e r) :
    e.IsEmpty ∧ r.Outside := by
  unfold Reader.openDocument at h
  split at h
  · split at h
    · rename_i handles tokens hread
      cases h
      have hrest := directives_frames hts hread
      exact ⟨.documentStart, (List.forall_mem_cons.mp hrest).2, .inr ⟨rfl, .inl rfl⟩⟩
    · cases h
  · cases h
    exact ⟨.documentStart, hts, .inr ⟨rfl, .inr rfl⟩⟩

theorem Outside.documentStart {r r' : Reader} {e : Event} {implicit : Bool}
    (hr : ∀ t ∈ r.tokens, t.isFrame = true) (h : r.documentStart implicit = .event e r') :
    e.IsEmpty ∧ r'.Outside := by
  obtain ⟨ts, hts, hframes⟩ : ∃ ts, (if implicit then r.tokens
      else r.tokens.dropWhile (· == .documentEnd)) = ts ∧ ∀ t ∈ ts, t.isFrame = true := by
    refine ⟨_, rfl, fun t ht => hr t ?_⟩
    split at ht
    · exact ht
    · exact (List.dropWhile_suffix _).subset ht
  unfold Reader.documentStart at h
  dsimp only at h
  rw [hts] at h
  split at h
  · cases h
  · cases h
  · exact Outside.openDocument hframes h

/-- No node starts with a token that stands outside of documents. -/
theorem node_of_frames {r : Reader} (hr : ∀ t ∈ r.tokens, t.isFrame = true) :
    r.node true false = .failed := by
  obtain ⟨tokens, goal, later, handles⟩ := r
  cases tokens with
  | nil => rfl
  | cons t ts =>
    rcases Token.frames (hr t (List.mem_cons_self ..)) with
      ⟨major, minor, rfl⟩ | ⟨handle, expansion, rfl⟩ | rfl | rfl | rfl <;> rfl

theorem Outside.step {r r' : Reader} {e : Event} (hr : r.Outside) (h : r.step = .event e r') :
    e.IsEmpty ∧ r'.Outside := by
  obtain ⟨tokens, goal, later, handles⟩ := r
  obtain ⟨hframes, hgoal⟩ := hr
  cases tokens with
  | nil =>
    rcases hgoal with ⟨rfl, rfl | rfl | rfl⟩ | ⟨rfl, rfl | rfl⟩ <;> cases h
  | cons t ts =>
    -- what may be expected: two starts of documents, an end, and contents, which are not there
    rcases hgoal with ⟨rfl, rfl | rfl | rfl⟩ | ⟨rfl, rfl | rfl⟩
    · exact Outside.documentStart hframes h
    · exact Outside.documentStart hframes h
    · cases h
      refine ⟨.documentEnd, fun t' ht' => hframes t' ?_, .inl ⟨rfl, .inr (.inl rfl)⟩⟩
      dsimp only at ht'
      split at ht'
      · exact List.mem_cons_of_mem _ ht'
      · exact ht'
    · have hstep : Reader.step ⟨t :: ts, .documentContent, [.documentEnd], handles⟩ =
          .event emptyScalar ⟨t :: ts, .documentEnd, [], handles⟩ := by
        rcases Token.frames (hframes t (List.mem_cons_self ..)) with
          ⟨major, minor, rfl⟩ | ⟨handle, expansion, rfl⟩ | rfl | rfl | rfl <;> rfl
      rw [hstep] at h
      cases h
      exact ⟨.scalar, hframes, .inl ⟨rfl, .inr (.inr rfl)⟩⟩
    · have hstep : Reader.step ⟨t :: ts, .blockNode, [.documentEnd], handles⟩ = .failed :=
        node_of_frames hframes
      rw [hstep] at h
      cases h

theorem Outside.run {r : Reader} (hr : r.Outside) (fuel : Nat) (es : List Event)
    (hes : ∀ e ∈ es, e.IsEmpty) : ∀ e ∈ (Reader.run fuel es r).1, e.IsEmpty := by
  induction fuel generalizing es r with
  | zero => simpa [Reader.run] using hes
  | succ fuel ih =>
    unfold Reader.run
    split
    · rename_i e next hstep
      obtain ⟨he, hnext⟩ := hr.step hstep
      exact ih hnext (e :: es) (List.forall_mem_cons.mpr ⟨he, hes⟩)
    · simpa using hes
    · simpa using hes

end Reader

/-- Tokens outside of documents give events of empty documents. -/
theorem events_of_frames {ts : List Token} (h : ∀ t ∈ ts, t.isFrame = true) :
    ∀ e ∈ (events ts).1, e.IsEmpty :=
  Reader.Outside.run ⟨h, .inl ⟨rfl, .inl rfl⟩⟩ _ [] (by simp)

/-! ## Trees -/

/-- A builder that has met no node, or only an empty scalar. -/
structure Builder.IsEmpty (b : Builder) : Prop where
  frames : b.frames = []
  anchored : b.anchored = []
  root : b.root = none ∨ b.root = some (.scalar { text := "" })

namespace Builder.IsEmpty

variable {b : Builder}

theorem tree (hb : b.IsEmpty) :
    b.tree = .scalar { text := "" } ∨ b.tree = .fault .malformed := by
  obtain ⟨frames, root, numbers, anchored, count⟩ := b
  obtain rfl : anchored = [] := hb.anchored
  rcases hb.root with hroot | hroot
  · obtain rfl : root = none := hroot
    exact .inr rfl
  · obtain rfl : root = some (.scalar { text := "" }) := hroot
    exact .inl rfl

theorem take (hb : b.IsEmpty) {e : Event} (he : e.IsEmpty) :
    ∃ b', b.take e = some b' ∧ b'.IsEmpty := by
  cases he with
  | documentStart => exact ⟨b, rfl, hb⟩
  | documentEnd => exact ⟨b, rfl, hb⟩
  | scalar =>
    obtain ⟨frames, root, numbers, anchored, count⟩ := b
    obtain rfl : frames = [] := hb.frames
    exact ⟨_, rfl, rfl, hb.anchored, .inr rfl⟩

/-- A tree without nodes is decoded as the empty document if it is decoded at all. -/
theorem ofNode_tree (hb : b.IsEmpty) {d : Document} (h : Document.ofNode b.tree = .ok d) :
    d = {} := by
  rcases hb.tree with htree | htree
  · rw [htree] at h
    cases h
    rfl
  · rw [htree] at h
    cases h

theorem decode_ofEvents (hb : b.IsEmpty) (complete : Bool) {es : List Event}
    (hes : ∀ e ∈ es, e.IsEmpty) {d : Document}
    (h : (Source.ofEvents complete b es).decode Document.ofNode = .ok d) : d = {} := by
  induction es generalizing b with
  | nil =>
    obtain ⟨d', -, h⟩ := bind_eq_ok h
    cases h
  | cons e es ih =>
    obtain ⟨he, hrest⟩ := List.forall_mem_cons.mp hes
    obtain ⟨b', htake, hb'⟩ := hb.take he
    cases he with
    | documentStart =>
      rw [Source.ofEvents, htake] at h
      · exact ih hb' hrest h
      · simp
    | documentEnd =>
      obtain ⟨d', hread, h⟩ := bind_eq_ok h
      obtain rfl := hb.ofNode_tree hread
      split at h
      · cases h
      · cases h
        rfl
    | scalar =>
      rw [Source.ofEvents, htake] at h
      · exact ih hb' hrest h
      · simp

end Builder.IsEmpty

/-- A text without content is decoded as the empty document if it is decoded at all. -/
theorem Source.decode_of_vacant {text : String} (h : isVacant text.toList = true) {d : Document}
    (hd : (Source.ofText text).decode Document.ofNode = .ok d) : d = {} := by
  have hes := events_of_frames (tokens_of_vacant h)
  unfold Source.ofText at hd
  split at hd
  · cases hd
    rfl
  · rename_i es complete _ hevents
    rw [hevents] at hes
    exact Builder.IsEmpty.decode_ofEvents ⟨rfl, rfl, .inl rfl⟩ complete hes hd

end CommandSpec.Yaml
