import CommandSpec.Proofs.PartialOutput

/-! Runs of steps that go on after a failure, told by the writes they make. A sink that has
turned a write down takes nothing any more, so a run leaves on it the beginning of what the same
steps write without a limit (`CodeWriter.runAll_sink`). The writes of a run are those of its
steps, each step's up to the first that fails (`CodeWriter.runAll_eq_putAll`); the counter is
the sum of those that succeeded, and the sink holds beside them what it took of the others
(`CodeWriter.putAll_bytes`). -/
namespace CommandSpec

/-! ## One write -/

/-- A write takes all bytes, or those there is room for. -/
theorem Sink.write_cases (s : Sink) (bytes : ByteArray) :
    (∃ room, s.write bytes = (.ok (), ⟨s.held ++ bytes, room⟩)) ∨
      ∃ part, s.write bytes = (.error sinkFull, ⟨s.held ++ part, some 0⟩) := by
  obtain ⟨held, room⟩ := s
  cases room with
  | none => exact Or.inl ⟨none, rfl⟩
  | some room =>
    by_cases hroom : bytes.size ≤ room
    · exact Or.inl ⟨some (room - bytes.size), if_pos hroom⟩
    · exact Or.inr ⟨bytes.extract 0 room, if_neg hroom⟩

/-- A sink that is full takes nothing. -/
theorem Sink.write_full (held bytes : ByteArray) :
    (Sink.write ⟨held, some 0⟩ bytes).2 = ⟨held, some 0⟩ := by
  by_cases hsize : bytes.size ≤ 0
  · have hempty : bytes = .empty := ByteArray.size_eq_zero_iff.mp (by omega)
    simp [write, hempty]
  · simp [write, hsize]

/-- A sink takes the same of two texts written one after the other, also when the first write
fails, as of both at once. -/
theorem Sink.write_append_snd (s : Sink) (a b : ByteArray) :
    (s.write (a ++ b)).2 = ((s.write a).2.write b).2 := by
  rw [write_append]
  rcases s.write_cases a with ⟨room, ha⟩ | ⟨part, ha⟩
  · rw [ha]
  · rw [ha]
    exact (write_full _ b).symm

/-- A text written on a sink, and the sink as it was then. -/
structure SinkWrite where
  sink : Sink
  text : String

namespace SinkWrite

def after (x : SinkWrite) : Sink := (x.sink.write x.text.toUTF8).2

/-- Whether the whole text was written. -/
def isWhole (x : SinkWrite) : Bool := (x.sink.write x.text.toUTF8).1.toOption.isSome

/-- The number of bytes the sink took. -/
def taken (x : SinkWrite) : Nat := x.after.held.size - x.sink.held.size

/-- The bytes of a write that succeeded as a whole. -/
def whole (x : SinkWrite) : Nat := if x.isWhole then x.text.utf8ByteSize else 0

/-- The bytes that were taken of a write that failed. -/
def part (x : SinkWrite) : Nat := if x.isWhole then 0 else x.taken

/-- The write failed when a part of the text had been taken. -/
def IsCut (x : SinkWrite) : Prop := x.isWhole = false ∧ 0 < x.taken

theorem part_eq_zero_iff (x : SinkWrite) : x.part = 0 ↔ ¬x.IsCut := by
  unfold part IsCut
  cases x.isWhole <;> simp

theorem held_size_after (x : SinkWrite) :
    x.after.held.size = x.sink.held.size + x.whole + x.part := by
  unfold part whole taken isWhole after
  rcases x.sink.write_cases x.text.toUTF8 with ⟨room, h⟩ | ⟨part, h⟩
  · rw [h]
    simp [Except.toOption, ByteArray.size_append]
  · rw [h]
    simp [Except.toOption, ByteArray.size_append]

end SinkWrite

/-! ## Writes one after the other -/

/-- Texts written one after the other, behind failures too. -/
def Sink.writes (s : Sink) : List String → List SinkWrite
  | [] => []
  | text :: rest => ⟨s, text⟩ :: (s.write text.toUTF8).2.writes rest

/-- The bytes of the writes that succeeded as a whole. -/
def wholeBytes : List SinkWrite → Nat
  | [] => 0
  | x :: rest => x.whole + wholeBytes rest

/-- The bytes that were taken of the writes that failed. -/
def partBytes : List SinkWrite → Nat
  | [] => 0
  | x :: rest => x.part + partBytes rest

theorem partBytes_eq_zero_iff (xs : List SinkWrite) : partBytes xs = 0 ↔ ∀ x ∈ xs, ¬x.IsCut := by
  induction xs with
  | nil => simp [partBytes]
  | cons x xs ih =>
    rw [partBytes, List.forall_mem_cons, ← ih, ← x.part_eq_zero_iff]
    omega

namespace CodeWriter

/-- A write counts when it succeeds as a whole, and changes the sink by itself only. -/
theorem put_snd (w : CodeWriter) (text : String) :
    (w.put text).2 = { w with
      sink := (w.sink.write text.toUTF8).2
      counter := ⟨w.counter.written + SinkWrite.whole ⟨w.sink, text⟩⟩ } := by
  unfold put SinkWrite.whole SinkWrite.isWhole
  rcases w.sink.write_cases text.toUTF8 with ⟨room, h⟩ | ⟨part, h⟩
  · rw [h]
    rfl
  · rw [h]
    rfl

/-- The writer behind some writes, failed ones included. -/
def putAll (w : CodeWriter) (texts : List String) : CodeWriter :=
  texts.foldl (fun w text => (w.put text).2) w

theorem putAll_cons (w : CodeWriter) (text : String) (texts : List String) :
    w.putAll (text :: texts) = (w.put text).2.putAll texts := rfl

theorem putAll_append (w : CodeWriter) (texts more : List String) :
    w.putAll (texts ++ more) = (w.putAll texts).putAll more :=
  List.foldl_append

/-- The counter is the sum of the whole writes; the sink has beside them what was taken of the
others. -/
theorem putAll_bytes (w : CodeWriter) (texts : List String) :
    (w.putAll texts).counter.written = w.counter.written + wholeBytes (w.sink.writes texts) ∧
      (w.putAll texts).sink.held.size = w.sink.held.size + wholeBytes (w.sink.writes texts) +
        partBytes (w.sink.writes texts) := by
  induction texts generalizing w with
  | nil => exact ⟨rfl, rfl⟩
  | cons text texts ih =>
    obtain ⟨hwritten, hheld⟩ := ih (w.put text).2
    have hafter := SinkWrite.held_size_after ⟨w.sink, text⟩
    rw [putAll_cons, hwritten, hheld, put_snd]
    simp only [SinkWrite.after, Sink.writes, wholeBytes, partBytes] at hafter ⊢
    omega

/-- From an empty sink on, the counter is what the sink holds but for the parts of writes that
were cut. -/
theorem written_le_held (w : CodeWriter) (texts : List String)
    (h : w.counter.written = w.sink.held.size) :
    (w.putAll texts).counter.written ≤ (w.putAll texts).sink.held.size ∧
      ((w.putAll texts).counter.written = (w.putAll texts).sink.held.size ↔
        ∀ x ∈ w.sink.writes texts, ¬x.IsCut) := by
  obtain ⟨hwritten, hheld⟩ := w.putAll_bytes texts
  rw [← partBytes_eq_zero_iff]
  omega

/-! ## Writes up to a failure -/

/-- Writes up to the first that fails. -/
def putUntil (w : CodeWriter) : List String → Except WriteError Unit × CodeWriter
  | [] => (.ok (), w)
  | text :: rest =>
    match w.put text with
    | (.ok (), w) => w.putUntil rest
    | failed => failed

/-- The texts of which such writes are made. -/
def tried (w : CodeWriter) : List String → List String
  | [] => []
  | text :: rest =>
    text :: match w.put text with
      | (.ok (), w) => w.tried rest
      | _ => []

theorem putUntil_cons (w : CodeWriter) (text : String) (rest : List String) :
    w.putUntil (text :: rest) = match w.put text with
      | (.ok (), w) => w.putUntil rest
      | failed => failed := rfl

theorem tried_cons (w : CodeWriter) (text : String) (rest : List String) :
    w.tried (text :: rest) = text :: match w.put text with
      | (.ok (), w) => w.tried rest
      | _ => [] := rfl

theorem putUntil_singleton (w : CodeWriter) (text : String) :
    w.putUntil [text] = w.put text := by
  rw [putUntil_cons]
  rcases w.put text with ⟨_ | _, w'⟩ <;> rfl

theorem putUntil_snd (w : CodeWriter) (texts : List String) :
    (w.putUntil texts).2 = w.putAll (w.tried texts) := by
  induction texts generalizing w with
  | nil => rfl
  | cons text texts ih =>
    rw [putUntil_cons, tried_cons, putAll_cons]
    rcases w.put text with ⟨_ | _, w'⟩
    · rfl
    · exact ih w'

theorem putUntil_append (w : CodeWriter) (texts more : List String) :
    w.putUntil (texts ++ more) = match w.putUntil texts with
      | (.ok (), w) => w.putUntil more
      | failed => failed := by
  induction texts generalizing w with
  | nil => rfl
  | cons text texts ih =>
    rw [List.cons_append, putUntil_cons, putUntil_cons]
    rcases w.put text with ⟨_ | _, w'⟩
    · rfl
    · exact ih w'

theorem tried_append (w : CodeWriter) (texts more : List String) :
    w.tried (texts ++ more) = w.tried texts ++ match w.putUntil texts with
      | (.ok (), w) => w.tried more
      | _ => [] := by
  induction texts generalizing w with
  | nil => rfl
  | cons text texts ih =>
    rw [List.cons_append, tried_cons, tried_cons, putUntil_cons, List.cons_append]
    rcases w.put text with ⟨_ | _, w'⟩
    · rfl
    · exact congrArg (text :: ·) (ih w')

end CodeWriter

/-! ## The writes of steps -/

mutual

/-- The texts of a step at a level, one for each write. -/
def Step.texts (indent : String) (level : Nat) : Step → List String
  | .text s => [indentationAt indent level ++ s]
  | .line s => [lineText indent level s]
  | .spacedLine s => [lineText indent level s, "\n"]
  | .blank => ["\n"]
  | .block steps => blockTexts indent (level + 1) steps

def blockTexts (indent : String) (level : Nat) : List Step → List String
  | [] => []
  | step :: rest => step.texts indent level ++ blockTexts indent level rest

end

/-- The log of steps that begin at a level. Each ends at that level, a block when the steps in
it, one level deeper, have run. -/
inductive LogAt : Nat → List StepEvent → Prop
  | done (level : Nat) : LogAt level []
  | step (level : Nat) (error : Option WriteError) (written : Nat) (more : List StepEvent)
      (rest : LogAt level more) : LogAt level (.ended error level written :: more)
  | block (level : Nat) (error : Option WriteError) (written : Nat)
      (inner more : List StepEvent) (inside : LogAt (level + 1) inner) (rest : LogAt level more) :
      LogAt level (.entered level :: (inner ++ .ended error level written :: more))

theorem LogAt.append {level : Nat} {events more : List StepEvent} (h : LogAt level events)
    (hmore : LogAt level more) : LogAt level (events ++ more) := by
  induction h with
  | done level => exact hmore
  | step level error written _ _ ih => exact .step level error written _ (ih hmore)
  | block level error written inner _ inside _ _ ih =>
    rw [List.cons_append, List.append_assoc]
    exact .block level error written inner _ inside (ih hmore)

namespace CodeWriter

/-- The level does not matter to writes. -/
theorem putUntil_withLevel (w : CodeWriter) (level : Nat) (texts : List String) :
    putUntil { w with level } texts =
        ((w.putUntil texts).1, { (w.putUntil texts).2 with level }) ∧
      tried { w with level } texts = w.tried texts := by
  induction texts generalizing w with
  | nil => exact ⟨rfl, rfl⟩
  | cons text texts ih =>
    have hput : put { w with level } text = ((w.put text).1, { (w.put text).2 with level }) := rfl
    rw [putUntil_cons, tried_cons, putUntil_cons, tried_cons, hput]
    rcases w.put text with ⟨_ | _, w'⟩
    · exact ⟨rfl, rfl⟩
    · obtain ⟨huntil, htried⟩ := ih w'
      exact ⟨huntil, congrArg (text :: ·) htried⟩

theorem putAll_withLevel (w : CodeWriter) (level : Nat) (texts : List String) :
    putAll { w with level } texts = { w.putAll texts with level } := by
  induction texts generalizing w with
  | nil => rfl
  | cons text texts ih => exact ih (w.put text).2

theorem putAll_level (w : CodeWriter) (texts : List String) :
    (w.putAll texts).level = w.level ∧ (w.putAll texts).indent = w.indent := by
  induction texts generalizing w with
  | nil => exact ⟨rfl, rfl⟩
  | cons text texts ih => exact ih (w.put text).2

/-- Every step that ended did so after some of these writes, with what they count. -/
def CountedBy (w : CodeWriter) (texts : List String) (events : List StepEvent) : Prop :=
  ∀ error level written, StepEvent.ended error level written ∈ events →
    ∃ made, made <+: texts ∧ written = (w.putAll made).counter.written

theorem CountedBy.append {w w' : CodeWriter} {texts more : List String}
    {events rest : List StepEvent} (h : w.CountedBy texts events) (hw : w' = w.putAll texts)
    (hrest : w'.CountedBy more rest) : w.CountedBy (texts ++ more) (events ++ rest) := by
  subst hw
  intro error level written hm
  rcases List.mem_append.mp hm with hm | hm
  · obtain ⟨made, hmade, hw⟩ := h error level written hm
    exact ⟨made, hmade.trans (List.prefix_append texts more), hw⟩
  · obtain ⟨made, hmade, hw⟩ := hrest error level written hm
    refine ⟨texts ++ made, (List.prefix_append_right_inj texts).mpr hmade, ?_⟩
    rw [putAll_append]
    exact hw

/-- A run that consists of writes of these texts, and what it logs. -/
structure Ran (w : CodeWriter) (texts : List String)
    (r : Except WriteError Unit × CodeWriter × List StepEvent) : Prop where
  writes : w.putUntil texts = (r.1, r.2.1)
  log : LogAt w.level r.2.2
  counted : w.CountedBy (w.tried texts) r.2.2

theorem Ran.writer {w : CodeWriter} {texts : List String}
    {r : Except WriteError Unit × CodeWriter × List StepEvent} (h : w.Ran texts r) :
    r.2.1 = w.putAll (w.tried texts) := by
  rw [← putUntil_snd, h.writes]

theorem Ran.level {w : CodeWriter} {texts : List String}
    {r : Except WriteError Unit × CodeWriter × List StepEvent} (h : w.Ran texts r) :
    r.2.1.level = w.level ∧ r.2.1.indent = w.indent := by
  rw [h.writer]
  exact w.putAll_level _

/-- A step without steps in it logs its end only. -/
theorem finish_ran (w : CodeWriter) (texts : List String) :
    w.Ran texts (runStep.finish (w.putUntil texts)) where
  writes := rfl
  log := by
    have hlevel : (w.putUntil texts).2.level = w.level := by
      rw [putUntil_snd]
      exact (w.putAll_level _).1
    rw [← hlevel]
    exact .step _ _ _ [] (.done _)
  counted := by
    intro error level written hm
    refine ⟨w.tried texts, List.prefix_rfl, ?_⟩
    rw [← putUntil_snd]
    cases List.mem_singleton.mp hm
    rfl

/-- Steps one level deeper, seen from the level around them. -/
theorem Ran.block {w : CodeWriter} {texts : List String}
    {r : Except WriteError Unit × CodeWriter × List StepEvent}
    (h : Ran { w with level := w.level + 1 } texts r) :
    w.Ran texts
      (r.1, { r.2.1 with level := r.2.1.level - 1 }, .entered w.level ::
        (r.2.2 ++ [ended { r.2.1 with level := r.2.1.level - 1 } r.1])) := by
  obtain ⟨hsame, htried⟩ := putUntil_withLevel { w with level := w.level + 1 } w.level texts
  have hback : r.2.1.level - 1 = w.level := by
    rw [h.level.1]
    exact Nat.add_sub_cancel ..
  have hwrites : w.putUntil texts = (r.1, { r.2.1 with level := r.2.1.level - 1 }) := by
    rw [hback]
    exact hsame.trans (by rw [h.writes])
  refine ⟨hwrites, ?_, ?_⟩
  · rw [hback]
    exact .block w.level _ _ r.2.2 [] h.log (.done w.level)
  · intro error level written hm
    rcases List.mem_cons.mp hm with hm | hm
    · cases hm
    rcases List.mem_append.mp hm with hm | hm
    · obtain ⟨made, hmade, hw⟩ := h.counted error level written hm
      rw [putAll_withLevel] at hw
      exact ⟨made, htried ▸ hmade, hw⟩
    · cases List.mem_singleton.mp hm
      refine ⟨w.tried texts, List.prefix_rfl, ?_⟩
      rw [← putUntil_snd, hwrites]

theorem putLine_eq (w : CodeWriter) (s : String) :
    w.putLine s = w.put (lineText w.indent w.level s) := by
  unfold putLine lineText
  cases s.isEmpty <;> rfl

mutual

theorem runStep_ran (w : CodeWriter) (step : Step) :
    w.Ran (step.texts w.indent w.level) (w.runStep step) := by
  cases step with
  | text s =>
    have h := w.finish_ran [indentationAt w.indent w.level ++ s]
    rwa [putUntil_singleton] at h
  | line s =>
    have h := w.finish_ran [lineText w.indent w.level s]
    rwa [putUntil_singleton, ← putLine_eq] at h
  | spacedLine s =>
    have h := w.finish_ran [lineText w.indent w.level s, "\n"]
    rw [putUntil_cons, ← putLine_eq] at h
    unfold runStep Step.texts
    rcases hl : w.putLine s with ⟨_ | _, w'⟩
    · rw [hl] at h
      exact h
    · rw [hl] at h
      dsimp only at h ⊢
      rwa [← w'.putUntil_singleton]
  | blank =>
    have h := w.finish_ran ["\n"]
    rwa [putUntil_singleton] at h
  | block steps => exact (runBlock_ran { w with level := w.level + 1 } steps).block

theorem runBlock_ran (w : CodeWriter) (steps : List Step) :
    w.Ran (blockTexts w.indent w.level steps) (w.runBlock steps) := by
  cases steps with
  | nil => exact ⟨rfl, .done w.level, nofun⟩
  | cons step rest =>
    have hstep := runStep_ran w step
    obtain ⟨hlevel, hindent⟩ := hstep.level
    have hwriter := hstep.writer
    obtain ⟨hwrites, hlog, hcounted⟩ := hstep
    unfold runBlock blockTexts
    rcases hr : w.runStep step with ⟨_ | _, w', events⟩
    · rw [hr] at hwrites hlog hcounted
      refine ⟨?_, hlog, ?_⟩
      · rw [putUntil_append, hwrites]
      · rw [tried_append, hwrites, List.append_nil]
        exact hcounted
    · rw [hr] at hwrites hlog hcounted hlevel hindent hwriter
      dsimp only at hwrites hlog hcounted hlevel hindent hwriter
      obtain ⟨hwrites', hlog', hcounted'⟩ := runBlock_ran w' rest
      rw [hindent, hlevel] at hwrites' hcounted'
      rw [hlevel] at hlog'
      refine ⟨?_, hlog.append hlog', ?_⟩
      · rw [putUntil_append, hwrites]
        exact hwrites'
      · rw [tried_append, hwrites]
        exact hcounted.append hwriter hcounted'

end

/-! ## Steps one after the other -/

/-- The texts of the writes that are made when steps run one after the other, failing ones
included. -/
def triedAll (w : CodeWriter) : List Step → List String
  | [] => []
  | step :: rest =>
    let texts := w.tried (step.texts w.indent w.level)
    texts ++ (w.putAll texts).triedAll rest

theorem runAll_eq_putAll (w : CodeWriter) (steps : List Step) :
    (w.runAll steps).1 = w.putAll (w.triedAll steps) ∧ LogAt w.level (w.runAll steps).2 ∧
      w.CountedBy (w.triedAll steps) (w.runAll steps).2 := by
  induction steps generalizing w with
  | nil => exact ⟨rfl, .done w.level, nofun⟩
  | cons step rest ih =>
    have hstep := w.runStep_ran step
    obtain ⟨hwriter, hlog, hcounted⟩ := ih (w.runStep step).2.1
    rw [hstep.level.1] at hlog
    unfold triedAll runAll
    refine ⟨?_, hstep.log.append hlog, hstep.counted.append hstep.writer ?_⟩
    · rw [putAll_append, ← hstep.writer]
      exact hwriter
    · rw [← hstep.writer]
      exact hcounted

/-- Also behind failures, a run leaves on a sink what one write of its whole text does. -/
theorem runAll_sink (w : CodeWriter) (steps : List Step) :
    (w.runAll steps).1.sink =
      (w.sink.write (blockText w.indent w.level steps).toUTF8).2 := by
  induction steps generalizing w with
  | nil => exact congrArg Prod.snd w.wrote_nothing.sink.symm
  | cons step rest ih =>
    have hstep := w.runStep_wrote step
    have hbytes : (blockText w.indent w.level (step :: rest)).toUTF8 =
        (step.textAt w.indent w.level).toUTF8 ++ (blockText w.indent w.level rest).toUTF8 :=
      String.toByteArray_append
    have hrest := ih (w.runStep step).2.1
    rw [hstep.indent, hstep.level] at hrest
    rw [hbytes, Sink.write_append_snd, hstep.sink]
    exact hrest

/-- **Writer, sink and counter stay consistent in every run.** A sink with room for `n` bytes
ends up with the first `n` bytes of what the same steps write without a limit, which is the text
of each step behind the indentation of its level. Every step, and so every block, ends at the
level it began at. After each write the counter is the sum of the writes that succeeded as a
whole; it is below what the sink holds if a failed write was cut, and else equal to it. -/
theorem runAll_on_limited_sink (indent : String) (steps : List Step) (n : Nat) :
    let text := blockText indent 0 steps
    let w : CodeWriter := { sink := { room := some n }, indent }
    let made := w.triedAll steps
    (runAll { sink := {}, indent } steps).1.sink.held = text.toUTF8 ∧
      (w.runAll steps).1.sink.held = text.toUTF8.extract 0 n ∧
      LogAt 0 (w.runAll steps).2 ∧ (w.runAll steps).1.level = 0 ∧
      (w.runAll steps).1 = w.putAll made ∧ w.CountedBy made (w.runAll steps).2 ∧
      ∀ before, before <+: made →
        (w.putAll before).counter.written = wholeBytes (w.sink.writes before) ∧
        (w.putAll before).counter.written ≤ (w.putAll before).sink.held.size ∧
        ((w.putAll before).counter.written = (w.putAll before).sink.held.size ↔
          ∀ x ∈ w.sink.writes before, ¬x.IsCut) := by
  intro text w made
  obtain ⟨hwriter, hlog, hcounted⟩ := w.runAll_eq_putAll steps
  refine ⟨?_, ?_, hlog, ?_, hwriter, hcounted, fun before _ => ⟨?_, w.written_le_held before rfl⟩⟩
  · rw [runAll_sink]
    simp [Sink.write, text]
  · rw [runAll_sink]
    change (Sink.write ⟨.empty, some n⟩ text.toUTF8).2.held = _
    rw [Sink.write_fresh]
    by_cases hn : text.toUTF8.size ≤ n
    · have hall : text.toUTF8.extract 0 n = text.toUTF8 := by
        ext1
        simpa using Or.inr hn
      rw [if_pos hn, hall]
    · rw [if_neg hn]
  · rw [hwriter]
    exact (w.putAll_level made).1
  · rw [(w.putAll_bytes before).1]
    exact Nat.zero_add _

/-- A block whose first line is cut: the rest of the block is left out, the line after the block
finds no room, and three of the seven bytes on the sink are counted. -/
theorem cutBlock_counted :
    let w : CodeWriter := { sink := { room := some 7 }, indent := "  " }
    let steps : List Step := [.line "ab", .block [.spacedLine "cd", .line "e"], .line "f"]
    w.triedAll steps = ["ab\n", "  cd\n", "f\n"] ∧
      (w.runAll steps).1.sink.held = "ab\n  cd".toUTF8 ∧
      (w.runAll steps).1.counter.written = 3 ∧
      ∃ x ∈ w.sink.writes (w.triedAll steps), x.IsCut := by
  intro w steps
  obtain ⟨-, hheld, -, -, hwriter, -, hmoments⟩ := runAll_on_limited_sink "  " steps 7
  obtain ⟨-, -, hcut⟩ := hmoments _ List.prefix_rfl
  have hwritten : (w.runAll steps).1.counter.written = 3 := by decide +kernel
  have htext : (w.runAll steps).1.sink.held = "ab\n  cd".toUTF8 :=
    hheld.trans (by decide +kernel)
  refine ⟨by decide +kernel, htext, hwritten, Classical.byContradiction fun hnone => ?_⟩
  have hequal := hcut.mpr fun x hx hc => hnone ⟨x, hx, hc⟩
  rw [← hwriter] at hequal
  have hseven : (w.runAll steps).1.sink.held.size = 7 := by
    rw [htext]
    rfl
  exact absurd (hwritten.symm.trans (hequal.trans hseven)) (by decide)

end CodeWriter

end CommandSpec
