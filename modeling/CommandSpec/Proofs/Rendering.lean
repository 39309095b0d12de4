import CommandSpec.Bindings.CodeWriter

/-! Steps as text. The text of a step depends on the indentation and the level only, and a run
of steps does to a sink what one write of their whole text does (`CodeWriter.runBlock_wrote`):
splitting a text into several writes changes neither what a sink takes of it nor whether it
fails, and a run stops at the write that fails. -/
namespace CommandSpec

/-! ## Sinks -/

/-- Two writes, the second if the first succeeds, are one write of both. -/
theorem Sink.write_append (s : Sink) (a b : ByteArray) :
    s.write (a ++ b) = match s.write a with
      | (.ok (), s') => s'.write b
      | (.error e, s') => (.error e, s') := by
  obtain ⟨held, room⟩ := s
  cases room with
  | none => simp [write, ByteArray.append_assoc]
  | some room =>
    by_cases ha : a.size ≤ room
    · by_cases hb : b.size ≤ room - a.size
      · have hab : a.size + b.size ≤ room := by omega
        have hroom : room - (a.size + b.size) = room - a.size - b.size := by omega
        simp [write, ha, hb, hab, hroom, ByteArray.append_assoc]
      · have hab : ¬a.size + b.size ≤ room := by omega
        have hcut : (a ++ b).extract 0 room = a ++ b.extract 0 (room - a.size) := by
          have hall : a.extract 0 room = a := by
            ext1
            simpa using Or.inr ha
          rw [ByteArray.extract_append, hall, Nat.zero_sub]
        simp [write, ha, hb, hab, hcut, ByteArray.append_assoc]
    · have hab : ¬a.size + b.size ≤ room := by omega
      have hcut : (a ++ b).extract 0 room = a.extract 0 room := by
        have hroom : room - a.size = 0 := by omega
        rw [ByteArray.extract_append, Nat.zero_sub, hroom, ByteArray.extract_same,
          ByteArray.append_empty]
      simp [write, ha, hab, hcut]

/-! ## The text of steps -/

def indentationAt (indent : String) (level : Nat) : String :=
  String.join (List.replicate level indent)

def lineText (indent : String) (level : Nat) (s : String) : String :=
  if s.isEmpty then "\n" else indentationAt indent level ++ s ++ "\n"

mutual

/-- What a step writes at a level. -/
def Step.textAt (indent : String) (level : Nat) : Step → String
  | .text s => indentationAt indent level ++ s
  | .line s => lineText indent level s
  | .spacedLine s => lineText indent level s ++ "\n"
  | .blank => "\n"
  | .block steps => blockText indent (level + 1) steps

def blockText (indent : String) (level : Nat) : List Step → String
  | [] => ""
  | step :: rest => step.textAt indent level ++ blockText indent level rest

end

namespace CodeWriter

/-- A run that did to the sink what one write of `text` does, and that counted all of it
when it succeeded. The level is the one it began with. -/
structure Wrote (w : CodeWriter) (text : String) (result : Except WriteError Unit)
    (w' : CodeWriter) : Prop where
  sink : w.sink.write text.toUTF8 = (result, w'.sink)
  indent : w'.indent = w.indent
  level : w'.level = w.level
  counted : result = .ok () → w'.counter.written = w.counter.written + text.utf8ByteSize

theorem wrote_nothing (w : CodeWriter) : w.Wrote "" (.ok ()) w where
  sink := by
    obtain ⟨⟨held, room⟩, _⟩ := w
    cases room <;> simp [Sink.write]
  indent := rfl
  level := rfl
  counted := fun _ => rfl

theorem put_wrote (w : CodeWriter) (text : String) :
    w.Wrote text (w.put text).1 (w.put text).2 := by
  unfold put
  cases hw : w.sink.write text.toUTF8 with
  | mk result sink =>
    cases result with
    | ok => exact ⟨hw, rfl, rfl, fun _ => rfl⟩
    | error e => exact ⟨hw, rfl, rfl, nofun⟩

/-- Runs one after the other. -/
theorem Wrote.append {w w₁ w₂ : CodeWriter} {a b : String} {result : Except WriteError Unit}
    (ha : w.Wrote a (.ok ()) w₁) (hb : w₁.Wrote b result w₂) : w.Wrote (a ++ b) result w₂ where
  sink := by
    have hbytes : (a ++ b).toUTF8 = a.toUTF8 ++ b.toUTF8 := String.toByteArray_append
    rw [hbytes, Sink.write_append, ha.sink]
    exact hb.sink
  indent := hb.indent.trans ha.indent
  level := hb.level.trans ha.level
  counted := fun hok => by
    rw [hb.counted hok, ha.counted rfl, String.utf8ByteSize_append, Nat.add_assoc]

/-- Nothing that comes after a failure reaches the sink. -/
theorem Wrote.cut {w w' : CodeWriter} {a : String} {e : WriteError}
    (ha : w.Wrote a (.error e) w') (b : String) : w.Wrote (a ++ b) (.error e) w' where
  sink := by
    have hbytes : (a ++ b).toUTF8 = a.toUTF8 ++ b.toUTF8 := String.toByteArray_append
    rw [hbytes, Sink.write_append, ha.sink]
  indent := ha.indent
  level := ha.level
  counted := nofun

theorem putLine_wrote (w : CodeWriter) (s : String) :
    w.Wrote (lineText w.indent w.level s) (w.putLine s).1 (w.putLine s).2 := by
  unfold putLine lineText
  cases s.isEmpty <;> exact w.put_wrote _

/-- A block one level deeper, seen from the level around it. -/
theorem Wrote.nested {w w' : CodeWriter} {text : String} {result : Except WriteError Unit}
    (h : Wrote { w with level := w.level + 1 } text result w') :
    w.Wrote text result { w' with level := w'.level - 1 } where
  sink := h.sink
  indent := h.indent
  level := by
    rw [h.level]
    exact Nat.add_sub_cancel ..
  counted := h.counted

mutual

theorem runStep_wrote (w : CodeWriter) (step : Step) :
    w.Wrote (step.textAt w.indent w.level) (w.runStep step).1 (w.runStep step).2.1 := by
  cases step with
  | text s => exact w.put_wrote _
  | line s => exact w.putLine_wrote s
  | spacedLine s =>
    have hline := w.putLine_wrote s
    unfold runStep Step.textAt
    cases hl : w.putLine s with
    | mk result w₁ =>
      rw [hl] at hline
      cases result with
      | ok => exact hline.append (w₁.put_wrote "\n")
      | error e => exact hline.cut "\n"
  | blank => exact w.put_wrote _
  | block steps =>
    have h := runBlock_wrote { w with level := w.level + 1 } steps
    exact h.nested

/-- **A run of steps is one write of their text:** the sink takes the same bytes, and the run
fails exactly when that write does. -/
theorem runBlock_wrote (w : CodeWriter) (steps : List Step) :
    w.Wrote (blockText w.indent w.level steps) (w.runBlock steps).1 (w.runBlock steps).2.1 := by
  cases steps with
  | nil => exact w.wrote_nothing
  | cons step rest =>
    have hstep := runStep_wrote w step
    unfold runBlock blockText
    cases hl : w.runStep step with
    | mk result more =>
      obtain ⟨w₁, events⟩ := more
      rw [hl] at hstep
      cases result with
      | ok =>
        have hrest := runBlock_wrote w₁ rest
        rw [hstep.indent, hstep.level] at hrest
        exact hstep.append hrest
      | error e => exact hstep.cut _

end

end CodeWriter
end CommandSpec
