import CommandSpec.Bindings.Generate
import CommandSpec.Proofs.Rendering

/-! What is left on a sink that fills up. Generating is planning and then one run of steps, so
the source of a plan reaches any sink as if it were written at once; a sink of limited room
ends up with a prefix of it. -/
namespace CommandSpec

/-- The source of the bindings of a plan. -/
def Plan.source (config : Config) (p : Plan) : String :=
  blockText "    " 0 (Layout.module config p)

/-- What a module starts with. -/
def Config.moduleOpening (config : Config) : String :=
  blockText "    " 0 [.spacedLine Layout.header, .line ("pub mod " ++ config.moduleText ++ " \x7b")]

/-- A module is its first lines, its body and a closing line. -/
theorem Plan.source_eq (config : Config) (p : Plan) :
    p.source config =
      config.moduleOpening ++ (blockText "    " 1 (Layout.moduleBody config p) ++ "\x7d\n") := by
  simp [source, Config.moduleOpening, Layout.module, blockText, Step.textAt, lineText,
    indentationAt, String.append_assoc]

theorem Text.decodeLossy_toUTF8 (s : String) : Text.decodeLossy s.toUTF8 = s := by
  unfold Text.decodeLossy
  rw [Text.fromUTF8?_toUTF8]

/-- With a plan, generating writes its source and counts all of it. -/
theorem generate_eq_write (document : Document) (config : Config) (p : Plan)
    (h : Plan.build document config = .ok p) (sink : Sink) :
    generate document config sink = match sink.write (p.source config).toUTF8 with
      | (.ok (), sink) => (.ok (p.source config).utf8ByteSize, sink)
      | (.error e, sink) => (.error (.io e), sink) := by
  let w : CodeWriter := { sink, indent := "    " }
  have hrun : w.Wrote (p.source config) _ _ := w.runBlock_wrote (Layout.module config p)
  unfold generate
  rw [h, hrun.sink]
  cases hw : w.runBlock (Layout.module config p) with
  | mk result more =>
    rw [hw] at hrun
    dsimp only [w] at hw
    cases result with
    | ok =>
      have hcounted : more.1.counter.written = (p.source config).utf8ByteSize :=
        (hrun.counted rfl).trans (Nat.zero_add _)
      simp only [hw, hcounted]
    | error e => simp only [hw]

theorem generateText_eq_source (document : Document) (config : Config) (p : Plan)
    (h : Plan.build document config = .ok p) :
    generateText document config = .ok (p.source config) := by
  have hsink : Sink.write {} (p.source config).toUTF8 =
      (.ok (), ⟨(p.source config).toUTF8, none⟩) := by
    simp [Sink.write]
  unfold generateText
  rw [generate_eq_write document config p h, hsink]
  exact congrArg Except.ok (Text.decodeLossy_toUTF8 _)

/-- An empty sink takes all bytes it has room for. -/
theorem Sink.write_fresh (n : Nat) (bytes : ByteArray) :
    Sink.write ⟨.empty, some n⟩ bytes =
      if bytes.size ≤ n then (.ok (), ⟨bytes, some (n - bytes.size)⟩)
      else (.error sinkFull, ⟨bytes.extract 0 n, some 0⟩) := by
  unfold write
  simp only [ByteArray.empty_append]

/-- **A sink that fills up keeps a prefix of the source.** Nothing is written without a plan.
With one, a sink with room for `n` bytes ends up with all of the source and the length is
returned, or with its first `n` bytes and the sink's error is returned. -/
theorem generate_on_limited_sink (document : Document) (config : Config) (n : Nat) :
    match Plan.build document config with
    | .error e =>
      generateText document config = .error (.plan e) ∧
        generate document config ⟨.empty, some n⟩ = (.error (.plan e), ⟨.empty, some n⟩)
    | .ok _ => ∃ text, generateText document config = .ok text ∧
        generate document config ⟨.empty, some n⟩ =
          if text.utf8ByteSize ≤ n then
            (.ok text.utf8ByteSize, ⟨text.toUTF8, some (n - text.utf8ByteSize)⟩)
          else (.error (.io sinkFull), ⟨text.toUTF8.extract 0 n, some 0⟩) := by
  cases h : Plan.build document config with
  | error e =>
    unfold generateText generate
    rw [h]
    exact ⟨rfl, rfl⟩
  | ok p =>
    have hsize : (p.source config).toUTF8.size = (p.source config).utf8ByteSize := rfl
    refine ⟨p.source config, generateText_eq_source document config p h, ?_⟩
    rw [generate_eq_write document config p h, Sink.write_fresh, hsize]
    by_cases hn : (p.source config).utf8ByteSize ≤ n
    · simp only [if_pos hn]
    · simp only [if_neg hn]

end CommandSpec
