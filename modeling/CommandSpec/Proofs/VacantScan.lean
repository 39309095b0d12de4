import CommandSpec.Proofs.DirectiveLines
import CommandSpec.Yaml.Scan

/-! Scanning texts without content. Outside of documents the scanner goes from one vacant line to
the next: it stops behind blanks and comments, takes a marker or a directive as a token, and is
again between lines or on the rest of a vacant one (`Scanner.Idle`). All it gives is the tokens
around documents (`tokens_of_vacant`). -/
namespace CommandSpec.Yaml

/-- Tokens that stand outside of documents. -/
def Token.isFrame : Token → Bool
  | versionDirective .. | tagDirective .. | documentStart | documentEnd | streamEnd => true
  | _ => false

/-! ## Blanks and comments -/

namespace Scanner

/-- The blanks that are skipped; where a key may stand, tabs are none of them. -/
def skipsBlank (s : Scanner) (x : Char) : Bool :=
  x == ' ' || ((s.inFlow || !s.keyAllowed) && x == '\t')

/-- Whether a byte order mark stands at the start of a line. -/
def atOrderMark (s : Scanner) : Bool :=
  s.cursor.mark.column == 0 && s.cursor.peek? == some byteOrderMark

/-- The cursor behind the blanks and the comment that the rest of a line starts with. -/
def behindBlanks (s : Scanner) : Cursor :=
  skipComment ((if s.atOrderMark then s.cursor.skip else s.cursor).skipWhile s.skipsBlank)

theorem skipToToken_succ (fuel : Nat) (s : Scanner) : skipToToken (fuel + 1) s =
    if s.behindBlanks.peek?.any isBreak then
      skipToToken fuel { s with
        cursor := s.behindBlanks.readBreak.2
        keyAllowed := s.keyAllowed || !s.inFlow }
    else { s with cursor := s.behindBlanks } := rfl

/-- Where blanks were skipped on an idle line, a comment or the line's end follows, or a tab. -/
theorem skipComment_of_idle {c : Cursor} (h : isIdle (lineOf c.rest) = true)
    (htab : ∀ x, c.peek? = some x → isSpace x = true → x = '\t') :
    (skipComment c).peek? = some '\t' ∨ atLineEnd (skipComment c).rest = true := by
  cases hpeek : c.peek? with
  | none =>
    rw [skipComment_of_ne (by simp [hpeek])]
    exact .inr (Cursor.atLineEnd_of_peek (by simp [hpeek]))
  | some x =>
    rcases head_of_idle h hpeek with hx | rfl | hx
    · obtain rfl := htab x hpeek hx
      rw [skipComment_of_ne (by simp [hpeek])]
      exact .inl hpeek
    · rw [skipComment, if_pos (by simp [hpeek]), Cursor.skipWhile, Cursor.span_rest]
      exact .inr (atLineEnd_dropWhile c.rest)
    · have hx' : x ≠ '#' := by
        rintro rfl
        exact absurd hx (by decide)
      rw [skipComment_of_ne (by simpa [hpeek] using hx')]
      exact .inr (Cursor.atLineEnd_of_peek (by simpa [hpeek] using hx))

/-- On an idle line the scanner gets to the end, unless a tab stops it. -/
theorem behindBlanks_of_idle (s : Scanner) (h : isIdle (lineOf s.cursor.rest) = true) :
    s.cursor.Along s.behindBlanks ∧
      (s.behindBlanks.peek? = some '\t' ∨ atLineEnd s.behindBlanks.rest = true) := by
  have hmark : s.atOrderMark = false := by
    refine Bool.and_eq_false_imp.mpr fun _ => beq_false_of_ne fun hx => ?_
    exact absurd (head_of_idle h hx) (by decide)
  have hspace : ∀ x, s.skipsBlank x = true → isSpace x = true := by
    intro x hx
    simp only [skipsBlank, Bool.or_eq_true, Bool.and_eq_true] at hx
    rcases hx with hx | ⟨-, hx⟩ <;> simp [isSpace, hx]
  obtain ⟨c, hc⟩ : ∃ c, c = s.cursor.skipWhile s.skipsBlank := ⟨_, rfl⟩
  have hbehind : s.behindBlanks = skipComment c := by
    rw [hc, behindBlanks, hmark]
    rfl
  have hrest : c.rest = s.cursor.rest.dropWhile s.skipsBlank := hc ▸ Cursor.span_rest _ _
  have hskip : s.cursor.Along c := hc ▸ .span (fun x hx => isBreak_of_isSpace (hspace x hx)) _
  have hidle : isIdle (lineOf c.rest) = true := by rw [hrest, isIdle_dropWhile hspace, h]
  have htab : ∀ x, c.peek? = some x → isSpace x = true → x = '\t' := by
    intro x hpeek hx
    have hstop := List.head?_dropWhile_not s.skipsBlank s.cursor.rest
    rw [← hrest, show c.rest.head? = some x from hpeek] at hstop
    obtain rfl | rfl : x = ' ' ∨ x = '\t' := by simpa [isSpace] using hx
    · simp [skipsBlank] at hstop
    · rfl
  rw [hbehind]
  exact ⟨hskip.trans (.skipComment c), skipComment_of_idle hidle htab⟩

/-- At a mark that starts no blank or comment, nothing is skipped. -/
theorem behindBlanks_of_head (s : Scanner) {x : Char} (hx : s.cursor.peek? = some x)
    (hspace : isSpace x = false) (hcomment : x ≠ '#') (hmark : x ≠ byteOrderMark) :
    s.behindBlanks = s.cursor := by
  have hnone : s.atOrderMark = false := by simp [atOrderMark, hx, hmark]
  have hstop : s.cursor.skipWhile s.skipsBlank = s.cursor := by
    refine Cursor.skipWhile_of_head fun y hy => ?_
    obtain rfl : x = y := by simpa [hx] using hy
    have hx : x ≠ ' ' ∧ x ≠ '\t' := by simpa [isSpace] using hspace
    simp [skipsBlank, hx]
  rw [behindBlanks, hnone, if_neg Bool.false_ne_true, hstop,
    skipComment_of_ne (by simpa [hx] using hcomment)]

/-! ## From line to line -/

/-- Outside of documents no keys may come and no blocks are open. -/
structure Outside (s : Scanner) : Prop where
  noKey : s.simpleKey = none
  noOuterKeys : s.outerKeys = []
  noBlocks : s.outer = []
  frames : ∀ t ∈ s.tokens, t.isFrame = true

/-- Where a text without content goes on: on the rest of an idle line, or at the start of another
vacant line. -/
structure OnVacant (c : Cursor) : Prop where
  line : isIdle (lineOf c.rest) = true ∨
    (c.mark.column = 0 ∧
      (isMarkerLine (lineOf c.rest) = true ∨ isDirectiveLine (lineOf c.rest) = true))
  next : isVacant (nextLines c.rest) = true

theorem onVacant_of_lineStart {c : Cursor} (hcolumn : c.mark.column = 0)
    (h : isVacant c.rest = true) : OnVacant c := by
  cases hrest : c.rest with
  | nil => exact ⟨.inl (by rw [hrest]; rfl), by rw [hrest]; rfl⟩
  | cons x rest =>
    obtain ⟨hline, hnext⟩ := (isVacant_iff (by simp [hrest])).mp h
    simp only [isVacantLine, Bool.or_eq_true] at hline
    refine ⟨?_, hnext⟩
    rcases hline with (hline | hline) | hline
    · exact .inl hline
    · exact .inr ⟨hcolumn, .inl hline⟩
    · exact .inr ⟨hcolumn, .inr hline⟩

/-- Between tokens. -/
structure Idle (s : Scanner) : Prop extends Outside s where
  limit : s.cursor.rest.length < s.cursor.limit
  vacant : OnVacant s.cursor

/-- Where a token is read next: at the end, at a tab, which starts none, at a marker or at a
directive. -/
structure Ready (s : Scanner) : Prop extends Outside s where
  limit : s.cursor.rest.length < s.cursor.limit
  stop : s.cursor.rest = [] ∨ s.cursor.peek? = some '\t' ∨
    (s.cursor.mark.column = 0 ∧ isVacant (nextLines s.cursor.rest) = true ∧
      (isMarkerLine (lineOf s.cursor.rest) = true ∨ isDirectiveLine (lineOf s.cursor.rest) = true))

/-- Behind the end of an idle line stands the next vacant line. -/
theorem Idle.nextLine {s : Scanner} (hs : s.Idle) (halong : s.cursor.Along s.behindBlanks)
    (hend : atLineEnd s.behindBlanks.rest = true) (hrest : s.behindBlanks.rest ≠ [])
    (keyAllowed : Bool) :
    Idle { s with cursor := s.behindBlanks.readBreak.2, keyAllowed } ∧
      s.behindBlanks.readBreak.2.rest.length < s.cursor.rest.length := by
  have hnext : s.behindBlanks.readBreak.2.rest = nextLines s.cursor.rest :=
    (Cursor.readBreak_rest hend).trans halong.lines
  have hlength : s.behindBlanks.readBreak.2.rest.length < s.cursor.rest.length := by
    have hle := length_nextLines_le s.cursor.rest
    have hpos := Nat.lt_of_lt_of_le (List.length_pos_iff.mpr hrest) halong.length
    rw [hnext]
    omega
  refine ⟨⟨⟨hs.noKey, hs.noOuterKeys, hs.noBlocks, hs.frames⟩, ?_, ?_⟩, hlength⟩
  · rw [Cursor.readBreak_limit, halong.limit]
    exact Nat.lt_trans hlength hs.limit
  · exact onVacant_of_lineStart (Cursor.readBreak_column hend hrest) (hnext ▸ hs.vacant.next)

/-- Markers and directives do not start with anything that is skipped. -/
theorem behindBlanks_of_mark (s : Scanner)
    (h : isMarkerLine (lineOf s.cursor.rest) = true ∨
      isDirectiveLine (lineOf s.cursor.rest) = true) :
    s.behindBlanks = s.cursor ∧ s.cursor.peek?.any isBreak = false := by
  obtain ⟨x, hx, hspace, hcomment, hmark, hbreak⟩ : ∃ x, s.cursor.peek? = some x ∧
      isSpace x = false ∧ x ≠ '#' ∧ x ≠ byteOrderMark ∧ isBreak x = false := by
    rcases h with h | h
    · obtain ⟨m, rest, hm, hrest, -⟩ := marker_split h
      rcases (by simpa [isMarkerChar] using hm : m = '-' ∨ m = '.') with rfl | rfl
      all_goals exact ⟨_, by rw [Cursor.peek?, hrest]; rfl, by decide⟩
    · obtain ⟨rest, hrest⟩ := directive_split h
      exact ⟨_, by rw [Cursor.peek?, hrest]; rfl, by decide⟩
  exact ⟨s.behindBlanks_of_head hx hspace hcomment hmark, by rw [hx, Option.any_some, hbreak]⟩

theorem skipToToken_ready (fuel : Nat) (s : Scanner) (hs : s.Idle)
    (hfuel : s.cursor.rest.length < fuel) : (skipToToken fuel s).Ready := by
  -- each round but the last takes a line break, so the fuel lasts
  induction fuel generalizing s with
  | zero => omega
  | succ fuel ih =>
    rw [skipToToken_succ]
    rcases hs.vacant.line with hidle | ⟨hcolumn, hmark⟩
    · obtain ⟨halong, hstop⟩ := s.behindBlanks_of_idle hidle
      have hlimit : s.behindBlanks.rest.length < s.behindBlanks.limit :=
        halong.limit ▸ Nat.lt_of_le_of_lt halong.length hs.limit
      rcases hstop with htab | hend
      · rw [htab]
        exact ⟨⟨hs.noKey, hs.noOuterKeys, hs.noBlocks, hs.frames⟩, hlimit, .inr (.inl htab)⟩
      · cases hrest : s.behindBlanks.rest with
        | nil =>
          rw [Cursor.peek?, hrest]
          exact ⟨⟨hs.noKey, hs.noOuterKeys, hs.noBlocks, hs.frames⟩, hlimit, .inl hrest⟩
        | cons x rest =>
          have hx : isBreak x = true := by simpa [hrest, atLineEnd] using hend
          obtain ⟨hnext, hlength⟩ :=
            hs.nextLine halong hend (by simp [hrest]) (s.keyAllowed || !s.inFlow)
          rw [Cursor.peek?, hrest, List.head?_cons, Option.any_some, if_pos hx]
          exact ih _ hnext (Nat.lt_of_lt_of_le hlength (Nat.le_of_lt_succ hfuel))
    · obtain ⟨hstay, hbreak⟩ := s.behindBlanks_of_mark hmark
      rw [hstay, hbreak, if_neg Bool.false_ne_true]
      exact ⟨hs.toOutside, hs.limit, .inr (.inr ⟨hcolumn, hs.vacant.next, hmark⟩)⟩

/-! ## Tokens -/

namespace Outside

variable {s : Scanner}

theorem dropStaleKeys (hs : s.Outside) : s.dropStaleKeys = some s := by
  obtain ⟨cursor, indent, outer, keyAllowed, simpleKey, outerKeys, tokens, count⟩ := s
  obtain rfl : simpleKey = none := hs.noKey
  obtain rfl : outerKeys = [] := hs.noOuterKeys
  rfl

theorem closeBlocks (hs : s.Outside) (column : Int) : s.closeBlocks column = s := by
  obtain ⟨cursor, indent, outer, keyAllowed, simpleKey, outerKeys, tokens, count⟩ := s
  obtain rfl : outerKeys = [] := hs.noOuterKeys
  obtain rfl : outer = [] := hs.noBlocks
  rfl

theorem dropKey (hs : s.Outside) : s.dropKey = some s := by
  obtain ⟨cursor, indent, outer, keyAllowed, simpleKey, outerKeys, tokens, count⟩ := s
  obtain rfl : simpleKey = none := hs.noKey
  rfl

theorem missesKey (hs : s.Outside) : s.missesKey = false := by
  simp [Scanner.missesKey, possibleKeys, hs.noKey, hs.noOuterKeys]

theorem push (hs : s.Outside) {t : Token} (ht : t.isFrame = true) : (s.push t).Outside :=
  ⟨hs.noKey, hs.noOuterKeys, hs.noBlocks, List.forall_mem_cons.mpr ⟨ht, hs.frames⟩⟩

theorem settledTokens (hs : s.Outside) : ∀ t ∈ s.settledTokens, t.isFrame = true :=
  fun t ht => hs.frames t (List.mem_reverse.mp (List.mem_of_mem_take ht))

/-- The state of a scanner outside of documents does not hang on its cursor. -/
theorem at_cursor (hs : s.Outside) (cursor : Cursor) (keyAllowed : Bool) :
    Outside { s with cursor, keyAllowed } :=
  ⟨hs.noKey, hs.noOuterKeys, hs.noBlocks, hs.frames⟩

theorem finish {s' : Scanner} (hs : s.Outside) (h : s.finish = some s') :
    s'.Outside ∧ s'.tokens.head? = some .streamEnd := by
  have hmark (mark : Mark) := hs.at_cursor ⟨s.cursor.rest, mark, s.cursor.limit⟩ s.keyAllowed
  unfold Scanner.finish at h
  dsimp only at h
  rw [(hmark _).closeBlocks, (hmark _).dropKey] at h
  cases h
  exact ⟨(hs.at_cursor _ false).push rfl, rfl⟩

theorem fetchDirective {s' : Scanner} (hs : s.Outside)
    (hlimit : s.cursor.rest.length < s.cursor.limit) (hpercent : s.cursor.peek? = some '%')
    (hnext : isVacant (nextLines s.cursor.rest) = true) (h : s.fetchDirective = some s') :
    s'.Idle := by
  unfold Scanner.fetchDirective at h
  simp only [hs.closeBlocks, hs.dropKey, Option.bind_eq_bind, Option.bind_some] at h
  obtain ⟨⟨t, cursor⟩, hread, h⟩ := Option.bind_eq_some_iff.mp h
  cases h
  obtain ⟨ht, hline⟩ := readDirective_line hpercent hread
  have hframe : t.isFrame = true := by
    rcases ht with ⟨major, minor, rfl⟩ | ⟨handle, expansion, rfl⟩ <;> rfl
  refine ⟨(hs.at_cursor cursor false).push hframe, ?_, ?_⟩
  · exact hline.limit ▸ Nat.lt_of_le_of_lt hline.length hlimit
  · rcases hline.column with hrest | hcolumn
    · exact ⟨.inl (congrArg (isIdle <| lineOf ·) hrest), congrArg (isVacant <| nextLines ·) hrest⟩
    · exact onVacant_of_lineStart hcolumn (hline.rest ▸ hnext)

theorem fetchDocumentMarker {s' : Scanner} (hs : s.Outside)
    (hlimit : s.cursor.rest.length < s.cursor.limit) {m : Char} {rest : List Char}
    (hrest : s.cursor.rest = m :: m :: m :: rest) (hidle : isIdle (lineOf rest) = true)
    (hnext : isVacant (nextLines rest) = true) {t : Token} (ht : t.isFrame = true)
    (h : s.fetchDocumentMarker t = some s') : s'.Idle := by
  unfold Scanner.fetchDocumentMarker at h
  rw [hs.closeBlocks, hs.dropKey] at h
  cases h
  have hbehind : (Cursor.skipMany 3 s.cursor).rest = rest := by
    rw [Cursor.skipMany_rest, hrest]
    rfl
  refine ⟨(hs.at_cursor _ false).push ht, ?_, ?_⟩
  · change (Cursor.skipMany 3 s.cursor).rest.length < (Cursor.skipMany 3 s.cursor).limit
    rw [hbehind, Cursor.skipMany_limit]
    exact Nat.lt_of_le_of_lt (by simp [hrest]; omega) hlimit
  · exact ⟨.inl (hbehind ▸ hidle), hbehind ▸ hnext⟩

end Outside

/-- A token that is fetched is the end of the stream, or the scanner stands between tokens again. -/
theorem Idle.fetch {s s' : Scanner} (hs : s.Idle) (h : s.fetch = some s') :
    s'.Outside ∧ (s'.tokens.head? = some .streamEnd ∨ s'.Idle) := by
  have ht := skipToToken_ready s.cursor.limit s hs hs.limit
  unfold Scanner.fetch at h
  generalize skipToToken s.cursor.limit s = t at h ht
  rw [ht.dropStaleKeys] at h
  simp only [Option.bind_eq_bind, Option.bind_some, ht.closeBlocks] at h
  rcases ht.stop with hrest | htab | ⟨hcolumn, hnext, hmark⟩
  · rw [hrest] at h
    obtain ⟨hout, hend⟩ := ht.finish h
    exact ⟨hout, .inl hend⟩
  · obtain ⟨rest, hrest⟩ : ∃ rest, t.cursor.rest = '\t' :: rest := List.head?_eq_some_iff.mp htab
    -- no token starts with a tab
    rw [hrest] at h
    simp [Cursor.atDocumentMarker, hrest, isSpace] at h
  · rcases hmark with hmark | hmark
    · obtain ⟨m, rest, hm, hrest, hgap, hidle, hlines⟩ := marker_split hmark
      have hdocument : t.cursor.atDocumentMarker = true := by
        rcases (by simpa [isMarkerChar] using hm : m = '-' ∨ m = '.') with rfl | rfl
        all_goals simp [Cursor.atDocumentMarker, hrest, hcolumn, hgap]
      have hpercent : (m == '%') = false := by
        rcases (by simpa [isMarkerChar] using hm : m = '-' ∨ m = '.') with rfl | rfl <;> rfl
      have hframe : (if m == '-' then Token.documentStart else .documentEnd).isFrame = true := by
        split <;> rfl
      simp only [hrest, hpercent, Bool.and_false, hdocument, if_true, Bool.false_eq_true,
        if_false] at h
      have hidle' := ht.fetchDocumentMarker ht.limit hrest hidle (hlines ▸ hnext) hframe h
      exact ⟨hidle'.toOutside, .inr hidle'⟩
    · obtain ⟨rest, hrest⟩ := directive_split hmark
      have hpercent : t.cursor.peek? = some '%' := by rw [Cursor.peek?, hrest]; rfl
      simp only [hrest, hcolumn, beq_self_eq_true, Bool.and_self, if_true] at h
      have hidle' := ht.fetchDirective ht.limit hpercent hnext h
      exact ⟨hidle'.toOutside, .inr hidle'⟩

theorem Idle.run {s : Scanner} (hs : s.Idle) (fuel : Nat) :
    ∀ t ∈ Scanner.run fuel s, t.isFrame = true := by
  induction fuel generalizing s with
  | zero => exact hs.settledTokens
  | succ fuel ih =>
    unfold Scanner.run
    cases hfetch : s.fetch with
    | none => exact hs.settledTokens
    | some next =>
      obtain ⟨hout, hnext⟩ := hs.fetch hfetch
      simp only [hout.missesKey, Bool.false_eq_true, if_false]
      rcases hnext with hend | hidle
      · rw [if_pos (beq_iff_eq.mpr hend)]
        exact fun t ht => hout.frames t (List.mem_reverse.mp ht)
      · split
        · exact fun t ht => hout.frames t (List.mem_reverse.mp ht)
        · exact ih hidle

end Scanner

/-- A text without content gives no tokens of a document. -/
theorem tokens_of_vacant {cs : List Char} (h : isVacant cs = true) :
    ∀ t ∈ tokens cs, t.isFrame = true := by
  unfold tokens
  split
  · refine Scanner.Idle.run ⟨⟨rfl, rfl, rfl, by simp⟩, Nat.lt_succ_self _, ?_⟩ _
    exact Scanner.onVacant_of_lineStart rfl h
  · simp

end CommandSpec.Yaml
