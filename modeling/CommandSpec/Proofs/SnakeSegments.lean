import CommandSpec.Proofs.AsciiNames
import Mathlib.Data.List.SplitBy

/-! Snake case as a cutting of the text. A text is cut at everything that is no letter or digit, and
each run that is left once more in front of the capitals that start a word. The loop decides one
character at a time where a word ends, from what it has read and written so far; in the end it has
written the pieces in lower case with one `_` between them (`Naming.snakeCase_eq_segments`). -/
namespace CommandSpec

/-- An element that is related to the first one goes to its part. -/
theorem splitBy_cons_of_rel {α : Type} {r : α → α → Bool} {a b : α} {l : List α}
    (h : r a b = true) : (a :: b :: l).splitBy r = ((b :: l).splitBy r).modifyHead (a :: ·) := by
  obtain ⟨hflatten, hne, hchain, hcuts⟩ := List.splitBy_eq_iff.mp (rfl : (b :: l).splitBy r = _)
  cases hsplit : (b :: l).splitBy r with
  | nil => exact absurd hsplit (List.splitBy_ne_nil.mpr (by simp))
  | cons first more =>
    rw [hsplit] at hflatten hne hchain hcuts
    cases first with
    | nil => exact absurd (List.mem_cons_self ..) hne
    | cons d first =>
      obtain ⟨rfl, hl⟩ := List.cons.inj hflatten
      obtain ⟨hfirst, hmore⟩ := List.forall_mem_cons.mp hchain
      obtain ⟨hcut, hcuts⟩ := List.isChain_cons.mp hcuts
      refine List.splitBy_eq_iff.mpr ⟨?_, by simpa using hne, ?_, List.isChain_cons.mpr ⟨?_, hcuts⟩⟩
      · rw [hl]
        rfl
      · exact List.forall_mem_cons.mpr ⟨hfirst.cons_cons h, hmore⟩
      · intro next hnext
        obtain ⟨_, hb, hr⟩ := hcut next hnext
        exact ⟨by simp, hb, by simpa using hr⟩

namespace Naming
open Text

/-! ## Segments -/

/-- The characters of a text, each with the one that follows it. -/
def withNext : List Char → List (Char × Option Char)
  | [] => []
  | c :: rest => (c, rest.head?) :: withNext rest

/-- Whether a run of letters and digits is cut in front of `c`, where `before` stands before it in
the run and `after` behind it in the text. -/
def cutsBetween (before c : Char) (after : Option Char) : Bool :=
  isUpper c && (isLower before || before.isDigit || (isUpper before && after.any isLower))

/-- The pieces that a run is cut into. -/
def pieces (run : List (Char × Option Char)) : List (List Char) :=
  (run.splitBy fun p q => !cutsBetween p.1 q.1 q.2).map (·.map Prod.fst)

/-- The pieces of all runs of letters and digits in a text. -/
def segments (cs : List Char) : List (List Char) :=
  ((withNext cs).splitOnP fun p => !isAlphanumeric p.1).flatMap pieces

/-- Whether a text goes on with the piece of the character before it. -/
def continues (before : Char) : List Char → Bool
  | [] => false
  | c :: rest => isAlphanumeric before && isAlphanumeric c && !cutsBetween before c rest.head?

theorem pieces_cons_cut (c : Char) (after : Option Char) (run : List (Char × Option Char))
    (h : ∀ p ∈ run.head?, cutsBetween c p.1 p.2 = true) :
    pieces ((c, after) :: run) = [c] :: pieces run := by
  cases run with
  | nil => rfl
  | cons p run =>
    have hp := h p rfl
    unfold pieces
    rw [← List.singleton_append, List.splitBy_append_cons _ (by simpa using hp)]
    rfl

theorem pieces_cons_join (c : Char) (after : Option Char) (p : Char × Option Char)
    (run : List (Char × Option Char)) (h : cutsBetween c p.1 p.2 = false) :
    pieces ((c, after) :: p :: run) = (pieces (p :: run)).modifyHead (c :: ·) := by
  unfold pieces
  rw [splitBy_cons_of_rel (by simp [h])]
  cases (p :: run).splitBy _ <;> rfl

theorem segments_cons_of_not {c : Char} (h : isAlphanumeric c = false) (rest : List Char) :
    segments (c :: rest) = segments rest := by
  unfold segments
  rw [withNext, List.splitOnP_cons_eq_if_modifyHead, if_pos (by simp [h])]
  rfl

/-- A letter or digit belongs to the first piece behind it or is one by itself. -/
theorem segments_cons {c : Char} (h : isAlphanumeric c = true) (rest : List Char) :
    segments (c :: rest) =
      if continues c rest then (segments rest).modifyHead (c :: ·) else [c] :: segments rest := by
  unfold segments
  rw [withNext, List.splitOnP_cons_eq_if_modifyHead, if_neg (by simp [h])]
  cases rest with
  | nil => rfl
  | cons d rest =>
    rw [withNext, List.splitOnP_cons_eq_if_modifyHead]
    by_cases hd : isAlphanumeric d = true
    · rw [if_neg (by simp [hd])]
      obtain ⟨run, runs, hruns⟩ := List.exists_cons_of_ne_nil (List.splitOnP_ne_nil
        (fun p : Char × Option Char => !isAlphanumeric p.1) (withNext rest))
      rw [hruns]
      simp only [List.modifyHead_cons, List.flatMap_cons]
      by_cases hcut : cutsBetween c d rest.head? = true
      · rw [pieces_cons_cut _ _ _ (by simpa using hcut), if_neg (by simp [continues, hcut])]
        rfl
      · rw [pieces_cons_join _ _ _ _ (by simpa using hcut),
          if_pos (by simpa [continues, h, hd] using hcut)]
        cases hpieces : pieces ((d, rest.head?) :: run) with
        | nil => exact absurd hpieces (by simp [pieces])
        | cons piece more => rfl
    · rw [if_pos (by simpa using hd), if_neg (by simp [continues, hd])]
      rfl

theorem segments_ne_nil {c : Char} (h : isAlphanumeric c = true) (rest : List Char) :
    segments (c :: rest) ≠ [] := by
  induction rest generalizing c with
  | nil => simp [segments_cons h, continues]
  | cons d rest ih =>
    rw [segments_cons h]
    split
    · rename_i hjoined
      simp only [continues, Bool.and_eq_true] at hjoined
      cases hsegments : segments (d :: rest) with
      | nil => exact absurd hsegments (ih hjoined.1.2)
      | cons piece more => simp
    · simp

theorem segments_ne_nil_of_continues {c : Char} {cs : List Char} (h : continues c cs = true) :
    segments cs ≠ [] := by
  cases cs with
  | nil => cases h
  | cons d rest =>
    simp only [continues, Bool.and_eq_true] at h
    exact segments_ne_nil h.1.2 rest

/-! ## Lower case -/

/-- Pieces in lower case, with one `_` between them. -/
def joinLower (parts : List (List Char)) : List Char :=
  ['_'].intercalate (parts.map (·.flatMap toLower))

theorem joinLower_singleton (c : Char) : joinLower [[c]] = toLower c := by
  simp [joinLower]

theorem joinLower_cons_cons (c : Char) (next : List Char) (more : List (List Char)) :
    joinLower ([c] :: next :: more) = toLower c ++ '_' :: joinLower (next :: more) := by
  simp [joinLower]

theorem joinLower_modifyHead (c : Char) (piece : List Char) (more : List (List Char)) :
    joinLower ((c :: piece) :: more) = toLower c ++ joinLower (piece :: more) := by
  cases more <;> simp [joinLower]

theorem toLower_ne_nil (c : Char) : toLower c ≠ [] := by
  have hexpansions : ∀ e ∈ toLowerExpansions, e.2 ≠ [] := by decide
  unfold toLower
  split
  · simp
  · unfold mapCase
    split
    · rename_i cs hcs
      obtain ⟨before, after, htable, -⟩ := List.lookup_eq_some_iff.mp hcs
      exact hexpansions (c.toNat, cs) (by simp [htable])
    · split <;> simp

/-! ## Ends of words -/

theorem separate_of_end {written : List Char} (h : ∀ c ∈ written.head?, c = '_') :
    separate written = written := by
  cases written with
  | nil => rfl
  | cons c rest =>
    obtain rfl := h c rfl
    rfl

theorem separate_of_letter {c : Char} (h : c ≠ '_') (rest : List Char) :
    separate (c :: rest) = '_' :: c :: rest := by
  unfold separate
  split
  · rename_i heq
    cases heq
  · rename_i heq
    exact absurd (List.cons.inj heq).1 h
  · rfl

theorem head?_separate (written : List Char) : ∀ c ∈ (separate written).head?, c = '_' := by
  unfold separate
  split <;> simp

theorem dropWhile_separate (written : List Char) :
    (separate written).dropWhile (· == '_') = written.dropWhile (· == '_') := by
  unfold separate
  split <;> rfl

/-! ## The loop -/

/-- What is written, backwards, with pieces put behind it. The first of them goes on with the last
word that is written, or starts one. -/
def finish (written : List Char) (joined : Bool) (parts : List (List Char)) : List Char :=
  if parts = [] then (written.dropWhile (· == '_')).reverse
  else (if joined then written else separate written).reverse ++ joinLower parts

theorem finish_separate (written : List Char) (parts : List (List Char)) :
    finish (separate written) false parts = finish written false parts := by
  simp [finish, dropWhile_separate, separate_of_end (head?_separate written)]

/-- A letter that is written is the front of the pieces behind it. -/
theorem finish_letter {c : Char} (h : isAlphanumeric c = true) (written rest : List Char) :
    finish ((toLower c).reverse ++ written) (continues c rest) (segments rest) =
      written.reverse ++ joinLower (segments (c :: rest)) := by
  obtain ⟨d, more, hd⟩ :=
    List.exists_cons_of_ne_nil (List.reverse_ne_nil_iff.mpr (toLower_ne_nil c))
  have hne : d ≠ '_' := fun heq => underscore_not_mem (lettered_toLower c h)
    (List.mem_reverse.mp (hd ▸ heq ▸ List.mem_cons_self ..))
  have hend : ((toLower c).reverse ++ written).dropWhile (· == '_') =
      (toLower c).reverse ++ written := by
    rw [hd, List.cons_append, List.dropWhile_cons_of_neg (by simpa using hne)]
  have hseparate : separate ((toLower c).reverse ++ written) =
      '_' :: ((toLower c).reverse ++ written) := by
    rw [hd, List.cons_append, separate_of_letter hne]
  rw [segments_cons h]
  unfold finish
  by_cases hjoined : continues c rest = true
  · have hsome := segments_ne_nil_of_continues hjoined
    obtain ⟨piece, more, hsegments⟩ := List.exists_cons_of_ne_nil hsome
    rw [if_neg hsome, if_pos hjoined, if_pos hjoined, hsegments, List.modifyHead_cons,
      joinLower_modifyHead]
    simp
  · rw [if_neg hjoined]
    cases hsegments : segments rest with
    | nil =>
      rw [if_pos rfl, hend, if_neg hjoined, joinLower_singleton]
      simp
    | cons piece more =>
      rw [if_neg (by simp), if_neg hjoined, hseparate, joinLower_cons_cons]
      simp

/-- The loop ends a word where no piece goes on. -/
theorem separate_at_start {before : Option Char} {written : List Char}
    (h : before.any isAlphanumeric = true ∨ ∀ c ∈ written.head?, c = '_') {c : Char}
    (hc : isAlphanumeric c = true) (rest : List Char) :
    (if startsWord before c rest.head? = true then separate written else written) =
      if before.any (continues · (c :: rest)) = true then written else separate written := by
  rcases h with h | h
  · cases before with
    | none => cases h
    | some b =>
      have hb : isAlphanumeric b = true := h
      have hstart : startsWord (some b) c rest.head? = cutsBetween b c rest.head? := rfl
      rw [hstart, Option.any_some, continues, hb, hc]
      cases cutsBetween b c rest.head? <;> rfl
  · rw [separate_of_end h, ite_self, ite_self]

/-- The loop puts the pieces of what it reads behind what is written. Unless the character just read
is a letter or a digit, what is written ends in `_` already. -/
theorem snakeCaseLoop_eq (before : Option Char) (written cs : List Char)
    (h : before.any isAlphanumeric = true ∨ ∀ c ∈ written.head?, c = '_') :
    ((snakeCaseLoop before written cs).dropWhile (· == '_')).reverse =
      finish written (before.any (continues · cs)) (segments cs) := by
  induction cs generalizing before written with
  | nil => rfl
  | cons c rest ih =>
    unfold snakeCaseLoop
    by_cases hc : isAlphanumeric c = true
    · rw [if_pos hc, ih (some c) _ (Or.inl hc), Option.any_some, finish_letter hc,
        separate_at_start h hc, finish, if_neg (segments_ne_nil hc rest)]
    · -- the word before ends here, and a second end changes nothing
      have hc : isAlphanumeric c = false := by simpa using hc
      have hjoined : before.any (continues · (c :: rest)) = false := by
        cases before <;> simp [continues, hc]
      have hrest : continues c rest = false := by
        cases rest <;> simp [continues, hc]
      rw [if_neg (by simp [hc]), ih (some c) _ (Or.inr (head?_separate written)), Option.any_some,
        hrest, finish_separate, hjoined, segments_cons_of_not hc]

theorem snakeCase_eq_joinLower (ident : String) :
    snakeCase ident = String.ofList (joinLower (segments ident.toList)) := by
  unfold snakeCase
  rw [snakeCaseLoop_eq none [] ident.toList (Or.inr nofun)]
  unfold finish
  cases segments ident.toList <;> rfl

/-! ## Texts in snake case -/

/-- Lower-case letters and digits start no word and stay as they are. -/
theorem snakeLetter_kept {c : Char} (h : isSnakeLetter c = true) :
    isAlphanumeric c = true ∧ isUpper c = false ∧ toLower c = [c] := by
  have hfixed : ∀ n < 0x80, isSnakeLetter (Char.ofNat n) = true →
      (Char.ofNat n).isUpper = false ∧ (Char.ofNat n).toLower = Char.ofNat n := by decide
  obtain ⟨hascii, halphanum⟩ := ascii_of_isSnakeLetter h
  have hc := hfixed c.toNat hascii
  rw [Char.ofNat_toNat] at hc
  obtain ⟨hupper, hlower⟩ := hc h
  exact ⟨by simp [isAlphanumeric, hascii, halphanum], by simp [isUpper, hascii, hupper],
    by simp [toLower, hascii, hlower]⟩

/-- The loop writes what it reads, as long as no `_` comes first or behind another. -/
theorem snakeCaseLoop_of_lower (before : Option Char) (written cs : List Char)
    (hlower : IsLowerText cs) (hapart : cs.IsChain Apart)
    (hfirst : cs.head? = some '_' → ∃ c rest, written = c :: rest ∧ c ≠ '_') :
    snakeCaseLoop before written cs = cs.reverse ++ written := by
  induction cs generalizing before written with
  | nil => rfl
  | cons c rest ih =>
    obtain ⟨hc, hrest⟩ := List.forall_mem_cons.mp hlower
    obtain ⟨hnext, hmore⟩ := List.isChain_cons.mp hapart
    unfold snakeCaseLoop
    by_cases hletter : isSnakeLetter c = true
    · obtain ⟨halphanum, hupper, hlower⟩ := snakeLetter_kept hletter
      have hstart : startsWord before c rest.head? = false := by simp [startsWord, hupper]
      have hne : c ≠ '_' := by
        rintro rfl
        cases hletter
      have hloop := ih (some c) (c :: written) hrest hmore fun _ => ⟨c, written, rfl, hne⟩
      rw [if_pos halphanum, hstart, hlower]
      exact hloop.trans (by simp)
    · obtain rfl := hc.resolve_left hletter
      obtain ⟨d, more, rfl, hne⟩ := hfirst rfl
      have hhead : rest.head? ≠ some '_' := fun hhead => hnext '_' hhead ⟨rfl, rfl⟩
      rw [if_neg (by decide), separate_of_letter hne, ih _ _ hrest hmore fun h => absurd h hhead]
      simp

/-- A text in snake case is its own snake case. -/
theorem snakeCase_of_snaked {ident : String} (hsnaked : Snaked ident.toList)
    (hlower : IsLowerText ident.toList) : snakeCase ident = ident := by
  have hloop : snakeCaseLoop none [] ident.toList = ident.toList.reverse := by
    rw [snakeCaseLoop_of_lower none [] ident.toList hlower hsnaked.apart
      fun h => absurd h hsnaked.first, List.append_nil]
  have hend : ident.toList.reverse.dropWhile (· == '_') = ident.toList.reverse := by
    have hlast := hsnaked.last
    rw [← List.head?_reverse] at hlast
    cases hreverse : ident.toList.reverse with
    | nil => rfl
    | cons c rest =>
      rw [hreverse] at hlast
      exact List.dropWhile_cons_of_neg (by simpa using hlast)
  rw [snakeCase, hloop, hend, List.reverse_reverse, String.ofList_toList]

/-- **Snake case is the pieces of a text in lower case, with one `_` between them.** It has no `_`
at either end and no two in a row; that of an ASCII text is lower-case letters, digits and `_`, and
its own snake case. -/
theorem snakeCase_eq_segments (ident : String) :
    snakeCase ident = "_".intercalate ((segments ident.toList).map fun piece =>
        String.ofList (piece.flatMap toLower)) ∧
      ((snakeCase ident).toList.head? ≠ some '_' ∧ (snakeCase ident).toList.getLast? ≠ some '_' ∧
        (snakeCase ident).toList.IsChain Apart) ∧
      (IsAscii ident → IsLowerText (snakeCase ident).toList ∧
        snakeCase (snakeCase ident) = snakeCase ident) := by
  have hsnaked := snaked_snakeCase ident
  refine ⟨?_, ⟨hsnaked.first, hsnaked.last, hsnaked.apart⟩, fun hascii => ?_⟩
  · rw [snakeCase_eq_joinLower]
    refine String.toList_inj.mp ?_
    rw [String.toList_ofList, String.toList_intercalate, List.map_map]
    simp [joinLower, Function.comp_def]
  · have hlower := lower_snakeCase hascii
    exact ⟨hlower, snakeCase_of_snaked hsnaked hlower⟩

/-- Several capitals, a digit before a capital, and separators at the end and in a row. -/
theorem mixedName_segments :
    segments "HTTPProxy--getV2URL ".toList =
        ["HTTP".toList, "Proxy".toList, "get".toList, "V2".toList, "URL".toList] ∧
      IsAscii "HTTPProxy--getV2URL " ∧
      snakeCase "HTTPProxy--getV2URL " = "http_proxy_get_v2_url" ∧
      IsLowerText "http_proxy_get_v2_url".toList ∧
      snakeCase "http_proxy_get_v2_url" = "http_proxy_get_v2_url" := by
  have hsegments : segments "HTTPProxy--getV2URL ".toList =
      ["HTTP".toList, "Proxy".toList, "get".toList, "V2".toList, "URL".toList] := by
    decide
  have hascii : IsAscii "HTTPProxy--getV2URL " := by decide
  obtain ⟨htext, -, hfixed⟩ := snakeCase_eq_segments "HTTPProxy--getV2URL "
  have hsnake : snakeCase "HTTPProxy--getV2URL " = "http_proxy_get_v2_url" := by
    rw [htext, hsegments]
    decide
  have hfixed := hfixed hascii
  rw [hsnake] at hfixed
  exact ⟨hsegments, hascii, hsnake, hfixed⟩

end Naming
end CommandSpec
