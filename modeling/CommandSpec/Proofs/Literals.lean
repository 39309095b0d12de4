import CommandSpec.Proofs.PlainScalars
import CommandSpec.Proofs.SourceReader
import CommandSpec.Text.Quoted
import Mathlib.Algebra.Group.Nat.Defs

/-! Quoted literals read back. The reader knows the escapes of quotes, bytes and code points, and
ends a literal at the first quote that is not escaped; what it reads of a quoted text is that text,
whatever stands behind it (`readLiteral_quote`). All that is written of a literal shows on its
own (`isPrintable_of_mem_quote`), so no literal goes over the end of its line. -/
namespace CommandSpec.Text
open Yaml (readNat? digitOf?)

/-! ## Reading -/

/-- The character that an escape stands for, and the text behind it; the backslash was read. -/
def readEscape : List Char → Option (Char × List Char)
  | 'n' :: rest => some ('\n', rest)
  | 'r' :: rest => some ('\r', rest)
  | 't' :: rest => some ('\t', rest)
  | '0' :: rest => some ('\x00', rest)
  | '\\' :: rest => some ('\\', rest)
  | '"' :: rest => some ('"', rest)
  | '\x27' :: rest => some ('\x27', rest)
  | 'x' :: high :: low :: rest => do
    let n ← readNat? 16 [high, low]
    if n < 0x80 then some (Char.ofNat n, rest) else none
  | 'u' :: '{' :: rest =>
    match rest.span (· != '}') with
    | (digits, _ :: rest) => do
      let n ← readNat? 16 digits
      if digits.length ≤ 6 ∧ n.isValidChar then some (Char.ofNat n, rest) else none
    | (_, []) => none
  | _ => none

theorem readEscape_length {cs rest : List Char} {c : Char}
    (h : readEscape cs = some (c, rest)) : rest.length < cs.length := by
  unfold readEscape at h
  split at h
  case h_8 high low rest' =>
    obtain ⟨n, -, h⟩ := Option.bind_eq_some_iff.mp h
    obtain ⟨-, h⟩ := Option.ite_none_right_eq_some.mp h
    cases h
    simp only [List.length_cons]
    omega
  case h_9 rest' =>
    split at h
    · rename_i digits last rest'' hspan
      obtain ⟨n, -, h⟩ := Option.bind_eq_some_iff.mp h
      obtain ⟨-, h⟩ := Option.ite_none_right_eq_some.mp h
      cases h
      rw [List.span_eq_takeWhile_dropWhile] at hspan
      have hrest : rest'.dropWhile (· != '}') = last :: rest := congrArg Prod.snd hspan
      have hsuffix : last :: rest <:+ rest' := hrest ▸ List.dropWhile_suffix _
      have hlength := hsuffix.length_le
      simp only [List.length_cons] at hlength ⊢
      omega
    · cases h
  case h_10 => cases h
  all_goals
    cases h
    simp

/-- The text up to the quote that ends it, and what stands behind. -/
def readQuoted : List Char → Option (List Char × List Char)
  | [] => none
  | '"' :: rest => some ([], rest)
  | '\r' :: _ => none
  | '\\' :: rest =>
    match h : readEscape rest with
    | some (c, behind) =>
      have := readEscape_length h
      (readQuoted behind).map fun (cs, rest) => (c :: cs, rest)
    | none => none
  | c :: rest => (readQuoted rest).map fun (cs, rest) => (c :: cs, rest)
termination_by cs => cs.length
decreasing_by
  · simp only [List.length_cons]
    omega
  · simp

/-- The text of a literal and what stands behind it. -/
def readLiteral : List Char → Option (String × List Char)
  | '"' :: rest => (readQuoted rest).map fun (cs, rest) => (String.ofList cs, rest)
  | _ => none

/-! ## Hexadecimal digits -/

theorem digitOf?_hexDigit : ∀ n < 16, digitOf? (hexDigit n) = some n := by decide

theorem readNat?_concat (base : Nat) (cs : List Char) (c : Char) (hne : cs ≠ []) :
    readNat? base (cs ++ [c]) = (readNat? base cs).bind fun n => (digitOf? c).bind fun d =>
      if d < base then some (n * base + d) else none := by
  unfold readNat?
  rw [if_neg (by simp), if_neg (by simpa using hne), List.foldl_append]
  rfl

theorem hexDigits_ne_nil (n : Nat) : hexDigits n ≠ [] := by
  unfold hexDigits
  split <;> simp

theorem readNat?_hexDigits (n : Nat) : readNat? 16 (hexDigits n) = some n := by
  induction n using Nat.strongRecOn with
  | ind n ih =>
    rw [hexDigits]
    split
    · rename_i hn
      simp [readNat?, digitOf?_hexDigit n hn, hn]
    · rename_i hn
      have hdigit : n % 16 < 16 := Nat.mod_lt n (by decide)
      rw [readNat?_concat 16 _ _ (hexDigits_ne_nil _), ih (n / 16) (by omega), Option.bind_some,
        digitOf?_hexDigit _ hdigit, Option.bind_some, if_pos hdigit, Nat.div_add_mod']

theorem length_hexDigits_le (k n : Nat) (h : n < 16 ^ (k + 1)) :
    (hexDigits n).length ≤ k + 1 := by
  induction k generalizing n with
  | zero =>
    have hdigit : n < 16 := by simpa using h
    rw [hexDigits, if_pos hdigit]
    exact Nat.le_refl _
  | succ k ih =>
    rw [hexDigits]
    split
    · simp
    · have hlength := ih (n / 16) (Nat.div_lt_of_lt_mul (by rwa [pow_succ, Nat.mul_comm] at h))
      simp only [List.length_append, List.length_singleton]
      omega

theorem mem_hexDigits {n : Nat} {c : Char} (h : c ∈ hexDigits n) : ∃ d < 16, c = hexDigit d := by
  induction n using Nat.strongRecOn with
  | ind n ih =>
    rw [hexDigits] at h
    split at h
    · rename_i hn
      exact ⟨n, hn, List.mem_singleton.mp h⟩
    · rename_i hn
      rcases List.mem_append.mp h with h | h
      · exact ih (n / 16) (by omega) h
      · exact ⟨n % 16, Nat.mod_lt n (by decide), List.mem_singleton.mp h⟩

/-! ## Quoted texts -/

theorem readQuoted_backslash (rest : List Char) :
    readQuoted ('\\' :: rest) = (readEscape rest).bind fun (c, behind) =>
      (readQuoted behind).map fun (cs, rest) => (c :: cs, rest) := by
  rw [readQuoted]
  split <;> simp [*]

theorem readEscape_codePoint (c : Char) (rest : List Char) :
    readEscape ('u' :: '{' :: (hexDigits c.toNat ++ '}' :: rest)) = some (c, rest) := by
  have hbrace : '}' ∉ hexDigits c.toNat := fun hm => by
    obtain ⟨d, hd, he⟩ := mem_hexDigits hm
    have hdigits : ∀ d < 16, '}' ≠ hexDigit d := by decide
    exact hdigits d hd he
  have hvalid : c.toNat.isValidChar := c.valid
  have hbound : c.toNat < 16 ^ 6 := by
    rcases hvalid with h | ⟨-, h⟩
    · exact Nat.lt_trans h (by decide)
    · exact Nat.lt_trans h (by decide)
  have hlength : (hexDigits c.toNat).length ≤ 6 := length_hexDigits_le 5 _ hbound
  have hspan := SourceText.span_append_cons '}' (hexDigits c.toNat) rest hbrace
  simp only [readEscape, hspan, readNat?_hexDigits, Option.bind_eq_bind, Option.bind_some,
    if_pos (And.intro hlength hvalid), Char.ofNat_toNat]

/-- An escaped character is read as that character, and reading goes on behind it. -/
theorem readQuoted_escapeChar (c : Char) (rest : List Char) :
    readQuoted (escapeChar c ++ rest) =
      (readQuoted rest).map fun (cs, rest) => (c :: cs, rest) := by
  unfold escapeChar
  split
  case h_7 hzero htab hlf hcr hquote hbackslash =>
    split
    · rw [List.singleton_append, readQuoted]
      all_goals assumption
    · rw [List.append_assoc, List.append_assoc]
      refine (readQuoted_backslash _).trans ?_
      exact congrArg (Option.bind · _) (readEscape_codePoint c rest)
  all_goals exact readQuoted_backslash _

theorem readQuoted_escaped (cs rest : List Char) :
    readQuoted (cs.flatMap escapeChar ++ '"' :: rest) = some (cs, rest) := by
  induction cs with
  | nil => rw [List.flatMap_nil, List.nil_append, readQuoted]
  | cons c cs ih =>
    rw [List.flatMap_cons, List.append_assoc, readQuoted_escapeChar, ih]
    rfl

/-- A literal is read up to its own quote, whatever stands behind it. -/
theorem readLiteral_quote (s : String) (rest : List Char) :
    readLiteral ((quote s).toList ++ rest) = some (s, rest) := by
  have hquote : (quote s).toList ++ rest = '"' :: (s.toList.flatMap escapeChar ++ '"' :: rest) := by
    simp [quote]
  rw [hquote, readLiteral, readQuoted_escaped]
  simp

/-! ## What literals are written with -/

theorem isPrintable_of_mem_escapeChar {c d : Char} (h : d ∈ escapeChar c) :
    isPrintable d = true := by
  have hdigits : ∀ n < 16, isPrintable (hexDigit n) = true := by decide
  unfold escapeChar at h
  split at h
  case h_7 =>
    split at h
    · rename_i hc
      rwa [List.mem_singleton.mp h]
    · simp only [List.mem_append, List.mem_cons, List.not_mem_nil, or_false] at h
      rcases h with ((rfl | rfl | rfl) | h) | rfl
      · rfl
      · rfl
      · rfl
      · obtain ⟨n, hn, rfl⟩ := mem_hexDigits h
        exact hdigits n hn
      · rfl
  all_goals
    simp only [List.mem_cons, List.not_mem_nil, or_false] at h
    rcases h with rfl | rfl <;> rfl

theorem isPrintable_of_mem_quote {s : String} {c : Char} (h : c ∈ (quote s).toList) :
    isPrintable c = true := by
  simp only [quote, String.toList_ofList, List.mem_append, List.mem_singleton,
    List.mem_flatMap] at h
  rcases h with (rfl | ⟨d, -, h⟩) | rfl
  · rfl
  · exact isPrintable_of_mem_escapeChar h
  · rfl

end CommandSpec.Text
