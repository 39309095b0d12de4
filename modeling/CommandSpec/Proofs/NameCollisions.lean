import CommandSpec.Proofs.SnakeNames

/-! When two derived names are the same. What escaping adds to a name in snake case can be told
from the name and taken off again (`Naming.Escaped.unescape`), so it neither makes names
equal nor tells equal ones apart. Names are then the same exactly when their words are, wherever one
segment ends and the next begins (`Naming.collide_iff_words`). -/
namespace CommandSpec.Naming

/-- A name without what escaping put before or behind it. -/
def unescape (cs : List Char) : List Char :=
  match cs with
  | 'r' :: '#' :: body => body
  | '_' :: body => body
  | cs => if cs.getLast? = some '_' then cs.dropLast else cs

theorem unescape_of_snaked {cs : List Char} (h : Snaked cs) : unescape cs = cs := by
  unfold unescape
  split
  · exact absurd h.hash (by simp)
  · exact absurd rfl h.first
  · exact if_neg h.last

/-- No name ends in the `_` that is put behind a reserved word. -/
theorem unescape_concat {cs : List Char} (h : Snaked cs) (hne : cs ≠ []) :
    unescape (cs ++ ['_']) = cs := by
  unfold unescape
  split
  · rename_i body heq
    have hm : '#' ∈ cs ++ ['_'] := heq ▸ by simp
    exact absurd hm (by simpa using h.hash)
  · rename_i body heq
    have hhead : (cs ++ ['_']).head? = some '_' := congrArg List.head? heq
    rw [List.head?_append_of_ne_nil _ hne] at hhead
    exact absurd hhead h.first
  · rw [if_pos List.getLast?_concat, List.dropLast_concat]

theorem Escaped.unescape {name escaped : String} (he : Escaped name escaped)
    (h : Snaked name.toList) : Naming.unescape escaped.toList = name.toList := by
  cases he with
  | reserved hreserved =>
    obtain ⟨hnames, -⟩ :=
      spellsName_of_escaped asciiIdentifiers (List.mem_append_left keywords hreserved)
    rw [String.toList_append]
    exact unescape_concat h hnames.ne_nil
  | keyword =>
    rw [String.toList_append]
    rfl
  | digit =>
    rw [String.toList_append]
    rfl
  | plain => exact unescape_of_snaked h

theorem escapeIdentifier_inj {a b : String} (ha : Snaked a.toList) (hb : Snaked b.toList) :
    escapeIdentifier a = escapeIdentifier b ↔ a = b := by
  constructor
  · intro h
    rw [← String.toList_inj, ← (escaped_escapeIdentifier a).unescape ha, h,
      (escaped_escapeIdentifier b).unescape hb]
  · exact congrArg escapeIdentifier

/-- **Names collide exactly when their words do.** The names of two commands or hooks are the same
if and only if they are so before they are escaped, and if and only if the words of the path and of
the suffix are the same in the same order; those of two options, if and only if the options are the
same in snake case. -/
theorem collide_iff_words (p q : List String) (s t : Option String) (hs : s ∈ hookSuffixes)
    (ht : t ∈ hookSuffixes) :
    (methodName p s = methodName q t ↔ plainName p s = plainName q t) ∧
    (methodName p s = methodName q t ↔
      p.flatMap snakeWords ++ s.toList.flatMap snakeWords =
        q.flatMap snakeWords ++ t.toList.flatMap snakeWords) ∧
    ∀ a b, fieldName a = fieldName b ↔ snakeCase a = snakeCase b := by
  obtain ⟨hp, hpwords⟩ := snaked_plainName p s hs
  obtain ⟨hq, hqwords⟩ := snaked_plainName q t ht
  have hmethods : methodName p s = methodName q t ↔ plainName p s = plainName q t := by
    rw [methodName_eq p s hs, methodName_eq q t ht]
    exact escapeIdentifier_inj hp hq
  refine ⟨hmethods, ?_, fun a b => escapeIdentifier_inj (snaked_snakeCase a) (snaked_snakeCase b)⟩
  rw [hmethods, ← hpwords, ← hqwords, hp.nameParts_inj hq, String.toList_inj]

/-- A command under `move` takes the name of a hook of `move`; reserved words and digits in front
collide like any other. -/
theorem hookBefore_collides :
    methodName ["move", "hookBefore"] none = methodName ["move"] (some "hook_before") ∧
      methodName ["use"] none ≠ methodName ["use"] (some "hook_after") ∧
      fieldName "Self-" = fieldName "self" ∧ fieldName "2-fa" ≠ fieldName "2fa" := by
  have hsame := collide_iff_words ["move", "hookBefore"] ["move"] none (some "hook_before")
    (by decide) (by decide)
  have hother := collide_iff_words ["use"] ["use"] none (some "hook_after") (by decide) (by decide)
  exact ⟨hsame.2.1.mpr (by decide +kernel), mt hother.2.1.mp (by decide +kernel),
    (hsame.2.2 _ _).mpr (by decide +kernel), mt (hsame.2.2 _ _).mp (by decide +kernel)⟩

end CommandSpec.Naming
