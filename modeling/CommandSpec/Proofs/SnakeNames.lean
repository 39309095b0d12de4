import CommandSpec.Proofs.Identifiers
import Mathlib.Data.List.Chain

/-! Snake case as a normal form. A name in snake case has no `_` at either end, no two in a row and
no `#` (`Naming.snaked_snakeCase`), so it is its parts with one `_` between them, and the parts tell
it from every other such name (`Snaked.nameParts_inj`). The name of a path or of a hook is one too,
with the parts of the segments and of the suffix in order (`Naming.snaked_plainName`). -/
namespace CommandSpec

/-- Not both are `_`. -/
def Apart (a b : Char) : Prop := ¬(a = '_' ∧ b = '_')

/-- No `_` at either end and no two in a row. A `#` stands in raw names only. -/
structure Snaked (cs : List Char) : Prop where
  first : cs.head? ≠ some '_'
  last : cs.getLast? ≠ some '_'
  apart : cs.IsChain Apart
  hash : '#' ∉ cs

/-- What stands between the underscores of a name, where anything does. -/
def nameParts (cs : List Char) : List (List Char) := (cs.splitOn '_').filter (!·.isEmpty)

theorem nameParts_append (a b : List Char) :
    nameParts (a ++ '_' :: b) = nameParts a ++ nameParts b := by
  rw [nameParts, List.splitOn_append_cons_self, List.filter_append]
  rfl

theorem isChain_apart_of_not_mem {cs : List Char} (h : '_' ∉ cs) : cs.IsChain Apart := by
  have hpairs : cs.Pairwise Apart :=
    List.pairwise_iff_forall_sublist.mpr fun hs hab => h (hs.subset (by simp [hab.1]))
  exact hpairs.isChain

namespace Snaked

variable {a b cs : List Char}

theorem nil : Snaked [] := ⟨nofun, nofun, .nil, nofun⟩

theorem join (ha : Snaked a) (hb : Snaked b) (hane : a ≠ []) (hbne : b ≠ []) :
    Snaked (a ++ '_' :: b) := by
  obtain ⟨d, rest, rfl⟩ := List.exists_cons_of_ne_nil hbne
  refine ⟨?_, ?_, List.isChain_append.mpr ⟨ha.apart, List.isChain_cons.mpr ⟨?_, hb.apart⟩, ?_⟩, ?_⟩
  · rw [List.head?_append_of_ne_nil _ hane]
    exact ha.first
  · rw [List.getLast?_append_of_ne_nil _ (by simp), List.getLast?_cons_cons]
    exact hb.last
  · exact fun c hc hboth => hb.first (hboth.2 ▸ hc)
  · exact fun c hc _ _ hboth => ha.last (hboth.1 ▸ hc)
  · rw [List.mem_append, List.mem_cons, not_or, not_or]
    exact ⟨ha.hash, by decide, hb.hash⟩

/-- Without a `_` at the end and two in a row, only the first piece of a split may be empty, and
only before a `_`. -/
theorem splitOn_eq (hne : cs ≠ []) (hlast : cs.getLast? ≠ some '_') (hapart : cs.IsChain Apart) :
    ∃ first rest, cs.splitOn '_' = first :: rest ∧ (cs.head? ≠ some '_' → first ≠ []) ∧
      ∀ part ∈ rest, part ≠ [] := by
  induction cs with
  | nil => exact absurd rfl hne
  | cons c more ih =>
    obtain ⟨hnext, hapart⟩ := List.isChain_cons.mp hapart
    rw [List.splitOn_cons_eq_if_modifyHead]
    cases more with
    | nil =>
      have hc : c ≠ '_' := by simpa using hlast
      exact ⟨[c], [], by simp [hc], by simp, by simp⟩
    | cons d tail =>
      rw [List.getLast?_cons_cons] at hlast
      obtain ⟨first, rest, hsplit, hfirst, hrest⟩ := ih (by simp) hlast hapart
      rw [hsplit]
      by_cases hc : c = '_'
      · have hd : d ≠ '_' := fun hd => hnext d rfl ⟨hc, hd⟩
        have hfirst : first ≠ [] := hfirst (by simpa using hd)
        exact ⟨[], first :: rest, by simp [hc], by simp [hc],
          List.forall_mem_cons.mpr ⟨hfirst, hrest⟩⟩
      · exact ⟨c :: first, rest, by simp [hc], by simp, hrest⟩

/-- A name is its parts with one `_` between them. -/
theorem intercalate_nameParts (h : Snaked cs) : ['_'].intercalate (nameParts cs) = cs := by
  by_cases hne : cs = []
  · subst hne
    rfl
  · obtain ⟨first, rest, hsplit, hfirst, hrest⟩ := splitOn_eq hne h.last h.apart
    have hparts : nameParts cs = cs.splitOn '_' := by
      rw [nameParts, List.filter_eq_self, hsplit]
      have hall : ∀ part ∈ first :: rest, part ≠ [] :=
        List.forall_mem_cons.mpr ⟨hfirst h.first, hrest⟩
      simpa using hall
    rw [hparts, List.intercalate_splitOn]

theorem nameParts_inj (ha : Snaked a) (hb : Snaked b) : nameParts a = nameParts b ↔ a = b := by
  constructor
  · intro h
    rw [← ha.intercalate_nameParts, h, hb.intercalate_nameParts]
  · exact congrArg nameParts

end Snaked

namespace Naming
open Text

/-! ## Snake case -/

/-- Ending a word puts no second `_`. What is written so far stands backwards. -/
theorem apart_separate {written : List Char} (h : written.IsChain Apart) :
    (separate written).IsChain Apart := by
  unfold separate
  split
  · exact h
  · exact h
  · rename_i hne
    refine List.isChain_cons.mpr ⟨fun c hc hboth => ?_, h⟩
    obtain ⟨rest, hwritten⟩ := List.head?_eq_some_iff.mp hc
    exact hne rest (hboth.2 ▸ hwritten)

theorem apart_snakeCaseLoop (before : Option Char) (written cs : List Char)
    (h : written.IsChain Apart) : (snakeCaseLoop before written cs).IsChain Apart := by
  induction cs generalizing before written with
  | nil => exact h
  | cons c rest ih =>
    unfold snakeCaseLoop
    split
    · rename_i hc
      have hlower : '_' ∉ (toLower c).reverse := fun hm =>
        underscore_not_mem (lettered_toLower c hc) (List.mem_reverse.mp hm)
      refine ih _ _ (List.isChain_append.mpr ⟨isChain_apart_of_not_mem hlower, ?_, ?_⟩)
      · split
        · exact apart_separate h
        · exact h
      · exact fun d hd _ _ hboth => hlower (hboth.1 ▸ List.mem_of_getLast? hd)
    · exact ih _ _ (apart_separate h)

theorem snaked_snakeCase (ident : String) : Snaked (snakeCase ident).toList := by
  have hlist : (snakeCase ident).toList =
      ((snakeCaseLoop none [] ident.toList).dropWhile (· == '_')).reverse := String.toList_ofList
  have hjoins := joins_snakeCase ident
  refine ⟨hjoins.first, ?_, ?_, hjoins.hash_not_mem (lettered_snakeLetters ident)⟩
  · rw [hlist, List.getLast?_reverse]
    intro hhead
    have hdropped := List.head?_dropWhile_not (· == '_') (snakeCaseLoop none [] ident.toList)
    rw [hhead] at hdropped
    cases hdropped
  · rw [hlist, List.isChain_reverse]
    have hloop := apart_snakeCaseLoop none [] ident.toList .nil
    exact (hloop.suffix (List.dropWhile_suffix _)).imp fun _ _ h hboth => h hboth.symm

/-! ## Escaping -/

/-- What escaping makes of a name. -/
inductive Escaped (name : String) : String → Prop
  | reserved (h : name ∈ reservedWords) : Escaped name (name ++ "_")
  | keyword (h : name ∈ keywords) : Escaped name ("r#" ++ name)
  | digit (h : startsWithDigit name.toList = true) : Escaped name ("_" ++ name)
  | plain (hword : name ∉ languageWords) (h : startsWithDigit name.toList = false) :
      Escaped name name

theorem escaped_escapeIdentifier (name : String) : Escaped name (escapeIdentifier name) := by
  unfold escapeIdentifier
  split
  · rename_i hreserved
    exact .reserved (by simpa using hreserved)
  · split
    · rename_i hkeyword
      exact .keyword (by simpa using hkeyword)
    · split
      · rename_i hdigit
        exact .digit hdigit
      · rename_i hreserved hkeyword hdigit
        refine .plain (fun hm => ?_) (by simpa using hdigit)
        rcases List.mem_append.mp (mem_escaped_of_mem_languageWords name hm) with hm | hm
        · exact hreserved (by simpa using hm)
        · exact hkeyword (by simpa using hm)

/-! ## Paths and suffixes -/

/-- Two names with a `_` between them, where there are two. -/
def joinNames (a b : String) : String :=
  if a = "" then b else if b = "" then a else a ++ "_" ++ b

theorem snaked_joinNames {a b : String} (ha : Snaked a.toList) (hb : Snaked b.toList) :
    Snaked (joinNames a b).toList ∧
      nameParts (joinNames a b).toList = nameParts a.toList ++ nameParts b.toList := by
  unfold joinNames
  split
  · rename_i hempty
    exact ⟨hb, by rw [hempty]; rfl⟩
  · split
    · rename_i hempty
      exact ⟨ha, by rw [hempty]; exact (List.append_nil _).symm⟩
    · rename_i hane hbne
      rw [String.toList_append, String.toList_append, List.append_assoc]
      exact ⟨ha.join hb (by simpa using hane) (by simpa using hbne), nameParts_append ..⟩

/-- The words of a text, as its snake case shows them. -/
def snakeWords (ident : String) : List (List Char) := nameParts (snakeCase ident).toList

theorem pathSnakeCase_cons (segment : String) (rest : List String) :
    pathSnakeCase (segment :: rest) = joinNames (snakeCase segment) (pathSnakeCase rest) := by
  unfold joinNames pathSnakeCase
  split
  · rename_i hempty
    rw [List.map_cons, List.filter_cons_of_neg (by simp [hempty])]
  · rename_i hne
    rw [List.map_cons, List.filter_cons_of_pos (by simpa using hne)]
    cases hparts : (rest.map snakeCase).filter (!·.isEmpty) with
    | nil => simp
    | cons part parts =>
      have hpart : part ≠ "" := by
        have hm : part ∈ (rest.map snakeCase).filter (!·.isEmpty) := by simp [hparts]
        simpa using (List.mem_filter.mp hm).2
      have hne : "_".intercalate (part :: parts) ≠ "" := by
        cases parts <;> simp [hpart]
      rw [if_neg hne, String.intercalate_cons_cons]

/-- The name of a path, the suffix included, as it is before it is escaped. -/
def plainName (path : List String) (suffix : Option String) : String :=
  joinNames (pathSnakeCase path) (suffix.getD "")

/-- What may stand behind the path in the name of a method. -/
def hookSuffixes : List (Option String) := [none, some "hook_before", some "hook_after"]

theorem methodName_eq (path : List String) (suffix : Option String) (hs : suffix ∈ hookSuffixes) :
    methodName path suffix = escapeIdentifier (plainName path suffix) := by
  have hsuffix : ∀ suffix ∈ hookSuffixes, suffix ≠ some "" := by decide
  unfold methodName plainName joinNames
  cases suffix with
  | none => by_cases hbase : pathSnakeCase path = "" <;> simp [hbase]
  | some text =>
    have hne : text ≠ "" := fun h => hsuffix _ hs (congrArg some h)
    by_cases hbase : pathSnakeCase path = ""
    · simp [hbase]
    · simp [hbase, hne]

theorem snaked_pathSnakeCase (path : List String) :
    Snaked (pathSnakeCase path).toList ∧
      nameParts (pathSnakeCase path).toList = path.flatMap snakeWords := by
  induction path with
  | nil => exact ⟨.nil, rfl⟩
  | cons segment rest ih =>
    obtain ⟨hsnaked, hparts⟩ := snaked_joinNames (snaked_snakeCase segment) ih.1
    rw [pathSnakeCase_cons, List.flatMap_cons, ← ih.2]
    exact ⟨hsnaked, hparts⟩

/-- The words of the segments and of the suffix are the parts of the name. -/
theorem snaked_plainName (path : List String) (suffix : Option String)
    (hs : suffix ∈ hookSuffixes) :
    Snaked (plainName path suffix).toList ∧
      nameParts (plainName path suffix).toList =
        path.flatMap snakeWords ++ suffix.toList.flatMap snakeWords := by
  -- the suffixes are in snake case already
  have hsuffix : ∀ suffix ∈ hookSuffixes, snakeCase (suffix.getD "") = suffix.getD "" := by
    decide
  have hwords : suffix.toList.flatMap snakeWords = nameParts (suffix.getD "").toList := by
    cases suffix with
    | none => rfl
    | some text =>
      have htext : snakeCase text = text := hsuffix (some text) hs
      rw [Option.toList_some, List.flatMap_singleton, snakeWords, htext]
      rfl
  have htext : Snaked (suffix.getD "").toList := hsuffix suffix hs ▸ snaked_snakeCase _
  obtain ⟨hpath, hparts⟩ := snaked_pathSnakeCase path
  rw [hwords, ← hparts]
  exact snaked_joinNames hpath htext

end Naming
end CommandSpec
