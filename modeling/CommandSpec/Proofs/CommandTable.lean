import CommandSpec.Proofs.LayoutLines
import CommandSpec.Proofs.Literals
import CommandSpec.Proofs.ReadableSource

/-! The command table read back. The constant is the last item of a module, so its reader starts
at the last line that opens it; what stands before may hold configured names with line ends and
code of their own. Each row is read field by field, every value from the left up to its own end
(`rowReader_rowLines`), and the rows are those of the commands in walk order
(`commandTable_reads_back`). -/
namespace CommandSpec

namespace SourceText
open Layout Text

/-! ## What is read -/

/-- A row of the table as its literals say. -/
structure TableRow where
  path : List String
  identifier : String
  method : Option String
  /-- The type name of the options. -/
  options : Option String
  usage : Option String
  description : Option String
  minArgs : Nat
  maxArgs : Nat
  hasSubcommands : Bool
  deriving DecidableEq

/-- Reads a value and leaves what stands behind it. -/
abbrev ValueReader (α : Type) := List Char → Option (α × List Char)

/-- What stands behind a fixed text. -/
def behind (s : String) (cs : List Char) : Option (List Char) := cs.dropPrefix? s.toList

def readOptionalLiteral : ValueReader (Option String) := fun cs =>
  match behind "None" cs with
  | some rest => some (none, rest)
  | none => do
    let rest ← behind "Some(" cs
    let (s, rest) ← readLiteral rest
    return (some s, ← behind ")" rest)

/-- As many literals as there are with a comma between two of them. -/
def readLiterals (cs : List Char) : List String × List Char :=
  match readLiteral cs with
  | none => ([], cs)
  | some (s, rest) =>
    match behind ", " rest with
    | none => ([s], rest)
    | some more =>
      if more.length < cs.length then
        let (ss, rest) := readLiterals more
        (s :: ss, rest)
      else ([s], rest)
termination_by cs.length

def readLiteralList : ValueReader (List String) := fun cs => do
  let rest ← behind "&[" cs
  let (ss, rest) := readLiterals rest
  return (ss, ← behind "]" rest)

def readDecimal : ValueReader Nat := fun cs =>
  let (digits, rest) := cs.span Char.isDigit
  (Yaml.readNat? 10 digits).map fun n => (n, rest)

def readTruth : ValueReader Bool := fun cs =>
  match behind "true" cs with
  | some rest => some (true, rest)
  | none => (behind "false" cs).map fun rest => (false, rest)

/-- The value behind the name of a field; nothing but a comma stands behind it. -/
def readValue {α : Type} (start : String) (read : ValueReader α) (line : List Char) : Option α := do
  let rest ← behind start line
  let (a, rest) ← read rest
  if rest = [','] then some a else none

def readFixed (s : String) (line : List Char) : Option Unit :=
  if line = s.toList then some () else none

def rowReader : LineReader TableRow := do
  next (readFixed "CommandEntry \x7b")
  let path ← next (readValue "path: " readLiteralList)
  let identifier ← next (readValue "identifier: " readLiteral)
  let method ← next (readValue "method: " readOptionalLiteral)
  let options ← next (readValue "options: " readOptionalLiteral)
  let usage ← next (readValue "usage: " readOptionalLiteral)
  let description ← next (readValue "description: " readOptionalLiteral)
  let minArgs ← next (readValue "min_args: " readDecimal)
  let maxArgs ← next (readValue "max_args: " readDecimal)
  let hasSubcommands ← next (readValue "has_sub_commands: " readTruth)
  next (readFixed "\x7d,")
  return {
    path, identifier, method, options, usage, description, minArgs, maxArgs, hasSubcommands }

/-- The lines from the last one on that begins with `start`. -/
def fromLast (start : List Char) : List (List Char) → List (List Char)
  | [] => []
  | line :: rest =>
    if rest.any start.isPrefixOf then fromLast start rest
    else if start.isPrefixOf line then line :: rest
    else []

/-- The rows of the constant, which is empty or spread over lines. -/
def tableReader : LineReader (List TableRow) := fun lines =>
  if lines.head? = some "pub const COMMANDS: &[CommandEntry] = &[];".toList then
    some ([], lines.tail)
  else (do
    next (readFixed "pub const COMMANDS: &[CommandEntry] = &[")
    let rows ← many rowReader
    next (readFixed "];")
    return rows : LineReader (List TableRow)) lines

def readCommands (text : String) : Option (List TableRow) :=
  (tableReader (fromLast "pub const COMMANDS: ".toList (codeLines text.toList))).map Prod.fst

/-! ## Values that were written -/

theorem behind_append (s : String) (rest : List Char) : behind s (s.toList ++ rest) = some rest :=
  List.dropPrefix?_append_of_beq _ (beq_self_eq_true _)

theorem readOptionalLiteral_written (s : Option String) (rest : List Char) :
    readOptionalLiteral ((optionalLiteral s).toList ++ rest) = some (s, rest) := by
  unfold readOptionalLiteral
  cases s with
  | none => rw [optionalLiteral, behind_append]
  | some s =>
    have htext : (optionalLiteral (some s)).toList ++ rest =
        "Some(".toList ++ ((quote s).toList ++ (")".toList ++ rest)) := by
      simp [optionalLiteral, String.toList_append]
    have hnone (cs : List Char) : behind "None" ("Some(".toList ++ cs) = none := rfl
    rw [htext, hnone]
    simp only [behind_append, readLiteral_quote, Option.bind_eq_bind, Option.bind_some]
    rfl

theorem readLiterals_written (ss : List String) (rest : List Char) :
    readLiterals ((", ".intercalate (ss.map quote)).toList ++ ']' :: rest) =
      (ss, ']' :: rest) := by
  rw [String.toList_intercalate, List.map_map]
  induction ss with
  | nil =>
    rw [readLiterals]
    rfl
  | cons s ss ih =>
    cases ss with
    | nil =>
      have hliteral := readLiteral_quote s (']' :: rest)
      rw [List.map_singleton, List.intercalate_singleton, Function.comp, readLiterals, hliteral]
      rfl
    | cons next more =>
      let others := ", ".toList.intercalate ((next :: more).map (String.toList ∘ quote)) ++
        ']' :: rest
      have htext : ", ".toList.intercalate ((s :: next :: more).map (String.toList ∘ quote)) ++
          ']' :: rest = (quote s).toList ++ (", ".toList ++ others) := by
        simp [others, List.intercalate_cons_cons]
      have hlength : others.length < ((quote s).toList ++ (", ".toList ++ others)).length := by
        have hcomma : 0 < ", ".toList.length := by decide
        simp only [List.length_append]
        omega
      rw [htext, readLiterals, readLiteral_quote]
      simp only [behind_append, if_pos hlength, others, ih]

theorem readLiteralList_written (ss : List String) (rest : List Char) :
    readLiteralList (("&[" ++ ", ".intercalate (ss.map quote) ++ "]").toList ++ rest) =
      some (ss, rest) := by
  have htext : ("&[" ++ ", ".intercalate (ss.map quote) ++ "]").toList ++ rest =
      "&[".toList ++ ((", ".intercalate (ss.map quote)).toList ++ ("]".toList ++ rest)) := by
    simp [String.toList_append]
  have hliterals : readLiterals ((", ".intercalate (ss.map quote)).toList ++ ("]".toList ++ rest)) =
      (ss, "]".toList ++ rest) := readLiterals_written ss rest
  unfold readLiteralList
  rw [htext, behind_append, Option.bind_eq_bind, Option.bind_some, hliterals]
  simp only [behind_append, Option.bind_some]
  rfl

theorem readDecimal_written (n : Nat) (rest : List Char) :
    readDecimal ((toString n).toList ++ ',' :: rest) = some (n, ',' :: rest) := by
  have hdigits : ∀ c ∈ Nat.toDigits 10 n, c.isDigit = true := fun c hc =>
    Nat.isDigit_of_mem_toDigits (by decide) (by decide) hc
  have hspan : (Nat.toDigits 10 n ++ ',' :: rest).span Char.isDigit =
      (Nat.toDigits 10 n, ',' :: rest) := by
    rw [List.span_eq_takeWhile_dropWhile, List.takeWhile_append_of_pos hdigits,
      List.dropWhile_append_of_pos hdigits]
    simp
  have hread : Yaml.readNat? 10 (Nat.toDigits 10 n) = some n := by
    rw [Yaml.readNat?_digits _ Nat.toDigits_ne_nil hdigits,
      Nat.ofDigitChars_toDigits (by decide) (by decide)]
  have htext : (toString n).toList = Nat.toDigits 10 n := Nat.toList_repr
  unfold readDecimal
  rw [htext, hspan]
  simp only [hread, Option.map_some]

theorem readTruth_written (b : Bool) (rest : List Char) :
    readTruth ((if b then "true" else "false").toList ++ rest) = some (b, rest) := by
  unfold readTruth
  cases b with
  | true => rw [if_pos rfl, behind_append]
  | false =>
    have htrue (cs : List Char) : behind "true" ("false".toList ++ cs) = none := rfl
    rw [if_neg (by decide), htrue, behind_append]
    rfl

theorem readValue_framed {α : Type} (start value : String) (read : ValueReader α) (a : α)
    (h : read (value.toList ++ [',']) = some (a, [','])) :
    readValue start read (framed start "," value.toList) = some a := by
  have hline : framed start "," value.toList = start.toList ++ (value.toList ++ [',']) := by
    simp [framed]
  unfold readValue
  rw [hline, behind_append, Option.bind_eq_bind, Option.bind_some, h]
  rfl

/-! ## Rows -/

/-- The literals of a row. -/
def tableRow (e : TableEntry) : TableRow where
  path := e.path
  identifier := e.identifier
  method := e.method
  options := e.options.map recordTypeName
  usage := e.usage
  description := e.description
  minArgs := e.minArgs.toNat
  maxArgs := e.maxArgs.toNat
  hasSubcommands := e.hasSubcommands

def rowLines (e : TableEntry) : List (List Char) :=
  ["CommandEntry \x7b".toList,
   framed "path: " "," ("&[" ++ ", ".intercalate (e.path.map quote) ++ "]").toList,
   framed "identifier: " "," (quote e.identifier).toList,
   framed "method: " "," (optionalLiteral e.method).toList,
   framed "options: " "," (optionalLiteral (e.options.map recordTypeName)).toList,
   framed "usage: " "," (optionalLiteral e.usage).toList,
   framed "description: " "," (optionalLiteral e.description).toList,
   framed "min_args: " "," (toString e.minArgs.toNat).toList,
   framed "max_args: " "," (toString e.maxArgs.toNat).toList,
   framed "has_sub_commands: " "," (if e.hasSubcommands then "true" else "false").toList,
   "\x7d,".toList]

theorem rowReader_rowLines (e : TableEntry) (rest : List (List Char)) :
    rowReader (rowLines e ++ rest) = some (tableRow e, rest) := by
  have hpath := readValue_framed "path: " _ _ _ (readLiteralList_written e.path [','])
  have hidentifier := readValue_framed "identifier: " _ _ _ (readLiteral_quote e.identifier [','])
  have hoptional (start : String) (s : Option String) :=
    readValue_framed start _ _ _ (readOptionalLiteral_written s [','])
  have hdecimal (start : String) (n : Nat) :=
    readValue_framed start _ _ _ (readDecimal_written n [])
  have htruth := readValue_framed "has_sub_commands: " _ _ _
    (readTruth_written e.hasSubcommands [','])
  unfold rowReader rowLines
  refine (bind_next_eq (readFixed _) _ _ _ () rfl).trans ?_
  refine (bind_next_eq _ _ _ _ _ hpath).trans ?_
  refine (bind_next_eq _ _ _ _ _ hidentifier).trans ?_
  refine (bind_next_eq _ _ _ _ _ (hoptional "method: " e.method)).trans ?_
  refine (bind_next_eq _ _ _ _ _ (hoptional "options: " _)).trans ?_
  refine (bind_next_eq _ _ _ _ _ (hoptional "usage: " e.usage)).trans ?_
  refine (bind_next_eq _ _ _ _ _ (hoptional "description: " e.description)).trans ?_
  refine (bind_next_eq _ _ _ _ _ (hdecimal "min_args: " _)).trans ?_
  refine (bind_next_eq _ _ _ _ _ (hdecimal "max_args: " _)).trans ?_
  refine (bind_next_eq _ _ _ _ _ htruth).trans ?_
  exact bind_next_eq (readFixed _) _ _ _ () rfl

theorem lineEnd_not_mem_quote (s : String) : '\n' ∉ (quote s).toList := fun h =>
  absurd (isPrintable_of_mem_quote h) (by decide)

theorem lineEnd_not_mem_optionalLiteral (s : Option String) :
    '\n' ∉ (optionalLiteral s).toList := by
  cases s with
  | none => decide
  | some s => simp [optionalLiteral, String.toList_append, lineEnd_not_mem_quote]

theorem lineEnd_not_mem_toString (n : Nat) : '\n' ∉ (toString n).toList := fun h =>
  absurd (Nat.isDigit_of_mem_toDigits (b := 10) (n := n) (by decide) (by decide)
    (Nat.toList_repr ▸ h)) (by decide)

theorem lineEnd_not_mem_literals (ss : List String) :
    '\n' ∉ (", ".intercalate (ss.map quote)).toList := by
  rw [String.toList_intercalate, List.map_map]
  induction ss with
  | nil => exact List.not_mem_nil
  | cons s ss ih =>
    have hs := lineEnd_not_mem_quote s
    cases ss with
    | nil => simpa using hs
    | cons next more =>
      rw [List.map_cons, List.map_cons, List.intercalate_cons_cons]
      exact List.not_mem_append (List.not_mem_append hs (by decide)) ih

theorem renders_tableEntry (e : TableEntry) : Renders (tableEntry e) (rowLines e) := by
  have hvalue (start value : String)
      (hcode : ∀ cs, codeLine (start.toList ++ cs) = some (start.toList ++ cs))
      (hstart : '\n' ∉ start.toList) (hvalue : '\n' ∉ value.toList) :
      Renders [.line (start ++ value ++ ",")] [framed start "," value.toList] :=
    renders_framed start "," value hcode hstart (by decide) hvalue
  have hpath : Renders [.line ("path: &[" ++ ", ".intercalate (e.path.map quote) ++ "],")]
      [framed "path: " "," ("&[" ++ ", ".intercalate (e.path.map quote) ++ "]").toList] := by
    have htext : "path: &[" ++ ", ".intercalate (e.path.map quote) ++ "]," =
        "path: " ++ ("&[" ++ ", ".intercalate (e.path.map quote) ++ "]") ++ "," :=
      String.toList_inj.mp (by simp [String.toList_append])
    rw [htext]
    have hliterals := lineEnd_not_mem_literals e.path
    refine hvalue "path: " _ (fun _ => rfl) (by decide) ?_
    rw [String.toList_append, String.toList_append]
    exact List.not_mem_append (List.not_mem_append (by decide) hliterals) (by decide)
  have htruth : '\n' ∉ (if e.hasSubcommands then "true" else "false").toList := by
    cases e.hasSubcommands <;> decide
  have hfields := hpath.append <|
    (hvalue "identifier: " _ (fun _ => rfl) (by decide)
      (lineEnd_not_mem_quote e.identifier)).append <|
    (hvalue "method: " _ (fun _ => rfl) (by decide)
      (lineEnd_not_mem_optionalLiteral e.method)).append <|
    (hvalue "options: " _ (fun _ => rfl) (by decide)
      (lineEnd_not_mem_optionalLiteral (e.options.map recordTypeName))).append <|
    (hvalue "usage: " _ (fun _ => rfl) (by decide)
      (lineEnd_not_mem_optionalLiteral e.usage)).append <|
    (hvalue "description: " _ (fun _ => rfl) (by decide)
      (lineEnd_not_mem_optionalLiteral e.description)).append <|
    (hvalue "min_args: " _ (fun _ => rfl) (by decide)
      (lineEnd_not_mem_toString e.minArgs.toNat)).append <|
    (hvalue "max_args: " _ (fun _ => rfl) (by decide)
      (lineEnd_not_mem_toString e.maxArgs.toNat)).append <|
    hvalue "has_sub_commands: " _ (fun _ => rfl) (by decide) htruth
  have hopen : Renders [.line (tableEntryTypeName ++ " \x7b")] ["CommandEntry \x7b".toList] :=
    Renders.line "CommandEntry \x7b" (by decide)
  have hclose : Renders [.line "\x7d,"] ["\x7d,".toList] := Renders.line "\x7d," (by decide)
  exact hopen.append (hfields.block.append hclose)

/-! ## The constant -/

/-- The steps that write the constant. -/
def tableConstant (table : List TableEntry) : List Step :=
  if table.isEmpty then
    [.line ("pub const COMMANDS: &[" ++ tableEntryTypeName ++ "] = &[];")]
  else
    [.line ("pub const COMMANDS: &[" ++ tableEntryTypeName ++ "] = &["),
     .block (table.flatMap tableEntry),
     .line "];"]

def constantLines (table : List TableEntry) : List (List Char) :=
  if table.isEmpty then ["pub const COMMANDS: &[CommandEntry] = &[];".toList]
  else "pub const COMMANDS: &[CommandEntry] = &[".toList ::
    (table.flatMap rowLines ++ ["];".toList])

theorem renders_tableConstant (table : List TableEntry) :
    Renders (tableConstant table) (constantLines table) := by
  unfold tableConstant constantLines
  split
  · exact Renders.line "pub const COMMANDS: &[CommandEntry] = &[];" (by decide)
  · have hopen : Renders [.line ("pub const COMMANDS: &[" ++ tableEntryTypeName ++ "] = &[")]
        ["pub const COMMANDS: &[CommandEntry] = &[".toList] :=
      Renders.line "pub const COMMANDS: &[CommandEntry] = &[" (by decide)
    have hrows : Renders (table.flatMap tableEntry) (table.flatMap rowLines) :=
      Renders.flatMap _ _ _ fun e _ => renders_tableEntry e
    have hclose : Renders [.line "];"] ["];".toList] := Renders.line "];" (by decide)
    exact hopen.append (hrows.block.append hclose)

theorem tableReader_constantLines (table : List TableEntry) (rest : List (List Char)) :
    tableReader (constantLines table ++ rest) = some (table.map tableRow, rest) := by
  unfold constantLines
  cases table with
  | nil => rfl
  | cons e table =>
    have hrows := many_written rowReader tableRow rowLines (e :: table) ("];".toList :: rest)
      (fun e _ => ⟨List.cons_ne_nil _ _, rowReader_rowLines e⟩)
      (bind_eq_none _ _ _ (next_eq_none _ _ _ rfl))
    unfold tableReader
    rw [if_neg (by simp), List.isEmpty_cons, if_neg (by decide), List.cons_append,
      List.append_assoc]
    refine (bind_next_eq (readFixed _) _ _ _ () rfl).trans ?_
    refine (bind_eq_of_eq _ _ _ _ _ hrows).trans ?_
    exact bind_next_eq (readFixed _) _ _ _ () rfl

theorem fromLast_append (start : List Char) (before rest : List (List Char)) (line : List Char)
    (hline : start.isPrefixOf line = true) (hrest : ∀ l ∈ rest, start.isPrefixOf l = false) :
    fromLast start (before ++ line :: rest) = line :: rest := by
  induction before with
  | nil =>
    have hany : rest.any start.isPrefixOf = false := List.any_eq_false.mpr fun l hl => by
      rw [hrest l hl]
      decide
    rw [List.nil_append, fromLast, hany, if_neg (by decide), if_pos hline]
  | cons first before ih =>
    have hany : (before ++ line :: rest).any start.isPrefixOf = true :=
      List.any_eq_true.mpr ⟨line, by simp, hline⟩
    rw [List.cons_append, fromLast, if_pos hany, ih]

/-- Only the first line of the constant opens it. -/
theorem constantLines_eq_cons (table : List TableEntry) : ∃ line rest,
    constantLines table = line :: rest ∧ "pub const COMMANDS: ".toList.isPrefixOf line = true ∧
      ∀ l ∈ rest, "pub const COMMANDS: ".toList.isPrefixOf l = false := by
  unfold constantLines
  split
  · exact ⟨_, [], rfl, rfl, by simp⟩
  · refine ⟨_, _, rfl, rfl, fun l hl => ?_⟩
    rcases List.mem_append.mp hl with hl | hl
    · obtain ⟨e, -, hl⟩ := List.mem_flatMap.mp hl
      simp only [rowLines, List.mem_cons, List.not_mem_nil, or_false] at hl
      rcases hl with rfl | rfl | rfl | rfl | rfl | rfl | rfl | rfl | rfl | rfl | rfl <;> rfl
    · obtain rfl := List.mem_singleton.mp hl
      rfl

/-! ## The module -/

theorem codeLines_append (text rest : List Char) :
    codeLines (text ++ '\n' :: rest) = codeLines text ++ codeLines rest := by
  unfold codeLines
  rw [List.splitOn_eq_splitOnP, List.splitOnP_append_cons _ _ (by simp), List.filterMap_append]
  rfl

/-- A module with a table ends with the constant and a closing line. -/
theorem source_tableConstant (config : Config) (p : Plan) (h : config.commandTable = true) :
    ∃ front, p.source config =
      front ++ "\n" ++ blockText "    " 1 (tableConstant p.table) ++ "\x7d\n" := by
  obtain ⟨steps, hsteps⟩ : ∃ steps,
      moduleBody config p = steps ++ ([.spacedLine "\x7d"] ++ tableConstant p.table) := by
    unfold moduleBody commandTable
    rw [if_pos h]
    exact ⟨_, (List.append_assoc _ (_ :: [_, _, _]) _).symm.trans (by rfl)⟩
  refine ⟨config.moduleOpening ++ (blockText "    " 1 steps ++ lineText "    " 1 "\x7d"), ?_⟩
  have hclose : blockText "    " 1 [.spacedLine "\x7d"] = lineText "    " 1 "\x7d" ++ "\n" := by
    simp [blockText, Step.textAt]
  rw [p.source_eq, hsteps, blockText_append, blockText_append, hclose]
  simp only [String.append_assoc]

theorem readCommands_source (config : Config) (p : Plan) (h : config.commandTable = true) :
    readCommands (p.source config) = some (p.table.map tableRow) := by
  obtain ⟨front, hfront⟩ := source_tableConstant config p h
  obtain ⟨line, rest, hlines, hline, hrest⟩ := constantLines_eq_cons p.table
  have hcode : codeLines (p.source config).toList =
      codeLines front.toList ++ line :: (rest ++ [closeLine]) := by
    have htext : (p.source config).toList = front.toList ++ '\n' ::
        ((blockText "    " 1 (tableConstant p.table)).toList ++ "\x7d\n".toList) := by
      simp [hfront, String.toList_append]
    rw [htext, codeLines_append, renders_tableConstant, hlines]
    rfl
  have hrest : ∀ l ∈ rest ++ [closeLine],
      "pub const COMMANDS: ".toList.isPrefixOf l = false :=
    List.forall_mem_append.mpr ⟨hrest, List.forall_mem_singleton.mpr rfl⟩
  unfold readCommands
  rw [hcode, fromLast_append _ _ _ _ hline hrest, ← List.cons_append, ← hlines,
    tableReader_constantLines]
  rfl

end SourceText

/-! ## The rows of a document -/

open SourceText

/-- What the table says of a command. -/
def Site.row (s : Site) : TableRow where
  path := s.path
  identifier := Naming.nodeIdentifier s.path
  method := if s.isBranch then none else some (Naming.methodName s.path none)
  options := s.inForce.map EmbeddedRecord.typeName
  usage := s.declaration.usage
  description := s.declaration.description
  minArgs := s.declaration.minArgs.toNat
  maxArgs := s.declaration.maxArgs.toNat
  hasSubcommands := s.isBranch

theorem Site.tableRow_tableEntry (s : Site) : tableRow s.tableEntry = s.row := by
  unfold tableRow tableEntry row
  rw [Option.map_map]
  rfl

theorem Document.table_topDownPlan (document : Document) (config : Config)
    (h : config.commandTable = true) :
    (document.topDownPlan config).table = (document.sites config).map Site.tableEntry := by
  have hsite (s : Site) : (s.bindings config).table = [s.tableEntry] := if_pos h
  have hcommands : ((document.sites config).map (Site.bindings config)).flatMap
      NodeBindings.table = (document.sites config).map Site.tableEntry := by
    rw [List.flatMap_map, List.map_eq_flatMap]
    exact List.flatMap_congr fun s _ => hsite s
  exact hcommands

/-- **The command table reads back.** It has one row for each command, in the order of a walk:
each command before those below it, siblings in the order of their names. A row has the path, the
names, the texts and the bounds of its command. Whatever a text holds, its literal stays on one
line and is read up to its own quote. -/
theorem commandTable_reads_back (document : Document) (config : Config) (text : String)
    (ht : config.commandTable = true) (h : generateText document config = .ok text) :
    readCommands text = some ((document.sites config).map Site.row) ∧
      (document.sites config).map Site.toCommandVisit = document.commands.forest.visits [] ∧
      (document.sites config).Pairwise (·.path < ·.path) ∧
      ∀ s rest, (∀ c ∈ (Text.quote s).toList, Text.isPrintable c = true ∧ c ≠ '\n') ∧
        Text.readLiteral ((Text.quote s).toList ++ rest) = some (s, rest) := by
  obtain ⟨p, hp, rfl⟩ := build_of_generateText document config text h
  obtain ⟨-, -, -, rfl⟩ := (Plan.build_eq_ok_iff ..).mp hp
  have hvisits : (document.sites config).map Site.toCommandVisit =
      document.commands.forest.visits [] := CommandForest.sites_toCommandVisit _ _ _
  refine ⟨?_, hvisits, ?_, fun s rest => ⟨fun c hc => ?_, Text.readLiteral_quote s rest⟩⟩
  · rw [readCommands_source config _ ht, document.table_topDownPlan config ht, List.map_map]
    exact congrArg some (List.map_congr_left fun s _ => s.tableRow_tableEntry)
  · have hpairwise := document.commands.forest.visits_pairwise document.commands.ordered []
    rw [← hvisits, List.pairwise_map] at hpairwise
    exact hpairwise
  · refine ⟨Text.isPrintable_of_mem_quote hc, ?_⟩
    rintro rfl
    exact lineEnd_not_mem_quote s hc

/-- A branch whose usage looks like the end of the table, and a leaf whose name and description
hold quotes, a line end and a character that joins the one before it. -/
def textsLikeSource : Document where
  commands := ({} : Commands).insert "run"
    { usage := some "Some(\"x\"),\n];\npub const COMMANDS: &[CommandEntry] = &[];"
      options := [.inline { name := "fast", typeTag := "bool" }]
      commands := ({} : Commands).insert "a\"\\"
        { description := some "e\u0301 \x27\r\n\x01"
          minArgs := 1
          maxArgs := 4294967295 } }

theorem textsLikeSource_reads_back :
    ({ commandTable := true } : Config).commandTable = true ∧
      ∃ text, generateText textsLikeSource { commandTable := true } = .ok text ∧
        readCommands text = some
          [⟨["run"], "Run", none, some "RunOptions",
            some "Some(\"x\"),\n];\npub const COMMANDS: &[CommandEntry] = &[];", none, 0, 0, true⟩,
           ⟨["run", "a\"\\"], "RunA", some "run_a", some "RunOptions", none,
            some "e\u0301 \x27\r\n\x01", 1, 4294967295, false⟩] := by
  have hbuild : Plan.build textsLikeSource { commandTable := true } =
      .ok (textsLikeSource.topDownPlan { commandTable := true }) :=
    eq_ok_of_toOption (by decide +kernel)
  have hgenerate := generateText_eq_source textsLikeSource { commandTable := true } _ hbuild
  have hread := (commandTable_reads_back textsLikeSource _ _ rfl hgenerate).1
  refine ⟨rfl, _, hgenerate, hread.trans (congrArg some ?_)⟩
  decide +kernel

end CommandSpec
