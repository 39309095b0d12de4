import CommandSpec.Proofs.SourceLines
import CommandSpec.Bindings.Plan
import Mathlib.Data.List.TakeDrop

/-! A reader of generated source. It knows the text only: its code lines are read one after the
other as imports, the trait, records, and the implementation of the trait. A signature is read
with all its parameters; the embedded record is told from the fields by its type, and hooks from
actions by their bodies. -/
namespace CommandSpec.SourceText

/-! ## What is read -/

/-- A parameter or a field. The receiver of a method is a parameter without a name. -/
structure TypedName where
  name : String
  type : String
  deriving DecidableEq

structure Signature where
  name : String
  parameters : List TypedName
  result : String
  deriving DecidableEq

/-- The name of a method, and its types in order. -/
def Signature.types (s : Signature) : String × List String × String :=
  (s.name, s.parameters.map TypedName.type, s.result)

/-- A method of the trait with the type of its option record. -/
structure MethodShape where
  name : String
  kind : MethodKind
  options : Option String
  deriving DecidableEq

structure RecordShape where
  typeName : String
  parent : Option TypedName
  fields : List TypedName
  deriving DecidableEq

structure ModuleShape where
  imports : List String
  traitName : String
  /-- The signatures of the trait. -/
  declared : List Signature
  records : List RecordShape
  structName : String
  /-- What the implementation says it is of. -/
  implements : String
  /-- The signatures of the implementation, each with its body. -/
  implemented : List (Signature × String)
  deriving DecidableEq

/-! ## Lines -/

/-- What stands between a fixed start and a fixed end. -/
def enclosed (start finish : String) (line : List Char) : Option (List Char) :=
  (line.dropPrefix? start.toList).bind (·.dropSuffix? finish.toList)

def readName (start finish : String) (line : List Char) : Option String :=
  (enclosed start finish line).map String.ofList

/-- A name and, behind a colon, its type; what has no colon is a type. -/
def readTypedName (cs : List Char) : TypedName :=
  match cs.span (· != ':') with
  | (name, _ :: type) => ⟨String.ofList name, String.ofList (type.drop 1)⟩
  | (type, []) => ⟨"", String.ofList type⟩

def readField (line : List Char) : Option TypedName := (enclosed "pub " "," line).map readTypedName

/-- The texts between the commas that stand in no brackets, up to the bracket that closes the
list; `current` is the text before, backwards. -/
def argumentTexts (depth : Nat) (current : List Char) :
    List Char → Option (List (List Char) × List Char)
  | [] => none
  | c :: rest =>
    if c = '(' ∨ c = '<' then argumentTexts (depth + 1) (c :: current) rest
    else if c = ')' ∨ c = '>' then
      if depth = 0 then some ([current.reverse], rest)
      else argumentTexts (depth - 1) (c :: current) rest
    else if c = ',' ∧ depth = 0 then
      (argumentTexts 0 [] rest).map fun (texts, rest) => (current.reverse :: texts, rest)
    else argumentTexts depth (c :: current) rest

/-- The signature of a method, from its name on. -/
def readSignature (cs : List Char) : Option Signature := do
  let (name, rest) := cs.span (· != '(')
  let (arguments, rest) ← argumentTexts 0 [] (rest.drop 1)
  let result ← rest.dropPrefix? " -> ".toList
  return {
    name := String.ofList name
    parameters := arguments.map fun text => readTypedName (text.dropWhile (· == ' '))
    result := String.ofList result }

def readMethod (finish : String) (line : List Char) : Option Signature :=
  (enclosed "fn " finish line).bind readSignature

def readClose (line : List Char) : Option Unit := if line = "\x7d".toList then some () else none

/-! ## Runs of lines -/

/-- A reader of the lines to come. -/
abbrev LineReader := StateT (List (List Char)) Option

def next {α : Type} (read : List Char → Option α) : LineReader α
  | [] => none
  | line :: rest => (read line).map fun a => (a, rest)

/-- Reads as often as it can. -/
def many {α : Type} (read : LineReader α) (lines : List (List Char)) :
    Option (List α × List (List Char)) :=
  match read lines with
  | some (a, rest) =>
    if rest.length < lines.length then (many read rest).map fun (as, rest) => (a :: as, rest)
    else some ([], lines)
  | none => some ([], lines)
termination_by lines.length

/-- The embedded record stands first; no other field has the type of a record. -/
def RecordShape.ofFields (typeName : String) : List TypedName → RecordShape
  | [] => ⟨typeName, none, []⟩
  | first :: rest =>
    if "Options".toList.isSuffixOf first.type.toList then ⟨typeName, some first, rest⟩
    else ⟨typeName, none, first :: rest⟩

def recordReader : LineReader RecordShape := do
  let typeName ← next (readName "pub struct " " \x7b")
  let fields ← many (next readField)
  next readClose
  return .ofFields typeName fields

def bodyReader : LineReader (Signature × String) := do
  let signature ← next (readMethod " \x7b")
  let body ← next some
  next readClose
  return (signature, String.ofList body)

/-- Reads a module up to the end of the implementation. -/
def moduleReader : LineReader ModuleShape := do
  let _ ← next (readName "pub mod " " \x7b")
  let imports ← many (next (readName "use " ";"))
  let traitName ← next (readName "pub trait " " \x7b")
  let declared ← many (next (readMethod ";"))
  next readClose
  let records ← many recordReader
  let structName ← next (readName "pub struct " ";")
  let implements ← next (readName "impl " " \x7b")
  let implemented ← many bodyReader
  next readClose
  return { imports, traitName, declared, records, structName, implements, implemented }

def readModule (text : String) : Option ModuleShape :=
  (moduleReader (codeLines text.toList)).map Prod.fst

/-- The record that a method takes is told from its parameters, its kind from the body. -/
def MethodShape.ofSource (signature : Signature) (body : String) : MethodShape where
  name := signature.name
  kind :=
    if body = "Err(CommandError::Unimplemented)" then .action
    else if signature.parameters.any (·.name == "result") then .hookAfter
    else .hookBefore
  options := (signature.parameters.find? (·.name == "opts")).map fun p =>
    String.ofList (p.type.toList.drop 1)

/-- The methods of the trait, each with the body that the implementation has for it. -/
def ModuleShape.methods (m : ModuleShape) : List MethodShape :=
  List.zipWith (fun signature i => .ofSource signature i.2) m.declared m.implemented

/-! ## Lines that were written -/

theorem enclosed_written (start finish : String) (cs : List Char) :
    enclosed start finish (start.toList ++ cs ++ finish.toList) = some cs := by
  have hstart : (start.toList ++ (cs ++ finish.toList)).dropPrefix? start.toList =
      some (cs ++ finish.toList) := List.dropPrefix?_append_of_beq _ (beq_self_eq_true _)
  have hfinish : (cs ++ finish.toList).dropSuffix? finish.toList = some cs :=
    List.dropSuffix?_eq_some_iff.mpr ⟨finish.toList, rfl, beq_self_eq_true _⟩
  unfold enclosed
  rw [List.append_assoc, hstart]
  exact hfinish

/-- A line with another end. -/
theorem enclosed_eq_none (start finish : String) (line : List Char)
    (h : ¬finish.toList <:+ line) : enclosed start finish line = none := by
  unfold enclosed
  rw [Option.bind_eq_none_iff]
  intro rest hrest
  obtain ⟨before, rfl, -⟩ := List.dropPrefix?_eq_some_iff.mp hrest
  rw [Option.eq_none_iff_forall_ne_some]
  intro cs hcs
  obtain ⟨behind, rfl, hb⟩ := List.dropSuffix?_eq_some_iff.mp hcs
  obtain rfl := eq_of_beq hb
  exact h ⟨before ++ cs, by simp⟩

/-- The text up to a character that is not in it. -/
theorem span_append_cons (c : Char) (cs rest : List Char) (h : c ∉ cs) :
    (cs ++ c :: rest).span (· != c) = (cs, c :: rest) := by
  have hcs : ∀ d ∈ cs, (d != c) = true := fun d hd => by
    simpa using fun he : d = c => h (he ▸ hd)
  rw [List.span_eq_takeWhile_dropWhile, List.takeWhile_append_of_pos hcs,
    List.dropWhile_append_of_pos hcs]
  simp

theorem readTypedName_written (name type : List Char) (h : ':' ∉ name) :
    readTypedName (name ++ ": ".toList ++ type) = ⟨String.ofList name, String.ofList type⟩ := by
  have hspan : (name ++ ": ".toList ++ type).span (· != ':') = (name, ':' :: ' ' :: type) := by
    rw [List.append_assoc]
    exact span_append_cons ':' name (' ' :: type) h
  unfold readTypedName
  rw [hspan]
  rfl

/-! ## Arguments -/

/-- A text that is passed as a whole between two commas. -/
def IsArgument (cs : List Char) : Prop :=
  ∀ current rest,
    argumentTexts 0 current (cs ++ rest) = argumentTexts 0 (cs.reverse ++ current) rest

/-- Neither a bracket nor a comma. -/
def passes (c : Char) : Bool := !(['(', ')', '<', '>', ','].contains c)

namespace IsArgument

theorem nil : IsArgument [] := fun _ _ => rfl

theorem append {a b : List Char} (ha : IsArgument a) (hb : IsArgument b) : IsArgument (a ++ b) := by
  intro current rest
  rw [List.append_assoc, ha, hb, List.reverse_append, List.append_assoc]

/-- Without brackets and commas. -/
theorem of_all (cs : List Char) (h : cs.all passes = true) : IsArgument cs := by
  induction cs with
  | nil => exact nil
  | cons c cs ih =>
    rw [List.all_cons, Bool.and_eq_true] at h
    obtain ⟨hc, hcs⟩ := h
    intro current rest
    simp only [passes, Bool.not_eq_true', List.contains_eq_mem, decide_eq_false_iff_not,
      List.mem_cons, List.not_mem_nil, or_false, not_or] at hc
    rw [List.cons_append, argumentTexts, if_neg (by simp [hc]), if_neg (by simp [hc]),
      if_neg (by simp [hc]), ih hcs, List.reverse_cons, List.append_assoc]
    rfl

theorem resultType : IsArgument Layout.resultType.toList := by
  intro current rest
  have htext : Layout.resultType.toList = "Result<(), CommandError>".toList := rfl
  rw [htext]
  simp [argumentTexts]

end IsArgument

theorem argumentTexts_written (text : List Char) (texts : List (List Char)) (rest : List Char)
    (h : ∀ t ∈ text :: texts, IsArgument t) :
    argumentTexts 0 [] ([','].intercalate (text :: texts) ++ ')' :: rest) =
      some (text :: texts, rest) := by
  induction texts generalizing text with
  | nil =>
    have ht : IsArgument text := h text (List.mem_singleton_self _)
    rw [List.intercalate_singleton, ht]
    simp [argumentTexts]
  | cons next more ih =>
    obtain ⟨ht, hmore⟩ := List.forall_mem_cons.mp h
    rw [List.intercalate_cons_cons, List.append_assoc, List.append_assoc, ht]
    have hcomma := ih next hmore
    simp only [List.singleton_append, argumentTexts, hcomma]
    simp

theorem readSignature_written (name text result : List Char) (texts : List (List Char))
    (hname : '(' ∉ name) (h : ∀ t ∈ text :: texts, IsArgument t) :
    readSignature (name ++ '(' :: ([','].intercalate (text :: texts) ++ ')' ::
        (" -> ".toList ++ result))) = some {
      name := String.ofList name
      parameters := (text :: texts).map fun text => readTypedName (text.dropWhile (· == ' '))
      result := String.ofList result } := by
  have hresult : (" -> ".toList ++ result).dropPrefix? " -> ".toList = some result :=
    List.dropPrefix?_append_of_beq _ (beq_self_eq_true _)
  unfold readSignature
  rw [span_append_cons '(' name _ hname]
  simp only [List.drop_one, List.tail_cons, argumentTexts_written text texts _ h, hresult,
    Option.bind_eq_bind, Option.bind_some]
  rfl

/-! ## Runs that were written -/

variable {α β : Type}

/-- What follows a reader gets what is left. -/
theorem bind_eq_of_eq (read : LineReader α) (f : α → LineReader β) (a : α)
    (lines rest : List (List Char)) (h : read lines = some (a, rest)) :
    (read >>= f) lines = f a rest := by
  change (read lines).bind (fun r => f r.1 r.2) = _
  rw [h]
  rfl

theorem bind_eq_none (read : LineReader α) (f : α → LineReader β) (lines : List (List Char))
    (h : read lines = none) : (read >>= f) lines = none := by
  change (read lines).bind (fun r => f r.1 r.2) = _
  rw [h]
  rfl

theorem next_eq (read : List Char → Option α) (line : List Char) (rest : List (List Char)) (a : α)
    (h : read line = some a) : next read (line :: rest) = some (a, rest) := by
  simp only [next, h, Option.map_some]

theorem next_eq_none (read : List Char → Option α) (line : List Char) (rest : List (List Char))
    (h : read line = none) : next read (line :: rest) = none := by
  simp only [next, h, Option.map_none]

theorem bind_next_eq (read : List Char → Option α) (f : α → LineReader β) (line : List Char)
    (rest : List (List Char)) (a : α) (h : read line = some a) :
    (next read >>= f) (line :: rest) = f a rest :=
  bind_eq_of_eq _ f a _ rest (next_eq read line rest a h)

/-- Reading goes on as long as there are items, and stops at what is none. -/
theorem many_written (read : LineReader α) (value : β → α) (write : β → List (List Char))
    (bs : List β) (rest : List (List Char))
    (h : ∀ b ∈ bs, write b ≠ [] ∧ ∀ rest, read (write b ++ rest) = some (value b, rest))
    (hstop : read rest = none) :
    many read (bs.flatMap write ++ rest) = some (bs.map value, rest) := by
  induction bs with
  | nil =>
    rw [List.flatMap_nil, List.nil_append, many, hstop]
    rfl
  | cons b bs ih =>
    obtain ⟨⟨hne, hb⟩, hbs⟩ := List.forall_mem_cons.mp h
    -- an item has a line at least, so the reader sees progress
    have hlength : (bs.flatMap write ++ rest).length <
        (write b ++ (bs.flatMap write ++ rest)).length := by
      have hpos := List.length_pos_iff.mpr hne
      simp only [List.length_append]
      omega
    rw [List.flatMap_cons, List.append_assoc, many, hb]
    simp only [hlength, if_true, ih hbs]
    rfl

theorem many_next_written (read : List Char → Option α) (value : β → α) (line : β → List Char)
    (bs : List β) (rest : List (List Char)) (h : ∀ b ∈ bs, read (line b) = some (value b))
    (hstop : next read rest = none) :
    many (next read) (bs.map line ++ rest) = some (bs.map value, rest) := by
  rw [List.map_eq_flatMap (f := line)]
  exact many_written (next read) value (fun b => [line b]) bs rest
    (fun b hb => ⟨List.cons_ne_nil _ _, fun rest => next_eq read _ rest _ (h b hb)⟩) hstop

end CommandSpec.SourceText
