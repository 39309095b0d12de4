/-! Properties and mappings of code points as sorted tables of ranges. -/
namespace CommandSpec.Text

/-- Whether one of the ranges, sorted and with both ends included, holds `n`. -/
def covers : List (Nat × Nat) → Nat → Bool
  | [], _ => false
  | (first, last) :: rest, n => if n < first then false else n ≤ last || covers rest n

/-- Whether one of the sorted ranges holds `n` at an even distance from its start. -/
def coversAlternating : List (Nat × Nat) → Nat → Bool
  | [], _ => false
  | (first, last) :: rest, n =>
    if n < first then false
    else if n ≤ last then (n - first) % 2 == 0 else coversAlternating rest n

/-- The code points `first`, `first + step`, … up to `last` move by `offset`. -/
structure Shift where
  first : Nat
  last : Nat
  step : Nat
  offset : Int

def Shift.applies (s : Shift) (n : Nat) : Bool :=
  s.first ≤ n && n ≤ s.last && (n - s.first) % s.step == 0

/-- The mapping of one character: its expansion if it has one, else the first
shift that applies, else the character itself. -/
def mapCase (expansions : List (Nat × List Char)) (shifts : List Shift) (c : Char) : List Char :=
  match expansions.lookup c.toNat with
  | some cs => cs
  | none =>
    match shifts.find? (·.applies c.toNat) with
    | some s => [Char.ofNat (c.toNat + s.offset).toNat]
    | none => [c]

end CommandSpec.Text
