import CommandSpec.Decimal.Binary64

/-! The fewest digits that read back as a value, the nearest of those to it, and two
layouts of them: one that changes to powers of ten for large and small values, one
that is always positional. -/
namespace CommandSpec.Decimal

/-- `digits * 10 ^ exponent`; the digits do not end in zero unless they are zero. -/
structure Digits where
  digits : Nat
  exponent : Int
  deriving DecidableEq

/-- A nonnegative fraction. -/
structure Ratio where
  num : Nat
  den : Nat

namespace Ratio

def ofPower (factor base : Nat) (exponent : Int) : Ratio :=
  ⟨factor * base.pow exponent.toNat, base.pow (-exponent).toNat⟩

def le (a b : Ratio) : Bool := a.num * b.den ≤ b.num * a.den
def lt (a b : Ratio) : Bool := a.num * b.den < b.num * a.den

/-- The distance of two fractions. -/
def dist (a b : Ratio) : Ratio :=
  let x := a.num * b.den
  let y := b.num * a.den
  ⟨(x - y) + (y - x), a.den * b.den⟩

end Ratio

/-- The ends of the interval of fractions that round to `mantissa * 2 ^ exponent`. -/
def roundingInterval (mantissa : Nat) (exponent : Int) : Ratio × Ratio :=
  let low :=
    if mantissa = Nat.pow 2 52 ∧ exponent > leastExponent then
      Ratio.ofPower (4 * mantissa - 1) 2 (exponent - 2)
    else Ratio.ofPower (2 * mantissa - 1) 2 (exponent - 1)
  (low, Ratio.ofPower (2 * mantissa + 1) 2 (exponent - 1))

def dropZeros (fuel : Nat) (d : Digits) : Digits :=
  match fuel with
  | 0 => d
  | fuel + 1 =>
    if d.digits % 10 = 0 ∧ d.digits ≠ 0 then dropZeros fuel ⟨d.digits / 10, d.exponent + 1⟩
    else d

/-- The point nearest to `value` on the grid of multiples of 10 ^ `place` that lies in
the rounding interval; of two equally near the even one. -/
def gridPoint? (value low high : Ratio) (closed : Bool) (place : Int) : Option Digits :=
  let below := value.num * Nat.pow 10 (-place).toNat / (value.den * Nat.pow 10 place.toNat)
  let point (n : Nat) : Ratio := Ratio.ofPower n 10 place
  let inside (n : Nat) : Bool :=
    if closed then low.le (point n) && (point n).le high
    else low.lt (point n) && (point n).lt high
  let lower := if inside below then some below else none
  let upper := if inside (below + 1) then some (below + 1) else none
  match lower, upper with
  | some a, some b =>
    let da := (point a).dist value
    let db := (point b).dist value
    some ⟨if da.lt db then a else if db.lt da then b else if a % 2 = 0 then a else b, place⟩
  | some a, none => some ⟨a, place⟩
  | none, some b => some ⟨b, place⟩
  | none, none => none

/-- The shortest digits of `mantissa * 2 ^ exponent`. -/
def shortest (mantissa : Nat) (exponent : Int) : Digits :=
  if mantissa = 0 then ⟨0, 0⟩
  else
    let value := Ratio.ofPower mantissa 2 exponent
    let (low, high) := roundingInterval mantissa exponent
    let closed := mantissa % 2 == 0
    let magnitude : Int :=
      (Nat.toDigits 10 (value.num * Nat.pow 10 400 / value.den)).length - 401
    let candidates := (List.range 17).filterMap fun (n : Nat) =>
      gridPoint? value low high closed (magnitude - n)
    dropZeros 20 (candidates.headD ⟨mantissa, exponent⟩)

def zeros (n : Nat) : List Char := List.replicate n '0'

/-- Digits in positional notation, with at least one digit before the point and,
where `point` is set, one behind it. -/
def positional (d : Digits) (point : Bool) : List Char :=
  let cs := Nat.toDigits 10 d.digits
  let whole : Int := cs.length + d.exponent
  if d.exponent ≥ 0 then
    cs ++ zeros d.exponent.toNat ++ (if point then ['.', '0'] else [])
  else if whole > 0 then cs.take whole.toNat ++ '.' :: cs.drop whole.toNat
  else ['0', '.'] ++ zeros (-whole).toNat ++ cs

/-- One digit, the point and the others if there are any, and the power of ten. -/
def scientific (d : Digits) : List Char :=
  let cs := Nat.toDigits 10 d.digits
  let power := d.exponent + cs.length - 1
  let fraction := if cs.length > 1 then '.' :: cs.drop 1 else []
  cs.take 1 ++ fraction ++ 'e' :: (toString power).toList

/-- Positional from 0.00001 up to below 10 ^ 16, powers of ten beyond. -/
def balanced (d : Digits) : List Char :=
  let whole : Int := (Nat.toDigits 10 d.digits).length + d.exponent
  if -5 < whole ∧ whole ≤ 16 then positional d true else scientific d

def signed (negative : Bool) (cs : List Char) : List Char := if negative then '-' :: cs else cs

/-- The text of a number in a document. -/
def Binary64.text : Binary64 → String
  | .nan => ".nan"
  | .infinite negative => if negative then "-.inf" else ".inf"
  | .finite negative mantissa exponent =>
    String.ofList (signed negative (balanced (shortest mantissa exponent)))

/-- The text of a number in a message. -/
def Binary64.plainText : Binary64 → String
  | .nan => "NaN.0"
  | .infinite negative => if negative then "-inf.0" else "inf.0"
  | .finite negative mantissa exponent =>
    String.ofList (signed negative (positional (shortest mantissa exponent) true))

end CommandSpec.Decimal
