/-! Binary floating point with 53 bits: values, and the nearest value to a decimal. -/
namespace CommandSpec.Decimal

/-- A 64-bit floating point value. A finite one is `mantissa * 2 ^ exponent`, either
with 2 ^ 52 ≤ mantissa < 2 ^ 53 or with the least exponent. -/
inductive Binary64 where
  | nan
  | infinite (negative : Bool)
  | finite (negative : Bool) (mantissa : Nat) (exponent : Int)
  deriving DecidableEq, Inhabited

def leastExponent : Int := -1074
def greatestExponent : Int := 971

/-- `n / d` to the nearest integer, a half to the even neighbour. -/
def roundDiv (n d : Nat) : Nat :=
  let q := n / d
  let r := n % d
  if 2 * r < d then q
  else if 2 * r > d then q + 1
  else q + q % 2

/-- `mantissa * 2 ^ exponent`, where the mantissa may be 2 ^ 53. -/
def Binary64.normalize (negative : Bool) (mantissa : Nat) (exponent : Int) : Binary64 :=
  let (mantissa, exponent) :=
    if mantissa = Nat.pow 2 53 then (Nat.pow 2 52, exponent + 1) else (mantissa, exponent)
  if exponent > greatestExponent then .infinite negative else .finite negative mantissa exponent

/-- The value nearest to `num / den`, of two the one with an even mantissa. -/
def Binary64.ofRatio (negative : Bool) (num den : Nat) : Binary64 :=
  if num = 0 then .finite negative 0 leastExponent
  else
    let estimate : Int := (num.log2 : Int) - den.log2 - 53
    let scaled (e : Int) : Nat × Nat := (num * Nat.pow 2 (-e).toNat, den * Nat.pow 2 e.toNat)
    let fits (e : Int) : Bool := (scaled e).1 / (scaled e).2 < Nat.pow 2 53
    let e := if fits estimate then estimate else estimate + 1
    let e := if fits e then e else e + 1
    let e := max e leastExponent
    .normalize negative (roundDiv (scaled e).1 (scaled e).2) e

/-- A written decimal: `digits * 10 ^ exponent`. -/
structure Written where
  negative : Bool
  digits : Nat
  exponent : Int
  deriving DecidableEq

/-- The value nearest to a written decimal. Exponents far out of range are settled
without computing their power. -/
def Binary64.ofWritten (w : Written) : Binary64 :=
  let size : Int := w.exponent + (Nat.toDigits 10 w.digits).length
  if w.digits = 0 then .finite w.negative 0 leastExponent
  else if size > 400 then .infinite w.negative
  else if size < -400 then .finite w.negative 0 leastExponent
  else
    .ofRatio w.negative (w.digits * Nat.pow 10 w.exponent.toNat) (Nat.pow 10 (-w.exponent).toNat)

def digitsValue (cs : List Char) : Nat :=
  cs.foldl (fun n c => n * 10 + (c.toNat - 0x30)) 0

/-- Reads `[+-] digits [. digits] [e [+-] digits]`, in which one of the digits around
the point may be missing, but not all. -/
def readWritten (cs : List Char) : Option Written :=
  let (negative, cs) := match cs with
    | '-' :: rest => (true, rest)
    | '+' :: rest => (false, rest)
    | _ => (false, cs)
  let whole := cs.takeWhile Char.isDigit
  let cs := cs.dropWhile Char.isDigit
  let (fraction, cs) := match cs with
    | '.' :: rest => (rest.takeWhile Char.isDigit, rest.dropWhile Char.isDigit)
    | _ => ([], cs)
  if whole.isEmpty && fraction.isEmpty then none
  else
    let written (exponent : Int) : Option Written :=
      some ⟨negative, digitsValue (whole ++ fraction), exponent - fraction.length⟩
    match cs with
    | [] => written 0
    | e :: rest =>
      if e != 'e' && e != 'E' then none
      else
        let (minus, rest) := match rest with
          | '-' :: rest => (true, rest)
          | '+' :: rest => (false, rest)
          | _ => (false, rest)
        if rest.isEmpty || !rest.all Char.isDigit then none
        else written (if minus then -(digitsValue rest : Int) else digitsValue rest)

/-- Reads a decimal, or one of the words for infinity and for not-a-number in any case. -/
def readBinary64 (cs : List Char) : Option Binary64 :=
  match readWritten cs with
  | some w => some (.ofWritten w)
  | none =>
    let (negative, cs) := match cs with
      | '-' :: rest => (true, rest)
      | '+' :: rest => (false, rest)
      | _ => (false, cs)
    let word := String.ofList (cs.map Char.toLower)
    if word == "inf" || word == "infinity" then some (.infinite negative)
    else if word == "nan" then some .nan
    else none

end CommandSpec.Decimal
