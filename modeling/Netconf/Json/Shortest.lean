import Netconf.Json.Value
import Netconf.Text.Numeral

/-! The shortest decimal text of a double: of all decimals that are nearer to it than to any other
double, one with the fewest digits, and of these the nearest. -/
namespace Netconf.Json

namespace Double

/-- Whether a quotient is at least as near to the double as to any other. -/
def covers (x : Double) (num den : Nat) : Bool :=
  let quarters : Nat := if x.mantissa = Nat.pow 2 52 ∧ leastExponent < x.exponent then 1 else 2
  let (lowNum, lowDen) := scale (4 * x.mantissa - quarters) 4 x.exponent
  let (highNum, highDen) := scale (4 * x.mantissa + 2) 4 x.exponent
  if x.mantissa % 2 = 0 then lowNum * den ≤ num * lowDen && num * highDen ≤ highNum * den
  else lowNum * den < num * lowDen && num * highDen < highNum * den

/-- The number of digits before the point; behind the point leading zeros count negatively. -/
def magnitude (num den : Nat) : Int :=
  if den ≤ num then (Text.decimalChars (num / den)).length
  else -(((List.range 400).find? fun j => den ≤ num * Nat.pow 10 (j + 1)).getD 0 : Nat)

/-- The decimal with `count` digits that stands for the double, of two the nearer: its digits and
the power of ten that they are multiplied with. Only the double's two neighbours among such decimals
can stand for it. -/
def decimalOf? (x : Double) (count : Nat) : Option (Nat × Int) :=
  let (num, den) := x.quotient
  let power := magnitude num den - count
  let (n, d) :=
    if power < 0 then (num * Nat.pow 10 power.natAbs, den)
    else (num, den * Nat.pow 10 power.toNat)
  let near := roundDiv n d
  let far := if near * d ≤ n then near + 1 else near - 1
  let stands (digits : Nat) : Bool :=
    if power < 0 then x.covers digits (Nat.pow 10 power.natAbs)
    else x.covers (digits * Nat.pow 10 power.toNat) 1
  ([near, far].find? stands).map (·, power)

/-- The shortest decimal that stands for the double. -/
def shortest (x : Double) : Nat × Int :=
  ((List.range 18).findSome? x.decimalOf?).getD (x.mantissa, 0)

end Double

/-- Digits without their trailing zeros, which go into the power of ten. -/
def withoutZeros (digits : List Char) (power : Int) : List Char × Int :=
  let kept := (digits.reverse.dropWhile (· == '0')).reverse
  (kept, power + (digits.length - kept.length : Nat))

/-- The text of digits times a power of ten. Up to sixteen digits before the point and up to four
zeros behind it are written out, all else with an exponent that has a sign. -/
def pointChars (digits : List Char) (power : Int) : List Char :=
  let point := power + digits.length
  if 0 ≤ power ∧ point ≤ 16 then digits ++ List.replicate power.toNat '0' ++ ['.', '0']
  else if 0 < point ∧ point ≤ 16 then digits.take point.toNat ++ '.' :: digits.drop point.toNat
  else if -5 < point ∧ point ≤ 0 then '0' :: '.' :: List.replicate point.natAbs '0' ++ digits
  else
    let exponent := point - 1
    digits.take 1 ++ (if digits.length = 1 then [] else '.' :: digits.drop 1) ++
      'e' :: (if exponent < 0 then '-' else '+') :: Text.decimalChars exponent.natAbs

/-- The shortest text of the double that a number is read as. -/
def Number.shortestChars (n : Number) : List Char :=
  let sign := if n.negative then ['-'] else []
  match n.double?.filter (!·.isZero) with
  | none => sign ++ "0.0".toList
  | some x =>
    let (digits, power) := x.shortest
    let (digits, power) := withoutZeros (Text.decimalChars digits) power
    sign ++ pointChars digits power

end Netconf.Json
