/-! Numbers in double precision. Products and quotients are exact before they are rounded; what lies
half way between two doubles goes to the even one. -/
namespace Netconf.Json

/-- A double without its sign: `mantissa` times two to the power of `exponent`. -/
structure Double where
  mantissa : Nat
  exponent : Int
deriving DecidableEq, Repr, Inhabited

namespace Double

/-- The least exponent of a double. -/
def leastExponent : Int := -1074

/-- The greatest exponent of a double that is not infinite. -/
def greatestExponent : Int := 971

/-- A quotient rounded to the nearest number, halves to the even neighbour. -/
def roundDiv (num den : Nat) : Nat :=
  let q := num / den
  let twice := 2 * (num % den)
  if twice < den then q else if den < twice then q + 1 else q + q % 2

/-- A quotient times two to the power of an exponent, as a quotient. -/
def scale (num den : Nat) (exponent : Int) : Nat × Nat :=
  if exponent < 0 then (num, den * Nat.pow 2 exponent.natAbs)
  else (num * Nat.pow 2 exponent.toNat, den)

/-- The double nearest to a quotient. Its mantissa has 53 bits, or fewer at the least exponent. -/
def nearest (num den : Nat) : Double :=
  let rough : Int := (num.log2 : Int) - den.log2 - 53
  let exponent := max rough leastExponent
  let (n, d) := scale num den (-exponent)
  let (exponent, n, d) :=
    if Nat.pow 2 53 * d ≤ n then (exponent + 1, n, 2 * d) else (exponent, n, d)
  let mantissa := roundDiv n d
  if mantissa = Nat.pow 2 53 then { mantissa := Nat.pow 2 52, exponent := exponent + 1 }
  else { mantissa, exponent }

/-- The double nearest to a number. -/
def ofNat (n : Nat) : Double := nearest n 1

/-- Whether the double is nothing. -/
def isZero (x : Double) : Bool := x.mantissa == 0

/-- Whether the double is not infinite. -/
def isFinite (x : Double) : Bool := x.exponent ≤ greatestExponent

/-- The double as a quotient. -/
def quotient (x : Double) : Nat × Nat := scale x.mantissa 1 x.exponent

/-- The product, rounded. -/
def mul (x y : Double) : Double :=
  let (xn, xd) := x.quotient
  let (yn, yd) := y.quotient
  nearest (xn * yn) (xd * yd)

/-- The quotient of two doubles, rounded. -/
def div (x y : Double) : Double :=
  let (xn, xd) := x.quotient
  let (yn, yd) := y.quotient
  nearest (xn * yd) (xd * yn)

/-- The greatest power of ten that is a step of its own. -/
def greatestStep : Nat := 308

/-- A double times a power of ten, unless that is infinite. A power beyond the range of doubles is
taken in steps, and each step is rounded. -/
def timesPower? (x : Double) (power : Int) : Option Double :=
  if x.isZero then some x
  else if 0 ≤ power then
    if greatestStep < power then none
    else some (x.mul (ofNat (Nat.pow 10 power.toNat))) |>.filter isFinite
  else if -power ≤ greatestStep then some (x.div (ofNat (Nat.pow 10 power.natAbs)))
  else timesPower? (x.div (ofNat (Nat.pow 10 greatestStep))) (power + greatestStep)
termination_by power.natAbs
decreasing_by simp only [greatestStep] at *; omega

end Double
end Netconf.Json
