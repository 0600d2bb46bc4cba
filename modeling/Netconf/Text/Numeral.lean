/-! Numerals: digits in a base, unsigned numbers of a bounded size written in digits, and the
decimal form of a number, with or without leading zeros. -/
namespace Netconf.Text

/-- The value of a digit in bases up to sixteen; letters count in either case. -/
def digitValue? (c : Char) : Option Nat :=
  if '0' ≤ c ∧ c ≤ '9' then some (c.toNat - '0'.toNat)
  else if 'a' ≤ c ∧ c ≤ 'f' then some (c.toNat - 'a'.toNat + 10)
  else if 'A' ≤ c ∧ c ≤ 'F' then some (c.toNat - 'A'.toNat + 10)
  else none

/-- The value of a digit of the given base. -/
def digitIn? (base : Nat) (c : Char) : Option Nat :=
  (digitValue? c).filter (· < base)

/-- Why a text is no unsigned numeral. -/
inductive NumeralError where
  | empty
  | badDigit
  | tooLarge
deriving DecidableEq, Repr

/-- The cause in words. -/
def NumeralError.message : NumeralError → String
  | .empty => "cannot parse integer from empty string"
  | .badDigit => "invalid digit found in string"
  | .tooLarge => "number too large to fit in target type"

/-- The number that digits of a base spell, going on from the number read so far. The number may
never be more than `most`; of two faults the first counts. -/
def numberFrom (base most : Nat) (start : Nat) : List Char → Except NumeralError Nat
  | [] => .ok start
  | c :: cs =>
    match digitIn? base c with
    | none => .error .badDigit
    | some d =>
      if start * base + d ≤ most then numberFrom base most (start * base + d) cs
      else .error .tooLarge

/-- Reads an unsigned numeral: an optional plus sign and at least one digit, of a value of at most
`most`. -/
def unsigned (base most : Nat) (cs : List Char) : Except NumeralError Nat :=
  match cs with
  | [] => .error .empty
  | ['+'] => .error .badDigit
  | '+' :: digits => numberFrom base most 0 digits
  | digits => numberFrom base most 0 digits

/-- The largest number of 32 bits. -/
def maxWord32 : Nat := 4294967295

/-- The largest number of 64 bits. -/
def maxWord64 : Nat := 18446744073709551615

/-- The decimal digit of a number below ten. -/
def digitChar (n : Nat) : Char := Char.ofNat ('0'.toNat + n % 10)

/-- The decimal form of a number. -/
def decimalChars (n : Nat) : List Char :=
  if n < 10 then [digitChar n] else decimalChars (n / 10) ++ [digitChar n]
termination_by n
decreasing_by omega

/-- The decimal form of a number, as a text. -/
def decimal (n : Nat) : String := String.ofList (decimalChars n)

/-- The decimal form of a number with zeros before it up to a width. -/
def paddedChars (width n : Nat) : List Char :=
  let cs := decimalChars n
  List.replicate (width - cs.length) '0' ++ cs

/-- The hexadecimal digit, in lower case, of a number below sixteen. -/
def hexChar (n : Nat) : Char :=
  if n % 16 < 10 then Char.ofNat ('0'.toNat + n % 16) else Char.ofNat ('a'.toNat + (n % 16 - 10))

end Netconf.Text
