import Netconf.Json.Value
import Netconf.Text.Numeral

/-! Reading JSON text. Anything but the grammar is refused; strings with half a surrogate pair are
within the grammar but stand for no text. Every value inside another starts at a later character,
so the number of characters bounds the recursion. -/
namespace Netconf.Json

/-- Blank, tab, line feed and carriage return. -/
def isSpace (c : Char) : Bool := c == ' ' || c == '\t' || c == '\n' || c == '\r'

/-- The characters behind any white space. -/
def skip (cs : List Char) : List Char := cs.dropWhile isSpace

/-- Reads four hexadecimal digits. -/
def unit? : List Char → Option (Nat × List Char)
  | a :: b :: c :: d :: rest => do
    let n ← Text.digitIn? 16 a
    let n := n * 16 + (← Text.digitIn? 16 b)
    let n := n * 16 + (← Text.digitIn? 16 c)
    let n := n * 16 + (← Text.digitIn? 16 d)
    return (n, rest)
  | _ => none

/-- Reads an escape by number from behind its `u`. A high surrogate needs its low one in a second
escape; half a pair is no character. -/
def escapedUnit? (cs : List Char) : Option (Option Char × List Char) :=
  match unit? cs with
  | none => none
  | some (n, rest) =>
    if n < 0xD800 ∨ 0xDFFF < n then some (some (Char.ofNat n), rest)
    else if n < 0xDC00 then
      match rest with
      | '\\' :: 'u' :: rest' =>
        match unit? rest' with
        | none => none
        | some (m, rest'') =>
          if 0xDC00 ≤ m ∧ m ≤ 0xDFFF then
            some (some (Char.ofNat (0x10000 + (n - 0xD800) * 0x400 + (m - 0xDC00))), rest'')
          else some (none, rest)
      | _ => some (none, rest)
    else some (none, rest)

/-- Reads an escape from behind its backslash. -/
def escaped? : List Char → Option (Option Char × List Char)
  | '"' :: rest => some (some '"', rest)
  | '\\' :: rest => some (some '\\', rest)
  | '/' :: rest => some (some '/', rest)
  | 'b' :: rest => some (some (Char.ofNat 8), rest)
  | 'f' :: rest => some (some (Char.ofNat 12), rest)
  | 'n' :: rest => some (some '\n', rest)
  | 'r' :: rest => some (some '\r', rest)
  | 't' :: rest => some (some '\t', rest)
  | 'u' :: rest => escapedUnit? rest
  | _ => none

theorem length_of_unit? {cs rest : List Char} {n : Nat} (h : unit? cs = some (n, rest)) :
    rest.length < cs.length := by
  unfold unit? at h
  split at h
  · simp only [Option.bind_eq_bind, Option.bind_eq_some_iff, Option.pure_def, Option.some.injEq,
      Prod.mk.injEq] at h
    obtain ⟨_, _, _, _, _, _, _, _, _, rfl⟩ := h
    simp only [List.length_cons]
    omega
  · cases h

theorem length_of_escaped? {cs rest : List Char} {c : Option Char}
    (h : escaped? cs = some (c, rest)) : rest.length < cs.length := by
  unfold escaped? at h
  split at h
  case h_9 rest' =>
    unfold escapedUnit? at h
    split at h
    · cases h
    · next hu =>
      have := length_of_unit? hu
      simp only [List.length_cons]
      split at h
      · cases h; omega
      · split at h
        · split at h
          · split at h
            · cases h
            · next hu' =>
              have := length_of_unit? hu'
              simp only [List.length_cons] at *
              split at h
              · cases h; omega
              · cases h; simp only [List.length_cons]; omega
          · cases h; omega
        · cases h; omega
  all_goals first
    | (simp only [Option.some.injEq, Prod.mk.injEq] at h; obtain ⟨-, rfl⟩ := h; simp)
    | cases h

/-- Reads a string from behind its opening quote; it has no text where an escape has no character.
Control characters must be escaped. -/
def string? (acc : Option (List Char)) (cs : List Char) : Option (Option (List Char) × List Char) :=
  match cs with
  | [] => none
  | c :: rest =>
    if c = '"' then some (acc.map List.reverse, rest)
    else if c = '\\' then
      match _h : escaped? rest with
      | none => none
      | some (e, rest') => string? (e.bind fun c => acc.map (c :: ·)) rest'
    else if c.toNat < 32 then none
    else string? (acc.map (c :: ·)) rest
termination_by cs.length
decreasing_by
  · have := length_of_escaped? _h; simp only [List.length_cons]; omega
  · simp

/-- The number that decimal digits spell, going on from a number. -/
def digitsFrom (n : Nat) (ds : List Char) : Nat :=
  ds.foldl (fun n c => n * 10 + (c.toNat - '0'.toNat)) n

/-- A number with as many digits behind it as 64 bits hold, and how many are left over. -/
def absorb (n : Nat) : List Char → Nat × Nat
  | [] => (n, 0)
  | c :: cs =>
    let more := digitsFrom n [c]
    if more ≤ Text.maxWord64 then absorb more cs else (n, cs.length + 1)

/-- Reads an exponent, if there is one. -/
def exponent? (cs : List Char) : Option (Option Int × List Char) :=
  match cs with
  | c :: rest =>
    if c = 'e' ∨ c = 'E' then
      let (sign, rest) : Int × List Char := match rest with
        | '+' :: r => (1, r)
        | '-' :: r => (-1, r)
        | r => (1, r)
      let ds := rest.takeWhile (·.isDigit)
      if ds.isEmpty then none
      else some (some (sign * digitsFrom 0 ds), rest.dropWhile (·.isDigit))
    else some (none, cs)
  | [] => some (none, cs)

/-- Reads a fraction, if there is one: its digits. -/
def fraction? (cs : List Char) : Option (Option (List Char) × List Char) :=
  match cs with
  | '.' :: rest =>
    let ds := rest.takeWhile (·.isDigit)
    if ds.isEmpty then none else some (some ds, rest.dropWhile (·.isDigit))
  | _ => some (none, cs)

/-- Reads a number without its sign. A zero is not followed by digits. The digits that are not kept
move the point, but only those before it. -/
def unsignedNumber? (negative : Bool) (cs : List Char) : Option (Number × List Char) := do
  let whole := match cs with
    | '0' :: _ => ['0']
    | _ => cs.takeWhile (·.isDigit)
  if whole.isEmpty then none
  else
    let rest := cs.drop whole.length
    if (rest.head?.map (·.isDigit)).getD false then none
    else
      let (fraction, rest) ← fraction? rest
      let (exponent, rest) ← exponent? rest
      let places := fraction.getD []
      let (kept, beyond) := absorb 0 whole
      let (digits, dropped) := absorb kept places
      return ({ negative, digits,
                exponent := exponent.getD 0 + beyond - (places.length - dropped : Nat),
                integral := fraction.isNone && exponent.isNone && beyond == 0 }, rest)

/-- Reads a number. -/
def number? (cs : List Char) : Option (Number × List Char) :=
  match cs with
  | '-' :: rest => unsignedNumber? true rest
  | _ => unsignedNumber? false cs

mutual

/-- Reads the value that a list of characters starts with. -/
def value? : (fuel : Nat) → List Char → Option (Value × List Char)
  | 0, _ => none
  | fuel + 1, cs =>
    match cs with
    | 'n' :: 'u' :: 'l' :: 'l' :: rest => some (.null, rest)
    | 't' :: 'r' :: 'u' :: 'e' :: rest => some (.bool true, rest)
    | 'f' :: 'a' :: 'l' :: 's' :: 'e' :: rest => some (.bool false, rest)
    | '"' :: rest => (string? (some []) rest).map fun p => (.ofChars p.1, p.2)
    | '[' :: rest =>
      match skip rest with
      | ']' :: rest' => some (.array [], rest')
      | rest' => (items? fuel [] rest').map fun p => (.array p.1, p.2)
    | '{' :: rest =>
      match skip rest with
      | '}' :: rest' => some (.object [], rest')
      | rest' => (members? fuel (some []) rest').map fun p => ((p.1.map .object).getD .garbled, p.2)
    | _ => (number? cs).map fun p => (.number p.1, p.2)

/-- Reads the items of an array up to its end. -/
def items? : (fuel : Nat) → (acc : List Value) → List Char → Option (List Value × List Char)
  | 0, _, _ => none
  | fuel + 1, acc, cs =>
    match value? fuel cs with
    | none => none
    | some (v, rest) =>
      match skip rest with
      | ',' :: rest' => items? fuel (v :: acc) (skip rest')
      | ']' :: rest' => some ((v :: acc).reverse, rest')
      | _ => none

/-- Reads the members of an object up to its end; there are none to speak of where a key has no
text. -/
def members? : (fuel : Nat) → (acc : Option (List (String × Value))) → List Char →
    Option (Option (List (String × Value)) × List Char)
  | 0, _, _ => none
  | fuel + 1, acc, cs =>
    match cs with
    | '"' :: rest =>
      match string? (some []) rest with
      | none => none
      | some (key, rest') =>
        match skip rest' with
        | ':' :: rest'' =>
          match value? fuel (skip rest'') with
          | none => none
          | some (v, after) =>
            let acc := key.bind fun k => acc.map ((String.ofList k, v) :: ·)
            match skip after with
            | ',' :: after' => members? fuel acc (skip after')
            | '}' :: after' => some (acc.map List.reverse, after')
            | _ => none
        | _ => none
    | _ => none

end

/-- The value that a text starts with, and what follows it. -/
def lead? (s : String) : Option (Value × List Char) :=
  let cs := s.toList
  value? (2 * cs.length + 2) (skip cs)

/-- The value that a text starts with. -/
def leading? (s : String) : Option Value := (lead? s).map (·.1)

/-- The value of a text, which holds nothing else but white space. -/
def parse? (s : String) : Option Value :=
  match lead? s with
  | some (v, rest) => if (skip rest).isEmpty then some v else none
  | none => none

end Netconf.Json
