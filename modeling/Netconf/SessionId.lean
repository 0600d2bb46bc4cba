import Netconf.Text.Blank
import Netconf.Text.Numeral

/-! Session identifiers: positive numbers of 32 bits. -/
namespace Netconf

/-- A session identifier. Zero is reserved for peers that are no sessions. -/
structure SessionId where
  value : Nat
  value_pos : 0 < value
  value_le : value ≤ Text.maxWord32
deriving DecidableEq, Repr

/-- Why something is no session identifier. -/
inductive SessionIdError where
  | zero
  | badNumeral (text : String) (cause : Text.NumeralError)
deriving DecidableEq, Repr

/-- The cause in words. -/
def SessionIdError.message : SessionIdError → String
  | .zero => "session-id must be a positive integer"
  | .badNumeral text cause => "invalid session-id '" ++ text ++ "': " ++ cause.message

namespace SessionId

instance : Inhabited SessionId := ⟨⟨1, by decide, by decide⟩⟩

/-- The identifier with a given number. -/
def ofNat? (n : Nat) : Option SessionId :=
  if h : 0 < n ∧ n ≤ Text.maxWord32 then some ⟨n, h.1, h.2⟩ else none

/-- The identifier that a text spells in decimal, blanks around it aside. -/
def ofText (s : String) : Except SessionIdError SessionId :=
  match Text.unsigned 10 Text.maxWord32 (Text.trim s).toList with
  | .error e => .error (.badNumeral s e)
  | .ok n =>
    match ofNat? n with
    | some id => .ok id
    | none => .error .zero

/-- The decimal form of an identifier. -/
def text (id : SessionId) : String := Text.decimal id.value

@[ext] theorem ext {a b : SessionId} (h : a.value = b.value) : a = b := by
  cases a; cases b; simp_all

@[simp] theorem ofNat?_value (id : SessionId) : ofNat? id.value = some id := by
  simp [ofNat?, id.value_pos, id.value_le]

end SessionId
end Netconf
