import Mathlib.Algebra.Group.Nat.Defs
import Netconf.Text.Numeral

/-! The digits of the decimal form of a number: how many there are, and what each of them is as a
byte. -/
namespace Netconf.Text

/-- The decimal form of a number in bytes. -/
def decimalBytes (n : Nat) : List UInt8 := (decimalChars n).map fun c => UInt8.ofNat c.toNat

/-- The byte of a digit. -/
def digitByte (n : Nat) : UInt8 := UInt8.ofNat (digitChar n).toNat

theorem digitChar_toNat (n : Nat) : (digitChar n).toNat = 0x30 + n % 10 := by
  have h : ∀ d, d < 10 → (Char.ofNat ('0'.toNat + d)).toNat = 0x30 + d := by decide
  exact h (n % 10) (Nat.mod_lt n (by omega))

@[simp] theorem digitByte_toNat (n : Nat) : (digitByte n).toNat = 0x30 + n % 10 := by
  rw [digitByte, digitChar_toNat, UInt8.toNat_ofNat']
  omega

theorem decimalBytes_of_lt {n : Nat} (h : n < 10) : decimalBytes n = [digitByte n] := by
  rw [decimalBytes, decimalChars, if_pos h]
  rfl

theorem decimalBytes_of_le {n : Nat} (h : 10 ≤ n) :
    decimalBytes n = decimalBytes (n / 10) ++ [digitByte n] := by
  rw [decimalBytes, decimalChars, if_neg (by omega), List.map_append]
  rfl

/-- A number below a power of ten has at most as many digits as the exponent says. -/
theorem length_decimalBytes_le {n k : Nat} (h : n < 10 ^ (k + 1)) :
    (decimalBytes n).length ≤ k + 1 := by
  induction k generalizing n with
  | zero => simp [decimalBytes_of_lt (n := n) (by omega)]
  | succ k ih =>
    by_cases hn : n < 10
    · simp [decimalBytes_of_lt hn]
    · have hq : n / 10 < 10 ^ (k + 1) := by
        rw [Nat.div_lt_iff_lt_mul (by omega), ← Nat.pow_succ]
        exact h
      have hl := ih hq
      rw [decimalBytes_of_le (by omega), List.length_append, List.length_singleton]
      omega

end Netconf.Text
