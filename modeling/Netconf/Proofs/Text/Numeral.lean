import Netconf.Proofs.Text.Decimal

/-! Decimal numerals are read back: the digits of a number, with or without zeros before them, spell
that number. -/
namespace Netconf.Text

/-- The number that decimal digits spell, going on from a number. -/
def spelled (start : Nat) (ds : List Char) : Nat :=
  ds.foldl (fun n c => n * 10 + (c.toNat - '0'.toNat)) start

@[simp] theorem spelled_nil (start : Nat) : spelled start [] = start := rfl

theorem spelled_cons (start : Nat) (c : Char) (ds : List Char) :
    spelled start (c :: ds) = spelled (start * 10 + (c.toNat - '0'.toNat)) ds := by
  simp only [spelled, List.foldl_cons]

theorem spelled_append (start : Nat) (ds ds' : List Char) :
    spelled start (ds ++ ds') = spelled (spelled start ds) ds' := List.foldl_append

theorem le_spelled (start : Nat) (ds : List Char) : start ≤ spelled start ds := by
  induction ds generalizing start with
  | nil => exact Nat.le_refl _
  | cons c ds ih =>
    rw [spelled_cons]
    have := ih (start * 10 + (c.toNat - '0'.toNat))
    omega

theorem spelled_digitChar (start n : Nat) :
    spelled start [digitChar n] = start * 10 + n % 10 := by
  have hzero : '0'.toNat = 0x30 := rfl
  rw [spelled_cons, spelled_nil, digitChar_toNat]
  omega

theorem isDigit_digitChar (n : Nat) : (digitChar n).isDigit = true := by
  have h : ∀ d, d < 10 → (Char.ofNat ('0'.toNat + d)).isDigit = true := by decide
  exact h (n % 10) (Nat.mod_lt n (by omega))

theorem decimalChars_of_lt {n : Nat} (h : n < 10) : decimalChars n = [digitChar n] := by
  rw [decimalChars, if_pos h]

theorem decimalChars_of_le {n : Nat} (h : 10 ≤ n) :
    decimalChars n = decimalChars (n / 10) ++ [digitChar n] := by
  rw [decimalChars, if_neg (by omega)]

@[simp] theorem spelled_decimalChars (n : Nat) : spelled 0 (decimalChars n) = n := by
  induction n using Nat.strongRecOn with
  | _ n ih =>
    by_cases hn : n < 10
    · rw [decimalChars_of_lt hn, spelled_digitChar]
      omega
    · rw [decimalChars_of_le (by omega), spelled_append, ih (n / 10) (by omega), spelled_digitChar]
      omega

theorem isDigit_of_mem_decimalChars {n : Nat} {c : Char} (h : c ∈ decimalChars n) :
    c.isDigit = true := by
  induction n using Nat.strongRecOn with
  | _ n ih =>
    by_cases hn : n < 10
    · rw [decimalChars_of_lt hn, List.mem_singleton] at h
      rw [h]
      exact isDigit_digitChar n
    · rw [decimalChars_of_le (by omega)] at h
      obtain hbefore | hlast := List.mem_append.mp h
      · exact ih (n / 10) (by omega) hbefore
      · rw [List.mem_singleton.mp hlast]
        exact isDigit_digitChar n

theorem decimalChars_ne_nil (n : Nat) : decimalChars n ≠ [] := by
  by_cases hn : n < 10
  · simp [decimalChars_of_lt hn]
  · simp [decimalChars_of_le (n := n) (by omega)]

/-- A number other than zero does not start with one. -/
theorem head?_decimalChars_ne {n : Nat} (h : n ≠ 0) : (decimalChars n).head? ≠ some '0' := by
  induction n using Nat.strongRecOn with
  | _ n ih =>
    by_cases hn : n < 10
    · rw [decimalChars_of_lt hn]
      intro hzero
      have hnat := digitChar_toNat n
      rw [Option.some.inj hzero] at hnat
      change 0x30 = 0x30 + n % 10 at hnat
      omega
    · rw [decimalChars_of_le (by omega), List.head?_append,
        Option.or_of_isSome (by simp [List.isSome_head?, decimalChars_ne_nil])]
      exact ih (n / 10) (by omega) (by omega)

theorem length_decimalChars_le {n k : Nat} (h : n < 10 ^ (k + 1)) :
    (decimalChars n).length ≤ k + 1 := by
  have hbytes := length_decimalBytes_le h
  rwa [decimalBytes, List.length_map] at hbytes

/-- A number below a power of ten is padded to as many digits as the exponent says. -/
theorem length_paddedChars {n k : Nat} (h : n < 10 ^ (k + 1)) :
    (paddedChars (k + 1) n).length = k + 1 := by
  have hlength := length_decimalChars_le h
  rw [paddedChars, List.length_append, List.length_replicate]
  omega

theorem isDigit_of_mem_paddedChars {width n : Nat} {c : Char} (h : c ∈ paddedChars width n) :
    c.isDigit = true := by
  obtain hzero | hdigit := List.mem_append.mp h
  · rw [List.eq_of_mem_replicate hzero]
    rfl
  · exact isDigit_of_mem_decimalChars hdigit

theorem spelled_zeros (count : Nat) : spelled 0 (List.replicate count '0') = 0 := by
  induction count with
  | zero => rfl
  | succ count ih => exact ih

@[simp] theorem spelled_paddedChars (width n : Nat) : spelled 0 (paddedChars width n) = n := by
  rw [paddedChars, spelled_append, spelled_zeros, spelled_decimalChars]

theorem paddedChars_ne_nil (width n : Nat) : paddedChars width n ≠ [] := by
  simp [paddedChars, decimalChars_ne_nil]

/-! A run of digits, or of other characters, ends where one stands that is not of that kind. -/

variable {p : Char → Bool} {run rest : List Char}

theorem takeWhile_append_of_stops (hrun : ∀ c ∈ run, p c = true)
    (hrest : ∀ c ∈ rest.head?, p c = false) : (run ++ rest).takeWhile p = run := by
  rw [List.takeWhile_append_of_pos hrun]
  cases rest with
  | nil => simp
  | cons c rest => simp [hrest c rfl]

theorem dropWhile_append_of_stops (hrun : ∀ c ∈ run, p c = true)
    (hrest : ∀ c ∈ rest.head?, p c = false) : (run ++ rest).dropWhile p = rest := by
  rw [List.dropWhile_append_of_pos hrun]
  cases rest with
  | nil => simp
  | cons c rest => simp [hrest c rfl]

/-- A hexadecimal digit is that of a remainder. -/
theorem hexChar_mod (n : Nat) : hexChar (n % 16) = hexChar n := by simp [hexChar]

/-- The hexadecimal digit of a number is read back. -/
theorem digitIn?_hexChar (n : Nat) : digitIn? 16 (hexChar n) = some (n % 16) := by
  have h : ∀ d, d < 16 → digitIn? 16 (hexChar d) = some d := by decide
  rw [← hexChar_mod]
  exact h _ (Nat.mod_lt n (by omega))

end Netconf.Text
