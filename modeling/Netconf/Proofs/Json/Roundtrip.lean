import Mathlib.Data.List.TakeWhile
import Netconf.Json.Parser
import Netconf.Json.Printer
import Netconf.Proofs.Text.Numeral

/-! The text of a JSON value is read back as that value, whatever its strings are, and it is a
single line. -/
namespace Netconf.Json

/-- A text without control characters is a single line. -/
def IsLine (cs : List Char) : Prop := ∀ c ∈ cs, 32 ≤ c.toNat

theorem IsLine.nil : IsLine [] := by simp [IsLine]

theorem IsLine.append {cs ds : List Char} (h : IsLine cs) (h' : IsLine ds) : IsLine (cs ++ ds) :=
  fun c hc => (List.mem_append.mp hc).elim (h c) (h' c)

theorem IsLine.cons {c : Char} {cs : List Char} (hc : 32 ≤ c.toNat) (h : IsLine cs) :
    IsLine (c :: cs) := List.forall_mem_cons.mpr ⟨hc, h⟩

theorem IsLine.not_mem {cs : List Char} (h : IsLine cs) : '\n' ∉ cs := fun hmem =>
  absurd (h '\n' hmem) (by decide)

/-! Strings. -/

theorem unit?_hexChar (n : Nat) (h : n < 256) (rest : List Char) :
    unit? ('0' :: '0' :: Text.hexChar (n / 16) :: Text.hexChar n :: rest) = some (n, rest) := by
  have hzero : Text.digitIn? 16 '0' = some 0 := by decide
  simp only [unit?, hzero, Text.digitIn?_hexChar, Option.bind_eq_bind, Option.bind_some,
    Option.pure_def, Option.some.injEq, Prod.mk.injEq, and_true]
  omega

theorem isLine_hexChar (n : Nat) : 32 ≤ (Text.hexChar n).toNat := by
  have h : ∀ d, d < 16 → 32 ≤ (Text.hexChar d).toNat := by decide
  rw [← Text.hexChar_mod]
  exact h _ (Nat.mod_lt n (by omega))

/-- A character is written as itself, or as an escape that is read back. -/
theorem escape_cases (c : Char) :
    (escape c = [c] ∧ c ≠ '"' ∧ c ≠ '\\' ∧ ¬ c.toNat < 32) ∨
      ∃ cs, escape c = '\\' :: cs ∧ IsLine cs ∧
        ∀ rest, escaped? (cs ++ rest) = some (some c, rest) := by
  have hofNat : ∀ n, c.toNat = n → Char.ofNat n = c := by
    rintro n rfl
    exact Char.ofNat_toNat c
  have hsingle : ∀ d : Char, 32 ≤ d.toNat → IsLine [d] := fun d hd => .cons hd .nil
  unfold escape
  split
  · next h => exact .inr ⟨['"'], rfl, hsingle _ (by decide), fun rest => by rw [h]; rfl⟩
  split
  · next h => exact .inr ⟨['\\'], rfl, hsingle _ (by decide), fun rest => by rw [h]; rfl⟩
  split
  · next h => exact .inr ⟨['n'], rfl, hsingle _ (by decide), fun rest => by rw [h]; rfl⟩
  split
  · next h => exact .inr ⟨['r'], rfl, hsingle _ (by decide), fun rest => by rw [h]; rfl⟩
  split
  · next h => exact .inr ⟨['t'], rfl, hsingle _ (by decide), fun rest => by rw [h]; rfl⟩
  split
  · next h =>
    exact .inr ⟨['b'], rfl, hsingle _ (by decide), fun rest => by rw [← hofNat _ h]; rfl⟩
  split
  · next h =>
    exact .inr ⟨['f'], rfl, hsingle _ (by decide), fun rest => by rw [← hofNat _ h]; rfl⟩
  split
  · next h =>
    refine .inr ⟨_, rfl, ?_, fun rest => ?_⟩
    · exact .cons (by decide) (.cons (by decide) (.cons (by decide)
        (.cons (isLine_hexChar _) (hsingle _ (isLine_hexChar _)))))
    · have hunit := unit?_hexChar c.toNat (by omega) rest
      simp only [List.cons_append, List.nil_append, escaped?, escapedUnit?, hunit]
      rw [if_pos (.inl (by omega)), Char.ofNat_toNat]
  · next hquote hslash _ _ _ _ _ hcontrol => exact .inl ⟨rfl, hquote, hslash, hcontrol⟩

theorem string?_escape (acc : Option (List Char)) (c : Char) (rest : List Char) :
    string? acc (escape c ++ rest) = string? (acc.map (c :: ·)) rest := by
  obtain ⟨hescape, hquote, hslash, hcontrol⟩ | ⟨cs, hescape, -, hread⟩ := escape_cases c
  · rw [hescape, List.cons_append, List.nil_append, string?, if_neg hquote, if_neg hslash,
      if_neg hcontrol]
  · have hne : ('\\' : Char) ≠ '"' := by decide
    rw [hescape, List.cons_append, string?, if_neg hne, if_pos rfl]
    split
    · next hnone =>
      rw [hread rest] at hnone
      cases hnone
    · next hsome =>
      rw [hread rest] at hsome
      cases hsome
      rfl

theorem string?_escaped (acc cs rest : List Char) :
    string? (some acc) (cs.flatMap escape ++ '"' :: rest) =
      some (some (acc.reverse ++ cs), rest) := by
  induction cs generalizing acc with
  | nil =>
    rw [List.flatMap_nil, List.nil_append, List.append_nil, string?, if_pos rfl]
    rfl
  | cons c cs ih =>
    rw [List.flatMap_cons, List.append_assoc, string?_escape, Option.map_some, ih,
      List.reverse_cons, List.append_assoc]
    rfl

/-- A string is read back from behind its opening quote. -/
theorem string?_stringChars (s : String) (rest : List Char) :
    ∃ cs, stringChars s = '"' :: cs ∧ string? (some []) (cs ++ rest) = some (some s.toList, rest) :=
  ⟨s.toList.flatMap escape ++ ['"'], rfl, by
    rw [List.append_assoc]
    exact string?_escaped [] s.toList rest⟩

/-! Numbers. -/

/-- What follows does not go on with a number. -/
def Ends (rest : List Char) : Prop :=
  ∀ c ∈ rest.head?, c.isDigit = false ∧ c ≠ '.' ∧ c ≠ 'e' ∧ c ≠ 'E'

theorem Ends.nil : Ends [] := by simp [Ends]

theorem Ends.cons {c : Char} (rest : List Char)
    (h : c.isDigit = false ∧ c ≠ '.' ∧ c ≠ 'e' ∧ c ≠ 'E') : Ends (c :: rest) := by
  rintro d hd
  cases hd
  exact h

/-- A number that reading can give: all of its digits are kept, and a whole number is written
without an exponent. -/
def Number.IsKept (n : Number) : Prop :=
  n.digits ≤ Text.maxWord64 ∧ (n.integral = true → n.exponent = 0)

theorem absorb_of_le {start : Nat} {ds : List Char} (h : Text.spelled start ds ≤ Text.maxWord64) :
    absorb start ds = (Text.spelled start ds, 0) := by
  induction ds generalizing start with
  | nil => rfl
  | cons c ds ih =>
    have hmore := Text.le_spelled (digitsFrom start [c]) ds
    have hspelled : Text.spelled start (c :: ds) = Text.spelled (digitsFrom start [c]) ds := rfl
    rw [hspelled] at h ⊢
    dsimp only [absorb]
    rw [if_pos (by omega), ih h]

theorem exponent?_of_ends {rest : List Char} (h : Ends rest) :
    exponent? rest = some (none, rest) := by
  cases rest with
  | nil => rfl
  | cons c rest =>
    obtain ⟨-, -, he, hE⟩ := h c rfl
    simp [exponent?, he, hE]

theorem fraction?_of_ne {rest : List Char} (h : rest.head? ≠ some '.') :
    fraction? rest = some (none, rest) := by
  unfold fraction?
  split
  · exact absurd rfl h
  · rfl

/-- The digits of a number are not followed by another one. -/
theorem Ends.not_isDigit {rest : List Char} (h : Ends rest) :
    ∀ c ∈ rest.head?, c.isDigit = false := fun c hc => (h c hc).1

/-- The digits of a number have no sign before them. -/
theorem ne_of_decimalChars (n : Nat) (rest : List Char) :
    (∀ cs, Text.decimalChars n ++ rest ≠ '+' :: cs) ∧
      ∀ cs, Text.decimalChars n ++ rest ≠ '-' :: cs := by
  cases hcs : Text.decimalChars n with
  | nil => exact absurd hcs (Text.decimalChars_ne_nil n)
  | cons c ds =>
    have hdigit : c.isDigit = true := Text.isDigit_of_mem_decimalChars (n := n) (by simp [hcs])
    constructor <;> (intro cs h; cases h; cases hdigit)

theorem exponent?_decimalChars (exponent : Int) {rest : List Char} (h : Ends rest) :
    exponent? ('e' :: ((if exponent < 0 then ['-'] else []) ++
      Text.decimalChars exponent.natAbs ++ rest)) = some (some exponent, rest) := by
  have hdigits : ∀ c ∈ Text.decimalChars exponent.natAbs, c.isDigit = true :=
    fun c => Text.isDigit_of_mem_decimalChars
  have htake := Text.takeWhile_append_of_stops hdigits h.not_isDigit
  have hdrop := Text.dropWhile_append_of_stops hdigits h.not_isDigit
  have hnonempty : (Text.decimalChars exponent.natAbs).isEmpty = false := by
    simp [Text.decimalChars_ne_nil]
  have hvalue : digitsFrom 0 (Text.decimalChars exponent.natAbs) = exponent.natAbs :=
    Text.spelled_decimalChars _
  dsimp only [exponent?]
  rw [if_pos (.inl rfl)]
  by_cases hneg : exponent < 0
  · rw [if_pos hneg]
    simp only [List.cons_append, List.nil_append, htake, hdrop, hnonempty, hvalue]
    simp only [Bool.false_eq_true, if_false, Option.some.injEq, Prod.mk.injEq, and_true]
    omega
  · -- The digits have no sign before them, so that none is taken off.
    rw [if_neg hneg, List.nil_append]
    obtain ⟨hplus, hminus⟩ := ne_of_decimalChars exponent.natAbs rest
    split
    · next heq => exact absurd heq (hplus _)
    · next heq => exact absurd heq (hminus _)
    · simp only [htake, hdrop, hnonempty, hvalue]
      simp only [Bool.false_eq_true, if_false, Option.some.injEq, Prod.mk.injEq, and_true]
      omega

/-- Where the digits of a number start with a zero there are no others. -/
theorem decimalChars_of_zero {n : Nat} {cs rest : List Char}
    (h : Text.decimalChars n ++ rest = '0' :: cs) : Text.decimalChars n = ['0'] := by
  by_cases hn : n = 0
  · rw [hn, Text.decimalChars_of_lt (by omega)]
    rfl
  · have hhead := congrArg List.head? h
    rw [List.head?_append, Option.or_of_isSome (by simp [Text.decimalChars_ne_nil])] at hhead
    exact absurd hhead (Text.head?_decimalChars_ne hn)

/-- A number is read back, without its sign. -/
theorem unsignedNumber?_decimalChars {n : Number} (h : n.IsKept) {rest : List Char}
    (hrest : Ends rest) :
    unsignedNumber? n.negative (Text.decimalChars n.digits ++ ((if n.integral then []
      else 'e' :: (if n.exponent < 0 then ['-'] else []) ++ Text.decimalChars n.exponent.natAbs) ++
      rest)) = some (n, rest) := by
  obtain ⟨hdigits, hwhole⟩ := h
  have habsorb : absorb 0 (Text.decimalChars n.digits) = (n.digits, 0) := by
    rw [absorb_of_le (by rwa [Text.spelled_decimalChars]), Text.spelled_decimalChars]
  have hnonempty : (Text.decimalChars n.digits).isEmpty = false := by
    simp [Text.decimalChars_ne_nil]
  generalize htail : (if n.integral then []
      else 'e' :: (if n.exponent < 0 then ['-'] else []) ++ Text.decimalChars n.exponent.natAbs) ++
      rest = tail
  have hhead : ∀ c ∈ tail.head?, c.isDigit = false ∧ c ≠ '.' := by
    subst htail
    cases n.integral with
    | true => exact fun c hc => ⟨(hrest c hc).1, (hrest c hc).2.1⟩
    | false =>
      intro c hc
      cases hc
      decide
  have hexponent : exponent? tail =
      some (if n.integral then none else some n.exponent, rest) := by
    subst htail
    cases n.integral with
    | true => exact exponent?_of_ends hrest
    | false => exact exponent?_decimalChars n.exponent hrest
  have hpoint : fraction? tail = some (none, tail) :=
    fraction?_of_ne fun hpoint => (hhead '.' hpoint).2 rfl
  have hdigit : (tail.head?.map (·.isDigit)).getD false = false := by
    cases tail with
    | nil => rfl
    | cons c tail => exact (hhead c rfl).1
  have htake := Text.takeWhile_append_of_stops
    (fun c => Text.isDigit_of_mem_decimalChars (n := n.digits)) fun c hc => (hhead c hc).1
  have hresult : Number.mk n.negative n.digits
      ((if n.integral then none else some n.exponent).getD 0)
      (if n.integral then none else some n.exponent).isNone = n := by
    cases n with
    | mk negative digits exponent integral =>
      cases integral with
      | true =>
        obtain rfl : exponent = 0 := hwhole rfl
        rfl
      | false => rfl
  have hdone : absorb n.digits [] = (n.digits, 0) := rfl
  unfold unsignedNumber?
  dsimp only
  split
  · next heq =>
    rw [← decimalChars_of_zero heq]
    simpa [hnonempty, hdigit, hpoint, hexponent, habsorb, hdone] using hresult
  · simpa [htake, hnonempty, hdigit, hpoint, hexponent, habsorb, hdone] using hresult

theorem number?_chars {n : Number} (h : n.IsKept) {rest : List Char} (hrest : Ends rest) :
    number? (n.chars ++ rest) = some (n, rest) := by
  have hread := unsignedNumber?_decimalChars h hrest
  unfold Number.chars
  rw [List.append_assoc, List.append_assoc]
  cases hn : n.negative with
  | true =>
    rw [hn] at hread
    exact hread
  | false =>
    rw [hn] at hread
    unfold number?
    split
    · next heq => exact absurd heq ((ne_of_decimalChars n.digits _).2 _)
    · exact hread

theorem Number.head_chars (n : Number) :
    ∃ c cs, n.chars = c :: cs ∧ (c = '-' ∨ c.isDigit = true) := by
  unfold Number.chars
  cases n.negative with
  | true => exact ⟨'-', _, rfl, .inl rfl⟩
  | false =>
    cases hcs : Text.decimalChars n.digits with
    | nil => exact absurd hcs (Text.decimalChars_ne_nil _)
    | cons c cs =>
      exact ⟨c, _, rfl, .inr (Text.isDigit_of_mem_decimalChars (n := n.digits) (by simp [hcs]))⟩

theorem isSpace_of_isDigit {c : Char} (h : c.isDigit = true) : isSpace c = false := by
  simp only [isSpace, Bool.or_eq_false_iff, beq_eq_false_iff_ne]
  refine ⟨⟨⟨?_, ?_⟩, ?_⟩, ?_⟩ <;> rintro rfl <;> cases h

/-! Values. -/

namespace Value

mutual

/-- All numbers inside are such as reading can give. -/
def IsKept : Value → Prop
  | number n => n.IsKept
  | array items => ItemsKept items
  | object members => MembersKept members
  | _ => True

def ItemsKept : List Value → Prop
  | [] => True
  | v :: vs => v.IsKept ∧ ItemsKept vs

def MembersKept : List (String × Value) → Prop
  | [] => True
  | (_, v) :: ms => v.IsKept ∧ MembersKept ms

end

/-- The text of a value starts with a character that tells which kind of value it is. -/
theorem head_chars (v : Value) : ∃ c cs, v.chars = c :: cs ∧ isSpace c = false ∧ c ≠ ']' := by
  cases v with
  | number n =>
    obtain ⟨c, cs, hcs, rfl | hdigit⟩ := n.head_chars
    · exact ⟨'-', cs, hcs, by decide, by decide⟩
    · refine ⟨c, cs, hcs, isSpace_of_isDigit hdigit, ?_⟩
      rintro rfl
      cases hdigit
  | bool b => cases b <;> exact ⟨_, _, rfl, by decide, by decide⟩
  | _ => exact ⟨_, _, rfl, by decide, by decide⟩

theorem skip_chars (v : Value) (rest : List Char) : skip (v.chars ++ rest) = v.chars ++ rest := by
  obtain ⟨c, cs, hcs, hspace, -⟩ := head_chars v
  rw [hcs, List.cons_append, skip, List.dropWhile_cons_of_neg (by simp [hspace])]

theorem value?_number {fuel : Nat} {n : Number} (h : n.IsKept) {rest : List Char}
    (hrest : Ends rest) : value? (fuel + 1) (n.chars ++ rest) = some (.number n, rest) := by
  have hread := number?_chars h hrest
  obtain ⟨c, cs, hcs, hc⟩ := n.head_chars
  rw [hcs, List.cons_append] at hread ⊢
  unfold value?
  split
  case h_7 =>
    rw [hread]
    rfl
  all_goals
    next heq =>
    obtain rfl := (List.cons.inj heq).1
    simp at hc

/-- A string is read back as a value. -/
theorem value?_string (fuel : Nat) (s : String) (rest : List Char) :
    value? (fuel + 1) (stringChars s ++ rest) = some (.string s, rest) := by
  obtain ⟨cs, hcs, hread⟩ := string?_stringChars s rest
  rw [hcs]
  simp [value?, hread, ofChars]

/-- Behind a value inside another there is a comma or the end of that. -/
theorem ends_of_mark {c : Char} (h : c = ',' ∨ c = ']' ∨ c = '}') (rest : List Char) :
    Ends (c :: rest) := by
  obtain rfl | rfl | rfl := h <;> exact .cons rest (by decide)

theorem length_chars_pos (v : Value) : 0 < v.chars.length := by
  obtain ⟨c, cs, hcs, -, -⟩ := head_chars v
  simp [hcs]

/-- The text of items starts with that of the first one. -/
theorem itemChars_cons (v : Value) (vs : List Value) :
    ∃ cs, itemChars (v :: vs) = v.chars ++ cs := by
  cases vs with
  | nil => exact ⟨[], (List.append_nil _).symm⟩
  | cons w vs => exact ⟨',' :: itemChars (w :: vs), rfl⟩

theorem itemChars_ne (v : Value) (vs : List Value) (rest after : List Char) :
    itemChars (v :: vs) ++ rest ≠ ']' :: after := by
  obtain ⟨cs, hcs⟩ := itemChars_cons v vs
  obtain ⟨c, tail, htail, -, hc⟩ := head_chars v
  rw [hcs, htail]
  exact fun heq => hc (List.cons.inj heq).1

theorem skip_itemChars (v : Value) (vs : List Value) (rest : List Char) :
    skip (itemChars (v :: vs) ++ rest) = itemChars (v :: vs) ++ rest := by
  obtain ⟨cs, hcs⟩ := itemChars_cons v vs
  rw [hcs, List.append_assoc, skip_chars]

/-- The text of members starts with the quote of the first key. -/
theorem memberChars_cons (m : String × Value) (ms : List (String × Value)) :
    ∃ cs, memberChars (m :: ms) = '"' :: cs := by
  obtain ⟨k, v⟩ := m
  cases ms with
  | nil => exact ⟨_, rfl⟩
  | cons m ms => exact ⟨_, rfl⟩

theorem memberChars_ne (m : String × Value) (ms : List (String × Value))
    (rest after : List Char) : memberChars (m :: ms) ++ rest ≠ '}' :: after := by
  obtain ⟨cs, hcs⟩ := memberChars_cons m ms
  rw [hcs]
  exact fun heq => nomatch (List.cons.inj heq).1

theorem skip_memberChars (m : String × Value) (ms : List (String × Value)) (rest : List Char) :
    skip (memberChars (m :: ms) ++ rest) = memberChars (m :: ms) ++ rest := by
  obtain ⟨cs, hcs⟩ := memberChars_cons m ms
  rw [hcs]
  rfl

/-- An array with items is read from behind its bracket. -/
theorem value?_array (fuel : Nat) {cs : List Char} (h : ∀ rest, skip cs ≠ ']' :: rest) :
    value? (fuel + 1) ('[' :: cs) =
      (items? fuel [] (skip cs)).map fun p => (.array p.1, p.2) := by
  rw [value?]
  split
  · next heq => exact absurd heq (h _)
  · rfl

/-- An object with members is read from behind its brace. -/
theorem value?_object (fuel : Nat) {cs : List Char} (h : ∀ rest, skip cs ≠ '}' :: rest) :
    value? (fuel + 1) ('{' :: cs) =
      (members? fuel (some []) (skip cs)).map fun p => ((p.1.map .object).getD .garbled, p.2) := by
  rw [value?]
  split
  · next heq => exact absurd heq (h _)
  · rfl

theorem value?_garbled (fuel : Nat) (rest : List Char) :
    value? (fuel + 1) (garbledChars ++ rest) = some (.garbled, rest) := by
  have hquote : string? none ('"' :: rest) = some (none, rest) := by
    rw [string?, if_pos rfl]
    rfl
  have hread : string? (some []) ('\\' :: 'u' :: 'd' :: '8' :: '0' :: '0' :: '"' :: rest) =
      some (none, rest) := by
    rw [string?, if_neg (by decide), if_pos rfl]
    exact hquote
  exact congrArg (Option.map _) hread

section

variable {fuel : Nat} {v : Value} {cs after rest : List Char}

theorem items?_last {acc : List Value} (h : value? fuel cs = some (v, after))
    (hafter : skip after = ']' :: rest) :
    items? (fuel + 1) acc cs = some ((v :: acc).reverse, rest) := by
  rw [items?, h]
  dsimp only
  rw [hafter]
  rfl

theorem items?_next {acc : List Value} (h : value? fuel cs = some (v, after))
    (hafter : skip after = ',' :: rest) :
    items? (fuel + 1) acc cs = items? fuel (v :: acc) (skip rest) := by
  rw [items?, h]
  dsimp only
  rw [hafter]
  rfl

theorem members?_last {acc : List (String × Value)} {k : String}
    (h : value? fuel (skip cs) = some (v, after)) (hafter : skip after = '}' :: rest) :
    members? (fuel + 1) (some acc) (stringChars k ++ ':' :: cs) =
      some (some ((k, v) :: acc).reverse, rest) := by
  obtain ⟨key, hkey, hread⟩ := string?_stringChars k (':' :: cs)
  have hskip : skip (':' :: cs) = ':' :: cs := rfl
  rw [hkey, List.cons_append, members?]
  simp only [hread, hskip, h, hafter, Option.bind_some, Option.map_some, String.ofList_toList]

theorem members?_next {acc : List (String × Value)} {k : String}
    (h : value? fuel (skip cs) = some (v, after)) (hafter : skip after = ',' :: rest) :
    members? (fuel + 1) (some acc) (stringChars k ++ ':' :: cs) =
      members? fuel (some ((k, v) :: acc)) (skip rest) := by
  obtain ⟨key, hkey, hread⟩ := string?_stringChars k (':' :: cs)
  have hskip : skip (':' :: cs) = ':' :: cs := rfl
  rw [hkey, List.cons_append, members?]
  simp only [hread, hskip, h, hafter, Option.bind_some, Option.map_some, String.ofList_toList]

end

mutual

theorem value?_chars : (v : Value) → v.IsKept → (fuel : Nat) → ∀ {rest : List Char},
    2 * v.chars.length ≤ fuel → Ends rest → value? fuel (v.chars ++ rest) = some (v, rest)
  | v, h, 0, rest, hfuel, _ => by
    have hpos := length_chars_pos v
    omega
  | null, _, fuel + 1, rest, _, _ => rfl
  | bool true, _, fuel + 1, rest, _, _ => rfl
  | bool false, _, fuel + 1, rest, _, _ => rfl
  | number n, h, fuel + 1, rest, hfuel, hrest => value?_number h hrest
  | string s, _, fuel + 1, rest, hfuel, _ => value?_string fuel s rest
  | garbled, _, fuel + 1, rest, hfuel, _ => value?_garbled fuel rest
  | array [], h, fuel + 1, rest, hfuel, _ => rfl
  | array (v :: vs), h, fuel + 1, rest, hfuel, _ => by
    have hlength : (array (v :: vs)).chars.length = (itemChars (v :: vs)).length + 2 := by
      simp [chars]
    have hitems := items?_itemChars v vs h [] rest fuel (by omega)
    rw [chars, List.cons_append, List.cons_append, List.append_assoc,
      value?_array fuel (by rw [skip_itemChars]; exact itemChars_ne v vs _), skip_itemChars]
    exact congrArg (Option.map _) hitems
  | object [], h, fuel + 1, rest, hfuel, _ => rfl
  | object (m :: ms), h, fuel + 1, rest, hfuel, _ => by
    have hlength : (object (m :: ms)).chars.length = (memberChars (m :: ms)).length + 2 := by
      simp [chars]
    have hmembers := members?_memberChars m ms h [] rest fuel (by omega)
    rw [chars, List.cons_append, List.cons_append, List.append_assoc,
      value?_object fuel (by rw [skip_memberChars]; exact memberChars_ne m ms _), skip_memberChars]
    exact congrArg (Option.map _) hmembers

theorem items?_itemChars : (v : Value) → (vs : List Value) → ItemsKept (v :: vs) →
    (acc : List Value) → (rest : List Char) → (fuel : Nat) →
    2 * (itemChars (v :: vs)).length + 1 ≤ fuel →
      items? fuel acc (itemChars (v :: vs) ++ ']' :: rest) = some (acc.reverse ++ v :: vs, rest)
  | v, vs, h, acc, rest, 0, hfuel => by omega
  | v, [], h, acc, rest, fuel + 1, hfuel => by
    have hv := value?_chars v h.1 fuel (by rw [itemChars] at hfuel; omega)
      (ends_of_mark (c := ']') (by simp) rest)
    rw [itemChars, items?_last hv rfl, List.reverse_cons]
  | v, w :: vs, h, acc, rest, fuel + 1, hfuel => by
    have hchars : itemChars (v :: w :: vs) = v.chars ++ ',' :: itemChars (w :: vs) := rfl
    rw [hchars, List.length_append, List.length_cons] at hfuel
    have hv := value?_chars v h.1 fuel (by omega)
      (ends_of_mark (c := ',') (by simp) (itemChars (w :: vs) ++ ']' :: rest))
    have hvs := items?_itemChars w vs h.2 (v :: acc) rest fuel (by omega)
    rw [hchars, List.append_assoc, List.cons_append, items?_next hv rfl, skip_itemChars, hvs,
      List.reverse_cons, List.append_assoc]
    rfl

theorem members?_memberChars : (m : String × Value) → (ms : List (String × Value)) →
    MembersKept (m :: ms) → (acc : List (String × Value)) → (rest : List Char) →
    (fuel : Nat) → 2 * (memberChars (m :: ms)).length + 1 ≤ fuel →
      members? fuel (some acc) (memberChars (m :: ms) ++ '}' :: rest) =
        some (some (acc.reverse ++ m :: ms), rest)
  | m, ms, h, acc, rest, 0, hfuel => by omega
  | (k, v), [], h, acc, rest, fuel + 1, hfuel => by
    have hchars : memberChars [(k, v)] = stringChars k ++ ':' :: v.chars := rfl
    rw [hchars, List.length_append, List.length_cons] at hfuel
    have hv := value?_chars v h.1 fuel (by omega)
      (ends_of_mark (c := '}') (by simp) rest)
    rw [← skip_chars] at hv
    rw [hchars, List.append_assoc, List.cons_append, members?_last hv rfl, List.reverse_cons]
  | (k, v), m :: ms, h, acc, rest, fuel + 1, hfuel => by
    have hchars : memberChars ((k, v) :: m :: ms) =
        stringChars k ++ ':' :: v.chars ++ ',' :: memberChars (m :: ms) := by
      obtain ⟨k', v'⟩ := m
      rfl
    rw [hchars, List.length_append, List.length_append, List.length_cons, List.length_cons]
      at hfuel
    have hv := value?_chars v h.1 fuel (by omega)
      (ends_of_mark (c := ',') (by simp) (memberChars (m :: ms) ++ '}' :: rest))
    rw [← skip_chars] at hv
    have hms := members?_memberChars m ms h.2 ((k, v) :: acc) rest fuel (by omega)
    rw [hchars, List.append_assoc, List.append_assoc, List.cons_append, List.cons_append,
      members?_next hv rfl, skip_memberChars, hms, List.reverse_cons, List.append_assoc]
    rfl

end

/-- The text of a value is read back as that value, whatever white space is behind it. -/
theorem parse?_render {v : Value} (h : v.IsKept) {blank : String}
    (hblank : ∀ c ∈ blank.toList, isSpace c = true) : parse? (v.render ++ blank) = some v := by
  have hends : Ends blank.toList := by
    intro c hc
    have hspace := hblank c (List.mem_of_mem_head? hc)
    simp only [isSpace, Bool.or_eq_true, beq_iff_eq] at hspace
    obtain ((rfl | rfl) | rfl) | rfl := hspace <;> decide
  have hafter : skip blank.toList = [] := by
    rw [skip, List.dropWhile_eq_nil_iff]
    exact hblank
  have hchars : (v.render ++ blank).toList = v.chars ++ blank.toList := by
    rw [String.toList_append, render, String.toList_ofList]
  have hread := value?_chars v h (2 * (v.chars ++ blank.toList).length + 2)
    (by rw [List.length_append]; omega) hends
  have hlead : lead? (v.render ++ blank) = some (v, blank.toList) := by
    rw [lead?, hchars, skip_chars, hread]
  simp [parse?, hlead, hafter]

/-! Lines. -/

theorem isLine_escape (c : Char) : IsLine (escape c) := by
  obtain ⟨hescape, -, -, hcontrol⟩ | ⟨cs, hescape, hline, -⟩ := escape_cases c
  · rw [hescape]
    exact .cons (by omega) .nil
  · rw [hescape]
    exact .cons (by decide) hline

theorem isLine_stringChars (s : String) : IsLine (stringChars s) := by
  have hinside : IsLine (s.toList.flatMap escape) := by
    intro c hc
    obtain ⟨d, -, hd⟩ := List.mem_flatMap.mp hc
    exact isLine_escape d c hd
  exact .append (.cons (by decide) hinside) (.cons (by decide) .nil)

theorem isLine_digits (n : Nat) : IsLine (Text.decimalChars n) := by
  intro c hc
  have hdigit := Text.isDigit_of_mem_decimalChars hc
  simp only [Char.isDigit, Bool.and_eq_true, decide_eq_true_eq] at hdigit
  have hle : ('0' : Char).toNat ≤ c.toNat := hdigit.1
  exact Nat.le_trans (by decide) hle

theorem isLine_number (n : Number) : IsLine n.chars := by
  unfold Number.chars
  refine ((IsLine.append ?_ (isLine_digits _))).append ?_
  · split <;> simp [IsLine]
  · split
    · exact .nil
    · exact .append (.cons (by decide) (by split <;> simp [IsLine])) (isLine_digits _)

mutual

theorem isLine_chars : (v : Value) → IsLine v.chars
  | null => by simp [IsLine, chars]
  | bool true => by simp [IsLine, chars]
  | bool false => by simp [IsLine, chars]
  | number n => isLine_number n
  | string s => isLine_stringChars s
  | garbled => by simp [IsLine, chars, garbledChars]
  | array items => .append (.cons (by decide) (isLine_itemChars items)) (.cons (by decide) .nil)
  | object members =>
    .append (.cons (by decide) (isLine_memberChars members)) (.cons (by decide) .nil)

theorem isLine_itemChars : (vs : List Value) → IsLine (itemChars vs)
  | [] => .nil
  | [v] => isLine_chars v
  | v :: w :: vs => (isLine_chars v).append (.cons (by decide) (isLine_itemChars (w :: vs)))

theorem isLine_memberChars : (ms : List (String × Value)) → IsLine (memberChars ms)
  | [] => .nil
  | [(k, v)] => (isLine_stringChars k).append (.cons (by decide) (isLine_chars v))
  | (k, v) :: m :: ms =>
    ((isLine_stringChars k).append (.cons (by decide) (isLine_chars v))).append
      (.cons (by decide) (isLine_memberChars (m :: ms)))

end

end Value

end Netconf.Json
