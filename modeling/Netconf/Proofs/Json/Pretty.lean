import Netconf.Proofs.Json.Roundtrip

/-! The text of a JSON value on lines of its own is read back as well: the line ends and the blanks
that it has more are passed over. -/
namespace Netconf.Json.Value

/-- A line end and the blanks behind it are passed over. -/
theorem skip_newLine (depth : Nat) (cs : List Char) : skip (newLine depth ++ cs) = skip cs := by
  have hspace : ∀ c ∈ newLine depth, isSpace c = true := by
    intro c hc
    obtain rfl | hblank := List.mem_cons.mp hc
    · rfl
    · rw [List.eq_of_mem_replicate hblank]
      rfl
  exact List.dropWhile_append_of_pos hspace

theorem skip_blank (cs : List Char) : skip (' ' :: cs) = skip cs := rfl

/-- A line end does not go on with a number. -/
theorem ends_newLine (depth : Nat) (cs : List Char) : Ends (newLine depth ++ cs) :=
  .cons _ (by decide)

/-- The text of a value starts as it does without white space. -/
theorem head_prettyChars (depth : Nat) (v : Value) :
    ∃ c cs, prettyChars depth v = c :: cs ∧ isSpace c = false ∧ c ≠ ']' := by
  cases v with
  | array items => cases items <;> exact ⟨'[', _, rfl, by decide, by decide⟩
  | object members => cases members <;> exact ⟨'{', _, rfl, by decide, by decide⟩
  | null => exact head_chars null
  | bool b => exact head_chars (bool b)
  | number n => exact head_chars (number n)
  | string s => exact head_chars (string s)
  | garbled => exact head_chars garbled

theorem skip_prettyChars (depth : Nat) (v : Value) (rest : List Char) :
    skip (prettyChars depth v ++ rest) = prettyChars depth v ++ rest := by
  obtain ⟨c, cs, hcs, hspace, -⟩ := head_prettyChars depth v
  rw [hcs, List.cons_append, skip, List.dropWhile_cons_of_neg (by simp [hspace])]

/-- The text of items starts with that of the first one, on a new line. -/
theorem prettyItems_cons (depth : Nat) (v : Value) (vs : List Value) :
    ∃ cs, prettyItems depth (v :: vs) = newLine depth ++ (prettyChars depth v ++ cs) := by
  cases vs with
  | nil => exact ⟨[], by rw [prettyItems, List.append_nil]⟩
  | cons w vs => exact ⟨_, List.append_assoc ..⟩

theorem prettyMembers_singleton (depth : Nat) (k : String) (v : Value) :
    prettyMembers depth [(k, v)] =
      newLine depth ++ (stringChars k ++ ':' :: ' ' :: prettyChars depth v) :=
  List.append_assoc ..

theorem prettyMembers_cons_cons (depth : Nat) (k : String) (v : Value) (m : String × Value)
    (ms : List (String × Value)) : prettyMembers depth ((k, v) :: m :: ms) =
      newLine depth ++ (stringChars k ++ ':' :: ' ' :: (prettyChars depth v ++
        ',' :: prettyMembers depth (m :: ms))) := by
  simp [prettyMembers]

/-- The text of members starts with the first key, on a new line. -/
theorem prettyMembers_cons (depth : Nat) (m : String × Value) (ms : List (String × Value)) :
    ∃ cs, prettyMembers depth (m :: ms) = newLine depth ++ '"' :: cs := by
  obtain ⟨k, v⟩ := m
  cases ms with
  | nil => exact ⟨_, prettyMembers_singleton depth k v⟩
  | cons m ms => exact ⟨_, prettyMembers_cons_cons depth k v m ms⟩

theorem skip_stringChars (k : String) (rest : List Char) :
    skip (stringChars k ++ rest) = stringChars k ++ rest := rfl

theorem length_prettyChars_pos (depth : Nat) (v : Value) : 0 < (prettyChars depth v).length := by
  obtain ⟨c, cs, hcs, -, -⟩ := head_prettyChars depth v
  simp [hcs]

theorem skip_prettyItems_ne (depth : Nat) (v : Value) (vs : List Value) (rest after : List Char) :
    skip (prettyItems depth (v :: vs) ++ rest) ≠ ']' :: after := by
  obtain ⟨cs, hcs⟩ := prettyItems_cons depth v vs
  obtain ⟨c, tail, htail, -, hc⟩ := head_prettyChars depth v
  rw [hcs, List.append_assoc, skip_newLine, List.append_assoc, skip_prettyChars, htail]
  exact fun heq => hc (List.cons.inj heq).1

theorem skip_prettyMembers_ne (depth : Nat) (m : String × Value) (ms : List (String × Value))
    (rest after : List Char) : skip (prettyMembers depth (m :: ms) ++ rest) ≠ '}' :: after := by
  obtain ⟨cs, hcs⟩ := prettyMembers_cons depth m ms
  rw [hcs, List.append_assoc, skip_newLine]
  exact fun heq => nomatch (List.cons.inj heq).1

mutual

theorem value?_prettyChars : (depth : Nat) → (v : Value) → v.IsKept → (fuel : Nat) →
    ∀ {rest : List Char}, 2 * (prettyChars depth v).length ≤ fuel → Ends rest →
      value? fuel (prettyChars depth v ++ rest) = some (v, rest)
  | depth, v, h, 0, rest, hfuel, _ => by
    have hpos := length_prettyChars_pos depth v
    omega
  | _, null, _, fuel + 1, rest, _, _ => rfl
  | _, bool true, _, fuel + 1, rest, _, _ => rfl
  | _, bool false, _, fuel + 1, rest, _, _ => rfl
  | _, number n, h, fuel + 1, rest, hfuel, hrest => value?_number h hrest
  | _, string s, _, fuel + 1, rest, hfuel, _ => value?_string fuel s rest
  | _, garbled, _, fuel + 1, rest, hfuel, _ => value?_garbled fuel rest
  | _, array [], h, fuel + 1, rest, hfuel, _ => rfl
  | depth, array (v :: vs), h, fuel + 1, rest, hfuel, _ => by
    have hchars : prettyChars depth (array (v :: vs)) =
        '[' :: (prettyItems (depth + 1) (v :: vs) ++ (newLine depth ++ [']'])) :=
      List.append_assoc ..
    rw [hchars, List.length_cons, List.length_append] at hfuel
    have hitems := items?_prettyItems (depth + 1) v vs h [] (newLine depth ++ ']' :: rest) rest fuel
      (by omega) (skip_newLine depth _) (ends_newLine depth _)
    rw [hchars, List.cons_append, List.append_assoc, List.append_assoc,
      value?_array fuel (skip_prettyItems_ne (depth + 1) v vs _)]
    exact congrArg (Option.map _) hitems
  | _, object [], h, fuel + 1, rest, hfuel, _ => rfl
  | depth, object (m :: ms), h, fuel + 1, rest, hfuel, _ => by
    have hchars : prettyChars depth (object (m :: ms)) =
        '{' :: (prettyMembers (depth + 1) (m :: ms) ++ (newLine depth ++ ['}'])) :=
      List.append_assoc ..
    rw [hchars, List.length_cons, List.length_append] at hfuel
    have hmembers := members?_prettyMembers (depth + 1) m ms h [] (newLine depth ++ '}' :: rest)
      rest fuel (by omega) (skip_newLine depth _) (ends_newLine depth _)
    rw [hchars, List.cons_append, List.append_assoc, List.append_assoc,
      value?_object fuel (skip_prettyMembers_ne (depth + 1) m ms _)]
    exact congrArg (Option.map _) hmembers

theorem items?_prettyItems : (depth : Nat) → (v : Value) → (vs : List Value) →
    ItemsKept (v :: vs) → (acc : List Value) → (after rest : List Char) → (fuel : Nat) →
    2 * (prettyItems depth (v :: vs)).length + 1 ≤ fuel → skip after = ']' :: rest → Ends after →
      items? fuel acc (skip (prettyItems depth (v :: vs) ++ after)) =
        some (acc.reverse ++ v :: vs, rest)
  | depth, v, vs, h, acc, after, rest, 0, hfuel, _, _ => by omega
  | depth, v, [], h, acc, after, rest, fuel + 1, hfuel, hafter, hends => by
    rw [prettyItems, List.length_append] at hfuel
    have hv := value?_prettyChars depth v h.1 fuel (by omega) hends
    rw [prettyItems, List.append_assoc, skip_newLine, skip_prettyChars, items?_last hv hafter,
      List.reverse_cons]
  | depth, v, w :: vs, h, acc, after, rest, fuel + 1, hfuel, hafter, hends => by
    have hchars : prettyItems depth (v :: w :: vs) =
        newLine depth ++ (prettyChars depth v ++ ',' :: prettyItems depth (w :: vs)) :=
      List.append_assoc ..
    rw [hchars, List.length_append, List.length_append, List.length_cons] at hfuel
    have hv := value?_prettyChars depth v h.1 fuel (by omega)
      (ends_of_mark (c := ',') (by simp) (prettyItems depth (w :: vs) ++ after))
    have hvs := items?_prettyItems depth w vs h.2 (v :: acc) after rest fuel (by omega) hafter hends
    rw [hchars, List.append_assoc, skip_newLine, List.append_assoc, List.cons_append,
      skip_prettyChars, items?_next hv rfl, hvs, List.reverse_cons, List.append_assoc]
    rfl

theorem members?_prettyMembers : (depth : Nat) → (m : String × Value) →
    (ms : List (String × Value)) → MembersKept (m :: ms) → (acc : List (String × Value)) →
    (after rest : List Char) → (fuel : Nat) →
    2 * (prettyMembers depth (m :: ms)).length + 1 ≤ fuel → skip after = '}' :: rest → Ends after →
      members? fuel (some acc) (skip (prettyMembers depth (m :: ms) ++ after)) =
        some (some (acc.reverse ++ m :: ms), rest)
  | depth, m, ms, h, acc, after, rest, 0, hfuel, _, _ => by omega
  | depth, (k, v), [], h, acc, after, rest, fuel + 1, hfuel, hafter, hends => by
    rw [prettyMembers_singleton, List.length_append, List.length_append, List.length_cons,
      List.length_cons] at hfuel
    have hv := value?_prettyChars depth v h.1 fuel (by omega) hends
    rw [← skip_prettyChars, ← skip_blank] at hv
    rw [prettyMembers_singleton, List.append_assoc, skip_newLine, List.append_assoc,
      skip_stringChars, List.cons_append, List.cons_append, members?_last hv hafter,
      List.reverse_cons]
  | depth, (k, v), m :: ms, h, acc, after, rest, fuel + 1, hfuel, hafter, hends => by
    rw [prettyMembers_cons_cons, List.length_append, List.length_append, List.length_cons,
      List.length_cons, List.length_append, List.length_cons] at hfuel
    have hv := value?_prettyChars depth v h.1 fuel (by omega)
      (ends_of_mark (c := ',') (by simp) (prettyMembers depth (m :: ms) ++ after))
    rw [← skip_prettyChars, ← skip_blank] at hv
    have hms := members?_prettyMembers depth m ms h.2 ((k, v) :: acc) after rest fuel (by omega)
      hafter hends
    rw [prettyMembers_cons_cons, List.append_assoc, skip_newLine, List.append_assoc,
      skip_stringChars, List.cons_append, List.cons_append, List.append_assoc, List.cons_append,
      members?_next hv rfl, hms, List.reverse_cons, List.append_assoc]
    rfl

end

/-- The text of a value on lines of its own is read back as that value. -/
theorem parse?_pretty {v : Value} (h : v.IsKept) : parse? v.pretty = some v := by
  have hskip : skip (prettyChars 0 v) = prettyChars 0 v := by
    have := skip_prettyChars 0 v []
    rwa [List.append_nil] at this
  have hread := value?_prettyChars 0 v h (2 * (prettyChars 0 v).length + 2) (by omega) .nil
  rw [List.append_nil] at hread
  have hlead : lead? v.pretty = some (v, []) := by
    rw [lead?, pretty, String.toList_ofList, hskip, hread]
  rw [parse?, hlead]
  rfl

end Netconf.Json.Value
