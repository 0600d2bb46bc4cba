import Mathlib.Data.List.Basic
import Netconf.Identity
import Netconf.Proofs.Text.Numeral

/-! Which user a subject names. A subject is a row of fields, each of them a key with a value. The
user is told by the first field in which the marker stands, be it behind the end of a longer key or
within the value. So the first field `CN` names the user as long as no field before it holds a
marker. -/
namespace Netconf.Identity

/-- A field of a subject. A key has a character at least and neither an equals sign nor a slash, and
there is no slash in a value. -/
structure Field where
  key : String
  value : String
  key_ne : key ≠ "" := by decide
  key_no_equals : '=' ∉ key.toList := by decide
  key_no_slash : '/' ∉ key.toList := by decide
  value_no_slash : '/' ∉ value.toList := by decide

/-- The subject that fields make up. -/
def subject (fs : List Field) : String :=
  String.join (fs.map fun f => "/" ++ f.key ++ "=" ++ f.value)

/-- The key of the field that should name the user. -/
def commonName : List Char := "CN".toList

/-- The marker stands in a field: its key ends with `CN`, or there is a marker in its value. -/
def Field.Marked (f : Field) : Prop := commonName <:+ f.key.toList ∨ marker <:+: f.value.toList

instance (f : Field) : Decidable f.Marked := inferInstanceAs (Decidable (_ ∨ _))

/-- A field tells the text behind the first marker in it, up to the end of the field. -/
inductive Field.Tells (f : Field) : String → Prop
  | whole (key : commonName <:+ f.key.toList) : f.Tells f.value
  | part {before name : String} (key : ¬ commonName <:+ f.key.toList)
      (split : f.value = before ++ "CN=" ++ name)
      (first : ¬ marker <:+: (before.toList ++ marker).dropLast) : f.Tells name

/-- The first marked field tells a text. -/
inductive Told : List Field → String → Prop
  | here {f : Field} {fs : List Field} {name : String} (tells : f.Tells name) : Told (f :: fs) name
  | later {f : Field} {fs : List Field} {name : String} (unmarked : ¬ f.Marked)
      (told : Told fs name) : Told (f :: fs) name

/-- What is made of a text told. -/
def named (name : String) : Except IdentityError String :=
  if name = "" then .error .empty else .ok name

theorem named_eq_ok_iff {name name' : String} :
    named name = .ok name' ↔ name' ≠ "" ∧ name = name' := by
  unfold named
  split <;> grind

theorem named_eq_empty_iff {name : String} : named name = .error .empty ↔ name = "" := by
  unfold named
  split <;> simp [*]

theorem named_ne_missing (name : String) : named name ≠ .error .missing := by
  unfold named
  split <;> simp

/-! The first marker in a text. -/

variable {as bs cs : List Char}

theorem afterMarker?_marker (cs : List Char) : afterMarker? (marker ++ cs) = some cs := rfl

theorem afterMarker?_cons {c : Char} (h : ¬ marker <+: c :: cs) :
    afterMarker? (c :: cs) = afterMarker? cs := by
  rw [afterMarker?, if_neg (mt List.isPrefixOf_iff_prefix.mp h)]

/-- Where no marker begins, the search goes on. -/
theorem afterMarker?_append (h : ∀ s, s ≠ [] → s <:+ as → ¬ marker <+: s ++ bs) :
    afterMarker? (as ++ bs) = afterMarker? bs := by
  induction as with
  | nil => rfl
  | cons a as ih =>
    have hhead := h (a :: as) (by simp) List.suffix_rfl
    rw [List.cons_append] at hhead ⊢
    rw [afterMarker?_cons hhead]
    exact ih fun s hs hsuffix => h s hs (hsuffix.trans (List.suffix_cons a as))

theorem afterMarker?_of_first (h : ¬ marker <:+: (as ++ marker).dropLast) (cs : List Char) :
    afterMarker? (as ++ marker ++ cs) = some cs := by
  rw [List.append_assoc, afterMarker?_append, afterMarker?_marker]
  rintro s hs ⟨u, rfl⟩ hmark
  apply h
  -- A marker that begins before the last one ends before it does.
  have hshort : marker <+: (s ++ marker).dropLast := by
    refine List.prefix_of_prefix_length_le hmark ?_ ?_
    · rw [← List.append_assoc]
      exact (List.dropLast_prefix _).trans (List.prefix_append _ cs)
    · have := List.length_pos_iff.mpr hs
      rw [List.length_dropLast, List.length_append]
      omega
  rw [List.append_assoc, List.dropLast_append_of_ne_nil (by simp [marker])]
  exact hshort.isInfix.trans (List.suffix_append _ _).isInfix

/-- A text with a marker in it has a first one. -/
theorem exists_first (h : marker <:+: cs) :
    ∃ before name, cs = before ++ marker ++ name ∧ ¬ marker <:+: (before ++ marker).dropLast := by
  induction cs with
  | nil => simp [marker] at h
  | cons c cs ih =>
    by_cases hhead : marker <+: c :: cs
    · obtain ⟨name, hname⟩ := hhead
      refine ⟨[], name, hname.symm, fun hmark => ?_⟩
      simpa [marker] using hmark.length_le
    · obtain ⟨before, name, rfl, hfirst⟩ := ih ((List.infix_cons_iff.mp h).resolve_left hhead)
      refine ⟨c :: before, name, rfl, ?_⟩
      rw [List.cons_append, List.dropLast_cons_of_ne_nil (by simp [marker]), List.infix_cons_iff]
      refine not_or.mpr ⟨fun hmark => hhead (hmark.trans ?_), hfirst⟩
      exact List.cons_prefix_cons.mpr
        ⟨rfl, (List.dropLast_prefix _).trans (List.prefix_append _ name)⟩

/-! The marker in a field. -/

/-- The part of a text up to a character that ends it. -/
theorem takeWhile_ne {c : Char} (h : c ∉ as) (hend : bs = [] ∨ ∃ cs, bs = c :: cs) :
    (as ++ bs).takeWhile (· != c) = as := by
  refine Text.takeWhile_append_of_stops (by grind) ?_
  obtain rfl | ⟨cs, rfl⟩ := hend <;> simp

/-- A marker that begins in a key begins just before its equals sign. -/
theorem eq_commonName_of_marker (h : '=' ∉ as) (hmark : marker <+: as ++ '=' :: bs) :
    as = commonName := by
  obtain ⟨name, hname⟩ := hmark
  have hsplit : commonName ++ '=' :: name = as ++ '=' :: bs := hname
  have hkey := congrArg (List.takeWhile (· != '=')) hsplit
  rw [takeWhile_ne (by decide) (.inr ⟨name, rfl⟩), takeWhile_ne h (.inr ⟨bs, rfl⟩)] at hkey
  exact hkey.symm

/-- A marker does not go beyond the end of a field. -/
theorem marker_prefix_of_append (h : '/' ∉ as) (hend : bs = [] ∨ ∃ cs, bs = '/' :: cs)
    (hmark : marker <+: as ++ bs) : marker <+: as := by
  obtain ⟨name, hname⟩ := hmark
  have hfield := congrArg (List.takeWhile (· != '/')) hname
  rw [List.takeWhile_append_of_pos (by simp [marker]), takeWhile_ne h hend] at hfield
  exact ⟨_, hfield⟩

variable {f : Field} {fs : List Field} {name : String}

theorem afterMarker?_of_key (h : commonName <:+ f.key.toList) (cs : List Char) :
    afterMarker? (f.key.toList ++ '=' :: cs) = some cs := by
  have hequals := f.key_no_equals
  obtain ⟨before, hkey⟩ := h
  rw [← hkey] at hequals ⊢
  have hfirst : ¬ marker <:+: (before ++ marker).dropLast := by
    rw [List.dropLast_append_of_ne_nil (by decide)]
    exact fun hmark => hequals (hmark.subset (by decide))
  simpa [commonName, marker] using afterMarker?_of_first hfirst cs

theorem afterMarker?_of_other_key (h : ¬ commonName <:+ f.key.toList) (cs : List Char) :
    afterMarker? (f.key.toList ++ '=' :: cs) = afterMarker? cs := by
  rw [afterMarker?_append, afterMarker?_cons (by simp [marker])]
  intro s hs hsuffix hmark
  have hequals : '=' ∉ s := fun hmem => f.key_no_equals (hsuffix.subset hmem)
  exact h (eq_commonName_of_marker hequals hmark ▸ hsuffix)

/-- A field tells its text whatever stands behind it. -/
theorem Field.Tells.afterMarker?_eq (h : f.Tells name) (rest : List Char) :
    afterMarker? (f.key.toList ++ '=' :: (f.value.toList ++ rest)) =
      some (name.toList ++ rest) := by
  cases h with
  | whole hkey => exact afterMarker?_of_key hkey _
  | part hkey hsplit hfirst =>
    rw [afterMarker?_of_other_key hkey, hsplit, String.toList_append, String.toList_append,
      List.append_assoc]
    exact afterMarker?_of_first hfirst _

/-- A field without a marker is passed over. -/
theorem afterMarker?_of_unmarked (h : ¬ f.Marked) {rest : List Char}
    (hend : rest = [] ∨ ∃ cs, rest = '/' :: cs) :
    afterMarker? (f.key.toList ++ '=' :: (f.value.toList ++ rest)) = afterMarker? rest := by
  obtain ⟨hkey, hvalue⟩ := not_or.mp h
  rw [afterMarker?_of_other_key hkey, afterMarker?_append]
  intro s _ hsuffix hmark
  have hslash : '/' ∉ s := fun hmem => f.value_no_slash (hsuffix.subset hmem)
  exact hvalue ((marker_prefix_of_append hslash hend hmark).isInfix.trans hsuffix.isInfix)

theorem Field.Marked.exists_tells (h : f.Marked) : ∃ name, f.Tells name := by
  by_cases hkey : commonName <:+ f.key.toList
  · exact ⟨f.value, .whole hkey⟩
  · obtain ⟨before, name, hsplit, hfirst⟩ := exists_first (h.resolve_left hkey)
    have hvalue : f.value = String.ofList before ++ "CN=" ++ String.ofList name := by
      apply String.toList_inj.mp
      simpa [marker] using hsplit
    exact ⟨String.ofList name, .part hkey hvalue (by simpa)⟩

theorem Field.Tells.no_slash (h : f.Tells name) : '/' ∉ name.toList := by
  cases h with
  | whole => exact f.value_no_slash
  | part _ hsplit _ =>
    have hslash := f.value_no_slash
    rw [hsplit, String.toList_append] at hslash
    exact fun hmem => hslash (List.mem_append_right _ hmem)

/-! The marker in a subject. -/

theorem toList_subject_nil : (subject []).toList = [] := rfl

theorem toList_subject_cons (f : Field) (fs : List Field) :
    (subject (f :: fs)).toList =
      '/' :: (f.key.toList ++ '=' :: (f.value.toList ++ (subject fs).toList)) := by
  simp [subject]

theorem subject_end (fs : List Field) :
    (subject fs).toList = [] ∨ ∃ cs, (subject fs).toList = '/' :: cs := by
  cases fs with
  | nil => exact .inl toList_subject_nil
  | cons f fs => exact .inr ⟨_, toList_subject_cons f fs⟩

theorem Told.no_slash (h : Told fs name) : '/' ∉ name.toList := by
  induction h with
  | here htells => exact htells.no_slash
  | later _ _ ih => exact ih

theorem Told.afterMarker?_eq (h : Told fs name) : ∃ rest : List Field,
    afterMarker? (subject fs).toList = some (name.toList ++ (subject rest).toList) := by
  induction h with
  | @here f fs name htells =>
    rw [toList_subject_cons, afterMarker?_cons (by simp [marker])]
    exact ⟨fs, htells.afterMarker?_eq _⟩
  | @later f fs name hmarked _ ih =>
    rw [toList_subject_cons, afterMarker?_cons (by simp [marker]),
      afterMarker?_of_unmarked hmarked (subject_end fs)]
    exact ih

theorem afterMarker?_of_all_unmarked (h : ∀ f ∈ fs, ¬ f.Marked) :
    afterMarker? (subject fs).toList = none := by
  induction fs with
  | nil => rfl
  | cons f fs ih =>
    rw [toList_subject_cons, afterMarker?_cons (by simp [marker]),
      afterMarker?_of_unmarked (h f (by simp)) (subject_end fs)]
    exact ih fun g hg => h g (by simp [hg])

/-- Unless no field is marked, the first one that is tells a text. -/
theorem exists_told {f : Field} (hf : f ∈ fs) (h : f.Marked) : ∃ name, Told fs name := by
  induction fs with
  | nil => cases hf
  | cons g fs ih =>
    by_cases hg : g.Marked
    · obtain ⟨name, htells⟩ := hg.exists_tells
      exact ⟨name, .here htells⟩
    · have hne : f ≠ g := fun heq => hg (heq ▸ h)
      obtain ⟨name, htold⟩ := ih ((List.mem_cons.mp hf).resolve_left hne)
      exact ⟨name, .later hg htold⟩

theorem Told.append (h : ∀ g ∈ fs, ¬ g.Marked) {gs : List Field} (htold : Told gs name) :
    Told (fs ++ gs) name := by
  induction fs with
  | nil => exact htold
  | cons f fs ih => exact .later (h f (by simp)) (ih fun g hg => h g (by simp [hg]))

theorem username_of_told (h : Told fs name) : username (subject fs) = named name := by
  obtain ⟨rest, hafter⟩ := h.afterMarker?_eq
  rw [username, hafter]
  simp only [takeWhile_ne h.no_slash (subject_end rest), named, List.isEmpty_iff,
    String.toList_eq_nil_iff, String.ofList_toList]

theorem username_of_all_unmarked (h : ∀ f ∈ fs, ¬ f.Marked) :
    username (subject fs) = .error .missing := by
  rw [username, afterMarker?_of_all_unmarked h]

/-- What a subject comes to: what its first marked field tells decides, if there is one. -/
theorem username_eq_iff {result : Except IdentityError String} :
    username (subject fs) = result ↔ (∃ name, Told fs name ∧ named name = result) ∨
      (∀ f ∈ fs, ¬ f.Marked) ∧ .error .missing = result := by
  constructor
  · rintro rfl
    by_cases h : ∃ f ∈ fs, f.Marked
    · obtain ⟨f, hf, hmarked⟩ := h
      obtain ⟨name, htold⟩ := exists_told hf hmarked
      exact .inl ⟨name, htold, (username_of_told htold).symm⟩
    · have hnone : ∀ f ∈ fs, ¬ f.Marked := fun f hf hmarked => h ⟨f, hf, hmarked⟩
      exact .inr ⟨hnone, (username_of_all_unmarked hnone).symm⟩
  · rintro (⟨name, htold, rfl⟩ | ⟨hnone, rfl⟩)
    · exact username_of_told htold
    · exact username_of_all_unmarked hnone

/-- Who a subject names. It is the text that its first marked field tells, where that is not empty,
and a subject without a marked field names nobody. So if no field before it is marked, a field `CN`
names the user by its value. -/
theorem username_subject (fs : List Field) :
    (∀ name, username (subject fs) = .ok name ↔ name ≠ "" ∧ Told fs name) ∧
    (username (subject fs) = .error .empty ↔ Told fs "") ∧
    (username (subject fs) = .error .missing ↔ ∀ f ∈ fs, ¬ f.Marked) ∧
    ∀ before f after, fs = before ++ f :: after → (∀ g ∈ before, ¬ g.Marked) → f.key = "CN" →
      username (subject fs) = named f.value := by
  refine ⟨fun name => ?_, ?_, ?_, ?_⟩
  · simp [username_eq_iff, named_eq_ok_iff, and_comm, and_assoc]
  · simp [username_eq_iff, named_eq_empty_iff]
  · simp [username_eq_iff, named_ne_missing]
  · rintro before f after rfl hbefore hkey
    have hwhole : f.Tells f.value := .whole (by rw [hkey]; exact List.suffix_rfl)
    exact username_of_told (.append hbefore (.here hwhole))

/-- A field `CN` behind one that holds no marker, though its key begins with `CN`. -/
theorem alice_named :
    let fields : List Field := [{ key := "CNX", value := "N=eve" },
      { key := "CN", value := "alice" }, { key := "CN", value := "bob" }]
    (∀ g ∈ fields.take 1, ¬ g.Marked) ∧ username (subject fields) = .ok "alice" :=
  ⟨by decide +kernel, (username_subject _).2.2.2 [_] _ _ rfl (by decide +kernel) rfl⟩

/-- A marker within another field tells the user, be it in the value or at the end of a longer key,
whether or not a field `CN` stands behind that field. -/
theorem eve_named :
    username (subject [{ key := "O", value := "CN=eve" }, { key := "CN", value := "alice" }]) =
      .ok "eve" ∧
    (¬ ∀ fs before f after, fs = before ++ f :: after → (∀ g ∈ before, g.key ≠ "CN") →
      f.key = "CN" → username (subject fs) = named f.value) ∧
    (¬ ∀ fs : List Field, (∀ f ∈ fs, f.key ≠ "CN") →
      username (subject fs) = .error .missing) := by
  have hvalue : username (subject [{ key := "O", value := "CN=eve" },
      { key := "CN", value := "alice" }]) = .ok "eve" := by decide
  have hkey : username (subject [{ key := "XCN", value := "eve" }]) = .ok "eve" := by decide
  refine ⟨hvalue, fun h => ?_, fun h => ?_⟩
  · have hnamed := h [{ key := "O", value := "CN=eve" }, { key := "CN", value := "alice" }]
      [{ key := "O", value := "CN=eve" }] _ _ rfl (by decide) rfl
    rw [hvalue] at hnamed
    exact absurd hnamed (by decide)
  · have hmissing := h [{ key := "XCN", value := "eve" }] (by decide)
    rw [hkey] at hmissing
    cases hmissing

end Netconf.Identity
