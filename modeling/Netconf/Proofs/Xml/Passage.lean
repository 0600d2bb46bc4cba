import Netconf.Proofs.Xml.Evaluation
import Netconf.Proofs.Xml.Name
import Netconf.Xml.Printer

/-! A reading that goes through known characters, whatever stands behind them. Passages follow each
other; those of this module are the characters of names and the marks of tags. -/
namespace Netconf.Xml.Reading

/-- A reading comes from one state to another by some characters, with others behind them. -/
def Passes (r : Reading) (cs rest : List Char) (r' : Reading) : Prop :=
  run r { chars := cs ++ rest } = run r' { chars := rest }

variable {r r' r'' : Reading} {rest : List Char}

theorem Passes.refl (r : Reading) (rest : List Char) : Passes r [] rest r := rfl

theorem Passes.append {as bs : List Char} (h : Passes r as (bs ++ rest) r')
    (h' : Passes r' bs rest r'') : Passes r (as ++ bs) rest r'' := by
  unfold Passes at *
  rw [List.append_assoc, h, h']

theorem Passes.cons {c : Char} {cs : List Char} (h : Passes r [c] (cs ++ rest) r')
    (h' : Passes r' cs rest r'') : Passes r (c :: cs) rest r'' :=
  Passes.append h h'

/-- One token is one step, if no replacement text comes of it. -/
theorem passes_token {c : Char} (more : List Char) (lexeme : Lexeme) (a : Advance)
    (htoken : r.lexis.token c (more ++ rest) = .ok lexeme) (hmore : lexeme.more = more.length)
    (hstep : { r with lexis := lexeme.next }.step lexeme.token = .ok a)
    (hinserted : a.inserted = []) : Passes r (c :: more) rest a.reading := by
  have hsource : (Source.advance { chars := c :: (more ++ rest) } (lexeme.more + 1)).insert?
      a.inserted = some { chars := rest } := by
    rw [hinserted, hmore, Source.advance_plain, List.drop_succ_cons, List.drop_left]
    rfl
  unfold Passes
  rw [List.cons_append, run_cons rfl, turn_eq_ok_iff.mpr ⟨lexeme, a, htoken, hstep, rfl, rfl, hsource⟩]

/-! Tokens of text and of tags. -/

/-- Characters that complete no mark begun before them. -/
def Calm (rest : List Char) : Prop :=
  (∀ more, rest ≠ '>' :: more) ∧ ∀ more, rest ≠ ']' :: '>' :: more

theorem calm_cons {c : Char} (hc : c ≠ '>') (h : Calm rest) : Calm (c :: rest) := by
  constructor
  · intro more heq
    exact hc (List.cons.inj heq).1
  · intro more heq
    exact h.1 more (List.cons.inj heq).2

theorem calm_of_ne {c : Char} (hc : c ≠ '>') (hc' : c ≠ ']') : Calm (c :: rest) := by
  constructor
  · intro more heq
    exact hc (List.cons.inj heq).1
  · intro more heq
    exact hc' (List.cons.inj heq).1

/-- A character that no mark starts with is a token by itself. -/
theorem token_inert {c : Char} (h : c ∉ ['<', '>', '/', ']', '=', '"', '\'', '&', ';']) :
    Lexis.token {} c rest = .ok { token := .character c, next := {} } := by
  simp only [List.mem_cons, List.not_mem_nil, or_false, not_or] at h
  obtain ⟨hless, hgreater, hslash, hbracket, hequals, hquote, hmark, hand, hsemicolon⟩ := h
  change Lexis.contentToken {} c rest = _
  unfold Lexis.contentToken
  split
  all_goals first | contradiction | rfl

theorem token_of_isNameChar {c : Char} (h : isNameChar c = true) :
    Lexis.token {} c rest = .ok { token := .character c, next := {} } := by
  refine token_inert fun hmem => ?_
  have hmark : ∀ d ∈ ['<', '>', '/', ']', '=', '"', '\'', '&', ';'], isNameChar d = false := by
    decide
  rw [hmark c hmem] at h
  cases h

/-- A character that opens and closes no markup is a token that stands for itself. -/
theorem exists_token {c : Char} (hless : c ≠ '<') (hgreater : c ≠ '>') (hand : c ≠ '&')
    (hrest : Calm rest) :
    ∃ t, Lexis.token {} c rest = .ok { token := t, next := {} } ∧ t.spelling.toList = [c] ∧
      (t = .character c ∨ t = .equals ∨ t = .semicolon ∨ t = .quote c ∧ (c = '"' ∨ c = '\'')) := by
  change ∃ t, Lexis.contentToken {} c rest = _ ∧ _
  by_cases hinert : c ∉ ['<', '>', '/', ']', '=', '"', '\'', '&', ';']
  · exact ⟨_, token_inert hinert, by simp [Token.spelling], .inl rfl⟩
  · simp only [List.mem_cons, List.not_mem_nil, or_false, not_not] at hinert
    obtain rfl | rfl | rfl | rfl | rfl | rfl | rfl | rfl | rfl := hinert
    · exact absurd rfl hless
    · exact absurd rfl hgreater
    · refine ⟨.character '/', ?_, by decide, .inl rfl⟩
      unfold Lexis.contentToken
      split
      case h_3 => exact absurd rfl (hrest.1 _)
      all_goals first | contradiction | rfl
    · refine ⟨.character ']', ?_, by decide, .inl rfl⟩
      unfold Lexis.contentToken
      split
      case h_5 => exact absurd rfl (hrest.2 _)
      all_goals first | contradiction | rfl
    · exact ⟨.equals, rfl, by decide, .inr (.inl rfl)⟩
    · exact ⟨.quote '"', rfl, by decide, .inr (.inr (.inr ⟨rfl, .inl rfl⟩))⟩
    · exact ⟨.quote '\'', rfl, by decide, .inr (.inr (.inr ⟨rfl, .inr rfl⟩))⟩
    · exact absurd rfl hand
    · exact ⟨.semicolon, rfl, by decide, .inr (.inr (.inl rfl))⟩

/-! Readings inside the root of a document without declarations. -/

/-- A reading of such a document, with some elements open. -/
def standing (stack : List Frame) (root : Option Element) (place : Place) (pending : Run := {}) :
    Reading :=
  { place, stage := .body, stack, root, pending }

variable {stack : List Frame} {root : Option Element} {pending : Run}

/-- Inside a tag each token goes to the part that is being read. -/
theorem passes_tag {part part' : TagPart} {c : Char} (more : List Char) (t : Token)
    (htoken : Lexis.token {} c (more ++ rest) = .ok { token := t, next := {}, more := more.length })
    (hstep : part.step {} t = .ok (.more part')) :
    Passes (standing stack root (.tag part) pending) (c :: more) rest
      (standing stack root (.tag part') pending) := by
  refine passes_token more { token := t, next := {}, more := more.length }
    { reading := standing stack root (.tag part') pending } htoken rfl ?_ rfl
  change Reading.tag (standing stack root (.tag part) pending) part t = _
  have hdialect : (standing stack root (.tag part) pending).dialect = {} := rfl
  rw [Reading.tag, hdialect, hstep]
  rfl

/-! Names. -/

/-- A part of a tag in which a name is read, made of what there is of the name. -/
def TakesName (part : Spelling → TagPart) : Prop :=
  ∀ s s' t, (∀ ends, s.qualified ends t = .ok (.more s')) →
    (part s).step {} t = .ok (.more (part s'))

theorem takesName_startName : TakesName .startName := by
  intro s s' t h
  simp only [TagPart.step, h]

theorem takesName_attributeName (tag : StartTag) : TakesName (.attributeName tag) := by
  intro s s' t h
  simp only [TagPart.step, h]

theorem takesName_finishName : TakesName .finishName := by
  intro s s' t h
  simp only [TagPart.step, h]

/-- The characters of a name lead through it. -/
theorem passes_name {part : Spelling → TagPart} (hpart : TakesName part) {s : Spelling}
    {cs : List Char} (hchars : ∀ c ∈ cs, isNameChar c = true) (h : s.Continues cs) :
    Passes (standing stack root (.tag (part s)) pending) cs rest
      (standing stack root (.tag (part (s.after cs))) pending) := by
  induction cs generalizing s with
  | nil =>
    rw [Spelling.after_nil]
    exact Passes.refl _ _
  | cons c cs ih =>
    rw [Spelling.after_cons]
    refine Passes.cons (passes_tag [] _ (token_of_isNameChar (hchars c (by simp)))
      (hpart _ _ _ h.1)) ?_
    exact ih (fun d hd => hchars d (by simp [hd])) h.2

/-! References to characters. -/

/-- The letters between ampersand and semicolon by which a character is referred to. -/
def Refers (c : Char) (s : Spelling) : List Char → Prop
  | [] => Reference.step .v10 s .semicolon = .ok (.done (.character c))
  | d :: ds => d ∉ ['<', '>', '/', ']', '=', '"', '\'', '&', ';'] ∧
      Reference.step .v10 s (.character d) = .ok (.more (s.add d)) ∧ Refers c (s.add d) ds

/-- Readings that stand in a reference, and those behind it. -/
structure TakesReference (inside : Spelling → Reading) (behind : Char → Reading) : Prop where
  lexis : ∀ s, (inside s).lexis = {}
  more : ∀ s s' t, Reference.step .v10 s t = .ok (.more s') →
    (inside s).step t = .ok { reading := inside s' }
  done : ∀ s t c, Reference.step .v10 s t = .ok (.done (.character c)) →
    (inside s).step t = .ok { reading := behind c }

theorem passes_reference {inside : Spelling → Reading} {behind : Char → Reading} {c : Char}
    {s : Spelling} {ds : List Char} (h : TakesReference inside behind) (hs : Refers c s ds) :
    Passes (inside s) (ds ++ [';']) rest (behind c) := by
  induction ds generalizing s with
  | nil =>
    refine passes_token [] { token := .semicolon, next := {} } { reading := behind c } ?_ rfl ?_ rfl
    · rw [h.lexis]
      rfl
    · have hsame : { inside s with lexis := {} } = inside s := by
        rw [← h.lexis s]
      rw [hsame]
      exact h.done _ _ _ hs
  | cons d ds ih =>
    obtain ⟨hd, hstep, hmore⟩ := hs
    refine Passes.cons ?_ (ih hmore)
    refine passes_token [] { token := .character d, next := {} } { reading := inside (s.add d) } ?_ rfl
      ?_ rfl
    · rw [h.lexis]
      exact token_inert hd
    · have hsame : { inside s with lexis := {} } = inside s := by
        rw [← h.lexis s]
      rw [hsame]
      exact h.more _ _ _ hstep

/-! Characters as they are written: some by reference, all others as themselves. -/

/-- A way to write characters, by which no mark is written as itself. -/
def Escapes (marks : List Char) (escape : Char → List Char) : Prop :=
  ∀ c, (escape c = [c] ∧ c ∉ marks) ∨ ∃ ds, escape c = '&' :: (ds ++ [';']) ∧ Refers c {} ds

theorem escapes_attribute : Escapes ['<', '>', '"', '\'', '&'] escapeInAttribute := by
  intro c
  unfold escapeInAttribute
  split
  · exact .inr ⟨['l', 't'], rfl, by decide, rfl, by decide, rfl, rfl⟩
  · exact .inr ⟨['g', 't'], rfl, by decide, rfl, by decide, rfl, rfl⟩
  · exact .inr ⟨['q', 'u', 'o', 't'], rfl, by decide, rfl, by decide, rfl, by decide, rfl, by decide,
      rfl, rfl⟩
  · exact .inr ⟨['a', 'p', 'o', 's'], rfl, by decide, rfl, by decide, rfl, by decide, rfl, by decide,
      rfl, rfl⟩
  · exact .inr ⟨['a', 'm', 'p'], rfl, by decide, rfl, by decide, rfl, by decide, rfl, rfl⟩
  · exact .inr ⟨['#', 'x', 'A'], rfl, by decide, rfl, by decide, rfl, by decide, rfl, rfl⟩
  · exact .inr ⟨['#', 'x', 'D'], rfl, by decide, rfl, by decide, rfl, by decide, rfl, rfl⟩
  · refine .inl ⟨rfl, ?_⟩
    simp_all

theorem escapes_text : Escapes ['<', '>', '&'] escapeInText := by
  intro c
  unfold escapeInText
  split
  · exact .inr ⟨['l', 't'], rfl, by decide, rfl, by decide, rfl, rfl⟩
  · exact .inr ⟨['g', 't'], rfl, by decide, rfl, by decide, rfl, rfl⟩
  · exact .inr ⟨['a', 'm', 'p'], rfl, by decide, rfl, by decide, rfl, by decide, rfl, rfl⟩
  · refine .inl ⟨rfl, ?_⟩
    simp_all

variable {marks cs : List Char} {escape : Char → List Char}

theorem calm_escaped (h : Escapes marks escape) (hmark : '>' ∈ marks) (hrest : Calm rest) :
    Calm (cs.flatMap escape ++ rest) := by
  induction cs with
  | nil => exact hrest
  | cons c cs ih =>
    rw [List.flatMap_cons, List.append_assoc]
    obtain ⟨hplain, hfree⟩ | ⟨ds, hescaped, -⟩ := h c
    · rw [hplain]
      refine calm_cons ?_ ih
      rintro rfl
      exact hfree hmark
    · rw [hescaped]
      exact calm_of_ne (by decide) (by decide)

/-- A reading that takes up written characters one by one takes them all up. -/
theorem passes_escaped (h : Escapes marks escape) (hmark : '>' ∈ marks) (having : List Char → Reading)
    (heach : ∀ known, ∀ c ∈ cs, ∀ rest, Calm rest →
      Passes (having known) (escape c) rest (having (known ++ [c])))
    (known : List Char) (hrest : Calm rest) :
    Passes (having known) (cs.flatMap escape) rest (having (known ++ cs)) := by
  induction cs generalizing known with
  | nil =>
    rw [List.append_nil]
    exact Passes.refl _ _
  | cons c cs ih =>
    rw [List.flatMap_cons, List.append_cons]
    exact Passes.append (heach known c (by simp) _ (calm_escaped h hmark hrest))
      (ih (fun known d hd => heach known d (by simp [hd])) _)

end Netconf.Xml.Reading
