import Netconf.Proofs.Text.Bytes
import Netconf.Proofs.Xml.Passage

/-! What stands before a document. White space there says nothing, except that no declaration can
follow it: so a document that begins with none is read behind white space as it is read alone, and
one that does is refused. Blanks that are no white space of XML are refused before any document, and
so is a byte order mark behind blanks. -/
namespace Netconf.Xml

theorem isSpace_cases {c : Char} (h : isSpace c = true) :
    c = ' ' ∨ c = '\t' ∨ c = '\n' ∨ c = '\r' := by
  simpa [isSpace, or_assoc] using h

theorem toNat_lt_of_isSpace {c : Char} (h : isSpace c = true) : c.toNat < 128 := by
  obtain rfl | rfl | rfl | rfl := isSpace_cases h <;> decide

namespace Reading

/-- A reading that has come upon nothing, or upon white space only. -/
def opening (stage : Stage) : Reading := { stage }

/-- A reading in an instruction before the root. -/
def instructing (stage : Stage) (part : InstructionPart) : Reading :=
  { lexis := { mode := .instruction }, place := .instruction part, stage }

/-- Whether characters begin like a declaration. -/
def Declares (cs : List Char) : Prop :=
  ∃ c rest, cs = '<' :: '?' :: 'x' :: 'm' :: 'l' :: c :: rest ∧ isSpace c = true

/-- Two readings with some characters ahead, of which at most one may come upon a declaration. They
differ only before the first piece of markup and in an instruction there; what is ahead is no
declaration then. -/
inductive Alike : List Char → Reading → Reading → Prop
  | same (cs : List Char) (r : Reading) : Alike cs r r
  | start {cs : List Char} (h : ¬ Declares cs) : Alike cs (opening .start) (opening .prologue)
  | name {cs : List Char} {n : Spelling} (h : ¬ Declares ('<' :: '?' :: (n.letters ++ cs))) :
      Alike cs (instructing .start (.name n)) (instructing .prologue (.name n))
  | data (cs : List Char) : Alike cs (instructing .start .data) (instructing .prologue .data)

variable {r r' : Reading} {s : Source} {c : Char} {cs rest : List Char}

/-! Tokens before the first piece of markup and in an instruction. -/

/-- Only one pair of characters opens an instruction. -/
theorem token_instructionStart {l : Lexis} {lexeme : Lexeme} (h : l.contentToken c cs = .ok lexeme)
    (ht : lexeme.token = .instructionStart) : c = '<' ∧ (∃ ds, cs = '?' :: ds) ∧
      lexeme.next = l.turn .instruction ∧ lexeme.more = 1 := by
  unfold Lexis.contentToken at h
  split at h
  · unfold Lexis.markupToken at h
    split at h
    · cases h
      exact ⟨rfl, ⟨_, rfl⟩, rfl, rfl⟩
    · cases h
      cases ht
    · unfold Lexis.declarationToken at h
      split at h
      all_goals try split at h
      all_goals
        cases h
        try cases ht
    · split at h
      all_goals
        cases h
        try cases ht
    · cases h
  all_goals
    cases h
    cases ht

/-- A token of an instruction ends it, or is a single character or mark. -/
theorem instructionToken_cases (l : Lexis) (c : Char) (cs : List Char) :
    (l.instructionToken c cs).token = .instructionEnd ∨
      ∃ t, l.instructionToken c cs = { token := t, next := l } ∧
        (t = .character c ∨ t ≠ .instructionEnd ∧ ∀ d, t ≠ .character d) := by
  unfold Lexis.instructionToken
  split
  · exact .inl rfl
  all_goals
    refine .inr ⟨_, rfl, ?_⟩
    first
      | exact .inl rfl
      | exact .inr ⟨by simp, by simp⟩

/-- Whether a declaration may begin matters to an instruction at the white space behind its name
only, and there only if the name is that of a declaration. -/
theorem instruction_step_eq {part : InstructionPart} {t : Token}
    (h : ∀ n, part = .name n → t = .character c → isSpace c = true → n.letters ≠ ['x', 'm', 'l'])
    (ht : ∀ d, t = .character d → d = c) :
    part.step .v10 true t = part.step .v10 false t := by
  cases part with
  | data => rfl
  | name n =>
    cases t with
    | character d =>
      obtain rfl := ht d rfl
      unfold InstructionPart.step
      by_cases hspace : isSpace d = true
      · have hname := h n rfl rfl hspace
        simp [hname]
      · simp [hspace]
    | _ => rfl

/-- An instruction goes on at a character of its name or of its data. -/
theorem instruction_more {part part' : InstructionPart} {t : Token}
    (h : part.step .v10 false t = .ok (.more part')) : t ≠ .instructionEnd ∧
      (part' = .data ∨ ∃ n c, part = .name n ∧ t = .character c ∧ part' = .name (n.add c)) := by
  unfold InstructionPart.step at h
  cases part with
  | data =>
    cases t with
    | instructionEnd => cases h
    | character d =>
      refine ⟨by simp, .inl ?_⟩
      dsimp only at h
      split at h
      · cases h
        rfl
      · cases h
    | _ =>
      cases h
      exact ⟨by simp, .inl rfl⟩
  | name n =>
    cases t with
    | character d =>
      refine ⟨by simp, ?_⟩
      dsimp only at h
      split at h
      · unfold Spelling.push at h
        split at h
        · cases h
        · cases h
          exact .inr ⟨n, d, rfl, rfl, rfl⟩
      · refine .inl ?_
        split at h
        · cases h
        · split at h
          · cases h
          · split at h
            · cases h
            · cases h
              rfl
    | instructionEnd =>
      dsimp only at h
      split at h <;> cases h
    | _ => cases h

/-- What two readings come to with one token, where they come to the same. -/
def TurnAlike (x y : Except Malformed (Token × Reading × Source)) : Prop :=
  (∃ e, x = .error e ∧ y = .error e) ∨
    ∃ t q q' s', x = .ok (t, q, s') ∧ y = .ok (t, q', s') ∧ Alike s'.chars q q'

theorem TurnAlike.refl (x : Except Malformed (Token × Reading × Source)) : TurnAlike x x := by
  cases x with
  | error e => exact .inl ⟨e, rfl, rfl⟩
  | ok p => exact .inr ⟨p.1, p.2.1, p.2.1, p.2.2, rfl, rfl, .same _ _⟩

/-- Readings for which a token is the same, and what it comes to, get to the same. -/
theorem turnAlike_of_step (hlexis : r.lexis = r'.lexis)
    (hstep : ∀ lexeme, r.lexis.token c cs = .ok lexeme →
      { r with lexis := lexeme.next }.step lexeme.token =
        { r' with lexis := lexeme.next }.step lexeme.token) :
    TurnAlike (r.turn s c cs) (r'.turn s c cs) := by
  have hturn : r.turn s c cs = r'.turn s c cs := by
    unfold turn
    rw [← hlexis]
    cases htoken : r.lexis.token c cs with
    | error e => rfl
    | ok lexeme =>
      dsimp only
      rw [hstep lexeme htoken]
  rw [hturn]
  exact TurnAlike.refl _

/-- Readings that a token leads on get to what is alike with the characters behind it. -/
theorem turnAlike_of_alike {lexeme : Lexeme} {q q' : Reading} (hs : s.chars = c :: cs)
    (hlexis : r.lexis = r'.lexis) (htoken : r.lexis.token c cs = .ok lexeme)
    (hstep : { r with lexis := lexeme.next }.step lexeme.token = proceed q)
    (hstep' : { r' with lexis := lexeme.next }.step lexeme.token = proceed q')
    (h : Alike (cs.drop lexeme.more) q q') : TurnAlike (r.turn s c cs) (r'.turn s c cs) := by
  have hchars : (s.advance (lexeme.more + 1)).chars = cs.drop lexeme.more := by
    unfold Source.advance
    split <;> simp [hs]
  refine .inr ⟨lexeme.token, q, q', s.advance (lexeme.more + 1),
    turn_eq_ok_iff.mpr ⟨lexeme, { reading := q }, htoken, hstep, rfl, rfl, rfl⟩,
    turn_eq_ok_iff.mpr ⟨lexeme, { reading := q' }, hlexis ▸ htoken, hstep', rfl, rfl, rfl⟩, ?_⟩
  rw [hchars]
  exact h

/-- Readings in an instruction that is no declaration go through it alike. -/
theorem turnAlike_instruction {part : InstructionPart} (hs : s.chars = c :: cs)
    (h : ∀ n, part = .name n → isSpace c = true → n.letters ≠ ['x', 'm', 'l'])
    (hmore : ∀ part', part' = .data ∨ (∃ n, part = .name n ∧ part' = .name (n.add c)) →
      Alike cs (instructing .start part') (instructing .prologue part')) :
    TurnAlike ((instructing .start part).turn s c cs)
      ((instructing .prologue part).turn s c cs) := by
  have hcases := instructionToken_cases { mode := .instruction } c cs
  generalize htoken : Lexis.instructionToken { mode := .instruction } c cs = lexeme at hcases
  have hcharacter : ∀ d, lexeme.token = .character d → d = c := by
    intro d hd
    obtain hend | ⟨t, rfl, rfl | ⟨-, hmark⟩⟩ := hcases
    · rw [hend] at hd
      cases hd
    · exact (Token.character.inj hd).symm
    · exact absurd hd (hmark d)
  have hsame : part.step .v10 true lexeme.token = part.step .v10 false lexeme.token :=
    instruction_step_eq (fun n hn _ => h n hn) hcharacter
  have htoken' : ∀ stage, (instructing stage part).lexis.token c cs = .ok lexeme :=
    fun _ => congrArg Except.ok htoken
  cases hpart : part.step .v10 false lexeme.token with
  | ok p =>
    cases p with
    | more part' =>
      obtain ⟨hend, hpart'⟩ := instruction_more hpart
      obtain hend' | ⟨t, rfl, -⟩ := hcases
      · exact absurd hend' hend
      · refine turnAlike_of_alike hs rfl (htoken' .start)
          (?_ : _ = proceed (instructing .start part'))
          (?_ : _ = proceed (instructing .prologue part')) ?_
        · simp [step, instructing, instruction, hsame, hpart, goto]
        · simp [step, instructing, instruction, hpart, goto]
        · refine hmore part' (hpart'.imp_right ?_)
          rintro ⟨n, d, hn, hd, rfl⟩
          exact ⟨n, hn, by rw [hcharacter d hd]⟩
    | done d =>
      refine turnAlike_of_step rfl fun lexeme' hlexeme' => ?_
      cases (htoken' .start).symm.trans hlexeme'
      cases d <;> simp [step, instructing, instruction, hsame, hpart, started]
  | error e =>
    refine turnAlike_of_step rfl fun lexeme' hlexeme' => ?_
    cases (htoken' .start).symm.trans hlexeme'
    simp [step, instructing, instruction, hsame, hpart]

/-- One token leaves alike what is alike. -/
theorem Alike.turn (h : Alike s.chars r r') (hs : s.chars = c :: cs) :
    TurnAlike (r.turn s c cs) (r'.turn s c cs) := by
  cases h with
  | same => exact TurnAlike.refl _
  | start h =>
    by_cases hstart : ∃ lexeme, Lexis.token {} c cs = .ok lexeme ∧
        lexeme.token = .instructionStart
    · -- What follows may be the name of an instruction, but not that of a declaration.
      obtain ⟨lexeme, htoken, hstart⟩ := hstart
      obtain ⟨rfl, ⟨ds, rfl⟩, hnext, hmore⟩ := token_instructionStart htoken hstart
      refine turnAlike_of_alike hs rfl htoken (?_ : _ = proceed (instructing .start (.name {})))
        (?_ : _ = proceed (instructing .prologue (.name {}))) ?_
      · rw [hstart, hnext]
        rfl
      · rw [hstart, hnext]
        rfl
      · rw [hmore]
        rw [hs] at h
        exact .name h
    · refine turnAlike_of_step rfl fun lexeme htoken => ?_
      change content _ _ = content _ _
      cases hlexeme : lexeme.token with
      | instructionStart => exact absurd ⟨lexeme, htoken, hlexeme⟩ hstart
      | _ => rfl
  | @name n h =>
    refine turnAlike_instruction hs ?_ fun part' hmore => ?_
    · rintro n' ⟨⟩ hspace hname
      exact h ⟨c, cs, by simp [hs, hname], hspace⟩
    · obtain rfl | ⟨n', hn', rfl⟩ := hmore
      · exact .data cs
      · cases hn'
        refine .name ?_
        simpa [hs, Spelling.letters, Spelling.add] using h
  | data =>
    refine turnAlike_instruction hs (by simp) fun part' hmore => ?_
    obtain rfl | ⟨n', hn', -⟩ := hmore
    · exact .data cs
    · cases hn'

/-- What is alike finds the same. -/
theorem Alike.run (h : Alike s.chars r r') : (r.run s).bind finish = (r'.run s).bind finish := by
  induction s using Source.before_wf.induction generalizing r r' with
  | _ s ih =>
    cases hs : s.chars with
    | nil =>
      rw [run_nil hs, run_nil hs]
      cases h <;> rfl
    | cons c cs =>
      rw [run_cons hs, run_cons hs]
      obtain ⟨e, he, he'⟩ | ⟨t, q, q', s', hturn, hturn', halike⟩ := h.turn hs
      · rw [he, he']
      · rw [hturn, hturn']
        exact ih s' (turn_before hs hturn) halike

/-! Readings behind white space. -/

theorem inert_of_isSpace (h : isSpace c = true) :
    c ∉ ['<', '>', '/', ']', '=', '"', '\'', '&', ';'] := by
  intro hmem
  have hmark : ∀ d ∈ ['<', '>', '/', ']', '=', '"', '\'', '&', ';'], isSpace d = false := by
    decide
  rw [hmark c hmem] at h
  cases h

theorem passes_space {stage : Stage} (hstage : stage ≠ .body) (h : isSpace c = true) :
    Passes (opening stage) [c] rest (opening .prologue) := by
  refine passes_token [] { token := .character c, next := {} } { reading := opening .prologue }
    (token_inert (inert_of_isSpace h)) rfl ?_ rfl
  change character (opening stage) c = _
  cases stage with
  | body => exact absurd rfl hstage
  | _ => simp [opening, character, h, proceed, started]

/-- White space at the start says no more than that no declaration can follow. -/
theorem passes_spaces {w : List Char} (hne : w ≠ []) (h : ∀ c ∈ w, isSpace c = true) :
    Passes (opening .start) w rest (opening .prologue) := by
  have hon : ∀ v : List Char, (∀ c ∈ v, isSpace c = true) →
      Passes (opening .prologue) v rest (opening .prologue) := by
    intro v hv
    induction v with
    | nil => exact Passes.refl _ _
    | cons c v ih =>
      exact (passes_space (by simp) (hv c (by simp))).cons (ih fun d hd => hv d (by simp [hd]))
  obtain ⟨c, w, rfl⟩ := List.exists_cons_of_ne_nil hne
  exact (passes_space (by simp) (h c (by simp))).cons (hon w fun d hd => h d (by simp [hd]))

/-- Nothing but white space and markup stands outside the root. -/
theorem run_stray {w : List Char} (hw : ∀ d ∈ w, isSpace d = true) (hspace : isSpace c = false)
    (hinert : c ∉ ['<', '>', '/', ']', '=', '"', '\'', '&', ';']) :
    run (opening .start) { chars := w ++ c :: rest } = .error .outsideRoot := by
  have hfirst : ∀ stage, run (opening stage) { chars := c :: rest } = .error .outsideRoot := by
    intro stage
    have htoken : (opening stage).lexis.token c rest = .ok { token := .character c, next := {} } :=
      token_inert hinert
    have hstep : step { opening stage with lexis := {} } (.character c) = .error .outsideRoot := by
      change character (opening stage) c = _
      simp [opening, character, hspace]
    rw [run_cons rfl, turn, htoken]
    simp only [hstep]
  by_cases hne : w = []
  · rw [hne]
    exact hfirst .start
  · rw [passes_spaces hne hw]
    exact hfirst .prologue

/-- Behind white space a declaration is an instruction with a reserved name. -/
theorem run_late_declaration (h : Declares cs) :
    run (opening .prologue) { chars := cs } = .error .badInstruction := by
  obtain ⟨c, rest, rfl, hspace⟩ := h
  obtain rfl | rfl | rfl | rfl := isSpace_cases hspace <;> exact run_of_runWithin (n := 6) rfl

end Reading

/-! Documents behind blanks. -/

namespace Document

open Bytes (ascii isBlankByte_cases)
open Reading (Declares)

variable {w m : Bytes} {cs : List Char}

/-- Whether a document may follow some blanks: if there are any, they are white space of XML, and
the document begins with no byte order mark and with no declaration. -/
def MayFollow (w m : Bytes) : Prop :=
  w = [] ∨ 0x0C ∉ w ∧ Encoding.ofMark? m = none ∧ startsWithDeclaration m = false

instance (w m : Bytes) : Decidable (MayFollow w m) := inferInstanceAs (Decidable (_ ∨ _ ∧ _ ∧ _))

theorem decode?_eq_some_iff : Encoding.utf8.decode? m = some cs ↔
    cs.flatMap String.utf8EncodeChar = m := by
  rw [Encoding.decode?, Option.map_eq_some_iff]
  constructor
  · rintro ⟨s, hs, rfl⟩
    rw [← Bytes.ofString_ofList, String.ofList_toList]
    exact Bytes.toString?_eq_some_iff.mp hs
  · intro h
    refine ⟨String.ofList cs, ?_, String.toList_ofList⟩
    rw [Bytes.toString?_eq_some_iff, Bytes.ofString_ofList, h]

theorem decode?_ascii_append (hw : ∀ b ∈ w, b.toNat < 128) (m : Bytes) :
    Encoding.utf8.decode? (w ++ m) = (Encoding.utf8.decode? m).map (ascii w ++ ·) := by
  rw [Encoding.decode?, Encoding.decode?, Bytes.toString?_ascii_append hw, Option.map_map,
    Option.map_map]
  congr 1
  funext s
  simp

/-- A text begins like a declaration just if its bytes do. -/
theorem startsWithDeclaration_iff (h : Encoding.utf8.decode? m = some cs) :
    startsWithDeclaration m = true ↔ Declares cs := by
  constructor
  · intro hstarts
    unfold startsWithDeclaration at hstarts
    split at hstarts
    · next b rest =>
      have hlow : b.toNat < 128 := by
        rw [← Bytes.toNat_ofNat_of_lt b.toNat_lt]
        exact toNat_lt_of_isSpace hstarts
      have hascii : ∀ d ∈ [0x3C, 0x3F, 0x78, 0x6D, 0x6C, b], d.toNat < 128 := by
        simp [hlow]
      have hdecode := (decode?_ascii_append hascii rest).symm.trans h
      obtain ⟨cs', -, rfl⟩ := Option.map_eq_some_iff.mp hdecode
      exact ⟨_, cs', rfl, hstarts⟩
    · cases hstarts
  · rintro ⟨c, rest, rfl, hspace⟩
    rw [← decode?_eq_some_iff.mp h]
    obtain rfl | rfl | rfl | rfl := isSpace_cases hspace <;> rfl

/-- What begins with a byte order mark does not begin with a character of ASCII. -/
theorem exists_of_mark (hmark : Encoding.ofMark? m ≠ none) :
    ∃ b rest, m = b :: rest ∧ ¬ b.toNat < 128 := by
  unfold Encoding.ofMark? at hmark
  split at hmark
  · exact ⟨_, _, rfl, by decide⟩
  · exact ⟨_, _, rfl, by decide⟩
  · exact ⟨_, _, rfl, by decide⟩
  · exact absurd rfl hmark

theorem exists_char {b : UInt8} {rest : Bytes} (hb : ¬ b.toNat < 128)
    (h : Encoding.utf8.decode? (b :: rest) = some cs) :
    ∃ c cs', cs = c :: cs' ∧ ¬ c.toNat < 128 := by
  have hbytes := decode?_eq_some_iff.mp h
  cases cs with
  | nil => cases hbytes
  | cons c cs =>
    refine ⟨c, cs, rfl, fun hc => hb ?_⟩
    rw [List.flatMap_cons, Bytes.utf8EncodeChar_of_lt hc] at hbytes
    obtain ⟨rfl, -⟩ := List.cons.inj hbytes
    rw [UInt8.toNat_ofNat', Nat.mod_eq_of_lt (by omega)]
    exact hc

theorem inert_of_le {c : Char} (h : ¬ c.toNat < 128) :
    isSpace c = false ∧ c ∉ ['<', '>', '/', ']', '=', '"', '\'', '&', ';'] := by
  refine ⟨?_, fun hmem => ?_⟩
  · by_contra hspace
    exact h (toNat_lt_of_isSpace (by simpa using hspace))
  · have hmark : ∀ d ∈ ['<', '>', '/', ']', '=', '"', '\'', '&', ';'], d.toNat < 128 := by
      decide
    exact h (hmark c hmem)

/-- Blanks that are no form feeds are white space of XML. -/
theorem isSpace_ascii (blank : w.IsBlank) (hfeed : 0x0C ∉ w) :
    ∀ c ∈ ascii w, isSpace c = true := by
  intro c hc
  obtain ⟨b, hb, rfl⟩ := List.mem_map.mp hc
  obtain rfl | rfl | rfl | rfl | rfl := isBlankByte_cases (blank b hb)
  · decide
  · decide
  · decide
  · exact absurd hb hfeed
  · decide

/-- Behind blanks everything is read as text in UTF-8. -/
theorem parse_behind (hne : w ≠ []) (blank : w.IsBlank) (m : Bytes) :
    parse (w ++ m) =
      match Encoding.utf8.decode? m with
      | none => .error .undecodable
      | some cs => (Reading.run {} { chars := ascii w ++ cs }).bind Reading.finish := by
  have hplain : Encoding.ofMark? (w ++ m) = none ∧ startsWithDeclaration (w ++ m) = false := by
    obtain ⟨b, w, rfl⟩ := List.exists_cons_of_ne_nil hne
    obtain rfl | rfl | rfl | rfl | rfl := isBlankByte_cases (blank b (by simp)) <;>
      exact ⟨rfl, rfl⟩
  have hdecode := decode?_ascii_append blank.ascii m
  cases hm : Encoding.utf8.decode? m with
  | none =>
    rw [hm] at hdecode
    exact parse_of_undecodable hplain.1 hplain.2 hdecode
  | some cs =>
    rw [hm] at hdecode
    exact parse_eq_run hplain.1 hplain.2 hdecode

/-- A document that may follow some blanks is read behind them as it is read alone. -/
theorem parse_of_mayFollow (blank : w.IsBlank) (h : MayFollow w m) : parse (w ++ m) = parse m := by
  by_cases hne : w = []
  · rw [hne, List.nil_append]
  · obtain ⟨hfeed, hmark, hplain⟩ := h.resolve_left hne
    rw [parse_behind hne blank]
    cases hm : Encoding.utf8.decode? m with
    | none => exact (parse_of_undecodable hmark hplain hm).symm
    | some cs =>
      have hdeclares : ¬ Declares cs := by
        rw [← startsWithDeclaration_iff hm, hplain]
        simp
      have hpasses : Reading.Passes {} (ascii w) cs (Reading.opening .prologue) :=
        Reading.passes_spaces (by simpa [ascii] using hne) (isSpace_ascii blank hfeed)
      rw [parse_eq_run hmark hplain hm]
      exact (congrArg (Except.bind · Reading.finish) hpasses).trans
        (Reading.Alike.run (.start hdeclares)).symm

/-- A text that may not follow some blanks leads to a fault behind them. -/
theorem exists_fault (hne : w ≠ []) (blank : w.IsBlank) (h : ¬ MayFollow w m)
    (hm : Encoding.utf8.decode? m = some cs) :
    ∃ e, Reading.run {} { chars := ascii w ++ cs } = .error e := by
  by_cases hfeed : 0x0C ∈ w
  · obtain ⟨u, v, rfl, hu⟩ := List.eq_append_cons_of_mem hfeed
    have hspace := isSpace_ascii (fun b hb => blank b (by simp [hb])) hu
    have hsplit : ascii (u ++ 0x0C :: v) ++ cs = ascii u ++ Char.ofNat 0x0C :: (ascii v ++ cs) := by
      simp [ascii]
    rw [hsplit]
    exact ⟨_, Reading.run_stray hspace (by decide) (by decide)⟩
  · have hspace := isSpace_ascii blank hfeed
    by_cases hmark : Encoding.ofMark? m = none
    · have hdeclares : Declares cs := by
        rw [← startsWithDeclaration_iff hm]
        by_contra hplain
        exact h (.inr ⟨hfeed, hmark, by simpa using hplain⟩)
      have hpasses : Reading.Passes {} (ascii w) cs (Reading.opening .prologue) :=
        Reading.passes_spaces (by simpa [ascii] using hne) hspace
      exact ⟨_, hpasses.trans (Reading.run_late_declaration hdeclares)⟩
    · obtain ⟨b, rest, rfl, hb⟩ := exists_of_mark hmark
      obtain ⟨c, cs', rfl, hc⟩ := exists_char hb hm
      exact ⟨_, Reading.run_stray hspace (inert_of_le hc).1 (inert_of_le hc).2⟩

/-- Any other document is refused behind them. -/
theorem parse_of_not_mayFollow (blank : w.IsBlank) (h : ¬ MayFollow w m) :
    ∃ e, parse (w ++ m) = .error e := by
  have hne : w ≠ [] := fun hw => h (.inl hw)
  rw [parse_behind hne blank]
  cases hm : Encoding.utf8.decode? m with
  | none => exact ⟨_, rfl⟩
  | some cs =>
    obtain ⟨e, he⟩ := exists_fault hne blank h hm
    simp only [he]
    exact ⟨e, rfl⟩

end Document
end Netconf.Xml
