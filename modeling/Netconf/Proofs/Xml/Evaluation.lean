import Netconf.Proofs.Text.Bytes
import Netconf.Xml.Document

/-! Reading token by token; and reading in a bounded number of steps, by which the reading of a given
text can be worked out. -/
namespace Netconf.Xml

namespace Reading

/-- What a reading comes to with the token that begins with a character: the token, the reading
behind it, and what is left of the source. -/
def turn (r : Reading) (s : Source) (c : Char) (cs : List Char) :
    Except Malformed (Token × Reading × Source) :=
  match r.lexis.token c cs with
  | .error e => .error e
  | .ok lexeme =>
    match { r with lexis := lexeme.next }.step lexeme.token with
    | .error e => .error e
    | .ok a =>
      match (s.advance (lexeme.more + 1)).insert? a.inserted with
      | none => .error .runawayEntity
      | some s' => .ok (lexeme.token, a.reading, s')

variable {r r' : Reading} {s s' : Source} {c : Char} {cs : List Char}

theorem turn_eq_ok_iff {t : Token} : r.turn s c cs = .ok (t, r', s') ↔
    ∃ lexeme a, r.lexis.token c cs = .ok lexeme ∧
      { r with lexis := lexeme.next }.step lexeme.token = .ok a ∧ lexeme.token = t ∧
      a.reading = r' ∧ (s.advance (lexeme.more + 1)).insert? a.inserted = some s' := by
  unfold turn
  cases r.lexis.token c cs with
  | error e => simp
  | ok lexeme =>
    cases hstep : { r with lexis := lexeme.next }.step lexeme.token with
    | error e => simp [hstep]
    | ok a => cases hi : (s.advance (lexeme.more + 1)).insert? a.inserted <;> simp_all

theorem turn_before {t : Token} (hs : s.chars = c :: cs) (h : r.turn s c cs = .ok (t, r', s')) :
    s'.Before s := by
  obtain ⟨lexeme, a, htoken, -, -, -, hi⟩ := turn_eq_ok_iff.mp h
  have hmore := Lexis.more_le_of_token htoken
  exact Source.insert?_before hi
    (Source.advance_before (by omega) (by rw [hs, List.length_cons]; omega))

theorem run_nil (hs : s.chars = []) : r.run s = .ok r := by
  rw [run]
  split
  · rfl
  · next hs' => simp [hs] at hs'

theorem run_cons (hs : s.chars = c :: cs) : r.run s =
    match r.turn s c cs with
    | .error e => .error e
    | .ok (_, r', s') => r'.run s' := by
  rw [run]
  split
  · next hs' => simp [hs] at hs'
  · next c' cs' hs' =>
    obtain ⟨rfl, rfl⟩ := List.cons.inj (hs.symm.trans hs')
    unfold turn
    split
    · next ht => simp only [ht]
    · next lexeme ht =>
      simp only [ht]
      cases { r with lexis := lexeme.next }.step lexeme.token with
      | error e => rfl
      | ok a =>
        dsimp only
        split
        · next hi => simp only [hi]
        · next hi => simp only [hi]

/-- Reads a source in so many steps at most, if it comes to an end then. -/
def runWithin : Nat → Reading → Source → Option (Except Malformed Reading)
  | 0, _, _ => none
  | n + 1, r, s =>
    match s.chars with
    | [] => some (.ok r)
    | c :: cs =>
      match r.lexis.token c cs with
      | .error e => some (.error e)
      | .ok lexeme =>
        match { r with lexis := lexeme.next }.step lexeme.token with
        | .error e => some (.error e)
        | .ok a =>
          match (s.advance (lexeme.more + 1)).insert? a.inserted with
          | none => some (.error .runawayEntity)
          | some s' => runWithin n a.reading s'

/-- A reading that ends within some steps ends so without a bound. -/
theorem run_of_runWithin {n : Nat} {x : Except Malformed Reading}
    (h : runWithin n r s = some x) : run r s = x := by
  induction n generalizing r s with
  | zero => cases h
  | succ n ih =>
    rw [runWithin] at h
    cases hs : s.chars with
    | nil =>
      rw [hs] at h
      rw [run_nil hs, Option.some.inj h]
    | cons c cs =>
      rw [hs] at h
      rw [run_cons hs, turn]
      dsimp only at h
      cases htoken : r.lexis.token c cs with
      | error e =>
        rw [htoken] at h
        exact Option.some.inj h
      | ok lexeme =>
        rw [htoken] at h
        dsimp only at h ⊢
        cases hstep : { r with lexis := lexeme.next }.step lexeme.token with
        | error e =>
          rw [hstep] at h
          exact Option.some.inj h
        | ok a =>
          rw [hstep] at h
          dsimp only at h ⊢
          cases hi : (s.advance (lexeme.more + 1)).insert? a.inserted with
          | none =>
            rw [hi] at h
            exact Option.some.inj h
          | some s' =>
            rw [hi] at h
            exact ih h

end Reading

namespace Document

/-- Without a declaration a document is read as UTF-8. -/
theorem parse_eq_source {bytes : Bytes} (hmark : Encoding.ofMark? bytes = none)
    (hplain : startsWithDeclaration bytes = false) :
    parse bytes = (source .utf8 bytes).bind fun s => (Reading.run {} s).bind Reading.finish := by
  have hnothing : Reading.run {} { chars := [] } = .ok {} :=
    Reading.run_of_runWithin (n := 1) rfl
  have hhead : source .utf8 [] = .ok { chars := [] } := rfl
  have hencoding : Encoding.declared ({} : Reading).encoding = .ok .utf8 := rfl
  simp only [parse, hmark, parseUnmarked, hplain, hhead, Bool.false_eq_true, if_false]
  simp only [bind, Except.bind, hnothing, hencoding]

/-- A text without a declaration is read from its first character to its last. -/
theorem parse_eq_run {cs : List Char} {bytes : Bytes} (hmark : Encoding.ofMark? bytes = none)
    (hplain : startsWithDeclaration bytes = false)
    (hchars : Encoding.utf8.decode? bytes = some cs) :
    parse bytes = (Reading.run {} { chars := cs }).bind Reading.finish := by
  rw [parse_eq_source hmark hplain, source, hchars]
  rfl

theorem parse_of_undecodable {bytes : Bytes} (hmark : Encoding.ofMark? bytes = none)
    (hplain : startsWithDeclaration bytes = false) (h : Encoding.utf8.decode? bytes = none) :
    parse bytes = .error .undecodable := by
  rw [parse_eq_source hmark hplain, source, h]
  rfl

/-- The bytes of a text spell its characters. -/
theorem decode?_ofString (text : String) :
    Encoding.utf8.decode? (Bytes.ofString text) = some text.toList := by
  rw [Encoding.decode?, Bytes.toString?_ofString, Option.map_some]

/-- The root of a text without a declaration, where it can be read in so many steps. -/
theorem parse_of_runWithin (n : Nat) (text : String) {root : Element}
    (hmark : Encoding.ofMark? (Bytes.ofString text) = none)
    (hplain : startsWithDeclaration (Bytes.ofString text) = false)
    (hroot : ((Reading.runWithin n {} { chars := text.toList }).bind fun x =>
      (x.bind Reading.finish).toOption) = some root) :
    parse (Bytes.ofString text) = .ok root := by
  obtain ⟨x, hx, hfinish⟩ := Option.bind_eq_some_iff.mp hroot
  rw [parse_eq_run hmark hplain (decode?_ofString text), Reading.run_of_runWithin hx]
  cases hx' : x.bind Reading.finish with
  | error e =>
    rw [hx'] at hfinish
    cases hfinish
  | ok e =>
    rw [hx'] at hfinish
    rw [← Option.some.inj hfinish]

/-- The root of a document with a byte order mark, where it can be read in so many steps. -/
theorem parse_of_mark (n : Nat) (cs : List Char) {bytes rest : Bytes} {encoding : Encoding}
    {root : Element} (hmark : Encoding.ofMark? bytes = some (encoding, rest))
    (hchars : encoding.decode? rest = some cs)
    (hroot : ((Reading.runWithin n {} { chars := cs }).bind fun x => (x.bind fun r =>
      (encoding.confirm r.encoding).bind fun _ => r.finish).toOption) = some root) :
    parse bytes = .ok root := by
  obtain ⟨x, hx, hfinish⟩ := Option.bind_eq_some_iff.mp hroot
  have hsource : source encoding rest = .ok { chars := cs } := by
    rw [source, hchars]
  have hparse : parse bytes = x.bind fun r =>
      (encoding.confirm r.encoding).bind fun _ => r.finish := by
    simp only [parse, hmark, parseMarked, hsource, bind, Except.bind, Reading.run_of_runWithin hx]
  rw [hparse]
  revert hfinish
  generalize (x.bind fun r => (encoding.confirm r.encoding).bind fun _ => r.finish) = y
  intro hfinish
  cases y with
  | error e => cases hfinish
  | ok e => rw [← Option.some.inj hfinish]

/-- What comes of a document without a byte order mark, where it can be read in so many steps. -/
def parseWithin (n : Nat) (bytes : Bytes) : Option (Except Malformed Element) :=
  let (head, body) := if startsWithDeclaration bytes then splitInstruction [] bytes else ([], bytes)
  (Encoding.utf8.decode? head).bind fun first =>
    (Reading.runWithin n {} { chars := first }).bind fun
      | .error e => some (.error e)
      | .ok r =>
        match Encoding.declared r.encoding with
        | .error e => some (.error e)
        | .ok encoding =>
          (encoding.decode? body).bind fun second =>
            (Reading.runWithin n r { chars := second }).map (·.bind Reading.finish)

theorem parse_eq_of_parseWithin {n : Nat} {bytes : Bytes} {x : Except Malformed Element}
    (hmark : Encoding.ofMark? bytes = none) (hx : parseWithin n bytes = some x) :
    parse bytes = x := by
  simp only [parse, hmark, parseUnmarked]
  unfold parseWithin at hx
  generalize (if startsWithDeclaration bytes = true then splitInstruction [] bytes
    else ([], bytes)) = parts at hx ⊢
  obtain ⟨head, body⟩ := parts
  obtain ⟨first, hfirst, hx⟩ := Option.bind_eq_some_iff.mp hx
  obtain ⟨y, hy, hx⟩ := Option.bind_eq_some_iff.mp hx
  simp only [source, hfirst, bind, Except.bind, Reading.run_of_runWithin hy]
  cases y with
  | error e => exact Option.some.inj hx
  | ok r =>
    simp only at hx ⊢
    cases hencoding : Encoding.declared r.encoding with
    | error e =>
      rw [hencoding] at hx
      exact Option.some.inj hx
    | ok encoding =>
      rw [hencoding] at hx
      obtain ⟨second, hsecond, hx⟩ := Option.bind_eq_some_iff.mp hx
      obtain ⟨z, hz, rfl⟩ := Option.map_eq_some_iff.mp hx
      simp only [hsecond, Reading.run_of_runWithin hz]
      rfl

/-- The tree of a document, where it can be worked out in so many steps. -/
theorem parse_of_toOption (n : Nat) {bytes : Bytes} {e : Element}
    (hmark : Encoding.ofMark? bytes = none)
    (hx : (parseWithin n bytes).map Except.toOption = some (some e)) : parse bytes = .ok e := by
  obtain ⟨y, hy, hroot⟩ := Option.map_eq_some_iff.mp hx
  rw [parse_eq_of_parseWithin hmark hy]
  cases y with
  | error e => cases hroot
  | ok e' => rw [← Option.some.inj hroot]

/-- A document that is not read as a given tree, where this can be worked out in so many steps. -/
theorem parse_ne_ok (n : Nat) {bytes : Bytes} {e : Element}
    (hmark : Encoding.ofMark? bytes = none)
    (hx : (parseWithin n bytes).map (fun x => decide (x.toOption = some e)) = some false) :
    parse bytes ≠ .ok e := by
  obtain ⟨y, hy, hne⟩ := Option.map_eq_some_iff.mp hx
  rw [parse_eq_of_parseWithin hmark hy]
  rintro rfl
  simp [Except.toOption] at hne

end Document
end Netconf.Xml
