import Mathlib.Data.List.Forall2
import Netconf.Proofs.Xml.Evaluation
import Netconf.Proofs.Xml.Sound

/-! The tags of a document as they are written, in the shape of a tree: names with their prefixes,
and all attributes, declarations included. The tree that is read from a document is the same tree
with every tag turned into an element within the scope of the tags around it. -/
namespace Netconf.Xml

/-- A start tag, and what stands between it and its end tag. -/
structure Markup where
  tag : StartTag
  children : List Markup := []

/-- Tags that have been read so far: those that are open, the innermost first, each with what has
stood in it, last first; and the last root that is complete. -/
structure Outline where
  opened : List (StartTag × List Markup) := []
  root : Option Markup := none

namespace Outline

/-- With a complete piece of markup at its place. -/
def attach (o : Outline) (k : Markup) : Outline :=
  match o.opened with
  | (tag, below) :: outer => { o with opened := (tag, k :: below) :: outer }
  | [] => { o with root := some k }

/-- With another tag. -/
def read (o : Outline) : Tag → Outline
  | .start tag => if tag.selfClosing then o.attach { tag } else { o with opened := (tag, []) :: o.opened }
  | .finish _ =>
    match o.opened with
    | (tag, below) :: outer => attach { o with opened := outer } { tag, children := below.reverse }
    | [] => o

end Outline

namespace Reading

/-- The tag that is complete with a token. -/
def tag? (r : Reading) (t : Token) : Option Tag :=
  match r.place with
  | .tag part =>
    match part.step r.dialect t with
    | .ok (.done tag) => some tag
    | _ => none
  | _ => none

/-- The tags that are read on from some others. -/
def outline (r : Reading) (o : Outline) (s : Source) : Outline :=
  match _hs : s.chars with
  | [] => o
  | c :: cs =>
    match _ht : r.lexis.token c cs with
    | .error _ => o
    | .ok lexeme =>
      match { r with lexis := lexeme.next }.step lexeme.token with
      | .error _ => o
      | .ok a =>
        match _hi : (s.advance (lexeme.more + 1)).insert? a.inserted with
        | none => o
        | some s' => outline a.reading (((r.tag? lexeme.token).map o.read).getD o) s'
termination_by s
decreasing_by
  have := Lexis.more_le_of_token _ht
  exact Source.insert?_before _hi (Source.advance_before (by omega) (by simp [_hs]; omega))

end Reading

/-- The tags of a document. -/
def Document.outline (bytes : Bytes) : Except Malformed Outline :=
  match Encoding.ofMark? bytes with
  | some (encoding, rest) => do
    return Reading.outline {} {} (← source encoding rest)
  | none => do
    let (head, body) := if startsWithDeclaration bytes then splitInstruction [] bytes else ([], bytes)
    let first ← source .utf8 head
    let r ← Reading.run {} first
    let second ← source (← Encoding.declared r.encoding) body
    return Reading.outline r (Reading.outline {} {} first) second

/-- The markup of a document: its root as it is written. -/
def Document.markup? (bytes : Bytes) : Option Markup := (outline bytes).toOption.bind (·.root)

/-! Outlines, turn by turn. -/

theorem Reading.outline_nil {r : Reading} {o : Outline} {s : Source} (hs : s.chars = []) :
    r.outline o s = o := by
  rw [outline]
  split
  · rfl
  · next hs' => simp [hs] at hs'

theorem Reading.outline_cons {r : Reading} {o : Outline} {s : Source} {c : Char} {cs : List Char}
    (hs : s.chars = c :: cs) : r.outline o s =
    match r.turn s c cs with
    | .error _ => o
    | .ok (t, r', s') => r'.outline (((r.tag? t).map o.read).getD o) s' := by
  rw [outline]
  split
  · next hs' => simp [hs] at hs'
  · next c' cs' hs' =>
    obtain ⟨rfl, rfl⟩ := List.cons.inj (hs.symm.trans hs')
    unfold turn
    split
    · next ht => simp only [ht]
    · next lexeme ht =>
      simp only [ht]
      cases { r with lexis := lexeme.next }.step lexeme.token with
      | error e => rfl
      | ok a =>
        dsimp only
        split
        · next hi => simp only [hi]
        · next hi => simp only [hi]

/-- The tags that are read in so many steps at most, if the source comes to an end then. -/
def Reading.outlineWithin : Nat → Reading → Outline → Source → Option Outline
  | 0, _, _, _ => none
  | n + 1, r, o, s =>
    match s.chars with
    | [] => some o
    | c :: cs =>
      match r.turn s c cs with
      | .error _ => none
      | .ok (t, r', s') => outlineWithin n r' (((r.tag? t).map o.read).getD o) s'

theorem Reading.outline_of_outlineWithin {n : Nat} {r : Reading} {o o' : Outline} {s : Source}
    (h : r.outlineWithin n o s = some o') : r.outline o s = o' := by
  induction n generalizing r o s with
  | zero => cases h
  | succ n ih =>
    rw [outlineWithin] at h
    cases hs : s.chars with
    | nil =>
      rw [hs] at h
      rw [outline_nil hs, Option.some.inj h]
    | cons c cs =>
      rw [hs] at h
      rw [outline_cons hs]
      dsimp only at h
      cases hturn : r.turn s c cs with
      | error e =>
        rw [hturn] at h
        cases h
      | ok next =>
        rw [hturn] at h
        exact ih h

/-- The markup of a text without a declaration, where it can be read in so many steps. -/
theorem Document.markup?_eq_of_outlineWithin (n : Nat) (text : String) {o : Outline}
    (hmark : Encoding.ofMark? (Bytes.ofString text) = none)
    (hplain : startsWithDeclaration (Bytes.ofString text) = false)
    (ho : Reading.outlineWithin n {} {} { chars := text.toList } = some o) :
    markup? (Bytes.ofString text) = o.root := by
  have hnothing : Reading.run {} { chars := [] } = .ok {} :=
    Reading.run_of_runWithin (n := 1) rfl
  have hempty : Reading.outline {} {} { chars := [] } = {} :=
    Reading.outline_of_outlineWithin (n := 1) rfl
  have hbody : source .utf8 (Bytes.ofString text) = .ok { chars := text.toList } := by
    rw [source, decode?_ofString]
  have hhead : source .utf8 [] = .ok { chars := [] } := rfl
  have hencoding : Encoding.declared ({} : Reading).encoding = .ok .utf8 := rfl
  simp only [markup?, outline, hmark, hplain, hhead, Bool.false_eq_true, if_false]
  simp only [bind, Except.bind, hnothing, hencoding, hbody, hempty,
    Reading.outline_of_outlineWithin ho]
  rfl

mutual

/-- An element is what a piece of markup comes to in the scope around it. -/
def Markup.Elaborates (outer : Option Scope) : Markup → Element → Prop
  | ⟨tag, below⟩, e => tag.Sound ∧ ∃ f, Frame.ofTag tag outer = .ok f ∧
      e = { f.close with children := e.children, text := e.text } ∧
      ElaborateAll (some f.scope) below e.children

def Markup.ElaborateAll (outer : Option Scope) : List Markup → List Element → Prop
  | [], [] => True
  | k :: ks, e :: es => k.Elaborates outer e ∧ ElaborateAll outer ks es
  | _, _ => False

end

theorem Markup.elaborateAll_iff {outer : Option Scope} {ks : List Markup} {es : List Element} :
    ElaborateAll outer ks es ↔ List.Forall₂ (Markup.Elaborates outer) ks es := by
  induction ks generalizing es with
  | nil => cases es <;> simp [ElaborateAll, List.forall₂_nil_left_iff]
  | cons k ks ih => cases es <;> simp [ElaborateAll, List.forall₂_nil_right_iff, ih]

theorem Markup.elaborates_iff {outer : Option Scope} {k : Markup} {e : Element} :
    k.Elaborates outer e ↔ k.tag.Sound ∧ ∃ f, Frame.ofTag k.tag outer = .ok f ∧
      e = { f.close with children := e.children, text := e.text } ∧
      List.Forall₂ (Markup.Elaborates (some f.scope)) k.children e.children := by
  cases k
  simp only [Elaborates, elaborateAll_iff]

/-- Each child is what the piece of markup at its place comes to. -/
theorem Markup.exists_child {outer : Option Scope} {ks : List Markup} {es : List Element}
    (h : List.Forall₂ (Markup.Elaborates outer) ks es) {i : Nat} {e : Element}
    (he : es[i]? = some e) : ∃ k, ks[i]? = some k ∧ k.Elaborates outer e := by
  induction h generalizing i with
  | nil => simp at he
  | cons hk _ ih =>
    cases i with
    | zero =>
      obtain rfl := Option.some.inj he
      exact ⟨_, rfl, hk⟩
    | succ i => exact ih he

end Netconf.Xml
