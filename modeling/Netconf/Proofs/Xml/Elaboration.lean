import Netconf.Proofs.Xml.Markup

/-! Reading is elaboration: what a step of a reading does to the elements that are open is what its
tags do to them, so that the tree of a document is what its markup comes to. -/
namespace Netconf.Xml

/-! Tags in the making. -/

theorem StartTag.Sound.of_name {q : QName} (h : q.Written) : Sound { name := q } where
  name := h
  attributes := by simp
  distinct := List.Pairwise.nil

/-- Another attribute with a name of its own leaves a tag sound. -/
theorem StartTag.Sound.extend {tag : StartTag} (h : tag.Sound) {q : QName} (hq : q.Written)
    (hadmits : tag.admits q = true) (value : String) :
    Sound { tag with attributes := (q, value) :: tag.attributes } where
  name := h.name
  attributes := by
    intro a ha
    obtain rfl | ha := List.mem_cons.mp ha
    · exact hq
    · exact h.attributes a ha
  distinct := by
    cases hbinds : q.binds? with
    | some p => simpa [plainAttributes, hbinds] using h.distinct
    | none =>
      have hfresh : ∀ a ∈ tag.attributes, a.1 ≠ q := by
        simpa [StartTag.admits, hbinds] using hadmits
      rw [plainAttributes, List.filter_cons, if_pos (by simp [hbinds])]
      refine List.pairwise_cons.mpr ⟨?_, h.distinct⟩
      intro a ha
      exact (hfresh a (List.mem_filter.mp ha).1).symm

theorem StartTag.Sound.reverse {tag : StartTag} (h : tag.Sound) (selfClosing : Bool) :
    Sound { tag with attributes := tag.attributes.reverse, selfClosing } where
  name := h.name
  attributes := fun a ha => h.attributes a (List.mem_reverse.mp ha)
  distinct := by
    rw [plainAttributes, List.filter_reverse, List.pairwise_reverse]
    exact h.distinct.imp fun hne => hne.symm

namespace TagPart

/-- What is known of a tag that is being read. -/
def Sound : TagPart → Prop
  | startName s => s.Sound
  | gap tag => tag.Sound
  | attributeName tag s => tag.Sound ∧ s.Sound
  | beforeSign tag q => tag.Sound ∧ q.Written ∧ tag.admits q = true
  | value tag q _ => tag.Sound ∧ q.Written ∧ tag.admits q = true
  | afterValue tag => tag.Sound
  | finishName _ => True
  | afterFinishName _ => True

/-- A part of a tag that goes on is sound again; a tag that is complete is sound. -/
def Results (p : Progress TagPart Tag) : Prop :=
  match p with
  | .more part => part.Sound
  | .done (.start tag) => tag.Sound
  | .done (.finish _) => True

theorem results_between {tag : StartTag} (h : tag.Sound) {spaced : Bool} {t : Token}
    {p : Progress TagPart Tag} (hp : between tag spaced t = .ok p) : Results p := by
  unfold between at hp
  split at hp
  · cases hp
    exact h.reverse false
  · cases hp
    exact h.reverse true
  · next c =>
    split at hp
    · cases hp
      exact h
    · split at hp
      · next hstart =>
        cases hp
        have hc : isNameStart c = true := (Bool.and_eq_true_iff.mp hstart).2
        exact ⟨h, Spelling.Sound.first hc⟩
      · cases hp
  · cases hp

theorem results_sign {tag : StartTag} (h : tag.Sound) {q : QName} (hq : q.Written)
    (hadmits : tag.admits q = true) {t : Token} {p : Progress TagPart Tag}
    (hp : sign tag q t = .ok p) : Results p := by
  unfold sign at hp
  split at hp
  · cases hp
    exact ⟨h, hq, hadmits⟩
  · split at hp
    · cases hp
      exact ⟨h, hq, hadmits⟩
    · cases hp
  · cases hp

theorem results_afterFinish {q : QName} {t : Token} {p : Progress TagPart Tag}
    (hp : afterFinish q t = .ok p) : Results p := by
  unfold afterFinish at hp
  split at hp
  · cases hp
    trivial
  · split at hp
    · cases hp
      trivial
    · cases hp
  · cases hp

/-- What a step does to a tag that is sound so far. -/
theorem Sound.step {d : Dialect} {part : TagPart} (h : part.Sound) {t : Token}
    {p : Progress TagPart Tag} (hp : part.step d t = .ok p) : Results p := by
  cases part with
  | startName s =>
    obtain ⟨hmore, hdone⟩ := Spelling.Sound.qualified h endsStart t
    simp only [TagPart.step] at hp
    split at hp
    · cases hp
    · next s' hs =>
      cases hp
      exact hmore s' hs
    · next q hq =>
      unfold afterStartName at hp
      split at hp
      · cases hp
      · exact results_between (StartTag.Sound.of_name (hdone q hq)) hp
  | gap tag => exact results_between h hp
  | attributeName tag s =>
    obtain ⟨htag, hs⟩ := h
    obtain ⟨hmore, hdone⟩ := Spelling.Sound.qualified hs (· = .equals) t
    simp only [TagPart.step] at hp
    split at hp
    · cases hp
    · next s' hs' =>
      cases hp
      exact ⟨htag, hmore s' hs'⟩
    · next q hq =>
      split at hp
      · next hadmits => exact results_sign htag (hdone q hq) hadmits hp
      · cases hp
  | beforeSign tag q => exact results_sign h.1 h.2.1 h.2.2 hp
  | value tag q v =>
    obtain ⟨htag, hq, hadmits⟩ := h
    simp only [TagPart.step] at hp
    split at hp
    · cases hp
    · cases hp
      exact ⟨htag, hq, hadmits⟩
    · cases hp
      exact htag.extend hq hadmits _
  | afterValue tag => exact results_between h hp
  | finishName s =>
    simp only [TagPart.step] at hp
    split at hp
    · cases hp
    · cases hp
      trivial
    · next q _ =>
      cases hcheck : checkPrefix q with
      | error e => simp [hcheck, Except.bind] at hp
      | ok u =>
        rw [hcheck] at hp
        exact results_afterFinish hp
  | afterFinishName q => exact results_afterFinish hp

end TagPart

/-! Elements that are open. -/

/-- An open element is what its tag comes to, with what has been read in it. -/
structure Frame.Follows (outer : Option Scope) (o : StartTag × List Markup) (f : Frame) : Prop where
  sound : o.1.Sound
  opened : Frame.ofTag o.1 outer = .ok { f with children := [], text := "" }
  children : List.Forall₂ (Markup.Elaborates (some f.scope)) o.2 f.children

namespace Frame.Follows

variable {outer : Option Scope} {o : StartTag × List Markup} {f : Frame}

theorem attach (h : Follows outer o f) {k : Markup} {e : Element}
    (hk : k.Elaborates (some f.scope) e) :
    Follows outer (o.1, k :: o.2) { f with children := e :: f.children } :=
  ⟨h.sound, h.opened, .cons hk h.children⟩

theorem retext (h : Follows outer o f) (text : String) : Follows outer o { f with text } :=
  ⟨h.sound, h.opened, h.children⟩

theorem close (h : Follows outer o f) :
    Markup.Elaborates outer { tag := o.1, children := o.2.reverse } f.close :=
  Markup.elaborates_iff.mpr ⟨h.sound, _, h.opened, rfl, List.forall₂_reverse_iff.mpr h.children⟩

end Frame.Follows

/-- Open elements are what their tags come to, each within the scope of those around it. -/
def Frame.FollowAll : List Frame → List (StartTag × List Markup) → Prop
  | [], [] => True
  | f :: fs, o :: os => Frame.Follows (fs.head?.map (·.scope)) o f ∧ FollowAll fs os
  | _, _ => False

namespace Reading

/-- A reading has made of the tags so far what they come to. -/
structure Mirrors (r : Reading) (o : Outline) : Prop where
  part : ∀ part, r.place = .tag part → part.Sound
  opened : Frame.FollowAll r.stack o.opened
  root : ∀ e, r.root = some e → ∃ k, o.root = some k ∧ k.Elaborates none e

theorem Mirrors.empty : Mirrors {} {} where
  part := by
    rintro part ⟨⟩
  opened := trivial
  root := by
    rintro e ⟨⟩

variable {r r' : Reading} {o : Outline}

/-- A reading has the same elements as before, but for text in the innermost. -/
structure Keeps (r r' : Reading) : Prop where
  root : r'.root = r.root
  stack : r'.stack = r.stack ∨ ∃ f fs text, r.stack = f :: fs ∧ r'.stack = { f with text } :: fs

theorem Keeps.of_eq (hstack : r'.stack = r.stack) (hroot : r'.root = r.root) : Keeps r r' :=
  ⟨hroot, .inl hstack⟩

theorem Keeps.of_flush (hstack : r'.stack = r.flush.stack) (hroot : r'.root = r.flush.root) :
    Keeps r r' := by
  unfold Reading.flush at hstack hroot
  split at hstack
  · next f fs hopen =>
    rw [hopen] at hroot
    exact ⟨hroot, .inr ⟨f, fs, _, hopen, hstack⟩⟩
  · next hnone =>
    rw [hnone] at hroot
    exact ⟨hroot, .inl hstack⟩

theorem Mirrors.keep (h : Mirrors r o) (hkeeps : Keeps r r')
    (hpart : ∀ part, r'.place = .tag part → part.Sound) : Mirrors r' o where
  part := hpart
  root := by
    rw [hkeeps.root]
    exact h.root
  opened := by
    obtain hsame | ⟨f, fs, text, hstack, hstack'⟩ := hkeeps.stack
    · rw [hsame]
      exact h.opened
    · have hopened := h.opened
      rw [hstack] at hopened
      rw [hstack']
      cases hos : o.opened with
      | nil =>
        rw [hos] at hopened
        exact hopened
      | cons p os =>
        rw [hos] at hopened
        exact ⟨hopened.1.retext text, hopened.2⟩

/-- A complete element goes where its markup does. -/
theorem Mirrors.attach (h : Mirrors r o) {k : Markup} {e : Element}
    (hk : k.Elaborates (r.stack.head?.map (·.scope)) e) : Mirrors (r.attach e) (o.attach k) := by
  have hopened := h.opened
  unfold Reading.attach Outline.attach
  cases hstack : r.stack with
  | nil =>
    rw [hstack] at hk hopened
    cases hos : o.opened with
    | nil =>
      refine ⟨h.part, trivial, ?_⟩
      rintro e' ⟨⟩
      exact ⟨k, rfl, hk⟩
    | cons p os =>
      rw [hos] at hopened
      exact hopened.elim
  | cons f fs =>
    rw [hstack] at hk hopened
    cases hos : o.opened with
    | nil =>
      rw [hos] at hopened
      exact hopened.elim
    | cons p os =>
      rw [hos] at hopened
      exact ⟨h.part, ⟨hopened.1.attach hk, hopened.2⟩, h.root⟩

theorem flush_place (r : Reading) : r.flush.place = r.place := by
  unfold Reading.flush
  split <;> rfl

theorem Mirrors.flush (h : Mirrors r o) : Mirrors r.flush o := by
  refine h.keep (Keeps.of_flush rfl rfl) ?_
  rw [flush_place]
  exact h.part

theorem Mirrors.goto_content (h : Mirrors r o) : Mirrors (r.goto .content) o := by
  refine h.keep (Keeps.of_eq rfl rfl) ?_
  rintro part ⟨⟩

/-- A start tag opens an element, or is one that is complete. -/
theorem Mirrors.enter (h : Mirrors r o) {tag : StartTag} (htag : tag.Sound)
    (hr : r.enter tag = .ok r') : Mirrors r' (o.read (.start tag)) := by
  have hflush := h.flush
  unfold Reading.enter at hr
  simp only at hr
  split at hr
  · cases hr
  · next f hf =>
    obtain ⟨-, -, -, space, -, hframe⟩ := Frame.ofTag_eq_ok_iff.mp hf
    have hempty : f.children = [] := by rw [hframe]
    have hopened : f = { f with children := [], text := "" } := by rw [hframe]
    have hbody : Mirrors { r.flush with stage := .body } o :=
      hflush.keep (Keeps.of_eq rfl rfl) hflush.part
    cases hr
    by_cases hclosing : tag.selfClosing = true
    · have hclosed : Markup.Elaborates (r.flush.stack.head?.map (·.scope)) { tag } f.close := by
        refine Markup.elaborates_iff.mpr ⟨htag, f, hf, rfl, ?_⟩
        simp [Frame.close, hempty]
      simp only [Outline.read, hclosing, if_true]
      exact hbody.attach hclosed
    · simp only [Outline.read, hclosing, Bool.false_eq_true, if_false]
      refine ⟨hbody.part, ⟨⟨htag, ?_, ?_⟩, hbody.opened⟩, hbody.root⟩
      · rw [← hopened]
        exact hf
      · rw [hempty]
        exact .nil

/-- An end tag completes the innermost element. -/
theorem Mirrors.leave (h : Mirrors r o) {name : QName} (hr : r.leave name = .ok r') :
    Mirrors r' (o.read (.finish name)) := by
  have hflush := h.flush
  unfold Reading.leave at hr
  simp only at hr
  split at hr
  · next f fs hstack =>
    split at hr
    · cases hr
      have hopened := hflush.opened
      rw [hstack] at hopened
      unfold Outline.read
      cases hos : o.opened with
      | nil =>
        rw [hos] at hopened
        exact hopened.elim
      | cons p os =>
        rw [hos] at hopened
        have houter : Mirrors { r.flush with stack := fs } { o with opened := os } :=
          ⟨hflush.part, hopened.2, hflush.root⟩
        exact houter.attach hopened.1.close
    · cases hr
  · cases hr

/-- What one step can do: no tag is complete, and the elements stay as they are; or a tag is, and
an element is entered or left. -/
inductive Moves (r : Reading) (t : Token) (r' : Reading) : Prop
  | quiet (tag : r.tag? t = none) (keeps : Keeps r r')
      (part : ∀ part, r'.place = .tag part → part = .startName {} ∨ part = .finishName {} ∨
        ∃ p, r.place = .tag p ∧ p.step r.dialect t = .ok (.more part))
  | complete (part : TagPart) (tag : Tag) (s : Reading) (place : r.place = .tag part)
      (step : part.step r.dialect t = .ok (.done tag)) (same : r' = s.goto .content)
      (moved : match tag with
        | .start tag => r.enter tag = .ok s
        | .finish name => r.leave name = .ok s)

/-- A step that stands in no tag, and enters none but at its name. -/
theorem Moves.of_keeps {t : Token} (hplace : ∀ part, r.place ≠ .tag part) (hkeeps : Keeps r r')
    (hpart : ∀ part, r'.place = .tag part → part = .startName {} ∨ part = .finishName {}) :
    Moves r t r' := by
  refine .quiet ?_ hkeeps fun part h => (hpart part h).imp_right .inl
  unfold tag?
  split
  · next part h => exact absurd h (hplace part)
  · rfl

theorem moves_of_character {c : Char} {t : Token} {a : Advance}
    (hplace : ∀ part, r.place ≠ .tag part) (h : r.character c = .ok a) : Moves r t a.reading := by
  unfold character at h
  split at h
  · split at h
    · cases h
      exact .of_keeps hplace (Keeps.of_eq rfl rfl) fun part h => absurd h (hplace part)
    · cases h
  · split at h
    · cases h
      exact .of_keeps hplace (Keeps.of_eq rfl rfl) fun part h => absurd h (hplace part)
    · cases h

theorem moves_of_mark {t : Token} {a : Advance} (hplace : ∀ part, r.place ≠ .tag part)
    (h : r.mark t = .ok a) : Moves r t a.reading := by
  unfold mark at h
  split at h
  · cases h
  · cases h
    exact .of_keeps hplace (Keeps.of_eq rfl rfl) fun part h => absurd h (hplace part)

theorem moves_of_content {t : Token} {a : Advance} (hplace : ∀ part, r.place ≠ .tag part)
    (h : r.content t = .ok a) : Moves r t a.reading := by
  unfold content at h
  cases t with
  | character c => exact moves_of_character hplace h
  | tagEnd | emptyTagEnd | equals | quote | semicolon | instructionEnd | commentEnd =>
    exact moves_of_mark hplace h
  | dataEnd | declarationStart => cases h
  | tagStart =>
    cases h
    exact .of_keeps hplace (Keeps.of_flush rfl rfl) (by simp)
  | instructionStart =>
    cases h
    exact .of_keeps hplace (Keeps.of_flush rfl rfl) (by simp [goto])
  | commentStart =>
    cases h
    exact .of_keeps hplace (Keeps.of_eq rfl rfl) (by simp [goto])
  | endTagStart =>
    dsimp only at h
    split at h
    · cases h
    · cases h
      exact .of_keeps hplace (Keeps.of_flush rfl rfl) (by simp [goto])
  | ampersand | dataStart | doctypeStart =>
    dsimp only at h
    split at h
    · cases h
    · cases h
      exact .of_keeps hplace (Keeps.of_eq rfl rfl) (by simp [goto])

theorem moves_of_tag {part : TagPart} {t : Token} {a : Advance} (hplace : r.place = .tag part)
    (h : r.tag part t = .ok a) : Moves r t a.reading := by
  unfold Reading.tag at h
  split at h
  · cases h
  · next part' hstep =>
    cases h
    refine .quiet ?_ (Keeps.of_eq rfl rfl) ?_
    · simp [tag?, hplace, hstep]
    · rintro part ⟨⟩
      exact .inr (.inr ⟨_, hplace, hstep⟩)
  · next tag hstep =>
    cases henter : r.enter tag with
    | error e => simp [henter, Except.map] at h
    | ok s =>
      rw [henter] at h
      cases h
      exact .complete part (.start tag) s hplace hstep rfl henter
  · next name hstep =>
    cases hleave : r.leave name with
    | error e => simp [hleave, Except.map] at h
    | ok s =>
      rw [hleave] at h
      cases h
      exact .complete part (.finish name) s hplace hstep rfl hleave

/-- At all places but in a tag the elements stay as they are. -/
theorem moves_elsewhere {t : Token} {a : Advance} (hplace : ∀ part, r.place ≠ .tag part)
    (h : r.step t = .ok a) : Moves r t a.reading := by
  have hsame : ∀ part, r.place = .tag part → part = .startName {} ∨ part = .finishName {} :=
    fun part h => absurd h (hplace part)
  unfold step at h
  split at h
  · exact moves_of_content hplace h
  · unfold comment at h
    split at h
    · cases h
      exact .of_keeps hplace (Keeps.of_eq rfl rfl) (by simp [goto])
    · split at h
      · cases h
        exact .of_keeps hplace (Keeps.of_eq rfl rfl) hsame
      · cases h
    · cases h
      exact .of_keeps hplace (Keeps.of_eq rfl rfl) hsame
  · unfold data at h
    split at h
    · cases h
      exact .of_keeps hplace (Keeps.of_eq rfl rfl) (by simp [goto])
    · split at h
      · cases h
        exact .of_keeps hplace (Keeps.of_eq rfl rfl) hsame
      · cases h
    · cases h
      exact .of_keeps hplace (Keeps.of_eq rfl rfl) hsame
  · unfold refer at h
    split at h
    · cases h
    · cases h
      exact .of_keeps hplace (Keeps.of_eq rfl rfl) (by simp [goto])
    · cases h
      exact .of_keeps hplace (Keeps.of_eq rfl rfl) (by simp)
    · split at h
      · cases h
      · cases h
        exact .of_keeps hplace (Keeps.of_eq rfl rfl) (by simp)
  · next part hpart => exact absurd hpart (hplace part)
  · unfold instruction at h
    split at h
    · cases h
    all_goals
      cases h
      exact .of_keeps hplace (Keeps.of_eq rfl rfl) (by simp [goto])
  · unfold declaration at h
    split at h
    · cases h
    all_goals
      cases h
      exact .of_keeps hplace (Keeps.of_eq rfl rfl) (by simp [goto])
  · unfold doctype at h
    split at h
    · cases h
    all_goals
      cases h
      exact .of_keeps hplace (Keeps.of_eq rfl rfl) (by simp [goto])

theorem moves_of_step {t : Token} {a : Advance} (h : r.step t = .ok a) : Moves r t a.reading := by
  by_cases htag : ∃ part, r.place = .tag part
  · obtain ⟨part, hplace⟩ := htag
    unfold step at h
    rw [hplace] at h
    exact moves_of_tag hplace h
  · exact moves_elsewhere (fun part hplace => htag ⟨part, hplace⟩) h

/-- A step leaves the reading what the tags come to, with the tag that it completes. -/
theorem Mirrors.step (h : Mirrors r o) {t : Token} {a : Advance} (hr : r.step t = .ok a) :
    Mirrors a.reading (((r.tag? t).map o.read).getD o) := by
  cases moves_of_step hr with
  | quiet htag hkeeps hpart =>
    rw [htag]
    refine h.keep hkeeps fun part hplace => ?_
    obtain rfl | rfl | ⟨p, hp, hstep⟩ := hpart part hplace
    · exact Spelling.Sound.empty
    · trivial
    · exact (h.part p hp).step hstep
  | complete part tag s hplace hstep hsame hmoved =>
    have htag : r.tag? t = some tag := by
      simp [tag?, hplace, hstep]
    rw [htag, hsame]
    cases tag with
    | start tag => exact (h.enter ((h.part part hplace).step hstep) hmoved).goto_content
    | finish name => exact (h.leave hmoved).goto_content

/-- A reading that goes through a source without a fault leaves what all its tags come to. -/
theorem Mirrors.run {r r' : Reading} {o : Outline} {s : Source} (h : Mirrors r o)
    (hr : r.run s = .ok r') : Mirrors r' (r.outline o s) := by
  induction s using Source.before_wf.induction generalizing r o with
  | _ s ih =>
    cases hs : s.chars with
    | nil =>
      rw [run_nil hs] at hr
      rw [outline_nil hs, ← Except.ok.inj hr]
      exact h
    | cons c cs =>
      rw [run_cons hs] at hr
      rw [outline_cons hs]
      cases hturn : r.turn s c cs with
      | error e =>
        rw [hturn] at hr
        cases hr
      | ok next =>
        obtain ⟨t, r₁, s'⟩ := next
        rw [hturn] at hr
        obtain ⟨lexeme, a, -, hstep, rfl, rfl, -⟩ := turn_eq_ok_iff.mp hturn
        -- The lexer's mode is no part of what is mirrored.
        have hlexis : Mirrors { r with lexis := lexeme.next } o :=
          h.keep (Keeps.of_eq rfl rfl) h.part
        exact ih s' (turn_before hs hturn) (hlexis.step hstep) hr

/-- At its end a reading has the root that its markup comes to. -/
theorem Mirrors.finish (h : Mirrors r o) {e : Element} (hr : r.finish = .ok e) :
    ∃ k, o.root = some k ∧ k.Elaborates none e := by
  unfold Reading.finish at hr
  split at hr
  · split at hr
    · next root hroot =>
      cases hr
      exact h.root _ hroot
    · cases hr
  · cases hr

end Reading

/-- What markup comes to is sound, in a scope that agrees with the attributes above. -/
theorem Markup.Elaborates.sound {k : Markup} {e : Element} {outer : Option Scope}
    {above : List Attribute} (h : k.Elaborates outer e)
    (houter : (outer.getD Scope.outermost).Agrees above) : e.Everywhere Element.IsSound above := by
  induction e using Element.induction generalizing k outer above with
  | h e ih =>
    obtain ⟨htag, f, hf, he, hchildren⟩ := elaborates_iff.mp h
    obtain ⟨hsound, hagrees⟩ := Frame.sound_of_ofTag htag houter hf
    have hhere : e.IsSound above := by
      rw [he]
      exact ⟨_, _, hsound.with_content _ _⟩
    have hattributes : e.attributes = f.attributes := by
      rw [he]
      rfl
    refine Element.everywhere_iff.mpr ⟨hhere, fun c hc => ?_⟩
    obtain ⟨i, hi⟩ := List.mem_iff_getElem?.mp hc
    obtain ⟨k', -, hk'⟩ := exists_child hchildren hi
    rw [hattributes]
    exact ih c hc hk' hagrees

namespace Document

/-- The tree of a document is what its markup comes to. -/
theorem exists_markup {bytes : Bytes} {e : Element} (h : parse bytes = .ok e) :
    ∃ k, markup? bytes = some k ∧ k.Elaborates none e := by
  unfold parse at h
  unfold markup? outline
  cases hmark : Encoding.ofMark? bytes with
  | some found =>
    rw [hmark] at h
    simp only [parseMarked, Except.bind_eq_ok_iff] at h
    obtain ⟨s, hs, r, hr, ⟨⟩, -, hfinish⟩ := h
    obtain ⟨k, hk, helaborates⟩ := (Reading.Mirrors.empty.run hr).finish hfinish
    refine ⟨k, ?_, helaborates⟩
    simp [hs, hk, bind, Except.bind, pure, Except.pure, Except.toOption]
  | none =>
    rw [hmark] at h
    dsimp only [parseUnmarked] at h ⊢
    generalize (if startsWithDeclaration bytes = true then splitInstruction [] bytes
      else ([], bytes)) = parts at h ⊢
    obtain ⟨head, body⟩ := parts
    simp only [Except.bind_eq_ok_iff] at h
    obtain ⟨first, hfirst, r, hr, encoding, hencoding, second, hsecond, r', hr', hfinish⟩ := h
    obtain ⟨k, hk, helaborates⟩ := ((Reading.Mirrors.empty.run hr).run hr').finish hfinish
    refine ⟨k, ?_, helaborates⟩
    simp [hfirst, hr, hencoding, hsecond, hk, bind, Except.bind, pure, Except.pure,
      Except.toOption]

/-- Every element of a document is sound. -/
theorem sound_of_parse {bytes : Bytes} {e : Element} (h : parse bytes = .ok e) :
    e.Everywhere Element.IsSound [] := by
  obtain ⟨k, -, helaborates⟩ := exists_markup h
  exact helaborates.sound Scope.Agrees.outermost

end Document
end Netconf.Xml
