import Netconf.Proofs.Framing.First
import Netconf.Proofs.Text.Bytes
import Netconf.Rpc.Reply

/-! Where a reply ends. Whatever a reply quotes, no mark stands in its text, so that a reader of
marked messages finds the end of the message just where it is. -/
namespace Netconf.Framing

/-- The mark behind messages, as a text. -/
def markText : List Char := "]]>]]>".toList

theorem marker_eq : marker = markText.flatMap String.utf8EncodeChar := by decide

/-- No mark stands in a text. -/
def Unmarked (cs : List Char) : Prop := ¬ markText <:+: cs

instance (cs : List Char) : Decidable (Unmarked cs) := inferInstanceAs (Decidable (¬ _))

variable {as bs cs : List Char} {c : Char}

theorem Unmarked.nil : Unmarked [] := by decide

/-- A mark lies on one side of a character that is not in it. -/
theorem Unmarked.append_cons (hc : c ∉ markText) (ha : Unmarked as) (hb : Unmarked bs) :
    Unmarked (as ++ c :: bs) := by
  have hnone : ∀ l : List Char, l <+: c :: bs → l <:+ markText → l = [] := by
    intro l hprefix hsuffix
    cases l with
    | nil => rfl
    | cons d l =>
      obtain ⟨rfl, -⟩ := List.cons_prefix_cons.mp hprefix
      exact absurd (hsuffix.subset (by simp)) hc
  intro h
  obtain h | h | ⟨l, l', hmark, hl, hl'⟩ := List.infix_append_iff.mp h
  · exact ha h
  · obtain h | h := List.infix_cons_iff.mp h
    · cases hnone _ h List.suffix_rfl
    · exact hb h
  · rw [hnone l' hl' ⟨l, hmark.symm⟩, List.append_nil] at hmark
    exact ha (hmark ▸ hl.isInfix)

/-- A mark does not start with a character other than its first. -/
theorem Unmarked.cons (hc : c ≠ ']') (h : Unmarked cs) : Unmarked (c :: cs) := by
  intro hmark
  obtain hmark | hmark := List.infix_cons_iff.mp hmark
  · exact hc (List.cons_prefix_cons.mp hmark).1.symm
  · exact h hmark

/-- There are two greater-than signs in a mark. -/
theorem Unmarked.of_count (h : cs.count '>' ≤ 1) : Unmarked cs := by
  intro hmark
  have hcount := hmark.sublist.count_le '>'
  have htwo : markText.count '>' = 2 := by decide
  omega

/-- Bytes of a text with a mark behind them begin with the message of that text, unless a mark has
begun in it. -/
theorem opens_text {limit : Nat} {text : String} (h : Unmarked (text.toList ++ markText.dropLast))
    (hlimit : (Bytes.ofString text).length + 3 ≤ limit) :
    Opens limit (encode .endOfMessage (Bytes.ofString text)) (Bytes.ofString text) [] where
  split := (List.append_nil _).symm
  first := by
    have hbytes : (Bytes.ofString text ++ marker).dropLast =
        (text.toList ++ markText.dropLast).flatMap String.utf8EncodeChar := by
      rw [List.dropLast_append_of_ne_nil (by decide), List.flatMap_append,
        ← Bytes.ofString_ofList, String.ofList_toList]
      rfl
    rw [hbytes, marker_eq]
    exact fun hmark => h (Bytes.infix_of_utf8 (by simp [markText]) hmark)
  fits := hlimit

/-- A text is read whole out of its marked frame, unless a mark has begun in it. -/
theorem read_text {limit : Nat} {text : String} (rest : Incoming)
    (h : Unmarked (text.toList ++ markText.dropLast))
    (hlimit : (Bytes.ofString text).length + 3 ≤ limit) :
    endOfMessage.read limit (.ofBytes (encode .endOfMessage (Bytes.ofString text)) rest) =
      (.message (Bytes.ofString text), rest) :=
  readMarked_of_opens (opens_text h hlimit) rest

end Netconf.Framing

namespace Netconf.Xml

/-- What stands for a character of an attribute value is no greater-than sign. -/
theorem sign_not_mem_escapeInAttribute (c : Char) : '>' ∉ escapeInAttribute c := by
  unfold escapeInAttribute
  split
  case h_8 c _ hsign _ _ _ _ _ =>
    rw [List.mem_singleton]
    exact fun h => hsign h.symm
  all_goals decide

theorem sign_not_mem_escapeInText (c : Char) : '>' ∉ escapeInText c := by
  unfold escapeInText
  split
  case h_4 c _ hsign _ =>
    rw [List.mem_singleton]
    exact fun h => hsign h.symm
  all_goals decide

theorem sign_not_mem_textChars (text : String) : '>' ∉ textChars text := by
  intro h
  obtain ⟨c, -, hc⟩ := List.mem_flatMap.mp h
  exact sign_not_mem_escapeInText c hc

theorem sign_not_mem_attributeChars {name : String} (value : String) (h : '>' ∉ name.toList) :
    '>' ∉ attributeChars name value := by
  have hvalue : '>' ∉ attributeValueChars value := by
    intro h
    obtain ⟨c, -, hc⟩ := List.mem_flatMap.mp h
    exact sign_not_mem_escapeInAttribute c hc
  simp [attributeChars, h, hvalue]

end Netconf.Xml

namespace Netconf.Rpc

open Framing

/-- A text in which tags and character data alternate, a tag first, holds no mark: two greater-than
signs never stand in it without the beginning of a tag between them. -/
structure Tagged (cs : List Char) : Prop where
  unmarked : Unmarked cs
  opened : cs = [] ∨ ∃ rest, cs = '<' :: rest

namespace Tagged

variable {as bs cs : List Char}

theorem nil : Tagged [] := ⟨Unmarked.nil, .inl rfl⟩

/-- A tag and the character data behind it. -/
theorem of_count (h : cs.count '>' ≤ 1) : Tagged ('<' :: cs) :=
  ⟨.cons (by decide) (.of_count h), .inr ⟨cs, rfl⟩⟩

theorem append (ha : Tagged as) (hb : Tagged bs) : Tagged (as ++ bs) := by
  obtain rfl | ⟨b, rfl⟩ := hb.opened
  · rwa [List.append_nil]
  · have hrest : Unmarked b := fun h => hb.unmarked (h.trans (List.suffix_cons '<' b).isInfix)
    refine ⟨ha.unmarked.append_cons (by decide) hrest, ?_⟩
    obtain rfl | ⟨a, rfl⟩ := ha.opened
    · exact .inr ⟨b, rfl⟩
    · exact .inr ⟨a ++ '<' :: b, rfl⟩

theorem flatMap {α : Type} {f : α → List Char} (h : ∀ x, Tagged (f x)) (xs : List α) :
    Tagged (xs.flatMap f) := by
  induction xs with
  | nil => exact nil
  | cons x xs ih => exact (h x).append ih

theorem getD_map {f : String → List Char} (h : ∀ s, Tagged (f s)) (o : Option String) :
    Tagged ((o.map f).getD []) := by
  cases o with
  | none => exact nil
  | some s => exact h s

end Tagged

/-- A start tag without greater-than signs of its own, character data and an end tag. -/
theorem tagged_element {start finish : List Char} (text : String) (hs : '>' ∉ start)
    (hf : '>' ∉ finish) :
    Tagged ('<' :: (start ++ '>' :: Xml.textChars text) ++ '<' :: (finish ++ ['>'])) := by
  have htext := Xml.sign_not_mem_textChars text
  refine Tagged.append (.of_count ?_) (.of_count ?_)
  · simp [List.count_eq_zero.mpr hs, List.count_eq_zero.mpr htext]
  · simp [List.count_eq_zero.mpr hf]

theorem tagged_textElement {name : String} (text : String) (h : '>' ∉ name.toList) :
    Tagged (textElement name text) := by
  have hparts : textElement name text = '<' :: (name.toList ++ '>' :: Xml.textChars text) ++
      '<' :: (('/' :: name.toList) ++ ['>']) := by
    simp [textElement]
  rw [hparts]
  exact tagged_element text h (by simpa using h)

theorem tagged_detail (d : Detail) : Tagged d.chars := by
  refine tagged_textElement _ ?_
  cases d with
  | badElement name | badAttribute name | badNamespace name => simp [Detail.name]
  | sessionId id => simp [Detail.name]

theorem tagged_error (e : Error) : Tagged e.chars := by
  have hmessage : ∀ m : String, Tagged ("<error-message xml:lang=\"en\">".toList ++
      Xml.textChars m ++ "</error-message>".toList) := by
    intro m
    exact @tagged_element "error-message xml:lang=\"en\"".toList "/error-message".toList m
      (by decide) (by decide)
  have hinfo : Tagged (if e.info.isEmpty then []
      else "<error-info>".toList ++ e.info.flatMap Detail.chars ++ "</error-info>".toList) := by
    split
    · exact .nil
    · exact ((Tagged.of_count (by decide)).append (.flatMap tagged_detail e.info)).append
        (.of_count (by decide))
  unfold Error.chars
  refine Tagged.append (.append (.append (.append (.append (.append (.append (.append
    (.of_count (by decide)) ?layer) ?tag) ?severity) ?appTag) ?path) ?message) ?info)
    (.of_count (by decide))
  case layer | tag | severity => exact tagged_textElement _ (by decide)
  case appTag | path => exact .getD_map (fun s => tagged_textElement s (by decide)) _
  case message => exact .getD_map hmessage _
  case info => exact hinfo

/-- Data may bring any markup that holds no mark. -/
theorem tagged_body {r : Reply} (h : ∀ content, r = .data content → Unmarked content.toList) :
    Tagged r.bodyChars := by
  cases r with
  | ok => exact .of_count (by decide)
  | errors list => exact .flatMap tagged_error list
  | data content =>
    have hparts : Reply.bodyChars (.data content) =
        "<dat".toList ++ 'a' :: ('>' :: content.toList ++ '<' :: "/data>".toList) := by
      have hopen : "<data>".toList = "<dat".toList ++ ['a', '>'] := by decide
      have hclose : "</data>".toList = '<' :: "/data>".toList := by decide
      change "<data>".toList ++ content.toList ++ "</data>".toList = _
      rw [hopen, hclose, List.append_assoc, List.append_assoc]
      rfl
    rw [hparts]
    refine ⟨.append_cons (by decide) (by decide) ?_, .inr ⟨_, rfl⟩⟩
    exact .append_cons (by decide) (.cons (by decide) (h content rfl)) (by decide)

/-- No mark stands in a reply, nor does one begin in it and end in the mark behind it. -/
theorem Reply.unmarked_render {attributes : List Xml.Attribute} {r : Reply}
    (hnames : ∀ a ∈ attributes, '>' ∉ a.name.toList)
    (hdata : ∀ content, r = .data content → Unmarked content.toList) :
    Unmarked ((r.render attributes).toList ++ markText.dropLast) := by
  have hattributes : '>' ∉ attributes.flatMap fun a => Xml.attributeChars a.name a.value := by
    intro h
    obtain ⟨a, ha, hsign⟩ := List.mem_flatMap.mp h
    exact Xml.sign_not_mem_attributeChars a.value (hnames a ha) hsign
  have hspace : '>' ∉ Xml.attributeChars "xmlns" baseNamespace :=
    Xml.sign_not_mem_attributeChars baseNamespace (by decide)
  have htag : Tagged ('<' :: ("rpc-reply".toList ++ Xml.attributeChars "xmlns" baseNamespace ++
      (attributes.flatMap fun a => Xml.attributeChars a.name a.value) ++ ['>'])) := by
    refine .of_count ?_
    rw [List.count_append, List.count_append, List.count_append, List.count_eq_zero.mpr hspace,
      List.count_eq_zero.mpr hattributes]
    decide
  have hbegun : Tagged (_ ++ r.bodyChars ++ '<' :: "/rpc-repl".toList) :=
    (htag.append (tagged_body hdata)).append (.of_count (by decide))
  have hparts : (r.render attributes).toList ++ markText.dropLast =
      ('<' :: ("rpc-reply".toList ++ Xml.attributeChars "xmlns" baseNamespace ++
        (attributes.flatMap fun a => Xml.attributeChars a.name a.value) ++ ['>']) ++
        r.bodyChars ++ '<' :: "/rpc-repl".toList) ++ 'y' :: ">]]>]]".toList := by
    have hstart : "<rpc-reply".toList = '<' :: "rpc-reply".toList := by decide
    have hfinish : "</rpc-reply>".toList ++ markText.dropLast =
        '<' :: ("/rpc-repl".toList ++ 'y' :: ">]]>]]".toList) := by decide
    unfold Reply.render
    rw [String.toList_ofList, hstart]
    simp only [hfinish, List.append_assoc, List.cons_append, List.nil_append]
  rw [hparts]
  exact hbegun.unmarked.append_cons (by decide) (by decide)

/-- A reply in a marked frame is read as just that message, with all that it quotes, and what
stands behind its mark is left. -/
theorem Reply.framed_read_back (attributes : List Xml.Attribute) (r : Reply) (limit : Nat)
    (rest : Incoming) (hnames : ∀ a ∈ attributes, '>' ∉ a.name.toList)
    (hdata : ∀ content, r = .data content → Unmarked content.toList)
    (hlimit : (Bytes.ofString (r.render attributes)).length + 3 ≤ limit) :
    endOfMessage.read limit
        (.ofBytes (encode .endOfMessage (Bytes.ofString (r.render attributes))) rest) =
      (.message (Bytes.ofString (r.render attributes)), rest) :=
  read_text rest (unmarked_render hnames hdata) hlimit

/-- What a client may put into a request to have it quoted, and an error that quotes more. -/
def markedAttributes : List Xml.Attribute := [⟨"message-id", "]]>]]>"⟩, ⟨"note", "]]>"⟩]

/-- An error that quotes the mark in its message and in a detail. -/
def markedReply : Reply :=
  .errors [(Error.ofTag .invalidValue).saying "no stream ]]>]]> here" |>.about
    (.badElement "]]>]]>")]

/-- It is read back even where no longer message could be. -/
theorem marked_reply_read_back :
    endOfMessage.read ((Bytes.ofString (markedReply.render markedAttributes)).length + 3)
        (.ofBytes (encode .endOfMessage (Bytes.ofString (markedReply.render markedAttributes)))
          .silent) =
      (.message (Bytes.ofString (markedReply.render markedAttributes)), .silent) :=
  Reply.framed_read_back markedAttributes markedReply _ .silent (by decide)
    (by rintro content ⟨⟩) (Nat.le_refl _)

end Netconf.Rpc
