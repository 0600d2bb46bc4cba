import Netconf.Proofs.Text.Decimal
import Netconf.Proofs.Xml.Elaboration
import Netconf.Proofs.Xml.Rendered
import Netconf.Rpc.Reply

/-! Replies, read again. The message of a reply is the text of a tree, in which the attributes are
those of the request and each error has its elements; and that tree is read back. -/
namespace Netconf.Text

theorem exists_digit_of_mem_decimalChars {n : Nat} {c : Char} (h : c ∈ decimalChars n) :
    ∃ d, c = digitChar d := by
  induction n using decimalChars.induct with
  | case1 n hn =>
    rw [decimalChars, if_pos hn, List.mem_singleton] at h
    exact ⟨n, h⟩
  | case2 n hn ih =>
    rw [decimalChars, if_neg hn] at h
    obtain h | h := List.mem_append.mp h
    · exact ih h
    · exact ⟨n, List.mem_singleton.mp h⟩

end Netconf.Text

namespace Netconf.Xml

/-- The gist of an element: its name, its namespace, and its text without the blanks at its ends. -/
def Element.gist (e : Element) : String × Option String × String := (e.name, e.space, e.content)

theorem Element.gist_blankless (e : Element) : e.blankless.gist = e.gist := by
  rw [gist, content_blankless, blankless_eq]
  rfl

end Netconf.Xml

namespace Netconf.Rpc

open Xml

/-! The tree of a reply. -/

/-- An element of the protocol that holds text alone. -/
def textTree (name text : String) : Element := { name, space := some baseNamespace, text }

/-- The element of a message, which tells its language. -/
def messageTree (text : String) : Element :=
  { textTree "error-message" text with attributes := [⟨"xml:lang", "en"⟩] }

def Detail.tree (d : Detail) : Element := textTree d.name d.value

/-- The element of the details. -/
def infoTree (info : List Detail) : Element :=
  { textTree "error-info" "" with children := info.map Detail.tree }

def Error.tree (e : Error) : Element :=
  { textTree "rpc-error" "" with
    children := [textTree "error-type" e.layer.text, textTree "error-tag" e.tag.text,
        textTree "error-severity" e.severity.text] ++
      (e.appTag.map (textTree "error-app-tag")).toList ++
      (e.path.map (textTree "error-path")).toList ++ (e.message.map messageTree).toList ++
      if e.info.isEmpty then [] else [infoTree e.info] }

namespace Reply

/-- The elements in that of a reply without data. -/
def trees : Reply → List Element
  | .ok => [textTree "ok" ""]
  | .data _ => []
  | .errors list => list.map Error.tree

def tree (attributes : List Attribute) (r : Reply) : Element :=
  { textTree "rpc-reply" "" with attributes, children := r.trees }

end Reply

/-! Its text. Only success is written with one tag. -/

/-- The elements that have one tag. -/
def isSuccess (e : Element) : Bool := e.name == "ok"

theorem spelled_textTree {name text : String} (h : name ≠ "ok") :
    (textTree name text).spelled isSuccess (some baseNamespace) = textElement name text := by
  have hlong : isSuccess (textTree name text) = false := by simp [isSuccess, textTree, h]
  rw [textTree] at hlong ⊢
  rw [Element.spelled, hlong, Bool.and_false, if_neg Bool.false_ne_true]
  simp [Element.spelledAll, defaultNamespaceChars, textElement]

theorem spelledAll_option {short : Element → Bool} {inherited : Option String}
    {tree : String → Element} {chars : String → List Char}
    (h : ∀ x, (tree x).spelled short inherited = chars x) (o : Option String) :
    Element.spelledAll short inherited (o.map tree).toList = (o.map chars).getD [] := by
  cases o with
  | none => rfl
  | some x =>
    rw [Option.map_some, Option.toList_some, Element.spelledAll, h, Element.spelledAll,
      List.append_nil]
    rfl

theorem spelled_messageTree (text : String) :
    (messageTree text).spelled isSuccess (some baseNamespace) =
      "<error-message xml:lang=\"en\">".toList ++ textChars text ++ "</error-message>".toList := by
  have hlong : isSuccess (messageTree text) = false := rfl
  have hopen : "<error-message xml:lang=\"en\">".toList =
      '<' :: "error-message".toList ++ attributeChars "xml:lang" "en" ++ ['>'] := by decide
  have hclose : "</error-message>".toList = '<' :: '/' :: "error-message".toList ++ ['>'] := by
    decide
  rw [hopen, hclose]
  rw [messageTree, textTree] at hlong ⊢
  rw [Element.spelled, hlong, Bool.and_false, if_neg Bool.false_ne_true]
  simp [Element.spelledAll, defaultNamespaceChars]

/-- The text of a branch: its tags around the texts of its children. -/
theorem spelled_branch {name : String} {children : List Element} (h : name ≠ "ok") :
    Element.spelled isSuccess (some baseNamespace) { textTree name "" with children } =
      '<' :: name.toList ++ ['>'] ++
        Element.spelledAll isSuccess (some baseNamespace) children ++
        '<' :: '/' :: name.toList ++ ['>'] := by
  have hlong : isSuccess { textTree name "" with children } = false := by
    simp [isSuccess, textTree, h]
  rw [textTree] at hlong ⊢
  rw [Element.spelled, hlong, Bool.and_false, if_neg Bool.false_ne_true]
  simp [defaultNamespaceChars, textChars]

theorem spelled_detail (d : Detail) :
    d.tree.spelled isSuccess (some baseNamespace) = d.chars := by
  refine spelled_textTree ?_
  cases d with
  | badElement name | badAttribute name | badNamespace name => simp [Detail.name]
  | sessionId id => simp [Detail.name]

theorem spelled_info (info : List Detail) :
    (infoTree info).spelled isSuccess (some baseNamespace) =
      "<error-info>".toList ++ info.flatMap Detail.chars ++ "</error-info>".toList := by
  rw [infoTree, spelled_branch (by decide), Element.spelledAll_map spelled_detail,
    List.append_assoc]
  rfl

theorem spelled_error (e : Error) : e.tree.spelled isSuccess (some baseNamespace) = e.chars := by
  have hinfo : Element.spelledAll isSuccess (some baseNamespace)
        (if e.info.isEmpty then [] else [infoTree e.info]) =
      if e.info.isEmpty then []
      else "<error-info>".toList ++ e.info.flatMap Detail.chars ++ "</error-info>".toList := by
    split
    · rfl
    · rw [Element.spelledAll, spelled_info, Element.spelledAll, List.append_nil]
  have hfirst : Element.spelledAll isSuccess (some baseNamespace)
        [textTree "error-type" e.layer.text, textTree "error-tag" e.tag.text,
          textTree "error-severity" e.severity.text] =
      textElement "error-type" e.layer.text ++ textElement "error-tag" e.tag.text ++
        textElement "error-severity" e.severity.text := by
    simp only [Element.spelledAll]
    rw [spelled_textTree (by decide), spelled_textTree (by decide), spelled_textTree (by decide),
      List.append_nil, List.append_assoc]
  rw [Error.tree, spelled_branch (by decide), Element.spelledAll_append, Element.spelledAll_append,
    Element.spelledAll_append, Element.spelledAll_append, hfirst, hinfo,
    spelledAll_option (fun x => spelled_textTree (by decide)),
    spelledAll_option (fun x => spelled_textTree (by decide)),
    spelledAll_option spelled_messageTree]
  unfold Error.chars
  simp only [List.append_assoc]
  rfl

theorem Reply.spelled_tree {r : Reply} (h : ∀ content, r ≠ .data content)
    (attributes : List Attribute) :
    String.ofList ((r.tree attributes).spelled isSuccess none) = r.render attributes := by
  have htrees : Element.spelledAll isSuccess (some baseNamespace) r.trees = r.bodyChars := by
    cases r with
    | ok => decide
    | data content => exact absurd rfl (h content)
    | errors list => exact Element.spelledAll_map spelled_error list
  have hstart : "<rpc-reply".toList = '<' :: "rpc-reply".toList := by decide
  have hfinish : "</rpc-reply>".toList = '<' :: '/' :: "rpc-reply".toList ++ ['>'] := by decide
  have hlong : isSuccess (r.tree attributes) = false := rfl
  unfold Reply.render
  rw [hstart, hfinish, ← htrees]
  rw [Reply.tree, textTree] at hlong ⊢
  rw [Element.spelled, hlong, Bool.and_false, if_neg Bool.false_ne_true]
  simp [defaultNamespaceChars, textChars]

/-! The tree can be read. -/

/-- Characters of XML 1.0. -/
def IsLegal (text : String) : Prop := ∀ c ∈ text.toList, Version.v10.isChar c = true

instance (text : String) : Decidable (IsLegal text) :=
  inferInstanceAs (Decidable (∀ c ∈ text.toList, Version.v10.isChar c = true))

/-- What an error quotes in a detail. -/
def Detail.quoted : Detail → List String
  | .badElement name | .badAttribute name | .badNamespace name => [name]
  | .sessionId _ => []

/-- The texts that an error quotes. -/
def Error.quoted (e : Error) : List String :=
  e.appTag.toList ++ e.path.toList ++ e.message.toList ++ e.info.flatMap Detail.quoted

theorem isLegal_decimal (n : Nat) : IsLegal (Text.decimal n) := by
  intro c hc
  rw [Text.decimal, String.toList_ofList] at hc
  obtain ⟨d, rfl⟩ := Text.exists_digit_of_mem_decimalChars hc
  have hdigit := Text.digitChar_toNat d
  simp only [Version.isChar, inRanges, List.any_cons, hdigit, Bool.or_eq_true, Bool.and_eq_true,
    decide_eq_true_eq]
  omega

theorem Detail.isLegal_value {d : Detail} (h : ∀ text ∈ d.quoted, IsLegal text) :
    IsLegal d.value := by
  cases d with
  | badElement name | badAttribute name | badNamespace name => exact h name (by simp [quoted])
  | sessionId id => exact isLegal_decimal id

/-- An element with a proper name in the namespace of the protocol, and no attribute but a
language. -/
theorem renders_of_name {above : List Attribute} {e : Element}
    (hname : QName.Written { base := e.name })
    (hspace : e.space = some baseNamespace)
    (hattributes : e.attributes = [] ∨ e.attributes = [⟨"xml:lang", "en"⟩])
    (htext : IsLegal e.text) : e.Renders above := by
  obtain ⟨hnonempty, hlocal, hfits⟩ := hname.base
  have hlegible : e.Legible := {
    nameStart := by
      intro c hc
      obtain ⟨⟨d, rest, htext, hd⟩, -⟩ := QName.ofChars?_eq_some_iff.mp hname.spelled
      have htext : e.name.toList = d :: rest := htext
      rw [htext] at hc
      exact Option.some.inj hc ▸ hd
    space := by
      rw [hspace]
      decide
    values := by
      obtain h | h := hattributes <;> rw [h] <;> decide
    text := htext }
  obtain h | h := hattributes
  · exact ⟨⟨[], [], {
      nameNonempty := hnonempty
      nameLocal := hlocal
      nameFits := hfits
      space := by
        rw [hspace]
        decide
      attributes := h
      sorted := .nil
      declares := by simp
      others := by simp
      bound := by simp
      distinct := .nil
      few := by decide }⟩, hlegible⟩
  · exact ⟨⟨[], [(⟨some "xml", "lang"⟩, "en")], {
      nameNonempty := hnonempty
      nameLocal := hlocal
      nameFits := hfits
      space := by
        rw [hspace]
        decide
      attributes := h
      sorted := .nil
      declares := by simp
      others := by decide
      bound := by simp
      distinct := by simp
      few := by decide }⟩, hlegible⟩

section

variable {above : List Attribute}

theorem everywhere_leaf {e : Element} (h : e.Renders above) (hleaf : e.children = []) :
    e.Everywhere Element.Renders above :=
  Element.everywhere_iff.mpr ⟨h, by simp [hleaf]⟩

theorem everywhere_textTree {name text : String} (hname : QName.Written { base := name })
    (htext : IsLegal text) : (textTree name text).Everywhere Element.Renders above :=
  everywhere_leaf (renders_of_name hname rfl (.inl rfl) htext) rfl

theorem everywhere_branch {name : String} {children : List Element}
    (hname : QName.Written { base := name })
    (h : ∀ c ∈ children, c.Everywhere Element.Renders above) :
    Element.Everywhere Element.Renders above { textTree name "" with children } :=
  Element.everywhere_iff.mpr
    ⟨renders_of_name hname rfl (.inl rfl) (by simp [IsLegal, textTree]), h⟩

theorem everywhere_detail {d : Detail} (h : ∀ text ∈ d.quoted, IsLegal text) :
    d.tree.Everywhere Element.Renders above := by
  have hnames : ∀ name ∈ ["bad-element", "bad-attribute", "bad-namespace", "session-id"],
      QName.Written { base := name } := by decide
  have hname : d.name ∈ ["bad-element", "bad-attribute", "bad-namespace", "session-id"] := by
    cases d <;> simp [Detail.name]
  exact everywhere_textTree (hnames d.name hname) (Detail.isLegal_value h)

theorem everywhere_error {e : Error} (h : ∀ text ∈ e.quoted, IsLegal text) :
    e.tree.Everywhere Element.Renders above := by
  have hword : ∀ {name : String} {o : Option String}, QName.Written { base := name } →
      (∀ text ∈ o.toList, IsLegal text) →
      ∀ c ∈ (o.map (textTree name)).toList, c.Everywhere Element.Renders above := by
    intro name o hname ho c hc
    cases o with
    | none => cases hc
    | some text =>
      obtain rfl := List.mem_singleton.mp hc
      exact everywhere_textTree hname (ho text (by simp))
  refine everywhere_branch (by decide) fun c hc => ?_
  simp only [List.mem_append] at hc
  obtain (((hc | hc) | hc) | hc) | hc := hc
  · simp only [List.mem_cons, List.not_mem_nil, or_false] at hc
    obtain rfl | rfl | rfl := hc
    · refine everywhere_textTree (by decide) ?_
      cases e.layer <;> decide
    · refine everywhere_textTree (by decide) ?_
      cases e.tag <;> decide
    · refine everywhere_textTree (by decide) ?_
      cases e.severity <;> decide
  · exact hword (by decide) (fun text ht => h text (by simp_all [Error.quoted])) c hc
  · exact hword (by decide) (fun text ht => h text (by simp_all [Error.quoted])) c hc
  · cases hmessage : e.message with
    | none =>
      rw [hmessage] at hc
      cases hc
    | some m =>
      rw [hmessage] at hc
      obtain rfl := List.mem_singleton.mp hc
      have hm : IsLegal m := h m (by simp [Error.quoted, hmessage])
      exact everywhere_leaf (renders_of_name (by decide : QName.Written { base := "error-message" })
        rfl (.inr rfl) hm) rfl
  · split at hc
    · cases hc
    · obtain rfl := List.mem_singleton.mp hc
      refine everywhere_branch (by decide) fun c hc => ?_
      obtain ⟨d, hd, rfl⟩ := List.mem_map.mp hc
      exact everywhere_detail fun text ht => h text (by
        simp only [Error.quoted, List.mem_append, List.mem_flatMap]
        exact .inr ⟨d, hd, ht⟩)

end

theorem Reply.everywhere_tree {request : Element} {r : Reply} (hsound : request.IsSound [])
    (hvalues : ∀ a ∈ request.attributes, IsLegal a.value)
    (htexts : ∀ err ∈ r.errorList, ∀ text ∈ err.quoted, IsLegal text) :
    (r.tree request.attributes).Everywhere Element.Renders [] := by
  have hname : QName.Written { base := "rpc-reply" } := by decide
  have hspace : ∀ uri ∈ some baseNamespace,
      uri ∉ ["xml", "xmlns", Scope.xmlUri, Scope.xmlnsUri] ∧
        ∀ c ∈ uri.toList, Version.v10.isChar c = true := by decide
  obtain ⟨declared, plain, h⟩ := hsound
  refine Element.everywhere_iff.mpr ⟨⟨⟨declared, plain, ?_⟩, ?_⟩, fun c hc => ?_⟩
  · exact {
      nameNonempty := hname.base.1
      nameLocal := hname.base.2.1
      nameFits := hname.base.2.2
      space := by simp [Reply.tree, textTree, baseNamespace]
      attributes := h.attributes
      sorted := h.sorted
      declares := h.declares
      others := h.others
      bound := h.bound
      distinct := h.distinct
      few := h.few }
  · exact {
      nameStart := (by decide : ∀ c ∈ "rpc-reply".toList.head?, isNameStart c = true)
      space := hspace
      values := hvalues
      text := by simp [Reply.tree, textTree] }
  · cases r with
    | ok =>
      obtain rfl := List.mem_singleton.mp hc
      exact everywhere_textTree (by decide) (by simp [IsLegal])
    | data content => cases hc
    | errors list =>
      obtain ⟨err, herr, rfl⟩ := List.mem_map.mp hc
      exact everywhere_error (htexts err herr)

/-! What the tree says. -/

/-- The gist of an element of the protocol with a text in it. -/
def fieldGist (name text : String) : String × Option String × String :=
  (name, some baseNamespace, Text.trim text)

/-- The elements of an error with their texts, in their order. That of the details has no text. -/
def Error.fields (e : Error) : List (String × String) :=
  [("error-type", e.layer.text), ("error-tag", e.tag.text), ("error-severity", e.severity.text)] ++
    (e.appTag.map (("error-app-tag", ·))).toList ++ (e.path.map (("error-path", ·))).toList ++
    (e.message.map (("error-message", ·))).toList ++
    if e.info.isEmpty then [] else [("error-info", "")]

/-- An element tells of an error: it has one child for each thing that is known of the error, and
none besides, and the details are the children of the one for them. -/
structure Error.IsToldBy (err : Error) (e : Element) : Prop where
  name : e.name = "rpc-error"
  space : e.space = some baseNamespace
  fields : e.children.map Element.gist = err.fields.map fun f => fieldGist f.1 f.2
  details : ∀ c ∈ e.children, c.children.map Element.gist =
    if c.name = "error-info" then err.info.map fun d => fieldGist d.name d.value else []

/-- The elements inside that of a reply without data tell what the reply does. -/
def Reply.IsToldBy : Reply → List Element → Prop
  | .ok, es => ∃ e, es = [e] ∧ e.gist = fieldGist "ok" "" ∧ e.children = []
  | .data _, _ => False
  | .errors list, es => List.Forall₂ Error.IsToldBy list es

theorem map_gist_blankless (es : List Element) :
    (es.map Element.blankless).map Element.gist = es.map Element.gist := by
  rw [List.map_map]
  exact List.map_congr_left fun e _ => e.gist_blankless

theorem Error.isToldBy_tree (err : Error) : err.IsToldBy err.tree.blankless := by
  have hchildren : err.tree.blankless.children = err.tree.children.map Element.blankless := by
    rw [Element.blankless_eq]
  have hoption : ∀ (name : String) (tree : String → Element) (o : Option String),
      (∀ text, (tree text).gist = fieldGist name text) →
      ((o.map tree).toList).map Element.gist =
        (o.map ((name, ·))).toList.map fun f => fieldGist f.1 f.2 := by
    intro name tree o h
    cases o with
    | none => rfl
    | some text => simp [h]
  refine { name := ?_, space := ?_, fields := ?_, details := fun c hc => ?_ }
  · rw [Element.blankless_eq]
    rfl
  · rw [Element.blankless_eq]
    rfl
  · have hinfo : (if err.info.isEmpty then [] else [infoTree err.info]).map Element.gist =
        (if err.info.isEmpty then [] else [("error-info", "")]).map
          fun f => fieldGist f.1 f.2 := by
      split <;> rfl
    rw [hchildren, map_gist_blankless]
    simp only [tree, fields, List.map_append, hinfo]
    rw [hoption "error-app-tag" _ _ fun _ => rfl, hoption "error-path" _ _ fun _ => rfl,
      hoption "error-message" messageTree _ fun _ => rfl]
    rfl
  · rw [hchildren] at hc
    obtain ⟨c, hmem, rfl⟩ := List.mem_map.mp hc
    have hinner : (c.blankless.children).map Element.gist = c.children.map Element.gist := by
      rw [Element.blankless_eq, map_gist_blankless]
    have hname : c.blankless.name = c.name := by
      rw [Element.blankless_eq]
    rw [hinner, hname]
    -- Only the element of the details has children.
    have hleaf : c.children = [] ∧ c.name ≠ "error-info" ∨ c = infoTree err.info := by
      simp only [tree, List.mem_append, List.mem_cons, List.not_mem_nil, or_false,
        Option.mem_toList, Option.map_eq_some_iff] at hmem
      obtain ((((rfl | rfl | rfl) | ⟨_, -, rfl⟩) | ⟨_, -, rfl⟩) | ⟨_, -, rfl⟩) | hc := hmem
      · exact .inl ⟨rfl, by simp [textTree]⟩
      · exact .inl ⟨rfl, by simp [textTree]⟩
      · exact .inl ⟨rfl, by simp [textTree]⟩
      · exact .inl ⟨rfl, by simp [textTree]⟩
      · exact .inl ⟨rfl, by simp [textTree]⟩
      · exact .inl ⟨rfl, by simp [textTree, messageTree]⟩
      · split at hc
        · cases hc
        · exact .inr (List.mem_singleton.mp hc)
    obtain ⟨hnone, hne⟩ | rfl := hleaf
    · rw [hnone, if_neg hne]
      rfl
    · have hinfo : (infoTree err.info).name = "error-info" := rfl
      rw [if_pos hinfo, infoTree, List.map_map]
      rfl

theorem Reply.isToldBy_trees {r : Reply} (h : ∀ content, r ≠ .data content) :
    r.IsToldBy (r.trees.map Element.blankless) := by
  cases r with
  | ok => exact ⟨_, rfl, rfl, rfl⟩
  | data content => exact absurd rfl (h content)
  | errors list =>
    rw [trees, List.map_map]
    exact List.forall₂_map_right_iff.mpr (List.forall₂_same.mpr fun e _ => e.isToldBy_tree)

/-- The reply to a request that was read from a document is read, with the attributes of the
request, and tells what it should. -/
theorem Reply.told_of_parse {bytes : Bytes} {request : Element} {r : Reply}
    (h : Document.parse bytes = .ok request) (hdata : ∀ content, r ≠ .data content)
    (hvalues : ∀ a ∈ request.attributes, IsLegal a.value)
    (htexts : ∀ err ∈ r.errorList, ∀ text ∈ err.quoted, IsLegal text) :
    ∃ e, Document.parse (Bytes.ofString (r.render request.attributes)) = .ok e ∧
      e.name = "rpc-reply" ∧ e.space = some baseNamespace ∧ e.attributes = request.attributes ∧
      r.IsToldBy e.children := by
  have hsound := (Element.everywhere_iff.mp (Document.sound_of_parse h)).1
  have hread := Document.parse_spelled isSuccess (everywhere_tree hsound hvalues htexts)
  rw [spelled_tree hdata] at hread
  refine ⟨_, hread, ?_, ?_, ?_, ?_⟩
  · rw [Element.blankless_eq]
    rfl
  · rw [Element.blankless_eq]
    rfl
  · rw [Element.blankless_eq]
    rfl
  · rw [Element.blankless_eq]
    exact isToldBy_trees hdata

/-- A request with a prefix of its own and markup in an attribute. -/
def asking : String :=
  "<rpc xmlns=\"urn:ietf:params:xml:ns:netconf:base:1.0\" p:k=\"a &lt; 'b'&#xA;\" " ++
    "xmlns:p=\"urn:x\" message-id=\"]]>\"/>"

def asked : Element :=
  { name := "rpc", space := some baseNamespace,
    attributes := [⟨"xmlns:p", "urn:x"⟩, ⟨"p:k", "a < 'b'\n"⟩, ⟨"message-id", "]]>"⟩] }

theorem parse_asking : Document.parse (Bytes.ofString asking) = .ok asked :=
  Document.parse_of_runWithin 150 asking (by decide +kernel) (by decide +kernel)
    (by decide +kernel)

/-- Errors that quote markup, blanks alone and nothing at all. -/
def refusal : Reply :=
  .errors [{ (Error.ofTag .badElement).about (.badElement " <a> ") with path := some "" },
    { (Error.ofTag .inUse).about (.sessionId 7) with appTag := some " \n", message := none }]

theorem refusal_told : Document.parse (Bytes.ofString asking) = .ok asked ∧
    ∃ e, Document.parse (Bytes.ofString (refusal.render asked.attributes)) = .ok e ∧
      e.name = "rpc-reply" ∧ e.space = some baseNamespace ∧ e.attributes = asked.attributes ∧
      refusal.IsToldBy e.children :=
  ⟨parse_asking, Reply.told_of_parse parse_asking (by rintro content ⟨⟩) (by decide) (by decide)⟩

end Netconf.Rpc
