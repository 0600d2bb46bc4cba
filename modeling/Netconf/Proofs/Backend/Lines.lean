import Netconf.Backend.Message
import Netconf.EventForm
import Netconf.Proofs.Json.Roundtrip
import Netconf.Proofs.Time.Timestamp

/-! Lines of JSON. What an agent and its management server say to each other, and the events of a
source, are each written as one line, which is read back as what was written. -/
namespace Netconf

open Json

namespace Json

/-- A value that is written to be read again: its numbers are kept, and it can be taken over whole
with so many arrays and objects inside each other. -/
structure Value.IsOrdinary (depth : Nat) (v : Value) : Prop where
  kept : v.IsKept
  readable : v.isReadable = true
  depth_le : v.depth ≤ depth

namespace Value.IsOrdinary

variable {depth : Nat}

theorem null : IsOrdinary depth .null := ⟨trivial, rfl, Nat.zero_le _⟩

theorem string (s : String) : IsOrdinary depth (.string s) := ⟨trivial, rfl, Nat.zero_le _⟩

theorem ofOption (s : Option String) : IsOrdinary depth (.ofOption .string s) := by
  cases s with
  | none => exact .null
  | some s => exact .string s

theorem ofNat {n : Nat} (h : n ≤ Text.maxWord64) : IsOrdinary depth (.ofNat n) := by
  refine ⟨⟨h, fun _ => rfl⟩, ?_, Nat.zero_le _⟩
  simp [Value.ofNat, isReadable, Number.inRange, Number.isWhole, h]

theorem array {items : List Value} (h : ∀ v ∈ items, IsOrdinary depth v) :
    IsOrdinary (depth + 1) (.array items) := by
  have hitems : ItemsKept items ∧ itemsReadable items = true ∧ depthOfItems items ≤ depth := by
    induction items with
    | nil => exact ⟨trivial, rfl, Nat.zero_le _⟩
    | cons v items ih =>
      obtain ⟨hkept, hreadable, hdepth⟩ := h v (by simp)
      obtain ⟨hkepts, hreadables, hdepths⟩ := ih fun w hw => h w (by simp [hw])
      exact ⟨⟨hkept, hkepts⟩, by simp [itemsReadable, hreadable, hreadables],
        Nat.max_le.mpr ⟨hdepth, hdepths⟩⟩
  exact ⟨hitems.1, hitems.2.1, Nat.succ_le_succ hitems.2.2⟩

theorem list {α : Type} {write : α → Value} {list : List α}
    (h : ∀ a ∈ list, IsOrdinary depth (write a)) :
    IsOrdinary (depth + 1) (.array (list.map write)) := by
  refine array fun v hv => ?_
  obtain ⟨a, ha, rfl⟩ := List.mem_map.mp hv
  exact h a ha

theorem object {members : List (String × Value)} (h : ∀ m ∈ members, IsOrdinary depth m.2) :
    IsOrdinary (depth + 1) (.object members) := by
  have hmembers : MembersKept members ∧ membersReadable members = true ∧
      depthOfMembers members ≤ depth := by
    induction members with
    | nil => exact ⟨trivial, rfl, Nat.zero_le _⟩
    | cons m members ih =>
      obtain ⟨k, v⟩ := m
      obtain ⟨hkept, hreadable, hdepth⟩ := h (k, v) (by simp)
      obtain ⟨hkepts, hreadables, hdepths⟩ := ih fun w hw => h w (by simp [hw])
      exact ⟨⟨hkept, hkepts⟩, by simp [membersReadable, hreadable, hreadables],
        Nat.max_le.mpr ⟨hdepth, hdepths⟩⟩
  exact ⟨hmembers.1, hmembers.2.1, Nat.succ_le_succ hmembers.2.2⟩

/-- Such a value can be taken over whole if it is not too deep. -/
theorem isModest {v : Value} (h : IsOrdinary depth v) (hdepth : depth ≤ maxDepth) :
    v.isModest = true := by
  have hle := Nat.le_trans h.depth_le hdepth
  simp [Value.isModest, h.readable, hle]

end Value.IsOrdinary

/-- A text that stands for something: it has no line end in it, and with any white space behind it,
such as a line end, it is read back. -/
structure IsLineOf {α : Type} (read : String → Option α) (a : α) (line : String) : Prop where
  unbroken : '\n' ∉ line.toList
  read_back (blank : String) (h : ∀ c ∈ blank.toList, isSpace c = true) :
    read (line ++ blank) = some a

theorem Value.IsOrdinary.isLineOf {α : Type} {read : Value → Option α} {a : α} {depth : Nat}
    {v : Value} (h : v.IsOrdinary depth) (hread : read v = some a) :
    IsLineOf (fun s => (parse? s).bind read) a v.render where
  unbroken := by
    rw [Value.render, String.toList_ofList]
    exact (isLine_chars v).not_mem
  read_back blank hblank := by
    rw [Value.parse?_render h.kept hblank]
    exact hread

/-- A tag that comes first is told from the other members. -/
theorem tagged?_object {tag : String} (t : String) {members : List (String × Value)} {depth : Nat}
    (h : ∀ m ∈ members, m.1 ≠ tag ∧ m.2.IsOrdinary depth) (hdepth : depth < Value.maxDepth) :
    tagged? tag (.object ((tag, .string t) :: members)) = some (t, .object members) := by
  have hmodest : (Value.object ((tag, .string t) :: members)).isModest = true := by
    refine Value.IsOrdinary.isModest (.object (List.forall_mem_cons.mpr ⟨.string t, ?_⟩)) hdepth
    exact fun m hm => (h m hm).2
  have hothers : members.filter (·.1 == tag) = [] := by
    rw [List.filter_eq_nil_iff]
    exact fun m hm => by simpa using (h m hm).1
  have hrest : members.filter (·.1 != tag) = members := by
    rw [List.filter_eq_self]
    exact fun m hm => by simpa using (h m hm).1
  simp [tagged?, hmodest, hothers, hrest]

theorem list?_map {α : Type} {read : Value → Option α} {write : α → Value} {list : List α}
    (h : ∀ a ∈ list, read (write a) = some a) :
    list? read (.array (list.map write)) = some list := by
  change (list.map write).mapM read = some list
  induction list with
  | nil => rfl
  | cons a list ih =>
    have hlist := ih fun b hb => h b (by simp [hb])
    rw [List.map_cons, List.mapM_cons, h a (by simp), hlist]
    rfl

@[simp] theorem count?_ofNat {n most : Nat} (h : n ≤ most) (hword : n ≤ Text.maxWord64) :
    count? most (.ofNat n) = some n := by
  simp [count?, Value.ofNat, Number.natural?, Number.isWhole, hword, Option.filter, h]

theorem toNat_le_maxWord64 (w : UInt64) : w.toNat ≤ Text.maxWord64 := Nat.le_of_lt_succ w.toNat_lt

@[simp] theorem word?_ofNat (w : UInt64) : word? (.ofNat w.toNat) = some w := by
  have h := toNat_le_maxWord64 w
  rw [word?, count?_ofNat h h, Option.map_some, UInt64.ofNat_toNat]

namespace Record

variable {r : Record} {name : String} {s : Option String}

theorem optional?_of_find? (h : r.find? name = some (.ofOption .string s)) :
    r.optional? name text? = some s := by
  unfold optional?
  rw [h]
  cases s <;> rfl

theorem nullable?_of_find? (h : r.find? name = some (.ofOption .string s)) :
    r.nullable? name text? = some s := by
  unfold nullable?
  rw [h]
  cases s <;> rfl

end Record
end Json

/-! What the management server is asked. -/

theorem SessionId.value_le_maxWord64 (id : SessionId) : id.value ≤ Text.maxWord64 :=
  Nat.le_trans id.value_le (by decide)

@[simp] theorem SessionId.ofValue?_toValue (id : SessionId) : ofValue? id.toValue = some id := by
  simp [ofValue?, toValue, id.value_le, id.value_le_maxWord64]

namespace Backend

namespace SessionInfo

theorem ofValue?_members (i : SessionInfo) : ofValue? (.object i.members) = some i := by
  have hrecord : Record.ofValue? fieldNames (.object i.members) =
      some { fields := i.members, positional := false } := by
    simp [Record.ofValue?, members, fieldNames]
  have hid : Record.required? { fields := i.members, positional := false } "session_id"
      SessionId.ofValue? = some i.session := SessionId.ofValue?_toValue i.session
  have husername : Record.optional? { fields := i.members, positional := false } "username"
      text? = some i.username := Record.optional?_of_find? rfl
  have huris : Record.required? { fields := i.members, positional := false } "capabilities"
      (list? text?) = some i.capabilities := list?_map fun _ _ => rfl
  simp [ofValue?, hrecord, hid, husername, huris]

theorem isOrdinary_members (i : SessionInfo) :
    ∀ m ∈ i.members, m.1 ≠ "request" ∧ m.2.IsOrdinary 1 := by
  have huris : Value.IsOrdinary 1 (.array (i.capabilities.map .string)) :=
    .list fun uri _ => .string uri
  have hid : i.session.toValue.IsOrdinary 1 := .ofNat i.session.value_le_maxWord64
  simp [members, hid, huris, Value.IsOrdinary.ofOption]

end SessionInfo

namespace Request

theorem isOrdinary_members (r : Request) :
    ∀ m ∈ r.members, m.1 ≠ "request" ∧ m.2.IsOrdinary 1 := by
  have hid : ∀ id : SessionId, id.toValue.IsOrdinary 1 := fun id => .ofNat id.value_le_maxWord64
  cases r with
  | sessionInfo info => exact info.isOrdinary_members
  | operation session messageId markup =>
    cases messageId <;> simp [members, hid, Value.IsOrdinary.string]
  | _ => simp [members, hid, Value.IsOrdinary.string]

@[simp] theorem ofValue?_toValue (r : Request) : ofValue? r.toValue = some r := by
  have htagged := tagged?_object r.tag r.isOrdinary_members (by decide)
  rw [toValue, ofValue?, htagged]
  cases r with
  | getCapabilities => rfl
  | sessionInfo info => simp [tag, members, SessionInfo.ofValue?_members]
  | operation session messageId markup =>
    cases messageId <;>
      simp [tag, members, Record.ofValue?, Record.required?, Record.nullable?, Record.find?, text?]
  | closeSession session => simp [tag, members, Record.ofValue?, Record.required?, Record.find?]
  | killSession session target =>
    simp [tag, members, Record.ofValue?, Record.required?, Record.find?, text?]

theorem isOrdinary_toValue (r : Request) : r.toValue.IsOrdinary 2 := by
  rw [toValue]
  exact .object (List.forall_mem_cons.mpr ⟨.string _, fun m hm => (r.isOrdinary_members m hm).2⟩)

end Request
end Backend

/-! What the management server answers. -/

namespace Rpc

@[simp] theorem ErrorTag.ofValue?_text (mode : Mode) (t : ErrorTag) :
    ofValue? mode (.string t.text) = some t := by
  cases t <;> rfl

@[simp] theorem Layer.ofValue?_text (mode : Mode) (l : Layer) :
    ofValue? mode (.string l.text) = some l := by
  cases l <;> rfl

@[simp] theorem Severity.ofValue?_text (mode : Mode) (s : Severity) :
    ofValue? mode (.string s.text) = some s := by
  cases s <;> rfl

/-- An identifier of a session that is named in a detail is a number of 32 bits. -/
def Detail.IsBounded : Detail → Prop
  | sessionId id => id ≤ Text.maxWord32
  | _ => True

namespace Detail

theorem le_maxWord64 {id : Nat} (h : (sessionId id).IsBounded) : id ≤ Text.maxWord64 :=
  Nat.le_trans h (by decide)

theorem ofValue?_toValue {d : Detail} (h : d.IsBounded) : ofValue? d.toValue = some d := by
  cases d with
  | sessionId id =>
    have hcount := count?_ofNat h (le_maxWord64 h)
    simp [ofValue?, toValue, hcount]
  | _ => rfl

theorem isOrdinary_toValue {d : Detail} (h : d.IsBounded) : d.toValue.IsOrdinary 1 := by
  cases d with
  | sessionId id => exact .object (List.forall_mem_singleton.mpr (.ofNat (le_maxWord64 h)))
  | _ => exact .object (List.forall_mem_singleton.mpr (.string _))

end Detail

namespace Error

theorem ofValue?_toValue (mode : Mode) {e : Error} (h : ∀ d ∈ e.info, d.IsBounded) :
    ofValue? mode e.toValue = some e := by
  have hrecord : Record.ofValue? fieldNames e.toValue =
      some { fields := e.members, positional := false } := by
    simp [Record.ofValue?, toValue, members, fieldNames]
  have happTag : Record.nullable? { fields := e.members, positional := false } "app_tag" text? =
      some e.appTag := Record.nullable?_of_find? rfl
  have hpath : Record.nullable? { fields := e.members, positional := false } "path" text? =
      some e.path := Record.nullable?_of_find? rfl
  have hmessage : Record.nullable? { fields := e.members, positional := false } "message" text? =
      some e.message := Record.nullable?_of_find? rfl
  have hinfo : Record.defaulted? { fields := e.members, positional := false } "info" []
      (list? Detail.ofValue?) = some e.info :=
    list?_map fun d hd => Detail.ofValue?_toValue (h d hd)
  have htag : Record.required? { fields := e.members, positional := false } "tag"
      (ErrorTag.ofValue? mode) = some e.tag := ErrorTag.ofValue?_text mode e.tag
  have hlayer : Record.required? { fields := e.members, positional := false } "type"
      (Layer.ofValue? mode) = some e.layer := Layer.ofValue?_text mode e.layer
  have hseverity : Record.defaulted? { fields := e.members, positional := false } "severity" .error
      (Severity.ofValue? mode) = some e.severity := Severity.ofValue?_text mode e.severity
  simp [ofValue?, hrecord, htag, hlayer, hseverity, happTag, hpath, hmessage, hinfo]

theorem isOrdinary_toValue {e : Error} (h : ∀ d ∈ e.info, d.IsBounded) :
    e.toValue.IsOrdinary 3 := by
  have hinfo : Value.IsOrdinary 2 (.array (e.info.map Detail.toValue)) :=
    .list fun d hd => Detail.isOrdinary_toValue (h d hd)
  refine .object ?_
  simp [members, hinfo, Value.IsOrdinary.ofOption, Value.IsOrdinary.string]

end Error
end Rpc

namespace Backend.Response

/-- The errors of a response name identifiers of 32 bits. -/
def IsBounded : Response → Prop
  | errors list => ∀ e ∈ list, ∀ d ∈ e.info, d.IsBounded
  | _ => True

theorem isOrdinary_members {r : Response} (h : r.IsBounded) :
    ∀ m ∈ r.members, m.1 ≠ "response" ∧ m.2.IsOrdinary 4 := by
  cases r with
  | capabilities uris =>
    have huris : Value.IsOrdinary 4 (.array (uris.map .string)) := .list fun uri _ => .string uri
    simp [members, huris]
  | errors list =>
    have hlist : Value.IsOrdinary 4 (.array (list.map Rpc.Error.toValue)) :=
      .list fun e he => Rpc.Error.isOrdinary_toValue (h e he)
    simp [members, hlist]
  | _ => simp [members, Value.IsOrdinary.string]

theorem ofValue?_toValue {r : Response} (h : r.IsBounded) : ofValue? r.toValue = some r := by
  have htagged := tagged?_object r.kind (isOrdinary_members h) (by decide)
  rw [toValue, ofValue?, htagged]
  cases r with
  | capabilities uris =>
    have huris : list? text? (.array (uris.map .string)) = some uris := list?_map fun _ _ => rfl
    simp [kind, members, Record.ofValue?, Record.required?, Record.find?, huris]
  | ok => rfl
  | data content => simp [kind, members, Record.ofValue?, Record.required?, Record.find?, text?]
  | errors list =>
    have hlist : list? (Rpc.Error.ofValue? .whole) (.array (list.map Rpc.Error.toValue)) =
        some list := list?_map fun e he => Rpc.Error.ofValue?_toValue .whole (h e he)
    simp [kind, members, Record.ofValue?, Record.required?, Record.find?, hlist]

theorem isOrdinary_toValue {r : Response} (h : r.IsBounded) : r.toValue.IsOrdinary 5 := by
  rw [toValue]
  exact .object (List.forall_mem_cons.mpr ⟨.string _, fun m hm => (isOrdinary_members h m hm).2⟩)

end Backend.Response

/-! Events. -/

theorem Time.Instant.ofValue?_toValue {t : Time.Instant} (h : t.IsValid) :
    ofValue? t.toValue = some t := by
  rw [ofValue?, toValue, text?, Option.bind_some, ofLenientText?_toText h]

namespace Event

theorem ofValue?_toValue {e : Event} (h : e.time.IsValid) : ofValue? e.toValue = some e := by
  have htime := Time.Instant.ofValue?_toValue h
  simp [ofValue?, toValue, Record.ofValue?, Record.required?, Record.find?, htime, text?]

theorem isOrdinary_toValue (e : Event) : e.toValue.IsOrdinary 1 :=
  .object (by simp [Time.Instant.toValue, Value.IsOrdinary.string])

end Event

/-! All of them. -/

/-- Whatever there is in it, a message to the management server, an answer of its and an event each
make up one line, which is read back. -/
theorem lines_read_back :
    (∀ r : Backend.Request,
      IsLineOf (fun s => (parse? s).bind Backend.Request.ofValue?) r r.line) ∧
    (∀ r : Backend.Response, r.IsBounded →
      IsLineOf Backend.Response.ofLine? r r.toValue.render) ∧
    ∀ e : Event, e.time.IsValid → IsLineOf Event.ofLine? e e.toValue.render :=
  ⟨fun r => r.isOrdinary_toValue.isLineOf r.ofValue?_toValue,
    fun _ h => (Backend.Response.isOrdinary_toValue h).isLineOf
      (Backend.Response.ofValue?_toValue h),
    fun e h => e.isOrdinary_toValue.isLineOf (Event.ofValue?_toValue h)⟩

/-- An answer full of characters that have to be escaped, and an event within a leap second. -/
theorem lines_read_back_awkward :
    ∃ (r : Backend.Response) (e : Event), r.IsBounded ∧ e.time.IsValid ∧
      IsLineOf Backend.Response.ofLine? r r.toValue.render ∧
      IsLineOf Event.ofLine? e e.toValue.render := by
  have hbounded : (Backend.Response.errors [
      { tag := .inUse
        layer := .protocol
        path := some "\\a\""
        message := some "\t\u0001\r\n"
        info := [.sessionId 4294967295, .badElement "\u2028"] }]).IsBounded := by
    simp [Backend.Response.IsBounded, Rpc.Detail.IsBounded, Text.maxWord32]
  have hvalid : ({ seconds := 1483228799, nanos := 1500000001 } : Time.Instant).IsValid :=
    ⟨by decide, .inr ⟨by decide, by decide⟩⟩
  exact ⟨_, { time := _, content := "\n" }, hbounded, hvalid, lines_read_back.2.1 _ hbounded,
    lines_read_back.2.2 _ hvalid⟩

end Netconf
