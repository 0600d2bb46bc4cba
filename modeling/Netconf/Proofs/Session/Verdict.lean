import Netconf.Session.Framed

/-! What a message is taken for: a request that the agent sees, a request that the session answers
by itself since it lacks its operation or its identifier, or nothing that is answered. -/
namespace Netconf

def Received.request? : Received → Option Rpc.Request
  | request r => some r
  | _ => none

namespace FramedSession

/-- A message with the root element of a request, whether it has an identifier and its children. -/
def IsRooted (m : Bytes) (root : Xml.Element) (identified : Bool) : Prop :=
  Xml.Document.parse m = .ok root ∧ root.name = "rpc" ∧
    (root.attribute? "message-id").isSome = identified

/-- A message that is a request: it has an identifier, and its first child is its operation. -/
def IsRequest (m : Bytes) (r : Rpc.Request) : Prop :=
  ∃ root content rest, IsRooted m root true ∧ root.children = content :: rest ∧
    r = .ofElement root.attributes (content.inherit root.attributes)

/-- A request with an identifier but no operation. -/
def LacksOperation (m : Bytes) (attributes : List Xml.Attribute) : Prop :=
  ∃ root, IsRooted m root true ∧ root.children = [] ∧ attributes = root.attributes

/-- A request with an operation but no identifier. -/
def LacksIdentifier (m : Bytes) (attributes : List Xml.Attribute) : Prop :=
  ∃ root, IsRooted m root false ∧ root.children ≠ [] ∧ attributes = root.attributes

/-- Any other message. -/
def IsOther (m : Bytes) : Prop :=
  (∀ r, ¬ IsRequest m r) ∧ ∀ attributes, ¬ LacksOperation m attributes ∧
    ¬ LacksIdentifier m attributes

/-- The verdict on a message. -/
inductive Judged (m : Bytes) : Received × Option (List Xml.Attribute × Rpc.Error) → Prop
  | request {r : Rpc.Request} (h : IsRequest m r) : Judged m (.request r, none)
  | noOperation {attributes : List Xml.Attribute} (h : LacksOperation m attributes) :
      Judged m (.unknown, some (attributes, noOperation))
  | noIdentifier {attributes : List Xml.Attribute} (h : LacksIdentifier m attributes) :
      Judged m (.unknown, some (attributes, noMessageId))
  | other (h : IsOther m) : Judged m (.unknown, none)

theorem isOther_of_parse_error {m : Bytes} {e : Xml.Malformed}
    (h : Xml.Document.parse m = .error e) : IsOther m := by
  have hroot : ∀ root identified, ¬ IsRooted m root identified := by
    intro root identified hr
    rw [hr.1] at h
    cases h
  refine ⟨?_, fun attributes => ⟨?_, ?_⟩⟩
  · rintro r ⟨root, _, _, hr, -⟩
    exact hroot _ _ hr
  · rintro ⟨root, hr, -⟩
    exact hroot _ _ hr
  · rintro ⟨root, hr, -⟩
    exact hroot _ _ hr

/-- A message with another root, and one that lacks both its operation and its identifier. -/
theorem isOther_of_parse {m : Bytes} {root : Xml.Element} (h : Xml.Document.parse m = .ok root)
    (hroot : root.name = "rpc" →
      (root.attribute? "message-id").isSome = false ∧ root.children = []) : IsOther m := by
  have heq : ∀ {root' identified}, IsRooted m root' identified → root' = root ∧
      (root.attribute? "message-id").isSome = identified ∧ root.children = [] ∧
      identified = false := by
    intro root' identified hr
    have hr' : root' = root := Except.ok.inj (hr.1.symm.trans h)
    subst hr'
    have hlacks := hroot hr.2.1
    exact ⟨rfl, hr.2.2, hlacks.2, hr.2.2.symm.trans hlacks.1⟩
  refine ⟨?_, fun attributes => ⟨?_, ?_⟩⟩
  · rintro r ⟨root', content, rest, hr, -⟩
    exact absurd (heq hr).2.2.2 (by simp)
  · rintro ⟨root', hr, -⟩
    exact absurd (heq hr).2.2.2 (by simp)
  · rintro ⟨root', hr, hchildren, -⟩
    obtain ⟨rfl, -, hnil, -⟩ := heq hr
    exact hchildren hnil

/-- Every message is judged by its root element alone. -/
theorem judged_judge (m : Bytes) : Judged m (judge m) := by
  unfold judge
  cases hp : Xml.Document.parse m with
  | error e => exact .other (isOther_of_parse_error hp)
  | ok root =>
    dsimp only
    by_cases hname : root.name = "rpc"
    · rw [if_pos hname]
      cases hc : root.children with
      | nil =>
        cases hid : (root.attribute? "message-id").isSome with
        | false => exact .other (isOther_of_parse hp fun _ => ⟨hid, hc⟩)
        | true => exact .noOperation ⟨root, ⟨hp, hname, hid⟩, hc, rfl⟩
      | cons content rest =>
        cases hid : (root.attribute? "message-id").isSome with
        | false => exact .noIdentifier ⟨root, ⟨hp, hname, hid⟩, by simp [hc], rfl⟩
        | true => exact .request ⟨root, content, rest, ⟨hp, hname, hid⟩, hc, rfl⟩
    · rw [if_neg hname]
      exact .other (isOther_of_parse hp fun h => absurd h hname)

/-- The request that a message is, if it is one. -/
def requested? (m : Bytes) : Option Rpc.Request := (judge m).1.request?

theorem requested?_eq_some_iff {m : Bytes} {r : Rpc.Request} :
    requested? m = some r ↔ IsRequest m r := by
  constructor
  · intro h
    unfold requested? at h
    have hjudged := judged_judge m
    generalize judge m = verdict at h hjudged
    cases hjudged with
    | request hr =>
      cases h
      exact hr
    | _ => cases h
  · rintro ⟨root, content, rest, ⟨hparse, hname, hid⟩, hchildren, rfl⟩
    simp [requested?, judge, hparse, hname, hid, hchildren, Received.request?]

end FramedSession
end Netconf
