import Netconf.Proofs.Backend.Lines
import Netconf.Proofs.Json.Legible
import Netconf.Proofs.Json.Pretty
import Netconf.Proofs.Session.Capabilities

/-! Snapshots are read back from the bytes of the text that they are written as. -/
namespace Netconf

open Json

/-! Capabilities. -/

theorem Text.trimStart_of_forall {cs : List Char} (h : ∀ c ∈ cs, Text.isBlank c = false) :
    Text.trimStart cs = cs := by
  cases cs with
  | nil => rfl
  | cons c cs => rw [Text.trimStart, List.dropWhile_cons_of_neg (by simp [h c])]

/-- There is nothing to trim where there are no blanks. -/
theorem Text.trim_of_forall {s : String} (h : ∀ c ∈ s.toList, Text.isBlank c = false) :
    Text.trim s = s := by
  have hreverse : ∀ c ∈ s.toList.reverse, Text.isBlank c = false :=
    fun c hc => h c (List.mem_reverse.mp hc)
  rw [Text.trim, Text.trimStart_of_forall h, Text.trimEnd, Text.trimStart_of_forall hreverse,
    List.reverse_reverse, String.ofList_toList]

theorem Capability.ofValue?_toValue (c : Capability) : ofValue? c.toValue = some c := by
  refine ofValue?_eq_some_iff.mpr ⟨c.uri, rfl, (Text.trim_of_forall fun d hd => ?_).symm⟩
  exact Bool.eq_false_iff.mpr fun hblank =>
    Bool.eq_false_iff.mp c.blank_free (List.any_eq_true.mpr ⟨d, hd, hblank⟩)

theorem Status.ofValue?_text (s : Status) : ofValue? (.string s.text) = some s := by
  cases s <;> rfl

/-! Counters. -/

namespace Counters

theorem ofValue?_toValue (c : Counters) : ofValue? c.toValue = some c := by
  simp [ofValue?, toValue, Record.ofValue?, fieldNames, Record.required?, Record.find?]

theorem isOrdinary_toValue (c : Counters) : c.toValue.IsOrdinary 1 := by
  refine .object ?_
  simp [Value.IsOrdinary.ofNat, toNat_le_maxWord64]

end Counters

/-! Snapshots. -/

namespace Snapshot

variable {s : Snapshot}

theorem ofValue?_toValue (h : s.login.IsValid) : ofValue? s.toValue = some s := by
  have hrecord : Record.ofValue? fieldNames s.toValue =
      some { fields := s.members, positional := false } := by
    simp [Record.ofValue?, toValue, members, fieldNames]
  have hid : Record.required? { fields := s.members, positional := false } "id"
      SessionId.ofValue? = some s.id := SessionId.ofValue?_toValue s.id
  have husername : Record.optional? { fields := s.members, positional := false } "username"
      text? = some s.username := Record.optional?_of_find? rfl
  have hcapabilities : Record.required? { fields := s.members, positional := false }
      "capabilities" (list? Capability.ofValue?) = some s.capabilities :=
    list?_map fun c _ => c.ofValue?_toValue
  have hstatus : Record.required? { fields := s.members, positional := false } "status"
      Status.ofValue? = some s.status := s.status.ofValue?_text
  have hlogin : Record.required? { fields := s.members, positional := false } "login_time"
      Time.Instant.ofValue? = some s.login := by
    have hfind : Record.find? { fields := s.members, positional := false } "login_time" =
        some s.login.toValue := rfl
    rw [Record.required?, hfind, Option.bind_some, Time.Instant.ofValue?_toValue h]
  have hcounters : Record.required? { fields := s.members, positional := false } "counters"
      Counters.ofValue? = some s.counters := Counters.ofValue?_toValue s.counters
  simp [ofValue?, hrecord, hid, husername, hcapabilities, hstatus, hlogin, hcounters]

theorem isOrdinary_toValue (s : Snapshot) : s.toValue.IsOrdinary 2 := by
  have hid : s.id.toValue.IsOrdinary 1 := .ofNat s.id.value_le_maxWord64
  have hcapabilities : Value.IsOrdinary 1 (.array (s.capabilities.map Capability.toValue)) :=
    .list fun c _ => .string c.uri
  refine .object ?_
  simp [members, hid, hcapabilities, Value.IsOrdinary.ofOption, Value.IsOrdinary.string,
    Time.Instant.toValue, Counters.isOrdinary_toValue]

/-- A snapshot is read back from the bytes that are written into its file. -/
theorem read_back (h : s.login.IsValid) :
    (parseBytes? (Bytes.ofString s.toValue.pretty)).bind ofValue? = some s := by
  rw [parseBytes?_ofString, Value.parse?_pretty s.isOrdinary_toValue.kept, Option.bind_some,
    ofValue?_toValue h]

end Snapshot
end Netconf
