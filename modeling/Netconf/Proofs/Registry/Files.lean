import Netconf.Proofs.Registry
import Netconf.Proofs.Session.Snapshot

/-! Registries beside each other. What the one in memory and the one with files answer is always the
same, whatever becomes of the files. Where nobody meddles with the directory, it holds a file for
each session that is remembered and no other files of sessions, and each file is read back as the
snapshot of what was entered last. -/
namespace Netconf

open Json

/-! Directories. -/

namespace Directory

variable {d : Directory} {name other : String} {entry : DirectoryEntry}

/-- The names in a directory. -/
def names (d : Directory) : List String := (d.entries.getD []).map (·.1)

theorem exists_entries (hd : d.entries.isSome) : ∃ es, d = { entries := some es } := by
  obtain ⟨es, hes⟩ := Option.isSome_iff_exists.mp hd
  exact ⟨es, by rw [← hes]⟩

@[simp] theorem isSome_put : (d.put name entry).entries.isSome = d.entries.isSome :=
  Option.isSome_map

@[simp] theorem isSome_erase : (d.erase name).entries.isSome = d.entries.isSome :=
  Option.isSome_map

theorem names_erase : (d.erase name).names = d.names.filter (· ≠ name) := by
  cases h : d.entries with
  | none => simp [erase, names, h]
  | some es =>
    simp only [erase, names, h, Option.map_some, Option.getD_some, List.filter_map]
    rfl

theorem names_put (hd : d.entries.isSome) :
    (d.put name entry).names = name :: d.names.filter (· ≠ name) := by
  obtain ⟨es, rfl⟩ := exists_entries hd
  simp only [put, names, Option.map_some, Option.getD_some, List.map_cons, List.filter_map]
  rfl

/-- A name that is taken away is there no more, and all others stay. -/
theorem count_erase : (d.erase name).names.count other =
    if other = name then 0 else d.names.count other := by
  rw [names_erase]
  split
  · next h => exact List.count_eq_zero_of_not_mem (by simp [h])
  · next h => exact List.count_filter (by simpa using h)

/-- A name that is given a meaning is there once, and all others stay. -/
theorem count_put (hd : d.entries.isSome) : (d.put name entry).names.count other =
    if other = name then 1 else d.names.count other := by
  rw [names_put hd, ← names_erase]
  split
  · next h => rw [h, List.count_cons_self, count_erase, if_pos rfl]
  · next h => rw [List.count_cons_of_ne (Ne.symm h), count_erase, if_neg h]

theorem find?_filter_ne (es : List (String × DirectoryEntry)) :
    (es.filter (·.1 ≠ name)).find? (·.1 == other) =
      if other = name then none else es.find? (·.1 == other) := by
  split
  · next h =>
    rw [h, List.find?_eq_none]
    intro a ha
    simpa using (List.mem_filter.mp ha).2
  · next h =>
    rw [List.find?_filter]
    congr 1
    funext a
    by_cases ha : a.1 = other
    · simp [ha, h]
    · simp [ha]

theorem find?_erase :
    (d.erase name).find? other = if other = name then none else d.find? other := by
  cases h : d.entries with
  | none => simp [erase, find?, h]
  | some es =>
    simp only [erase, find?, h, Option.map_some, Option.bind_some]
    rw [find?_filter_ne]
    split
    · rfl
    · rfl

theorem find?_put (hd : d.entries.isSome) : (d.put name entry).find? other =
    if other = name then some entry else d.find? other := by
  have hput : (d.put name entry).find? other =
      if other = name then some entry else (d.erase name).find? other := by
    obtain ⟨es, rfl⟩ := exists_entries hd
    simp only [put, erase, find?, Option.map_some, Option.bind_some]
    split
    · next heq =>
      rw [List.find?_cons_of_pos (by simp [heq])]
      rfl
    · next hne => rw [List.find?_cons_of_neg (by simpa using Ne.symm hne)]
  rw [hput, find?_erase]
  split
  · rfl
  · rfl

theorem find?_of_count (h : d.names.count name = 0) : d.find? name = none := by
  have hmem : name ∉ d.names := List.count_eq_zero.mp h
  cases hes : d.entries with
  | none => simp [find?, hes]
  | some es =>
    simp only [names, hes, Option.getD_some, List.mem_map, not_exists, not_and] at hmem
    have hnone : es.find? (·.1 == name) = none := by
      rw [List.find?_eq_none]
      exact fun a ha => by simpa using hmem a ha
    simp [find?, hes, hnone]

end Directory

/-! The names of files. -/

namespace FileRegistry

variable {id id' : SessionId}

theorem toList_fileName (id : SessionId) : (fileName id).toList =
    "session-".toList ++ (Text.decimalChars id.value ++ ".json".toList) := by
  simp [fileName, SessionId.text, Text.decimal]

theorem toList_draftName (id : SessionId) : (draftName id).toList =
    (fileName id).toList ++ ".tmp".toList := String.toList_append

/-- Every session has a file of its own. -/
theorem fileName_inj : fileName id = fileName id' ↔ id = id' := by
  constructor
  · intro h
    have hchars := congrArg String.toList h
    rw [toList_fileName, toList_fileName] at hchars
    have hdigits := List.append_cancel_right (List.append_cancel_left hchars)
    have hvalue := congrArg (Text.spelled 0) hdigits
    rw [Text.spelled_decimalChars, Text.spelled_decimalChars] at hvalue
    exact SessionId.ext hvalue
  · rintro rfl
    rfl

/-- No file has the name of a draft, which ends with another letter. -/
theorem fileName_ne_draftName : fileName id ≠ draftName id' := by
  intro h
  have hfile : (fileName id).toList.getLast? = some 'n' := by
    rw [toList_fileName, ← List.append_assoc, List.getLast?_append]
    rfl
  have hdraft : (draftName id').toList.getLast? = some 'p' := by
    rw [toList_draftName, List.getLast?_append]
    rfl
  rw [h, hdraft] at hfile
  cases hfile

/-! Publishing. -/

/-- The content of a session's file. -/
def content (s : Snapshot) : Bytes := Bytes.ofString s.toValue.pretty

/-- Where no directories are in the way, a draft is written and becomes the file. -/
theorem publish_eq {d : Directory} {s : Snapshot} (hd : d.entries.isSome)
    (hdraft : d.find? (draftName s.id) ≠ some .directory)
    (hfile : d.find? (fileName s.id) ≠ some .directory) :
    publish d s = ((d.put (draftName s.id) (.file (content s))).erase (draftName s.id)).put
      (fileName s.id) (.file (content s)) := by
  have hwrite : d.write? (draftName s.id) (content s) =
      some (d.put (draftName s.id) (.file (content s))) := by
    rw [Directory.write?, if_neg]
    simp [hdraft, Option.isSome_iff_ne_none.mp hd]
  have hread : (d.put (draftName s.id) (.file (content s))).read? (draftName s.id) =
      some (content s) := by
    rw [Directory.read?, Directory.find?_put hd, if_pos rfl]
  have hfile' : (d.put (draftName s.id) (.file (content s))).find? (fileName s.id) ≠
      some .directory := by
    rwa [Directory.find?_put hd, if_neg fileName_ne_draftName]
  rw [publish, ← content, hwrite]
  dsimp only
  rw [Directory.rename?, hread]
  dsimp only
  rw [if_neg hfile', Option.getD_some]

/-! The files and the sessions. -/

/-- A directory in which there is a file for each of some snapshots, with what is in it, and nothing
that is still being written. -/
structure IsMirror (d : Directory) (entries : List Snapshot) : Prop where
  present : d.entries.isSome
  no_drafts : ∀ id, d.names.count (draftName id) = 0
  files : ∀ id, d.names.count (fileName id) =
    if (entries.find? (·.id = id)).isSome then 1 else 0
  contents : ∀ id s, entries.find? (·.id = id) = some s →
    d.find? (fileName id) = some (.file (content s))

namespace IsMirror

variable {d : Directory} {entries : List Snapshot} {s : Snapshot} {id : SessionId}

theorem find?_draftName (h : IsMirror d entries) (id : SessionId) :
    d.find? (draftName id) = none := Directory.find?_of_count (h.no_drafts id)

/-- No directory has the name of a file. -/
theorem find?_fileName_ne (h : IsMirror d entries) (id : SessionId) :
    d.find? (fileName id) ≠ some .directory := by
  cases hfind : entries.find? (·.id = id) with
  | none =>
    have hcount : d.names.count (fileName id) = 0 := by simp [h.files, hfind]
    simp [Directory.find?_of_count hcount]
  | some s => simp [h.contents id s hfind]

theorem publish (h : IsMirror d entries) (s : Snapshot) :
    IsMirror (publish d s) (s :: entries.filter (·.id ≠ s.id)) := by
  have hdraft : d.find? (draftName s.id) ≠ some .directory := by simp [h.find?_draftName]
  rw [publish_eq h.present hdraft (h.find?_fileName_ne s.id)]
  have hpresent := h.present
  refine ⟨by simpa using hpresent, fun id => ?_, fun id => ?_, fun id t ht => ?_⟩
  · rw [Directory.count_put (by simpa using hpresent), if_neg fileName_ne_draftName.symm,
      Directory.count_erase, Directory.count_put hpresent, h.no_drafts]
    split
    · rfl
    · rfl
  · rw [Directory.count_put (by simpa using hpresent), Directory.count_erase,
      if_neg fileName_ne_draftName, Directory.count_put hpresent, if_neg fileName_ne_draftName,
      h.files, find?_stored]
    simp only [fileName_inj]
    by_cases hid : id = s.id
    · simp [hid]
    · rw [if_neg hid, if_neg (Ne.symm hid)]
  · rw [Directory.find?_put (by simpa using hpresent), Directory.find?_erase,
      if_neg fileName_ne_draftName, Directory.find?_put hpresent, if_neg fileName_ne_draftName]
    simp only [fileName_inj]
    rw [find?_stored] at ht
    by_cases hid : id = s.id
    · rw [if_pos hid.symm] at ht
      rw [if_pos hid, Option.some.inj ht]
    · rw [if_neg (Ne.symm hid)] at ht
      rw [if_neg hid, h.contents id t ht]

theorem remove (h : IsMirror d entries) (gone : SessionId) :
    IsMirror (d.removeFile (fileName gone)) (entries.filter (·.id ≠ gone)) := by
  rw [Directory.removeFile, if_neg (h.find?_fileName_ne gone)]
  refine ⟨by simpa using h.present, fun id => ?_, fun id => ?_, fun id t ht => ?_⟩
  · rw [Directory.count_erase, if_neg fileName_ne_draftName.symm, h.no_drafts]
  · rw [Directory.count_erase, h.files, find?_removed]
    simp only [fileName_inj]
    by_cases hid : id = gone
    · simp [hid]
    · rw [if_neg hid, if_neg (Ne.symm hid)]
  · rw [find?_removed] at ht
    by_cases hid : gone = id
    · simp [hid] at ht
    · rw [if_neg hid] at ht
      rw [Directory.find?_erase, if_neg fun heq => hid (fileName_inj.mp heq).symm,
        h.contents id t ht]

/-- The file of a snapshot is read back. -/
theorem load (h : IsMirror d entries) (hfind : entries.find? (·.id = id) = some s)
    (hs : s.login.IsValid) : load d (fileName id) = .ok s := by
  have hread : d.read? (fileName id) = some (content s) := by
    rw [Directory.read?, h.contents id s hfind]
  rw [FileRegistry.load, hread]
  dsimp only
  rw [content, Snapshot.read_back hs]

end IsMirror

end FileRegistry

/-! What a registry is told. -/

/-- What a registry is told about sessions. -/
inductive RegistryCall where
  | insert (session : SessionRecord)
  | update (session : SessionRecord)
  | remove (id : SessionId)

namespace RegistryCall

variable {ρ : Type} [Registry ρ] {call : RegistryCall} {calls : List RegistryCall}
  {id : SessionId} {known : Option SessionRecord}

/-- Tells a registry. -/
def apply (call : RegistryCall) (r : ρ) : ρ :=
  match call with
  | insert session => Registry.insert session.snapshot r
  | update session => Registry.update session.snapshot r
  | remove id => Registry.remove id r

/-- Tells a registry one thing after the other. -/
def applyAll (calls : List RegistryCall) (r : ρ) : ρ := calls.foldl (fun r call => call.apply r) r

/-- What is known of a session when a registry has been told something more. -/
def last (id : SessionId) (known : Option SessionRecord) : RegistryCall → Option SessionRecord
  | insert session => if session.id = id then some session else known
  | update session => if session.id = id then some session else known
  | remove gone => if gone = id then none else known

/-- The session that was entered last under an identifier, unless it has been removed since. -/
def remembered (calls : List RegistryCall) (id : SessionId) : Option SessionRecord :=
  calls.foldl (last id) none

/-- Every session that is entered began at a time of the calendar. -/
def IsValid : RegistryCall → Prop
  | insert session => session.login.IsValid
  | update session => session.login.IsValid
  | remove _ => True

theorem get?_apply [LawfulRegistry ρ] {r : ρ}
    (h : Registry.get? id r = known.map SessionRecord.snapshot) (call : RegistryCall) :
    Registry.get? id (call.apply r) = (last id known call).map SessionRecord.snapshot := by
  have hstored (session : SessionRecord) : (if session.snapshot.id = id then
      some session.snapshot else Registry.get? id r) =
      (if session.id = id then some session else known).map SessionRecord.snapshot := by
    have hid : session.snapshot.id = session.id := rfl
    rw [hid, h]
    split
    · rfl
    · rfl
  cases call with
  | insert session => exact (LawfulRegistry.get?_insert ..).trans (hstored session)
  | update session => exact (LawfulRegistry.get?_update ..).trans (hstored session)
  | remove gone =>
    refine (LawfulRegistry.get?_remove ..).trans ?_
    rw [last, h]
    split
    · rfl
    · rfl

theorem get?_applyAll [LawfulRegistry ρ] {r : ρ}
    (h : Registry.get? id r = known.map SessionRecord.snapshot) (calls : List RegistryCall) :
    Registry.get? id (applyAll calls r) =
      (calls.foldl (last id) known).map SessionRecord.snapshot := by
  induction calls generalizing r known with
  | nil => exact h
  | cons call calls ih => exact ih (get?_apply h call)

theorem isValid_last (hknown : ∀ session ∈ known, session.login.IsValid) (hcall : call.IsValid) :
    ∀ session ∈ last id known call, session.login.IsValid := by
  have hentered (entered : SessionRecord) (h : entered.login.IsValid) :
      ∀ session ∈ (if entered.id = id then some entered else known), session.login.IsValid := by
    split
    · exact fun session hsession => Option.some.inj hsession ▸ h
    · exact hknown
  cases call with
  | insert entered => exact hentered entered hcall
  | update entered => exact hentered entered hcall
  | remove gone =>
    rw [last]
    split
    · exact nofun
    · exact hknown

theorem isValid_foldl (hknown : ∀ session ∈ known, session.login.IsValid)
    (hcalls : ∀ call ∈ calls, call.IsValid) :
    ∀ session ∈ calls.foldl (last id) known, session.login.IsValid := by
  induction calls generalizing known with
  | nil => exact hknown
  | cons call calls ih =>
    obtain ⟨hcall, hcalls⟩ := List.forall_mem_cons.mp hcalls
    exact ih (isValid_last hknown hcall) hcalls

end RegistryCall

namespace FileRegistry

open RegistryCall (applyAll remembered)

/-- What happens to a registry with files: it is told something, or somebody else has changed its
directory, and perhaps in such a way that nothing can be written there. -/
inductive Occurrence where
  | told (call : RegistryCall)
  | meddled (directory : Directory)

/-- What a registry has been told, if it has. -/
def Occurrence.call? : Occurrence → Option RegistryCall
  | told call => some call
  | meddled _ => none

/-- The registry after an occurrence. -/
def after (r : FileRegistry) : Occurrence → FileRegistry
  | .told call => call.apply r
  | .meddled directory => { r with directory }

variable {id : SessionId} {r : FileRegistry}

/-- The files do not count in answers. -/
theorem get?_foldl_after {known : Option SessionRecord}
    (h : Registry.get? id r = known.map SessionRecord.snapshot) (occurrences : List Occurrence) :
    Registry.get? id (occurrences.foldl after r) =
      ((occurrences.filterMap Occurrence.call?).foldl (RegistryCall.last id) known).map
        SessionRecord.snapshot := by
  induction occurrences generalizing r known with
  | nil => exact h
  | cons occurrence occurrences ih =>
    cases occurrence with
    | told call => exact ih (RegistryCall.get?_apply h call)
    | meddled directory => exact ih (r := { r with directory }) h

theorem IsMirror.apply (h : IsMirror r.directory r.entries) (call : RegistryCall) :
    IsMirror (call.apply r).directory (call.apply r).entries := by
  cases call with
  | insert session => exact h.publish session.snapshot
  | update session => exact h.publish session.snapshot
  | remove gone => exact h.remove gone

theorem IsMirror.applyAll (h : IsMirror r.directory r.entries) (calls : List RegistryCall) :
    IsMirror (applyAll calls r).directory (applyAll calls r).entries := by
  induction calls generalizing r with
  | nil => exact h
  | cons call calls ih => exact ih (h.apply call)

/-- A directory without any files of sessions, written or being written. -/
structure IsFresh (d : Directory) : Prop where
  present : d.entries.isSome
  no_files : ∀ id, fileName id ∉ d.names
  no_drafts : ∀ id, draftName id ∉ d.names

theorem IsFresh.isMirror {d : Directory} (h : IsFresh d) : IsMirror d [] where
  present := h.present
  no_drafts id := List.count_eq_zero.mpr (h.no_drafts id)
  files id := List.count_eq_zero.mpr (h.no_files id)
  contents := nofun

/-- A registry with files answers as the one in memory does, whatever happens to the files. Where
nobody else changes the directory there is one file for each session that is remembered, nothing
that is still being written, and the file is read back as the snapshot of what was entered last. -/
theorem files_in_step :
    (∀ (d : Directory) (occurrences : List Occurrence) (id : SessionId),
      Registry.get? id (occurrences.foldl after { directory := d }) =
        (remembered (occurrences.filterMap Occurrence.call?) id).map SessionRecord.snapshot ∧
      Registry.get? id (applyAll (occurrences.filterMap Occurrence.call?) ({} : MemoryRegistry)) =
        (remembered (occurrences.filterMap Occurrence.call?) id).map SessionRecord.snapshot) ∧
    ∀ (d : Directory) (calls : List RegistryCall) (id : SessionId), IsFresh d →
      (∀ call ∈ calls, call.IsValid) →
        (applyAll calls ({ directory := d } : FileRegistry)).directory.names.count (fileName id) =
          (if (remembered calls id).isSome then 1 else 0) ∧
        draftName id ∉ (applyAll calls ({ directory := d } : FileRegistry)).directory.names ∧
        ∀ session, remembered calls id = some session →
          load (applyAll calls ({ directory := d } : FileRegistry)).directory (fileName id) =
            .ok session.snapshot := by
  refine ⟨fun d occurrences id => ⟨get?_foldl_after rfl occurrences,
    RegistryCall.get?_applyAll rfl _⟩, fun d calls id hfresh hvalid => ?_⟩
  have hmirror := IsMirror.applyAll (r := { directory := d }) hfresh.isMirror calls
  have hunknown : Registry.get? id ({ directory := d } : FileRegistry) =
      (none : Option SessionRecord).map SessionRecord.snapshot := rfl
  have hget : (applyAll calls ({ directory := d } : FileRegistry)).entries.find? (·.id = id) =
      (remembered calls id).map SessionRecord.snapshot :=
    RegistryCall.get?_applyAll hunknown calls
  refine ⟨?_, List.count_eq_zero.mp (hmirror.no_drafts id), fun session hsession => ?_⟩
  · rw [hmirror.files, hget, Option.isSome_map]
  · rw [hsession] at hget
    exact hmirror.load hget (RegistryCall.isValid_foldl (by simp) hvalid session hsession)

/-- A session at its beginning. -/
def carol : SessionRecord where
  id := ⟨77, by decide, by decide⟩
  username := some "carol"
  capabilities := [Capability.ofBase10]
  login := { seconds := 1704067200 }

/-- The session when it has had a request that failed. -/
def carolLater : SessionRecord := { carol with counters.requests := 1, counters.errors := 1 }

/-- The file of a session is the one of its last snapshot, and goes with it. -/
theorem carol_published :
    load (applyAll [.insert carol, .update carolLater] ({} : FileRegistry)).directory
      (fileName carol.id) = .ok carolLater.snapshot ∧
    (applyAll [.insert carol, .remove carol.id] ({} : FileRegistry)).directory.names.count
      (fileName carol.id) = 0 ∧
    Registry.get? carol.id ([.told (.insert carol), .meddled { entries := none },
      .told (.update carolLater)].foldl after ({} : FileRegistry)) = some carolLater.snapshot := by
  have hfresh : IsFresh {} := ⟨rfl, fun _ => List.not_mem_nil, fun _ => List.not_mem_nil⟩
  have hlogin : carol.login.IsValid := ⟨by decide, .inl (by decide)⟩
  obtain ⟨hanswers, hfiles⟩ := files_in_step
  obtain ⟨-, -, hload⟩ := hfiles {} [.insert carol, .update carolLater] carol.id hfresh
    (List.forall_mem_cons.mpr ⟨hlogin, List.forall_mem_singleton.mpr hlogin⟩)
  obtain ⟨hgone, -, -⟩ := hfiles {} [.insert carol, .remove carol.id] carol.id hfresh
    (List.forall_mem_cons.mpr ⟨hlogin, List.forall_mem_singleton.mpr trivial⟩)
  exact ⟨hload carolLater rfl, hgone, (hanswers {} _ carol.id).1⟩

end FileRegistry
end Netconf
