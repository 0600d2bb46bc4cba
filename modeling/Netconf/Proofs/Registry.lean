import Netconf.Registry

/-! What registries answer. Only what was entered last for a session counts, until it is removed. -/
namespace Netconf

/-- A registry that remembers what is entered, and forgets what is removed. -/
class LawfulRegistry (ρ : Type) [Registry ρ] : Prop where
  get?_insert : ∀ (id : SessionId) (s : Snapshot) (r : ρ),
    Registry.get? id (Registry.insert s r) = if s.id = id then some s else Registry.get? id r
  get?_update : ∀ (id : SessionId) (s : Snapshot) (r : ρ),
    Registry.get? id (Registry.update s r) = if s.id = id then some s else Registry.get? id r
  get?_remove : ∀ (id gone : SessionId) (r : ρ),
    Registry.get? id (Registry.remove gone r) = if gone = id then none else Registry.get? id r

variable {entries : List Snapshot}

theorem find?_kept {id gone : SessionId} (hne : gone ≠ id) :
    (entries.filter (·.id ≠ gone)).find? (·.id = id) = entries.find? (·.id = id) := by
  rw [List.find?_filter]
  congr 1
  funext s
  by_cases h : s.id = id
  · simp [h, Ne.symm hne]
  · simp [h]

theorem find?_gone {id : SessionId} :
    (entries.filter (·.id ≠ id)).find? (·.id = id) = none := by
  simp

theorem find?_stored {id : SessionId} {s : Snapshot} :
    (s :: entries.filter (·.id ≠ s.id)).find? (·.id = id) =
      if s.id = id then some s else entries.find? (·.id = id) := by
  by_cases h : s.id = id
  · simp [h]
  · rw [List.find?_cons_of_neg (by simpa using h), find?_kept h, if_neg h]

theorem find?_removed {id gone : SessionId} :
    (entries.filter (·.id ≠ gone)).find? (·.id = id) =
      if gone = id then none else entries.find? (·.id = id) := by
  split
  · next h => rw [h, find?_gone]
  · next h => exact find?_kept h

instance : LawfulRegistry MemoryRegistry where
  get?_insert := fun _ _ _ => find?_stored
  get?_update := fun _ _ _ => find?_stored
  get?_remove := fun _ _ _ => find?_removed

/-- What becomes of its files makes no difference to what a registry answers. -/
instance : LawfulRegistry FileRegistry where
  get?_insert := fun _ _ _ => find?_stored
  get?_update := fun _ _ _ => find?_stored
  get?_remove := fun _ _ _ => find?_removed

end Netconf
