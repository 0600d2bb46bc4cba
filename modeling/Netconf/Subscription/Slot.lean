/-! The slot of a session's subscription. Whoever claims the slot holds it until it is released;
while it is held nobody else can claim it. -/
namespace Netconf

/-- Whether a subscription is active. -/
structure Slot where
  active : Bool := false
deriving DecidableEq, Repr, Inhabited

namespace Slot

/-- Claims the slot: there is none to claim while it is held. -/
def claim? (s : Slot) : Option Slot := if s.active then none else some { active := true }

/-- The slot after its holder has let it go. -/
def release (_ : Slot) : Slot := { active := false }

@[simp] theorem claim?_eq_none_iff {s : Slot} : s.claim? = none ↔ s.active = true := by
  cases h : s.active <;> simp [claim?, h]

@[simp] theorem release_active (s : Slot) : s.release.active = false := rfl

end Slot
end Netconf
