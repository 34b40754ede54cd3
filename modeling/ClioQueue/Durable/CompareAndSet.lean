/-
# Comparing and setting a stamped value

One value is stored.  It is replaced only by a later one, with a greater stamp, by a writer whose
copy has the stamp of the stored value.  A copy that was read at any time is `Held`: the stored
value is later, its stamp is not smaller, and where the stamps are equal the copy is the stored
value itself.
-/

import Mathlib.Order.Basic

namespace Durable

variable {α σ : Type} (stamp : α → σ) (Later : α → α → Prop)

/-- A copy of the stored value, perhaps an old one. -/
structure Held [LE σ] (stored copy : α) : Prop where
  later : Later copy stored
  stamp_le : stamp copy ≤ stamp stored
  eq_of_stamp : stamp copy = stamp stored → copy = stored

variable [PartialOrder σ] {stamp Later}

theorem held_self (hrefl : ∀ a, Later a a) (stored : α) : Held stamp Later stored stored :=
  ⟨hrefl stored, le_rfl, fun _ => rfl⟩

theorem Held.trans (htrans : ∀ a b c, Later a b → Later b c → Later a c) {stored copy copy' : α}
    (h : Held stamp Later copy copy') (h' : Held stamp Later stored copy) :
    Held stamp Later stored copy' where
  later := htrans _ _ _ h.later h'.later
  stamp_le := h.stamp_le.trans h'.stamp_le
  eq_of_stamp heq := by
    have hmid : stamp copy = stamp stored := le_antisymm h'.stamp_le (heq ▸ h.stamp_le)
    rw [h.eq_of_stamp (heq.trans hmid.symm), h'.eq_of_stamp hmid]

theorem Held.write (htrans : ∀ a b c, Later a b → Later b c → Later a c) {stored stored' copy : α}
    (h : Held stamp Later stored copy) (hlater : Later stored stored')
    (hstamp : stamp stored < stamp stored') : Held stamp Later stored' copy where
  later := htrans _ _ _ h.later hlater
  stamp_le := h.stamp_le.trans hstamp.le
  eq_of_stamp heq := absurd (heq ▸ h.stamp_le) (not_le_of_gt hstamp)

end Durable
