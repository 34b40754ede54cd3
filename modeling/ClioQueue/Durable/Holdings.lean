/-
# Holdings and reservations

A list of holdings says who holds how much.  Against a list of reservations, an account that
was taken earlier and all reservations bound what is held now and what the reservations
still allow, up to what owners without a reservation have taken since.
-/

import Mathlib

namespace Durable

variable {ι : Type} [DecidableEq ι] {earlier now reservations : List (ι × Nat)}

/-- What is held in all. -/
def held (holdings : List (ι × Nat)) : Nat := (holdings.map Prod.snd).sum

/-- What one owner holds. -/
def heldBy (holdings : List (ι × Nat)) (owner : ι) : Nat :=
  held (holdings.filter fun entry => entry.1 = owner)

/-- What the reservations still allow. -/
def outstanding (reservations holdings : List (ι × Nat)) : Nat :=
  (reservations.map fun entry => entry.2 - heldBy holdings entry.1).sum

/-- What the owners without a reservation have taken since an earlier account. -/
def taken (reservations earlier now : List (ι × Nat)) : Nat :=
  (((now.map Prod.fst).dedup.filter fun owner => owner ∉ reservations.map Prod.fst).map fun owner =>
    heldBy now owner - heldBy earlier owner).sum

omit [DecidableEq ι] in
theorem held_nil : held ([] : List (ι × Nat)) = 0 := rfl

omit [DecidableEq ι] in
theorem held_cons (entry : ι × Nat) (holdings : List (ι × Nat)) :
    held (entry :: holdings) = entry.2 + held holdings := by
  simp [held]

omit [DecidableEq ι] in
theorem held_append (a b : List (ι × Nat)) : held (a ++ b) = held a + held b := by
  simp [held]

theorem heldBy_cons (entry : ι × Nat) (holdings : List (ι × Nat)) (owner : ι) :
    heldBy (entry :: holdings) owner =
      (if entry.1 = owner then entry.2 else 0) + heldBy holdings owner := by
  unfold heldBy
  by_cases h : entry.1 = owner
  · rw [List.filter_cons_of_pos (by simpa using h), held_cons, if_pos h]
  · rw [List.filter_cons_of_neg (by simpa using h), if_neg h, Nat.zero_add]

theorem heldBy_append (a b : List (ι × Nat)) (owner : ι) :
    heldBy (a ++ b) owner = heldBy a owner + heldBy b owner := by
  unfold heldBy
  rw [List.filter_append, held_append]

theorem heldBy_of_notMem {holdings : List (ι × Nat)} {owner : ι}
    (h : owner ∉ holdings.map Prod.fst) : heldBy holdings owner = 0 := by
  have hnil : holdings.filter (fun entry => entry.1 = owner) = [] := by
    rw [List.filter_eq_nil_iff]
    intro entry hent hsame
    exact h (List.mem_map.2 ⟨entry, hent, of_decide_eq_true hsame⟩)
  rw [heldBy, hnil, held_nil]

/-- Owners that hold no more than before have taken nothing. -/
theorem taken_eq_zero
    (h : ∀ owner, owner ∉ reservations.map Prod.fst → heldBy now owner ≤ heldBy earlier owner) :
    taken reservations earlier now = 0 := by
  unfold taken
  rw [List.sum_eq_zero_iff]
  intro _ hamount
  obtain ⟨owner, howner, rfl⟩ := List.mem_map.1 hamount
  have hle := h owner (of_decide_eq_true (List.mem_filter.1 howner).2)
  omega

/-- **The holdings of all owners**, summed owner by owner. -/
theorem held_eq_sum (holdings : List (ι × Nat)) (owners : Finset ι)
    (h : ∀ entry ∈ holdings, entry.1 ∈ owners) :
    held holdings = ∑ owner ∈ owners, heldBy holdings owner := by
  induction holdings with
  | nil => exact (Finset.sum_eq_zero fun _ _ => rfl).symm
  | cons entry holdings ih =>
    have hone : ∑ owner ∈ owners, (if entry.1 = owner then entry.2 else 0) = entry.2 := by
      rw [Finset.sum_ite_eq, if_pos (h entry List.mem_cons_self)]
    rw [held_cons, ih fun other hother => h other (List.mem_cons_of_mem _ hother)]
    simp only [heldBy_cons, Finset.sum_add_distrib, hone]

section

variable (hnd : (reservations.map Prod.fst).Nodup)

include hnd

/-- A sum over the keys of a list without repeated keys. -/
theorem sum_keys {f : ι × Nat → Nat} {g : ι → Nat}
    (hfg : ∀ entry ∈ reservations, f entry = g entry.1) :
    (reservations.map f).sum = ∑ owner ∈ (reservations.map Prod.fst).toFinset, g owner := by
  rw [List.sum_toFinset _ hnd, List.map_map]
  exact congrArg List.sum (List.map_congr_left hfg)

/-- **An earlier account bounds what is held and what is reserved now.** -/
theorem held_add_outstanding_le (hwithin : ∀ entry ∈ reservations, heldBy now entry.1 ≤ entry.2) :
    held now + outstanding reservations now ≤
      held earlier + held reservations + taken reservations earlier now := by
  set keys := (reservations.map Prod.fst).toFinset with hkeys
  set present := (now.map Prod.fst).toFinset with hpres
  set owners := (earlier.map Prod.fst).toFinset ∪ present ∪ keys
  have hsub : keys ⊆ owners := Finset.subset_union_right
  have hnow : held now = ∑ owner ∈ owners, heldBy now owner := by
    refine held_eq_sum now owners fun entry hent => ?_
    have hin : entry.1 ∈ present := List.mem_toFinset.2 (List.mem_map_of_mem hent)
    exact Finset.mem_union_left _ (Finset.mem_union_right _ hin)
  have hearlier : held earlier = ∑ owner ∈ owners, heldBy earlier owner := by
    refine held_eq_sum earlier owners fun entry hent => ?_
    have hin : entry.1 ∈ (earlier.map Prod.fst).toFinset :=
      List.mem_toFinset.2 (List.mem_map_of_mem hent)
    exact Finset.mem_union_left _ (Finset.mem_union_left _ hin)
  -- What reserved owners hold and may still take is what is reserved.
  have hresv : outstanding reservations now + ∑ owner ∈ keys, heldBy now owner =
      held reservations := by
    rw [← sum_keys hnd (f := fun entry => heldBy now entry.1) fun _ _ => rfl, outstanding, held,
      ← List.sum_map_add]
    refine congrArg List.sum (List.map_congr_left fun entry hent => ?_)
    have hle := hwithin entry hent
    omega
  -- The others hold what they held and what they have taken.
  have htaken : taken reservations earlier now =
      ∑ owner ∈ owners \ keys, (heldBy now owner - heldBy earlier owner) := by
    have hlist : taken reservations earlier now =
        ∑ owner ∈ present \ keys, (heldBy now owner - heldBy earlier owner) := by
      unfold taken
      rw [← List.sum_toFinset _ ((List.nodup_dedup _).filter _)]
      refine Finset.sum_congr ?_ fun _ _ => rfl
      ext owner
      simp [hpres, hkeys]
    rw [hlist]
    refine Finset.sum_subset (Finset.sdiff_subset_sdiff ?_ (Finset.Subset.refl _)) ?_
    · exact fun owner howner => Finset.mem_union_left _ (Finset.mem_union_right _ howner)
    · intro owner howner habsent
      have hnone : owner ∉ now.map Prod.fst := by
        intro hin
        exact habsent (Finset.mem_sdiff.2 ⟨List.mem_toFinset.2 hin, (Finset.mem_sdiff.1 howner).2⟩)
      rw [heldBy_of_notMem hnone, Nat.zero_sub]
  have hothers : ∑ owner ∈ owners \ keys, heldBy now owner ≤
      ∑ owner ∈ owners \ keys, heldBy earlier owner + taken reservations earlier now := by
    rw [htaken, ← Finset.sum_add_distrib]
    exact Finset.sum_le_sum fun owner _ => by omega
  have hsplit := Finset.sum_sdiff (f := fun owner => heldBy now owner) hsub
  have hbefore : ∑ owner ∈ owners \ keys, heldBy earlier owner ≤ held earlier := by
    rw [hearlier]
    exact Finset.sum_le_sum_of_subset Finset.sdiff_subset
  omega

theorem held_add_outstanding_le_of_untaken
    (hwithin : ∀ entry ∈ reservations, heldBy now entry.1 ≤ entry.2)
    (h : ∀ owner, owner ∉ reservations.map Prod.fst → heldBy now owner ≤ heldBy earlier owner) :
    held now + outstanding reservations now ≤ held earlier + held reservations := by
  have hbd : _ ≤ held earlier + held reservations + taken reservations earlier now :=
    held_add_outstanding_le hnd hwithin
  rw [taken_eq_zero h] at hbd
  exact hbd

end

end Durable
