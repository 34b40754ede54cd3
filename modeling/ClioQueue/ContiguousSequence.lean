/-
# The last record of a contiguous sequence

`last_contiguous_sequence` of `clio_relay/queue_order_index.py`, for every
directory: the doubling loop stops between a record that is present and one that
is absent, or at its guard, and the halving loop keeps such a bracket until its
bounds meet.  Both loops are recursions on their bounds, so that the call ends on
every directory.
-/

import ClioQueue.EventLog

namespace ClioQueue

variable {found : Nat → Bool}

/-- **The doubling loop.**  It is refused at its guard when every power of two up to `2 ^ 63`
is present, and else it stops with a record that is present and one that is absent. -/
theorem contiguousBounds_cases {k : Nat} (hk : k ≤ 62) (hlow : found (2 ^ k) = true)
    (hpos : 0 < 2 ^ (k + 1)) :
    contiguousBounds found (2 ^ k) (2 ^ (k + 1)) hpos = none ∧
        (∀ j, k ≤ j → j ≤ 63 → found (2 ^ j) = true) ∨
      ∃ j ≤ 62, contiguousBounds found (2 ^ k) (2 ^ (k + 1)) hpos = some (2 ^ j, 2 ^ (j + 1)) ∧
        found (2 ^ j) = true ∧ found (2 ^ (j + 1)) = false := by
  -- the distance to the guard is what the loop uses up
  induction hleft : 62 - k generalizing k with
  | zero =>
    obtain rfl : k = 62 := by omega
    rw [contiguousBounds]
    by_cases hhigh : found (2 ^ 63) = true
    · rw [if_pos hhigh]
      refine .inl ⟨dif_pos (by decide), fun j hj hle => ?_⟩
      rcases Nat.eq_or_lt_of_le hj with rfl | hj
      · exact hlow
      · obtain rfl : j = 63 := by omega
        exact hhigh
    · rw [if_neg hhigh]
      exact .inr ⟨62, hk, rfl, hlow, by simpa using hhigh⟩
  | succ left ih =>
    rw [contiguousBounds]
    by_cases hhigh : found (2 ^ (k + 1)) = true
    · have hguard : ¬ 2 ^ 63 < 2 ^ (k + 1) * 2 := by
        rw [← Nat.pow_succ]
        exact Nat.not_lt.2 (Nat.pow_le_pow_right (by omega) (by omega))
      rw [if_pos hhigh, dif_neg hguard]
      simp only [← Nat.pow_succ]
      rcases ih (by omega) hhigh (Nat.two_pow_pos _) (by omega) with ⟨hnone, hall⟩ | hsome
      · refine .inl ⟨hnone, fun j hj hle => ?_⟩
        rcases Nat.eq_or_lt_of_le hj with rfl | hj
        · exact hlow
        · exact hall j hj hle
      · exact .inr hsome
    · rw [if_neg hhigh]
      exact .inr ⟨k, hk, rfl, hlow, by simpa using hhigh⟩

/-- **The halving loop.**  The lower bound stays present and the upper one absent. -/
theorem lastBetween_spec {low high : Nat} (hlt : low < high) (hlow : found low = true)
    (hhigh : found high = false) :
    found (lastBetween found low high) = true ∧
      found (lastBetween found low high + 1) = false := by
  fun_induction lastBetween found low high with
  | case1 low high hgap hmid ih => exact ih (by omega) hmid hhigh
  | case2 low high hgap hmid ih => exact ih (by omega) hlow (by simpa using hmid)
  | case3 low high hgap =>
    obtain rfl : high = low + 1 := by omega
    exact ⟨hlow, hhigh⟩

/-- The last sequence of a directory that holds the first record. -/
theorem lastContiguousSequence_cases (hfirst : found 1 = true) :
    lastContiguousSequence found = none ∧ (∀ j ≤ 63, found (2 ^ j) = true) ∨
      ∃ r, lastContiguousSequence found = some r ∧ found r = true ∧ found (r + 1) = false ∧
        ∃ j ≤ 63, found (2 ^ j) = false := by
  rw [lastContiguousSequence, if_pos hfirst]
  rcases contiguousBounds_cases (Nat.zero_le 62) hfirst (by decide) with
    ⟨hnone, hall⟩ | ⟨j, hj, hsome, hlow, hhigh⟩
  · exact .inl ⟨congrArg (Option.map _) hnone, fun j hj => hall j (Nat.zero_le j) hj⟩
  · have hspec := lastBetween_spec (Nat.pow_lt_pow_succ (by omega)) hlow hhigh
    exact .inr ⟨_, congrArg (Option.map _) hsome, hspec.1, hspec.2, j + 1, by omega, hhigh⟩

/-- **The last contiguous sequence.**  The call always ends: with zero when the first record is
absent, with a conflict when all powers of two up to `2 ^ 63` are present, and else with a
record that is present and has no successor. -/
theorem last_contiguous_sequence_exact (found : Nat → Bool) :
    (found 1 = false → lastContiguousSequence found = some 0) ∧
    (lastContiguousSequence found = none ↔ ∀ j ≤ 63, found (2 ^ j) = true) ∧
    (found 1 = true → ∀ r, lastContiguousSequence found = some r →
      found r = true ∧ found (r + 1) = false) ∧
    ∀ n < 2 ^ 63, (∀ i, 1 ≤ i → (found i = true ↔ i ≤ n)) →
      lastContiguousSequence found = some n := by
  have hzero : found 1 = false → lastContiguousSequence found = some 0 := fun h => by
    simp [lastContiguousSequence, h]
  refine ⟨hzero, ⟨fun hnone => ?_, fun hall => ?_⟩, fun hfirst r hr => ?_, fun n hn hall => ?_⟩
  · have hfirst : found 1 = true := by
      by_contra h
      simp [hzero (by simpa using h)] at hnone
    rcases lastContiguousSequence_cases hfirst with ⟨-, hall⟩ | ⟨r, hr, -⟩
    · exact hall
    · simp [hr] at hnone
  · rcases lastContiguousSequence_cases (hall 0 (by omega)) with ⟨hnone, -⟩ | ⟨r, -, -, -, j, hj, h⟩
    · exact hnone
    · simp [hall j hj] at h
  · rcases lastContiguousSequence_cases hfirst with ⟨hnone, -⟩ | ⟨q, hq, hpres, habsent, -⟩
    · simp [hnone] at hr
    · obtain rfl : q = r := by simpa [hq] using hr
      exact ⟨hpres, habsent⟩
  · rcases Nat.eq_zero_or_pos n with rfl | hpos
    · exact hzero (by simpa using hall 1 (by omega))
    · rcases lastContiguousSequence_cases ((hall 1 (by omega)).2 hpos) with
        ⟨-, hpowers⟩ | ⟨r, hr, hpres, habsent, -⟩
      · have := (hall (2 ^ 63) (by decide)).1 (hpowers 63 (by omega))
        omega
      · have hnext : ¬ r + 1 ≤ n := fun h => by simp [(hall (r + 1) (by omega)).2 h] at habsent
        have hle : r ≤ n := by
          rcases Nat.eq_zero_or_pos r with rfl | h
          · omega
          · exact (hall r h).1 hpres
        rw [hr, show r = n by omega]

/-- A directory of the powers of two alone is refused, although it holds record `4` and no
record `5`. -/
theorem last_contiguous_sequence_refuses_powers :
    let powers : Nat → Bool := fun i => ((List.range 64).map (2 ^ ·)).contains i
    powers 1 = true ∧ powers 4 = true ∧ powers 5 = false ∧ lastContiguousSequence powers = none := by
  decide +kernel

end ClioQueue
