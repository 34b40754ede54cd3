/-
# Lists in the order of a key

A table kept as a list whose keys increase strictly: sorting a list without repeated
keys gives one, removing entries keeps it one, and two of them with the same entries
are equal.
-/

import Mathlib.Data.List.Sort
import Mathlib.Order.Defs.LinearOrder
import Mathlib.Tactic.Common

namespace Durable

variable {α κ : Type} [LinearOrder κ] {key : α → κ} {l l' : List α}

/-- `sorted(items, key=key)`. -/
def sortByKey (key : α → κ) (l : List α) : List α := l.insertionSort fun a b => key a ≤ key b

/-- The keys increase strictly. -/
def Increasing (key : α → κ) (l : List α) : Prop := l.Pairwise fun a b => key a < key b

theorem sortByKey_perm (key : α → κ) (l : List α) : (sortByKey key l).Perm l :=
  List.perm_insertionSort _ _

@[simp]
theorem mem_sortByKey {a : α} : a ∈ sortByKey key l ↔ a ∈ l := (sortByKey_perm key l).mem_iff

@[simp]
theorem length_sortByKey : (sortByKey key l).length = l.length := (sortByKey_perm key l).length_eq

theorem pairwise_sortByKey (key : α → κ) (l : List α) :
    (sortByKey key l).Pairwise fun a b => key a ≤ key b := by
  have : IsTrans α fun a b => key a ≤ key b := ⟨fun _ _ _ => le_trans⟩
  have : Std.Total fun a b : α => key a ≤ key b := ⟨fun a b => le_total (key a) (key b)⟩
  exact List.pairwise_insertionSort _ l

theorem increasing_of_nodup (hsort : l.Pairwise fun a b => key a ≤ key b)
    (hnd : (l.map key).Nodup) : Increasing key l := by
  have hne : l.Pairwise fun a b => key a ≠ key b := List.pairwise_map.1 hnd
  exact hsort.imp₂ (fun _ _ hle hne => lt_of_le_of_ne hle hne) hne

/-- **Sorting a list without repeated keys.** -/
theorem increasing_sortByKey (hnd : (l.map key).Nodup) : Increasing key (sortByKey key l) :=
  increasing_of_nodup (pairwise_sortByKey key l) (((sortByKey_perm key l).map key).nodup_iff.2 hnd)

namespace Increasing

theorem nodup_keys (h : Increasing key l) : (l.map key).Nodup :=
  List.pairwise_map.2 (h.imp fun hlt => hlt.ne)

theorem filter (h : Increasing key l) (p : α → Bool) : Increasing key (l.filter p) :=
  h.sublist List.filter_sublist

theorem eq_of_key (h : Increasing key l) {a b : α} (ha : a ∈ l) (hb : b ∈ l)
    (hkey : key a = key b) : a = b :=
  List.inj_on_of_nodup_map h.nodup_keys ha hb hkey

/-- **The entries determine the list.** -/
theorem eq_of_mem_iff (h : Increasing key l) (h' : Increasing key l')
    (hmem : ∀ a, a ∈ l ↔ a ∈ l') : l = l' := by
  have hperm : l.Perm l' :=
    (List.perm_ext_iff_of_nodup h.nodup_keys.of_map h'.nodup_keys.of_map).2 hmem
  refine hperm.eq_of_pairwise (fun a b _ _ hab hba => ?_) h h'
  exact absurd (hab.trans hba) (lt_irrefl _)

end Increasing

end Durable
