/-
# Samples of a history

A history is a list whose neighbours are related, a sample of it a sublist.  All the samples
of a list are histories exactly when any two of its members are related
(`forall_sublist_isChain_iff`).  A relation that is a transitive one with an exception is sampled
soundly exactly when no two members of the history, however far apart, are the exception
(`sampled_iff`).
-/

import Mathlib.Data.List.Chain
import Mathlib.Data.List.Pairwise

namespace Durable

variable {α : Type} {R S P : α → α → Prop} {V : α → Prop} {l : List α}

/-- All the sublists of a list are chains when its members are related pairwise. -/
theorem forall_sublist_isChain_iff :
    (∀ l' : List α, l'.Sublist l → l'.IsChain R) ↔ l.Pairwise R := by
  constructor
  · intro h
    rw [List.pairwise_iff_forall_sublist]
    intro a b hab
    exact List.isChain_pair.1 (h _ hab)
  · intro h l' hl'
    exact (h.sublist hl').isChain

/-- A chain of a relation that is transitive on some values, of such values. -/
theorem pairwise_of_isChain (hV : ∀ a ∈ l, V a)
    (htrans : ∀ a b c, V a → V b → V c → S a b → S b c → S a c) (h : l.IsChain S) :
    l.Pairwise S := by
  let T : α → α → Prop := fun a b => V a ∧ V b ∧ S a b
  have : IsTrans α T := by
    constructor
    rintro a b c ⟨ha, hb, hab⟩ ⟨-, hc, hbc⟩
    exact ⟨ha, hc, htrans a b c ha hb hc hab hbc⟩
  have hT : l.IsChain T := h.imp_of_mem_imp fun a b ha hb hab => ⟨hV a ha, hV b hb, hab⟩
  exact (List.isChain_iff_pairwise.1 hT).imp fun h => h.2.2

/-- **A transitive relation with an exception is sampled soundly where the exception does not
occur.** -/
theorem sampled_iff (hV : ∀ a ∈ l, V a) (hR : ∀ a b, V a → V b → (R a b ↔ S a b ∧ P a b))
    (htrans : ∀ a b c, V a → V b → V c → S a b → S b c → S a c) (h : l.IsChain R) :
    (∀ l' : List α, l'.Sublist l → l'.IsChain R) ↔ l.Pairwise P := by
  have hS : l.Pairwise S := pairwise_of_isChain hV htrans
    (h.imp_of_mem_imp fun a b ha hb hab => ((hR a b (hV a ha) (hV b hb)).1 hab).1)
  rw [forall_sublist_isChain_iff]
  constructor
  · intro hpair
    exact hpair.imp_of_mem fun {a b} ha hb hab => ((hR a b (hV a ha) (hV b hb)).1 hab).2
  · intro hpair
    refine (hS.and hpair).imp_of_mem fun {a b} ha hb hab => ?_
    exact (hR a b (hV a ha) (hV b hb)).2 hab

end Durable
