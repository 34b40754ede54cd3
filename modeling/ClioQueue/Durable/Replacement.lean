/-
# Replacing a part of a text

`replaceAll old new text` replaces `old` by `new` at every place of a text, from the left
(`str.replace`).  When `new` is a word between two letters that a needle does not have, and the
needle is no part of the word, replacing never makes the needle appear (`infix_of_replaceAll`), and
replacing the needle itself leaves it nowhere (`not_infix_replaceAll_self`).
-/

import Mathlib.Data.List.Infix
import Mathlib.Tactic.Common

namespace Durable

variable {α : Type} {needle old word text : List α} {first last : α}

/-- A text without a letter that is part of two texts around the letter is part of one of them. -/
theorem infix_of_infix_append_cons {front back : List α} {c : α} (hc : c ∉ needle)
    (h : needle <:+: front ++ c :: back) : needle <:+: front ∨ needle <:+: back := by
  induction front with
  | nil =>
    rcases List.infix_cons_iff.1 h with hstarts | hrest
    · rcases needle with _ | ⟨d, needle⟩
      · exact .inl (List.infix_refl _)
      · exact absurd (List.cons_prefix_cons.1 hstarts).1 fun heq => hc (heq ▸ .head _)
    · exact .inr hrest
  | cons d front ih =>
    rcases List.infix_cons_iff.1 h with hstarts | hrest
    · -- a prefix of the whole without `c` ends before it
      refine .inl (List.prefix_iff_eq_take.1 ?_ ▸ List.take_prefix _ _).isInfix
      rcases List.prefix_or_prefix_of_prefix hstarts (List.prefix_append (d :: front) (c :: back))
        with hshort | ⟨rest, rfl⟩
      · exact hshort
      · rcases rest with _ | ⟨e, rest⟩
        · rw [List.append_nil]
        · have hmore := (List.prefix_append_right_inj (d :: front)).1 hstarts
          exact absurd (List.cons_prefix_cons.1 hmore).1 fun heq => hc (by simp [heq])
    · exact (ih hrest).imp_left fun h => h.trans (List.suffix_cons d front).isInfix

/-- A word between two letters. -/
def fenced (first last : α) (word : List α) : List α := first :: (word ++ [last])

/-- A needle that is no part of the fenced word. -/
structure Foreign (first last : α) (word needle : List α) : Prop where
  ne_nil : needle ≠ []
  first : first ∉ needle
  last : last ∉ needle
  word : ¬ needle <:+: word

theorem Foreign.infix_append (h : Foreign first last word needle)
    (hpart : needle <:+: fenced first last word ++ text) : needle <:+: text := by
  rw [fenced, List.cons_append, List.append_assoc] at hpart
  rcases infix_of_infix_append_cons h.first (show needle <:+: [] ++ first :: _ from hpart) with
    hnil | hpart
  · exact absurd (List.infix_nil.1 hnil) h.ne_nil
  · exact (infix_of_infix_append_cons h.last hpart).resolve_left h.word

theorem Foreign.not_infix (h : Foreign first last word needle) :
    ¬ needle <:+: fenced first last word := fun hpart => by
  rw [← List.append_nil (fenced first last word)] at hpart
  exact h.ne_nil (List.infix_nil.1 (h.infix_append hpart))

variable [DecidableEq α]

/-- `text.replace(old, new)` for an `old` that is not empty; the first `skip` letters have been
replaced. -/
def replaceFrom (old new : List α) : (skip : Nat) → List α → List α
  | _, [] => []
  | skip + 1, _ :: text => replaceFrom old new skip text
  | 0, c :: text =>
    if old.isPrefixOf (c :: text) then new ++ replaceFrom old new (old.length - 1) text
    else c :: replaceFrom old new 0 text

/-- `text.replace(old, new)`. -/
def replaceAll (old new text : List α) : List α := replaceFrom old new 0 text

/-- Nothing is replaced in a text without `old`. -/
theorem replaceAll_of_not_infix {new : List α} (h : ¬ old <:+: text) :
    replaceAll old new text = text := by
  unfold replaceAll
  induction text with
  | nil => rfl
  | cons c text ih =>
    have hrest : ¬ old <:+: text := fun hpart => h (hpart.trans (List.suffix_cons c text).isInfix)
    rw [replaceFrom, if_neg, ih hrest]
    exact fun hstarts => h (List.isPrefixOf_iff_prefix.1 hstarts).isInfix

/-- What the replaced text begins with, up to the first fence, the text begins with. -/
theorem prefix_of_prefix_replaceFrom (hfirst : first ∉ needle)
    (h : needle <+: replaceFrom old (fenced first last word) 0 text) : needle <+: text := by
  induction text generalizing needle with
  | nil => exact h
  | cons c text ih =>
    rcases needle with _ | ⟨d, needle⟩
    · exact List.nil_prefix
    · rw [replaceFrom] at h
      split_ifs at h
      · exact absurd (List.cons_prefix_cons.1 h).1 fun heq => hfirst (by simp [heq])
      · obtain ⟨rfl, hrest⟩ := List.cons_prefix_cons.1 h
        exact List.cons_prefix_cons.2 ⟨rfl, ih (fun hmem => hfirst (by simp [hmem])) hrest⟩

theorem Foreign.infix_of_replaceFrom (h : Foreign first last word needle) {skip : Nat}
    (hpart : needle <:+: replaceFrom old (fenced first last word) skip text) :
    needle <:+: text := by
  induction text generalizing skip with
  | nil => rwa [replaceFrom] at hpart
  | cons c text ih =>
    have hcons : needle <:+: text → needle <:+: c :: text :=
      fun h => h.trans (List.suffix_cons c text).isInfix
    rcases skip with _ | skip
    · rw [replaceFrom] at hpart
      split_ifs at hpart
      · exact hcons (ih (h.infix_append hpart))
      · rcases List.infix_cons_iff.1 hpart with hstarts | hrest
        · rcases needle with _ | ⟨d, needle⟩
          · exact absurd rfl h.ne_nil
          · obtain ⟨rfl, hrest⟩ := List.cons_prefix_cons.1 hstarts
            have hfirst : first ∉ needle := fun hmem => h.first (by simp [hmem])
            exact (List.cons_prefix_cons.2 ⟨rfl, prefix_of_prefix_replaceFrom hfirst hrest⟩).isInfix
        · exact hcons (ih hrest)
    · rw [replaceFrom] at hpart
      exact hcons (ih hpart)

/-- **Replacing makes no needle appear.** -/
theorem Foreign.infix_of_replaceAll (h : Foreign first last word needle)
    (hpart : needle <:+: replaceAll old (fenced first last word) text) : needle <:+: text :=
  h.infix_of_replaceFrom hpart

/-- **Replacing a needle leaves it nowhere.** -/
theorem Foreign.not_infix_replaceFrom (h : Foreign first last word needle) (skip : Nat)
    (text : List α) : ¬ needle <:+: replaceFrom needle (fenced first last word) skip text := by
  induction text generalizing skip with
  | nil =>
    rw [replaceFrom]
    exact fun hpart => h.ne_nil (List.infix_nil.1 hpart)
  | cons c text ih =>
    rcases skip with _ | skip
    · rw [replaceFrom]
      split_ifs with hmatch
      · exact fun hpart => ih _ (h.infix_append hpart)
      · intro hpart
        rcases List.infix_cons_iff.1 hpart with _ | hrest
        · have hfrom : needle <+: replaceFrom needle (fenced first last word) 0 (c :: text) := by
            rwa [replaceFrom, if_neg hmatch]
          exact hmatch (List.isPrefixOf_iff_prefix.2 (prefix_of_prefix_replaceFrom h.first hfrom))
        · exact ih 0 hrest
    · rw [replaceFrom]
      exact ih skip

/-- Replacing a text by itself changes nothing. -/
theorem replaceFrom_self (old text : List α) (hold : old ≠ []) (skip : Nat) :
    replaceFrom old old skip text = text.drop skip := by
  induction text generalizing skip with
  | nil => rw [replaceFrom, List.drop_nil]
  | cons c text ih =>
    rcases skip with _ | skip
    · rw [replaceFrom, List.drop_zero]
      split_ifs with hmatch
      · obtain ⟨rest, hrest⟩ := List.isPrefixOf_iff_prefix.1 hmatch
        rcases old with _ | ⟨d, old⟩
        · exact absurd rfl hold
        · obtain ⟨rfl, rfl⟩ := List.cons.inj hrest
          rw [ih]
          show d :: (old ++ (old ++ rest).drop old.length) = d :: (old ++ rest)
          rw [List.drop_left]
      · rw [ih, List.drop_zero]
    · rw [replaceFrom, ih, List.drop_succ_cons]

end Durable
