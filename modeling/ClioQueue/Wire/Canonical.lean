/-
# Values with distinct keys

A `dict` has each key once.  What is looked up in such a value depends neither on the order of its
entries nor on the numbers being compared as `==` does.
-/

import ClioQueue.Wire.Merging

namespace Wire

theorem mem_of_lookup {α : Type} {d : List (String × α)} {key : String} {value : α}
    (h : d.lookup key = some value) : (key, value) ∈ d := by
  obtain ⟨_, _, rfl, -⟩ := List.lookup_eq_some_iff.1 h
  exact List.mem_append_right _ List.mem_cons_self

namespace Value

variable {ν : Type}

mutual

/-- No `dict` in the value has a key twice. -/
def Distinct : Value ν → Prop
  | .null | .bool _ | .num _ | .str _ => True
  | .list items => DistinctItems items
  | .dict fields => (fields.map Prod.fst).Nodup ∧ DistinctFields fields

/-- Nor any of the items. -/
def DistinctItems : List (Value ν) → Prop
  | [] => True
  | item :: items => Distinct item ∧ DistinctItems items

/-- Nor any of the values of the entries. -/
def DistinctFields : List (String × Value ν) → Prop
  | [] => True
  | (_, value) :: fields => Distinct value ∧ DistinctFields fields

end

theorem distinctFields_iff {fields : Fields ν} :
    DistinctFields fields ↔ ∀ e ∈ fields, Distinct e.2 := by
  induction fields with
  | nil => simp [DistinctFields]
  | cons e fields ih =>
    obtain ⟨_, _⟩ := e
    rw [DistinctFields, ih, List.forall_mem_cons]

theorem distinct_dict {fields : Fields ν} :
    Distinct (.dict fields) ↔ (fields.map Prod.fst).Nodup ∧ ∀ e ∈ fields, Distinct e.2 := by
  rw [Distinct, distinctFields_iff]

theorem distinctItems_iff {items : List (Value ν)} :
    DistinctItems items ↔ ∀ item ∈ items, Distinct item := by
  induction items with
  | nil => simp [DistinctItems]
  | cons item items ih => rw [DistinctItems, ih, List.forall_mem_cons]

theorem Distinct.get {fields : Fields ν} (h : Distinct (.dict fields)) (key : String) :
    Distinct (Fields.get fields key) := by
  rw [Fields.get]
  rcases hlook : fields.lookup key with _ | value
  · trivial
  · exact (distinct_dict.1 h).2 (key, value) (mem_of_lookup hlook)

/-- What is looked up in entries in another order, with other values. -/
theorem lookup_of_perm {α β : Type} {f : α → β} {d : List (String × α)} {e : List (String × β)}
    (hperm : e.Perm (d.map fun x => (x.1, f x.2))) (h : (d.map Prod.fst).Nodup) (key : String) :
    e.lookup key = (d.lookup key).map f := by
  have hkeys : (e.map Prod.fst).Perm (d.map Prod.fst) := by
    have hmap := hperm.map Prod.fst
    rwa [List.map_map] at hmap
  rcases hlook : d.lookup key with _ | value
  · have hkey : key ∉ e.map Prod.fst := by
      rw [hkeys.mem_iff]
      exact fun hmem => mem_keys_iff_lookup.1 hmem hlook
    exact Classical.not_not.1 fun hnone => hkey (mem_keys_iff_lookup.2 hnone)
  · refine lookup_of_mem (hkeys.nodup_iff.2 h) (hperm.mem_iff.2 ?_)
    exact List.mem_map.2 ⟨(key, value), mem_of_lookup hlook, rfl⟩

/-! ### What `==` compares -/

section Plain

variable {φ : Type} [PyFloat φ]

theorem plainFields_perm (fields : Fields (Number φ)) :
    (plainFields fields).Perm (fields.map fun e => (e.1, plain e.2)) := by
  induction fields with
  | nil => exact List.Perm.refl _
  | cons e fields ih =>
    obtain ⟨_, _⟩ := e
    rw [plainFields, List.map_cons]
    exact (List.perm_orderedInsert _ _ _).trans (ih.cons _)

/-- What is looked up in a `dict`, as `==` compares it. -/
theorem get_plainFields {fields : Fields (Number φ)} (h : (fields.map Prod.fst).Nodup)
    (key : String) : Fields.get (plainFields fields) key = (Fields.get fields key).plain := by
  rw [Fields.get, Fields.get, lookup_of_perm (plainFields_perm fields) h]
  cases fields.lookup key <;> rfl

end Plain

end Value

end Wire
