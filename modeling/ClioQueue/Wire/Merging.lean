/-
# Merging `dict`s

`d | e` keeps the keys of `d` in their order, adds the new ones of `e`, and gives every key of `e`
the value it has there.  A `JsonDict` is a list of entries whose keys are distinct; it is determined
by its keys and what is looked up at them, so that merging is idempotent from both sides
(`JsonDict.merge_merge_self`, `JsonDict.merge_self_merge`).
-/

import ClioQueue.Wire.Values

namespace Wire

section Assign

variable {α : Type} {d : List (String × α)} {key : String}

theorem keys_assign (d : List (String × α)) (key : String) (value : α) :
    (assign d key value).map Prod.fst =
      if key ∈ d.map Prod.fst then d.map Prod.fst else d.map Prod.fst ++ [key] := by
  induction d with
  | nil => rfl
  | cons e d ih =>
    obtain ⟨k, v⟩ := e
    by_cases hk : k = key
    · simp [assign, hk]
    · rw [assign, if_neg hk, List.map_cons, ih, List.map_cons]
      by_cases hmem : key ∈ d.map Prod.fst
      · rw [if_pos hmem, if_pos (.tail _ hmem)]
      · rw [if_neg hmem, if_neg, List.cons_append]
        exact List.not_mem_cons_of_ne_of_not_mem (Ne.symm hk) hmem

theorem mem_keys_iff_lookup : key ∈ d.map Prod.fst ↔ d.lookup key ≠ none := by
  rw [← Option.isSome_iff_ne_none, List.lookup_isSome_iff, List.mem_map]
  constructor
  · rintro ⟨e, he, rfl⟩
    exact ⟨e, he, beq_self_eq_true _⟩
  · rintro ⟨e, he, hkey⟩
    exact ⟨e, he, (beq_iff_eq.1 hkey).symm⟩

/-- Entries with distinct keys are found. -/
theorem lookup_of_mem (h : (d.map Prod.fst).Nodup) {value : α} (hmem : (key, value) ∈ d) :
    d.lookup key = some value := by
  induction d with
  | nil => cases hmem
  | cons e d ih =>
    obtain ⟨k, v⟩ := e
    obtain ⟨hfresh, hnd⟩ := List.nodup_cons.1 h
    rcases List.mem_cons.1 hmem with heq | hmem
    · cases heq
      rw [List.lookup_cons_self]
    · have hne : key ≠ k := fun hkey => hfresh (List.mem_map.2 ⟨_, hmem, hkey⟩)
      rw [List.lookup_cons, beq_eq_false_iff_ne.2 hne]
      exact ih hnd hmem

theorem map_some_eq (h : (d.map Prod.fst).Nodup) :
    d.map some = (d.map Prod.fst).map fun key => (d.lookup key).map (Prod.mk key) := by
  rw [List.map_map]
  refine List.map_congr_left fun entry hent => ?_
  rw [Function.comp_apply, lookup_of_mem h hent]
  rfl

/-- Entries with the same distinct keys, at which the same is found. -/
theorem eq_of_lookup {e : List (String × α)} (h : (d.map Prod.fst).Nodup)
    (hkeys : e.map Prod.fst = d.map Prod.fst) (hlook : ∀ key, e.lookup key = d.lookup key) :
    e = d := by
  have hsome : e.map some = d.map some := by
    rw [map_some_eq h, map_some_eq (hkeys ▸ h), hkeys]
    simp only [hlook]
  exact List.map_injective_iff.2 (Option.some_injective _) hsome

end Assign

namespace Fields

variable {ν : Type} (d e : Fields ν)

theorem lookup_merge (h : (e.map Prod.fst).Nodup) (key : String) :
    (d.merge e).lookup key = (e.lookup key).or (d.lookup key) := by
  induction e generalizing d with
  | nil => rfl
  | cons entry e ih =>
    obtain ⟨k, v⟩ := entry
    obtain ⟨hfresh, hnd⟩ := List.nodup_cons.1 h
    have hmerge : d.merge ((k, v) :: e) = Fields.merge (assign d k v) e := rfl
    rw [hmerge, ih _ hnd, lookup_assign, List.lookup_cons]
    by_cases hkey : key = k
    · subst hkey
      have hnone : e.lookup key = none := not_not.1 fun h => hfresh (mem_keys_iff_lookup.2 h)
      simp [hnone]
    · rw [if_neg hkey, beq_eq_false_iff_ne.2 hkey]

theorem keys_merge (h : (e.map Prod.fst).Nodup) :
    (d.merge e).map Prod.fst =
      d.map Prod.fst ++ (e.map Prod.fst).filter fun key => key ∉ d.map Prod.fst := by
  induction e generalizing d with
  | nil => simp [Fields.merge]
  | cons entry e ih =>
    obtain ⟨k, v⟩ := entry
    obtain ⟨hfresh, hnd⟩ := List.nodup_cons.1 h
    have hmerge : d.merge ((k, v) :: e) = Fields.merge (assign d k v) e := rfl
    rw [hmerge, ih _ hnd, keys_assign, List.map_cons]
    by_cases hmem : k ∈ d.map Prod.fst
    · rw [if_pos hmem, List.filter_cons_of_neg]
      exact fun h => of_decide_eq_true h hmem
    · have hsame : ((e.map Prod.fst).filter fun key => key ∉ d.map Prod.fst ++ [k]) =
          (e.map Prod.fst).filter fun key => key ∉ d.map Prod.fst := by
        refine List.filter_congr fun key hkey => ?_
        have hne : key ≠ k := fun heq => hfresh (heq ▸ hkey)
        simp [hne]
      rw [if_neg hmem, hsame, List.filter_cons, if_pos (decide_eq_true hmem),
        List.append_assoc, List.singleton_append]

end Fields

/-! ### What an update leaves as it was -/

namespace Fields

variable {ν : Type} (d : Fields ν) {e : Fields ν} {names : List String} {key : String}

theorem merge_append (e f : Fields ν) : d.merge (e ++ f) = (d.merge e).merge f :=
  List.foldl_append

@[simp]
theorem get_assign (key other : String) (value : Value ν) :
    get (assign d key value) other = if other = key then value else d.get other := by
  rw [get, lookup_assign]
  split_ifs <;> rfl

/-- An update leaves what it does not name. -/
theorem get_merge_of_not_mem (h : key ∉ e.map Prod.fst) : (d.merge e).get key = d.get key := by
  induction e generalizing d with
  | nil => rfl
  | cons entry e ih =>
    have hne : key ≠ entry.1 := List.ne_of_not_mem_cons h
    have hrest : key ∉ e.map Prod.fst := List.not_mem_of_not_mem_cons h
    have hmerge : d.merge (entry :: e) = Fields.merge (assign d entry.1 entry.2) e := rfl
    rw [hmerge, ih _ hrest, get_assign, if_neg hne]

/-- The last value that an update names. -/
theorem get_merge_append_cons (front : Fields ν) {back : Fields ν} (value : Value ν)
    (h : key ∉ back.map Prod.fst) : (d.merge (front ++ (key, value) :: back)).get key = value := by
  have hmerge : (d.merge front).merge ((key, value) :: back) =
      Fields.merge (assign (d.merge front) key value) back := rfl
  rw [merge_append, hmerge, get_merge_of_not_mem _ h, get_assign, if_pos rfl]

theorem hasExactly_assign (value : Value ν) (h : d.hasExactly names = true) (hkey : key ∈ names) :
    hasExactly (assign d key value) names = true := by
  simp only [hasExactly, hasAll, onlyHas, Bool.and_eq_true, List.all_eq_true, has,
    List.contains_iff_mem, lookup_assign] at h ⊢
  constructor
  · intro name hname
    split_ifs
    · rfl
    · exact h.1 name hname
  · intro e he
    have hmem := List.mem_map_of_mem (f := Prod.fst) he
    rw [keys_assign] at hmem
    split_ifs at hmem with hold
    · obtain ⟨e', he', heq⟩ := List.mem_map.1 hmem
      exact heq ▸ h.2 e' he'
    · rcases List.mem_append.1 hmem with hmem | hmem
      · obtain ⟨e', he', heq⟩ := List.mem_map.1 hmem
        exact heq ▸ h.2 e' he'
      · exact List.mem_singleton.1 hmem ▸ hkey

/-- An update of some of its fields leaves a `dict` with the same fields. -/
theorem hasExactly_merge (h : d.hasExactly names = true)
    (hkeys : ∀ key ∈ e.map Prod.fst, key ∈ names) : (d.merge e).hasExactly names = true := by
  induction e generalizing d with
  | nil => exact h
  | cons entry e ih =>
    obtain ⟨hkey, hrest⟩ := List.forall_mem_cons.1 hkeys
    exact ih _ (hasExactly_assign d entry.2 h hkey) hrest

end Fields

/-- A `dict`: its keys are distinct. -/
structure JsonDict (ν : Type) where
  fields : Fields ν
  distinct : (fields.map Prod.fst).Nodup

namespace JsonDict

variable {ν : Type}

/-- The empty `dict`. -/
def empty : JsonDict ν := ⟨[], List.nodup_nil⟩

/-- `dict.get`. -/
def get (d : JsonDict ν) (key : String) : Value ν := d.fields.get key

/-- `d | e`. -/
def merge (d e : JsonDict ν) : JsonDict ν where
  fields := d.fields.merge e.fields
  distinct := by
    rw [Fields.keys_merge _ _ e.distinct]
    refine List.nodup_append'.2 ⟨d.distinct, e.distinct.filter _, ?_⟩
    intro key hkey hfilt
    exact of_decide_eq_true (List.mem_filter.1 hfilt).2 hkey

/-- `{key: value for key, value in d.items() if p(key)}`. -/
def restrict (d : JsonDict ν) (p : String → Bool) : JsonDict ν where
  fields := d.fields.filter fun entry => p entry.1
  distinct := d.distinct.sublist (List.filter_sublist.map Prod.fst)

theorem mem_keys_restrict {d : JsonDict ν} {p : String → Bool} {key : String} :
    key ∈ (d.restrict p).fields.map Prod.fst ↔ key ∈ d.fields.map Prod.fst ∧ p key = true := by
  simp only [restrict, List.mem_map, List.mem_filter]
  constructor
  · rintro ⟨entry, ⟨hmem, hp⟩, rfl⟩
    exact ⟨⟨entry, hmem, rfl⟩, hp⟩
  · rintro ⟨⟨entry, hmem, rfl⟩, hp⟩
    exact ⟨entry, ⟨hmem, hp⟩, rfl⟩

theorem ext_of_lookup {d e : JsonDict ν} (hkeys : e.fields.map Prod.fst = d.fields.map Prod.fst)
    (hlook : ∀ key, e.fields.lookup key = d.fields.lookup key) : e = d := by
  obtain ⟨fields, distinct⟩ := d
  obtain ⟨_, _⟩ := e
  cases eq_of_lookup distinct hkeys hlook
  rfl

theorem lookup_merge (d e : JsonDict ν) (key : String) :
    (d.merge e).fields.lookup key = (e.fields.lookup key).or (d.fields.lookup key) :=
  Fields.lookup_merge _ _ e.distinct key

theorem keys_merge (d e : JsonDict ν) : (d.merge e).fields.map Prod.fst = d.fields.map Prod.fst ++
    (e.fields.map Prod.fst).filter fun key => key ∉ d.fields.map Prod.fst :=
  Fields.keys_merge _ _ e.distinct

theorem merge_self (d : JsonDict ν) : d.merge d = d := by
  apply ext_of_lookup
  · rw [keys_merge, List.filter_eq_nil_iff.2 (by simp), List.append_nil]
  · intro _
    rw [lookup_merge, Option.or_self]

/-- What was merged last is merged again. -/
theorem merge_merge_self (d e : JsonDict ν) : (d.merge e).merge e = d.merge e := by
  apply ext_of_lookup
  · rw [keys_merge (d.merge e) e, List.filter_eq_nil_iff.2, List.append_nil]
    intro key hkey
    rw [keys_merge]
    by_cases hmem : key ∈ d.fields.map Prod.fst
    · simp [hmem]
    · simp [hmem, hkey]
  · intro key
    rw [lookup_merge, lookup_merge]
    cases e.fields.lookup key <;> rfl

/-- What was merged first is merged under it again. -/
theorem merge_self_merge (d e : JsonDict ν) : d.merge (d.merge e) = d.merge e := by
  apply ext_of_lookup
  · rw [keys_merge d (d.merge e), keys_merge, List.filter_append,
      List.filter_eq_nil_iff.2 (by simp), List.nil_append]
    simp
  · intro key
    rw [lookup_merge, lookup_merge]
    rcases e.fields.lookup key with _ | v
    · cases d.fields.lookup key <;> rfl
    · rfl

end JsonDict

end Wire
