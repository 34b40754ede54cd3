/-
# The text of a JSON document

`json.dumps(value, indent=2, sort_keys=True)`, which the journals of the bootstrap are
written with, and what reading the keys of a sorted object gives: the entries of
`Json.sortFields` are those of the object, so under distinct keys every lookup finds what it
found before, with the keys below it sorted.
-/

import ClioQueue.Json
import Mathlib.Data.List.Perm.Lattice

namespace ClioQueue

namespace Json

/-- One digit of `\uXXXX`. -/
def hexDigit (n : Nat) : Char :=
  if n % 16 < 10 then Char.ofNat (48 + n % 16) else Char.ofNat (87 + n % 16)

/-- `\uXXXX`. -/
def escapeUnit (n : Nat) : List Char :=
  ['\\', 'u', hexDigit (n / 4096), hexDigit (n / 256), hexDigit (n / 16), hexDigit n]

/-- A character of a string with `ensure_ascii`. -/
def escapeChar (c : Char) : List Char :=
  if c = '"' then ['\\', '"']
  else if c = '\\' then ['\\', '\\']
  else if c = '\n' then ['\\', 'n']
  else if c = '\r' then ['\\', 'r']
  else if c = '\t' then ['\\', 't']
  else if c = '\x08' then ['\\', 'b']
  else if c = '\x0c' then ['\\', 'f']
  else if 32 ≤ c.toNat ∧ c.toNat < 127 then [c]
  else if c.toNat < 65536 then escapeUnit c.toNat
  else escapeUnit (55296 + (c.toNat - 65536) / 1024) ++
    escapeUnit (56320 + (c.toNat - 65536) % 1024)

/-- A quoted string. -/
def quote (text : String) : List Char := '"' :: (text.toList.flatMap escapeChar ++ ['"'])

/-- A new line at a level of nesting. -/
def newline (level : Nat) : List Char := '\n' :: List.replicate (2 * level) ' '

mutual

/-- `json.dumps(value, indent=2)`, at a level of nesting. -/
def dumps (level : Nat) : Json → List Char
  | .null => ['n', 'u', 'l', 'l']
  | .bool true => ['t', 'r', 'u', 'e']
  | .bool false => ['f', 'a', 'l', 's', 'e']
  | .num n fraction => (toString n).toList ++ fraction.toList
  | .str text => quote text
  | .arr [] => ['[', ']']
  | .arr (item :: items) =>
    '[' :: newline (level + 1) ++ dumps (level + 1) item ++ dumpsItems (level + 1) items ++
      newline level ++ [']']
  | .obj [] => ['\x7b', '\x7d']
  | .obj ((key, value) :: fields) =>
    '\x7b' :: newline (level + 1) ++ quote key ++ [':', ' '] ++ dumps (level + 1) value ++
      dumpsFields (level + 1) fields ++ newline level ++ ['\x7d']

/-- The items of an array after the first. -/
def dumpsItems (level : Nat) : List Json → List Char
  | [] => []
  | item :: items => ',' :: newline level ++ dumps level item ++ dumpsItems level items

/-- The entries of an object after the first. -/
def dumpsFields (level : Nat) : List (String × Json) → List Char
  | [] => []
  | (key, value) :: fields =>
    ',' :: newline level ++ quote key ++ [':', ' '] ++ dumps level value ++ dumpsFields level fields

end

/-- The bytes of the file that holds a document: its text, which is ASCII, and a newline. -/
def fileBytes (document : Json) : Nat := (dumps 0 document).length + 1

example : fileBytes (.obj [("a", .num 1 ""), ("b", .arr [.null])]) = 36 := by decide +kernel

/-! ### Sorted keys -/

theorem sortFields_eq (fields : Dict) :
    sortFields fields =
      (fields.map fun e => (e.1, sortKeys e.2)).insertionSort fun a b => a.1 ≤ b.1 := by
  induction fields with
  | nil => rfl
  | cons e fields ih =>
    obtain ⟨_, _⟩ := e
    rw [sortFields, ih, List.map_cons, List.insertionSort_cons]

theorem sortFields_perm (fields : Dict) :
    (sortFields fields).Perm (fields.map fun e => (e.1, sortKeys e.2)) := by
  rw [sortFields_eq]
  exact List.perm_insertionSort _ _

/-- Sorting the documents of a list of typed entries sorts the list. -/
theorem sortFields_map {α : Type} (entries : List (String × α)) (toJson : α → Json) :
    ∃ sorted : List (String × α), sorted.Perm entries ∧
      sortFields (entries.map fun e => (e.1, toJson e.2)) =
        sorted.map fun e => (e.1, sortKeys (toJson e.2)) := by
  refine ⟨entries.insertionSort fun a b => a.1 ≤ b.1, List.perm_insertionSort _ _, ?_⟩
  rw [sortFields_eq, List.map_map]
  symm
  exact List.map_insertionSort _ _ _ _ fun _ _ _ _ => Iff.rfl

end Json

namespace Dict

variable {d : Dict} {key : String}

/-- With distinct keys an entry is what a lookup finds. -/
theorem lookup_eq_some_iff_mem {α : Type} {d : List (String × α)} (h : (d.map Prod.fst).Nodup)
    {value : α} : d.lookup key = some value ↔ (key, value) ∈ d := by
  induction d with
  | nil => simp
  | cons e d ih =>
    obtain ⟨k, v⟩ := e
    rw [List.map_cons, List.nodup_cons] at h
    rw [List.lookup_cons, List.mem_cons, Prod.mk.injEq]
    by_cases hk : key = k
    · subst hk
      have hnot : (key, value) ∉ d := by
        intro hmem
        have hkey : key ∈ d.map Prod.fst := List.mem_map.2 ⟨_, hmem, rfl⟩
        exact h.1 hkey
      simp [hnot, eq_comm]
    · simp [hk, beq_eq_decide, ih h.2]

/-- The order of distinct keys does not matter to a lookup. -/
theorem lookup_perm {α : Type} {d d' : List (String × α)} (h : (d.map Prod.fst).Nodup)
    (hperm : d'.Perm d) (key : String) : d'.lookup key = d.lookup key := by
  have h' : (d'.map Prod.fst).Nodup := (hperm.map _).nodup_iff.2 h
  rw [Option.ext_iff]
  intro _
  rw [lookup_eq_some_iff_mem h, lookup_eq_some_iff_mem h', hperm.mem_iff]

theorem lookup_map {α β : Type} (d : List (String × α)) (f : α → β) (key : String) :
    (d.map fun e => (e.1, f e.2)).lookup key = (d.lookup key).map f := by
  induction d with
  | nil => rfl
  | cons e d ih =>
    rw [List.map_cons, List.lookup_cons, List.lookup_cons, ih]
    cases key == e.1 <;> rfl

/-- **Reading a sorted object.** -/
theorem lookup_sortFields (h : (d.map Prod.fst).Nodup) (key : String) :
    (Json.sortFields d).lookup key = (d.lookup key).map Json.sortKeys := by
  have hkeys : ((d.map fun e => (e.1, Json.sortKeys e.2)).map Prod.fst).Nodup := by
    rw [List.map_map]
    exact h
  rw [lookup_perm hkeys (Json.sortFields_perm d), lookup_map]

theorem get_sortFields (h : (d.map Prod.fst).Nodup) (key : String) :
    get (Json.sortFields d) key = (get d key).sortKeys := by
  rw [get, get, lookup_sortFields h]
  cases d.lookup key <;> rfl

theorem has_iff : has d key = true ↔ key ∈ d.map Prod.fst := by
  rw [has, List.lookup_isSome_iff, List.mem_map]
  simp only [beq_iff_eq]
  exact exists_congr fun _ => and_congr_right fun _ => eq_comm

theorem onlyHas_iff {keys : List String} :
    onlyHas d keys = true ↔ ∀ key ∈ d.map Prod.fst, key ∈ keys := by
  simp only [onlyHas, List.all_eq_true, List.contains_iff_mem, List.mem_map]
  constructor
  · rintro h _ ⟨e, he, rfl⟩
    exact h e he
  · intro h e he
    exact h e.1 ⟨e, he, rfl⟩

/-- Assignment to a key that is there keeps the keys. -/
theorem map_fst_set (h : has d key = true) (value : Json) :
    (set d key value).map Prod.fst = d.map Prod.fst := by
  induction d with
  | nil => cases h
  | cons e d ih =>
    obtain ⟨k, v⟩ := e
    rw [set]
    split_ifs with hk
    · rfl
    · have hrest : has d key = true := by
        rw [has_iff, List.map_cons, List.mem_cons] at h
        exact has_iff.2 (h.resolve_left fun heq => hk heq.symm)
      rw [List.map_cons, List.map_cons, ih hrest]

theorem has_sortFields (d : Dict) (key : String) : has (Json.sortFields d) key = has d key := by
  have hkeys := ((Json.sortFields_perm d).map Prod.fst).mem_iff (a := key)
  rw [List.map_map] at hkeys
  exact Bool.eq_iff_iff.2 (has_iff.trans (hkeys.trans has_iff.symm))

theorem onlyHas_sortFields (d : Dict) (keys : List String) :
    onlyHas (Json.sortFields d) keys = onlyHas d keys := by
  rw [onlyHas, (Json.sortFields_perm d).all_eq, List.all_map]
  rfl

theorem nodup_set (h : (d.map Prod.fst).Nodup) (key : String) (value : Json) :
    ((set d key value).map Prod.fst).Nodup := by
  induction d with
  | nil => exact List.nodup_singleton key
  | cons e d ih =>
    obtain ⟨k, v⟩ := e
    rw [List.map_cons, List.nodup_cons] at h
    rw [set]
    split_ifs with hk
    · exact List.nodup_cons.2 h
    · refine List.nodup_cons.2 ⟨fun hmem => ?_, ih h.2⟩
      obtain ⟨value', hv'⟩ := Option.isSome_iff_exists.1 (has_iff.2 hmem)
      rw [lookup_set, if_neg hk] at hv'
      exact h.1 (has_iff.1 (Option.isSome_iff_exists.2 ⟨value', hv'⟩))

theorem mem_set {value : Json} {e : String × Json} (h : e ∈ set d key value) :
    e = (key, value) ∨ e ∈ d := by
  induction d with
  | nil => exact .inl (List.mem_singleton.1 h)
  | cons e' d ih =>
    obtain ⟨k, v⟩ := e'
    rw [set] at h
    split_ifs at h with hk
    · rcases List.mem_cons.1 h with rfl | h
      · exact .inl (by rw [hk])
      · exact .inr (List.mem_cons_of_mem _ h)
    · rcases List.mem_cons.1 h with rfl | h
      · exact .inr List.mem_cons_self
      · exact (ih h).imp_right (List.mem_cons_of_mem _)

end Dict

/-! ### Documents without a key twice -/

namespace Json

variable {d fields : Dict} {value : Json}

mutual

/-- No object has a key twice. -/
def Distinct : Json → Prop
  | .null | .bool _ | .num .. | .str _ => True
  | .arr items => DistinctItems items
  | .obj fields => (fields.map Prod.fst).Nodup ∧ DistinctFields fields

/-- No object among the items has a key twice. -/
def DistinctItems : List Json → Prop
  | [] => True
  | item :: items => Distinct item ∧ DistinctItems items

/-- No object among the values has a key twice. -/
def DistinctFields : List (String × Json) → Prop
  | [] => True
  | (_, value) :: fields => Distinct value ∧ DistinctFields fields

end

theorem distinctFields_iff : DistinctFields fields ↔ ∀ e ∈ fields, Distinct e.2 := by
  induction fields with
  | nil => simp [DistinctFields]
  | cons e fields ih =>
    obtain ⟨_, _⟩ := e
    rw [DistinctFields, ih, List.forall_mem_cons]

theorem distinct_obj :
    Distinct (.obj fields) ↔ (fields.map Prod.fst).Nodup ∧ ∀ e ∈ fields, Distinct e.2 := by
  rw [Distinct, distinctFields_iff]

theorem nodup_sortFields (h : (fields.map Prod.fst).Nodup) :
    ((sortFields fields).map Prod.fst).Nodup := by
  rw [((sortFields_perm fields).map Prod.fst).nodup_iff, List.map_map]
  exact h

mutual

/-- **Sorting keeps distinct keys.** -/
theorem Distinct.sortKeys : ∀ {value : Json}, Distinct value → Distinct value.sortKeys
  | .null, _ | .bool _, _ | .num .., _ | .str _, _ => by simp only [Json.sortKeys, Distinct]
  | .arr items, h => by
      rw [Json.sortKeys, Distinct]
      exact DistinctItems.sortItems h
  | .obj fields, h => by
      rw [Json.sortKeys]
      refine distinct_obj.2 ⟨nodup_sortFields h.1, fun e he => ?_⟩
      obtain ⟨e', he', rfl⟩ := List.mem_map.1 ((sortFields_perm fields).mem_iff.1 he)
      exact DistinctFields.sortFields h.2 e' he'

theorem DistinctItems.sortItems : ∀ {items : List Json}, DistinctItems items →
    DistinctItems (Json.sortItems items)
  | [], _ => trivial
  | _ :: _, h => ⟨Distinct.sortKeys h.1, DistinctItems.sortItems h.2⟩

theorem DistinctFields.sortFields : ∀ {fields : List (String × Json)}, DistinctFields fields →
    ∀ e ∈ fields, Distinct e.2.sortKeys
  | [], _, _, he => absurd he List.not_mem_nil
  | (_, value) :: fields, h, e, he => by
      rcases List.mem_cons.1 he with rfl | he
      · have hv : Distinct value := h.1
        exact hv.sortKeys
      · exact DistinctFields.sortFields h.2 e he

end

theorem Distinct.get (h : Distinct (.obj d)) (key : String) : Distinct (d.get key) := by
  rw [Dict.get]
  rcases hlook : d.lookup key with _ | _
  · trivial
  · exact (distinct_obj.1 h).2 _ ((Dict.lookup_eq_some_iff_mem h.1).1 hlook)

theorem Distinct.set (h : Distinct (.obj d)) (key : String) (hv : Distinct value) :
    Distinct (.obj (d.set key value)) := by
  refine distinct_obj.2 ⟨Dict.nodup_set h.1 key value, fun e he => ?_⟩
  rcases Dict.mem_set he with rfl | he
  · exact hv
  · exact (distinct_obj.1 h).2 e he

/-- Neither an array nor an object. -/
def isLeaf : Json → Bool
  | .null | .bool _ | .num .. | .str _ => true
  | _ => false

theorem sortKeys_of_isLeaf (h : value.isLeaf = true) : value.sortKeys = value := by
  cases value with
  | arr => cases h
  | obj => cases h
  | _ => simp only [sortKeys]

theorem distinct_of_isLeaf (h : value.isLeaf = true) : Distinct value := by
  cases value with
  | arr => cases h
  | obj => cases h
  | _ => simp only [Distinct]

theorem distinct_obj_of_isLeaf (hkeys : (fields.map Prod.fst).Nodup)
    (h : (fields.all fun e => e.2.isLeaf) = true) : Distinct (.obj fields) :=
  distinct_obj.2 ⟨hkeys, fun e he => distinct_of_isLeaf (List.all_eq_true.1 h e he)⟩

end Json

end ClioQueue
