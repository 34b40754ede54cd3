/-
# JSON documents

The untyped parts of the queue's records (`metadata`, event payloads, MCP
arguments) are `dict[str, Any]` values that have been through JSON.  An object
keeps its entries in insertion order; `Dict.get` is `dict.get`, for which a
missing key and an explicit `null` look alike, and `Dict.set` is item
assignment, which keeps the place of an existing key.
-/

import Mathlib.Data.List.Sort
import Mathlib.Logic.Basic
import Mathlib.Tactic.Common

namespace ClioQueue

/-- A JSON value.  A number is an integer part and the literal text of what
follows it, empty for an integer. -/
inductive Json where
  | null
  | bool (b : Bool)
  | num (n : Int) (fraction : String)
  | str (s : String)
  | arr (items : List Json)
  | obj (fields : List (String × Json))

namespace Json

mutual

/-- Structural equality, decided. -/
def decEq : (a b : Json) → Decidable (a = b)
  | .null, .null => isTrue rfl
  | .bool a, .bool b => decidable_of_iff (a = b) (by simp)
  | .num a f, .num b g => decidable_of_iff (a = b ∧ f = g) (by simp)
  | .str a, .str b => decidable_of_iff (a = b) (by simp)
  | .arr a, .arr b => @decidable_of_iff _ (a = b) (by simp) (decEqItems a b)
  | .obj a, .obj b => @decidable_of_iff _ (a = b) (by simp) (decEqFields a b)
  | .null, .bool _ | .null, .num .. | .null, .str _ | .null, .arr _ | .null, .obj _
  | .bool _, .null | .bool _, .num .. | .bool _, .str _ | .bool _, .arr _ | .bool _, .obj _
  | .num .., .null | .num .., .bool _ | .num .., .str _ | .num .., .arr _ | .num .., .obj _
  | .str _, .null | .str _, .bool _ | .str _, .num .. | .str _, .arr _ | .str _, .obj _
  | .arr _, .null | .arr _, .bool _ | .arr _, .num .. | .arr _, .str _ | .arr _, .obj _
  | .obj _, .null | .obj _, .bool _ | .obj _, .num .. | .obj _, .str _ | .obj _, .arr _ =>
    isFalse nofun

/-- Equality of array items. -/
def decEqItems : (a b : List Json) → Decidable (a = b)
  | [], [] => isTrue rfl
  | [], _ :: _ | _ :: _, [] => isFalse nofun
  | x :: xs, y :: ys =>
    @decidable_of_iff _ (x = y ∧ xs = ys) (by simp)
      (@instDecidableAnd _ _ (decEq x y) (decEqItems xs ys))

/-- Equality of object entries. -/
def decEqFields : (a b : List (String × Json)) → Decidable (a = b)
  | [], [] => isTrue rfl
  | [], _ :: _ | _ :: _, [] => isFalse nofun
  | (k, x) :: xs, (l, y) :: ys =>
    @decidable_of_iff _ (k = l ∧ x = y ∧ xs = ys) (by simp [and_assoc])
      (@instDecidableAnd _ _ (inferInstance : Decidable (k = l))
        (@instDecidableAnd _ _ (decEq x y) (decEqFields xs ys)))

end

instance : DecidableEq Json := decEq

mutual

/-- The value with the keys of every object sorted (`json.dumps(sort_keys=True)`). -/
def sortKeys : Json → Json
  | .arr items => .arr (sortItems items)
  | .obj fields => .obj (sortFields fields)
  | .null => .null
  | .bool b => .bool b
  | .num n fraction => .num n fraction
  | .str s => .str s

/-- The items of an array, each with sorted keys. -/
def sortItems : List Json → List Json
  | [] => []
  | x :: xs => sortKeys x :: sortItems xs

/-- The entries of an object in the order of their keys. -/
def sortFields : List (String × Json) → List (String × Json)
  | [] => []
  | (k, x) :: xs => (sortFields xs).orderedInsert (fun a b => a.1 ≤ b.1) (k, sortKeys x)

end

/-- The string of a string value. -/
def str? : Json → Option String
  | .str s => some s
  | _ => none

/-- `isinstance(value, str) and value`: the string of a non-empty string value. -/
def nonemptyStr? : Json → Option String
  | .str s => if s = "" then none else some s
  | _ => none

/-- The value of an integer. -/
def int? : Json → Option Int
  | .num n fraction => if fraction = "" then some n else none
  | _ => none

/-- The entries of an object. -/
def obj? : Json → Option (List (String × Json))
  | .obj fields => some fields
  | _ => none

/-- The items of an array. -/
def arr? : Json → Option (List Json)
  | .arr items => some items
  | _ => none

end Json

/-- A `dict[str, Any]`. -/
abbrev Dict : Type := List (String × Json)

namespace Dict

/-- `dict.get`: `null` for a missing key. -/
def get (d : Dict) (key : String) : Json := (d.lookup key).getD .null

/-- `key in dict`. -/
def has (d : Dict) (key : String) : Bool := (d.lookup key).isSome

/-- `dict[key] = value`. -/
def set : Dict → String → Json → Dict
  | [], key, value => [(key, value)]
  | (k, v) :: d, key, value => if k = key then (k, value) :: d else (k, v) :: set d key value

/-- `dict.pop(key, None)`. -/
def pop (d : Dict) (key : String) : Dict := d.filter fun e => e.1 ≠ key

/-- `dict.update`. -/
def update (d other : Dict) : Dict := other.foldl (fun d e => set d e.1 e.2) d

theorem lookup_set (d : Dict) (key other : String) (value : Json) :
    (set d key value).lookup other = if other = key then some value else d.lookup other := by
  induction d with
  | nil => by_cases h : other = key <;> simp [set, List.lookup_cons, beq_eq_decide, h]
  | cons e d ih =>
    obtain ⟨k, v⟩ := e
    by_cases hk : k = key
    · subst hk
      by_cases h : other = k <;> simp [set, List.lookup_cons, beq_eq_decide, h]
    · rw [set, if_neg hk, List.lookup_cons, List.lookup_cons, ih]
      by_cases h : other = k
      · subst h
        simp [hk]
      · simp [beq_eq_decide, h]

theorem get_set (d : Dict) (key other : String) (value : Json) :
    (set d key value).get other = if other = key then value else d.get other := by
  by_cases h : other = key <;> simp [get, lookup_set, h]

theorem get_pop_self (d : Dict) (key : String) : (d.pop key).get key = .null := by
  have hnone : (d.pop key).lookup key = none := by
    rw [List.lookup_eq_none_iff]
    intro e he
    have hne : e.1 ≠ key := of_decide_eq_true (List.mem_filter.1 he).2
    exact bne_iff_ne.2 hne.symm
  rw [get, hnone]
  rfl

/-! ### Typed fields -/

/-- The fields that are not `None`, in order (`exclude_none`). -/
def present (fields : List (String × Option Json)) : Dict :=
  fields.filterMap fun e => e.2.map fun value => (e.1, value)

/-- A field that may be missing or null. -/
def optional {α : Type} (parse : Json → Option α) (d : Dict) (key : String) : Option (Option α) :=
  match d.lookup key with
  | none | some .null => some none
  | some value => (parse value).map some

/-- A field with a default. -/
def defaulted {α : Type} (parse : Json → Option α) (value : α) (d : Dict) (key : String) :
    Option α :=
  match d.lookup key with
  | none => some value
  | some found => parse found

/-- A field that must be there. -/
def required {α : Type} (parse : Json → Option α) (d : Dict) (key : String) : Option α :=
  (d.lookup key).bind parse

/-- `extra="forbid"`. -/
def onlyHas (d : Dict) (keys : List String) : Bool := d.all fun e => keys.contains e.1

/-- A field of an object without null fields. -/
theorem lookup_present (fields : List (String × Option Json)) (key : String)
    (h : (fields.map Prod.fst).Nodup) :
    (present fields).lookup key = (fields.lookup key).join := by
  induction fields with
  | nil => rfl
  | cons e fields ih =>
    obtain ⟨name, value⟩ := e
    rw [List.map_cons, List.nodup_cons] at h
    have hrest : present ((name, value) :: fields) =
        (value.map fun value => (name, value)).toList ++ present fields := by
      rcases value with _ | value
      · rfl
      · rfl
    rw [hrest, List.lookup_cons]
    by_cases hkey : key = name
    · subst hkey
      rcases value with _ | value
      · have hnone : fields.lookup key = none := by
          rw [List.lookup_eq_none_iff]
          intro e he
          have hmem : e.1 ∈ fields.map Prod.fst := List.mem_map_of_mem he
          have hne : key ≠ e.1 := by
            rintro rfl
            exact h.1 hmem
          simpa using hne
        have hempty : (present fields).lookup key = none := by
          rw [ih h.2, hnone]
          rfl
        simpa using hempty
      · simp
    · have hbeq : (key == name) = false := by simpa using hkey
      rw [hbeq, ← ih h.2]
      rcases value with _ | value
      · rfl
      · simp [List.lookup_cons, hbeq]

/-- An object without null fields has no other keys. -/
theorem onlyHas_present (fields : List (String × Option Json)) :
    onlyHas (present fields) (fields.map Prod.fst) = true := by
  rw [onlyHas, List.all_eq_true]
  intro e he
  obtain ⟨⟨_, _⟩, hmem, hv⟩ := List.mem_filterMap.1 he
  obtain ⟨_, _, rfl⟩ := Option.map_eq_some_iff.1 hv
  exact List.contains_iff_mem.2 (List.mem_map_of_mem hmem)

end Dict

end ClioQueue
