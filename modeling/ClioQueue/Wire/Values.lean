/-
# JSON values as Python reads them

`json.loads` gives `None`, a `bool`, an `int` or a `float`, a `str`, a `list` or a `dict` with
`str` keys.  `Value ν` is such a value over numbers of type `ν`.  The values a program works
on have numbers of type `Number φ`, whose floats are those of `PyFloat φ`; the values it
compares (`==`, for which `1`, `1.0` and `True` are one and a `dict` has no order) are those
of `Value.plain`, over the rationals and with sorted keys.
-/

import Mathlib.Data.List.Sort
import Mathlib.Algebra.Order.Ring.Rat
import Mathlib.Tactic.Common

namespace Wire

/-- A JSON value over numbers of type `ν`. -/
inductive Value (ν : Type) where
  | null
  | bool (b : Bool)
  | num (x : ν)
  | str (s : String)
  | list (items : List (Value ν))
  | dict (fields : List (String × Value ν))

/-- The entries of a `dict` with `str` keys. -/
abbrev Fields (ν : Type) : Type := List (String × Value ν)

/-- An `int` or a `float`. -/
inductive Number (φ : Type) where
  | int (n : Int)
  | float (x : φ)
deriving DecidableEq, Repr

/-- Python's finite floats: the number each one is, `float(n)`, which overflows for a large `n`,
and `repr`. -/
class PyFloat (φ : Type) where
  value : φ → Rat
  ofInt : Int → Option φ
  repr : φ → String

/-- Floats that are whole numbers. -/
@[reducible]
def sampleFloat : PyFloat Int where
  value n := n
  ofInt := some
  repr n := toString n ++ ".0"

namespace Value

section DecEq

variable {ν : Type} [DecidableEq ν]

mutual

/-- Structural equality, decided. -/
def decEq : (a b : Value ν) → Decidable (a = b)
  | .null, .null => isTrue rfl
  | .bool a, .bool b => decidable_of_iff (a = b) (by simp)
  | .num a, .num b => decidable_of_iff (a = b) (by simp)
  | .str a, .str b => decidable_of_iff (a = b) (by simp)
  | .list a, .list b => @decidable_of_iff _ (a = b) (by simp) (decEqItems a b)
  | .dict a, .dict b => @decidable_of_iff _ (a = b) (by simp) (decEqFields a b)
  | .null, .bool _ | .null, .num _ | .null, .str _ | .null, .list _ | .null, .dict _
  | .bool _, .null | .bool _, .num _ | .bool _, .str _ | .bool _, .list _ | .bool _, .dict _
  | .num _, .null | .num _, .bool _ | .num _, .str _ | .num _, .list _ | .num _, .dict _
  | .str _, .null | .str _, .bool _ | .str _, .num _ | .str _, .list _ | .str _, .dict _
  | .list _, .null | .list _, .bool _ | .list _, .num _ | .list _, .str _ | .list _, .dict _
  | .dict _, .null | .dict _, .bool _ | .dict _, .num _ | .dict _, .str _ | .dict _, .list _ =>
    isFalse nofun

/-- Equality of list items. -/
def decEqItems : (a b : List (Value ν)) → Decidable (a = b)
  | [], [] => isTrue rfl
  | [], _ :: _ | _ :: _, [] => isFalse nofun
  | x :: xs, y :: ys =>
    @decidable_of_iff _ (x = y ∧ xs = ys) (by simp)
      (@instDecidableAnd _ _ (decEq x y) (decEqItems xs ys))

/-- Equality of entries. -/
def decEqFields : (a b : List (String × Value ν)) → Decidable (a = b)
  | [], [] => isTrue rfl
  | [], _ :: _ | _ :: _, [] => isFalse nofun
  | (k, x) :: xs, (l, y) :: ys =>
    @decidable_of_iff _ (k = l ∧ x = y ∧ xs = ys) (by simp [and_assoc])
      (@instDecidableAnd _ _ (inferInstance : Decidable (k = l))
        (@instDecidableAnd _ _ (decEq x y) (decEqFields xs ys)))

end

instance : DecidableEq (Value ν) := decEq

end DecEq

section Sorted

variable {ν : Type}

mutual

/-- The value with the keys of every `dict` sorted. -/
def sortKeys : Value ν → Value ν
  | .null => .null
  | .bool b => .bool b
  | .num x => .num x
  | .str s => .str s
  | .list items => .list (sortItems items)
  | .dict fields => .dict (sortFields fields)

/-- The items of a list, each with sorted keys. -/
def sortItems : List (Value ν) → List (Value ν)
  | [] => []
  | x :: xs => sortKeys x :: sortItems xs

/-- The entries of a `dict` in the order of their keys. -/
def sortFields : List (String × Value ν) → List (String × Value ν)
  | [] => []
  | (k, x) :: xs => (sortFields xs).orderedInsert (fun a b => a.1 ≤ b.1) (k, sortKeys x)

end

end Sorted

end Value

section Numbers

variable {φ : Type} [PyFloat φ]

/-- The number that an `int` or a `float` is. -/
def Number.value : Number φ → Rat
  | .int n => n
  | .float x => PyFloat.value x

/-- `float(x)`. -/
def Number.toFloat : Number φ → Option φ
  | .int n => PyFloat.ofInt n
  | .float x => some x

end Numbers

namespace Value

section Plain

variable {φ : Type} [PyFloat φ]

mutual

/-- What `==` compares of a value. -/
def plain : Value (Number φ) → Value Rat
  | .null => .null
  | .bool b => .num (if b then 1 else 0)
  | .num x => .num x.value
  | .str s => .str s
  | .list items => .list (plainItems items)
  | .dict fields => .dict (plainFields fields)

/-- The items of a list, each as `==` compares it. -/
def plainItems : List (Value (Number φ)) → List (Value Rat)
  | [] => []
  | x :: xs => plain x :: plainItems xs

/-- The entries of a `dict` in the order of their keys, each as `==` compares it. -/
def plainFields : List (String × Value (Number φ)) → List (String × Value Rat)
  | [] => []
  | (k, x) :: xs => (plainFields xs).orderedInsert (fun a b => a.1 ≤ b.1) (k, plain x)

end

end Plain

end Value

namespace Value

variable {ν : Type} {b : Bool} {s : String} {value : Value ν}

/-- `value is None`. -/
def isNull : Value ν → Bool
  | .null => true
  | _ => false

/-- `value == s`. -/
def isStr (s : String) : Value ν → Bool
  | .str t => t = s
  | _ => false

/-- `value is b`. -/
def isBool (b : Bool) : Value ν → Bool
  | .bool c => c = b
  | _ => false

/-- The number of a number. -/
def num? : Value ν → Option ν
  | .num x => some x
  | _ => none

/-- The string of a string. -/
def str? : Value ν → Option String
  | .str s => some s
  | _ => none

/-- The flag of a `bool`. -/
def bool? : Value ν → Option Bool
  | .bool b => some b
  | _ => none

@[simp]
theorem isNull_iff : value.isNull = true ↔ value = .null := by
  cases value <;> simp [isNull]

@[simp]
theorem isStr_iff : value.isStr s = true ↔ value = .str s := by
  cases value <;> simp [isStr]

@[simp]
theorem isBool_iff : value.isBool b = true ↔ value = .bool b := by
  cases value <;> simp [isBool]

@[simp]
theorem str?_eq_some : value.str? = some s ↔ value = .str s := by
  cases value <;> simp [str?]

@[simp]
theorem bool?_eq_some : value.bool? = some b ↔ value = .bool b := by
  cases value <;> simp [bool?]

@[simp]
theorem num?_eq_some {x : ν} : value.num? = some x ↔ value = .num x := by
  cases value <;> simp [num?]

end Value

section Assign

variable {α : Type}

/-- `d[key] = value`, which keeps the place of an existing key. -/
def assign : List (String × α) → String → α → List (String × α)
  | [], key, value => [(key, value)]
  | (k, v) :: d, key, value => if k = key then (k, value) :: d else (k, v) :: assign d key value

@[simp]
theorem lookup_assign (d : List (String × α)) (key other : String) (value : α) :
    (assign d key value).lookup other = if other = key then some value else d.lookup other := by
  induction d with
  | nil => by_cases h : other = key <;> simp [assign, List.lookup_cons, beq_eq_decide, h]
  | cons e d ih =>
    obtain ⟨k, v⟩ := e
    by_cases hk : k = key
    · subst hk
      by_cases h : other = k <;> simp [assign, List.lookup_cons, beq_eq_decide, h]
    · rw [assign, if_neg hk, List.lookup_cons, List.lookup_cons, ih]
      by_cases h : other = k
      · subst h
        simp [hk]
      · simp [beq_eq_decide, h]

end Assign

namespace Fields

variable {ν : Type}

/-- `dict.get`: `None` for a missing key. -/
def get (d : Fields ν) (key : String) : Value ν := (d.lookup key).getD .null

/-- `set(d)`. -/
def keys (d : Fields ν) : List String := d.map Prod.fst

/-- `key in d`. -/
def has (d : Fields ν) (key : String) : Bool := (d.lookup key).isSome

/-- `set(d) <= names`. -/
def onlyHas (d : Fields ν) (names : List String) : Bool := d.all fun e => names.contains e.1

/-- `names <= set(d)`. -/
def hasAll (d : Fields ν) (names : List String) : Bool := names.all fun name => has d name

/-- `set(d) == names`. -/
def hasExactly (d : Fields ν) (names : List String) : Bool := hasAll d names && onlyHas d names

/-- `d | other`. -/
def merge (d other : Fields ν) : Fields ν := other.foldl (fun d e => assign d e.1 e.2) d

end Fields

end Wire
