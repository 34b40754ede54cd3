/-
# Reading JSON

`json.loads` reads a text by recursive descent.  What `json.dumps` writes with the shortest
separators is read back as the value that was written (`loads_compact`), whatever its strings, its
numbers and its depth are, when no `dict` in it has a key twice.
-/

import ClioQueue.Wire.Canonical
import ClioQueue.Wire.Text
import Mathlib.Data.List.TakeWhile

namespace Wire

/-! ### Numbers -/

/-- The sign of a number, if it has one, and what follows. -/
def splitSign : List Char → List Char × List Char
  | '-' :: rest => (['-'], rest)
  | text => ([], text)

/-- `0`, or digits that do not begin with `0`. -/
def splitInteger : List Char → Option (List Char × List Char)
  | '0' :: rest => some (['0'], rest)
  | c :: rest =>
    if c.isDigit then some ((c :: rest).takeWhile Char.isDigit, (c :: rest).dropWhile Char.isDigit)
    else none
  | [] => none

/-- A point and digits, if they are there. -/
def splitFraction : List Char → List Char × List Char
  | '.' :: rest =>
    if (rest.takeWhile Char.isDigit).isEmpty then ([], '.' :: rest)
    else ('.' :: rest.takeWhile Char.isDigit, rest.dropWhile Char.isDigit)
  | text => ([], text)

/-- The sign of an exponent, if it has one. -/
def splitExponentSign : List Char → List Char × List Char
  | '+' :: rest => (['+'], rest)
  | '-' :: rest => (['-'], rest)
  | text => ([], text)

/-- An exponent, if it is there. -/
def splitExponent : List Char → List Char × List Char
  | [] => ([], [])
  | c :: rest =>
    if (c = 'e' ∨ c = 'E') ∧ ¬ ((splitExponentSign rest).2.takeWhile Char.isDigit).isEmpty then
      (c :: (splitExponentSign rest).1 ++ (splitExponentSign rest).2.takeWhile Char.isDigit,
        (splitExponentSign rest).2.dropWhile Char.isDigit)
    else ([], c :: rest)

/-- The text of a number at the front, and whether it is a `float`. -/
def splitNumeral (text : List Char) : Option (List Char × Bool × List Char) := do
  let (sign, unsigned) := splitSign text
  let (digits, afterInteger) ← splitInteger unsigned
  let (fraction, afterFraction) := splitFraction afterInteger
  let (exponent, rest) := splitExponent afterFraction
  pure (sign ++ digits ++ fraction ++ exponent, !(fraction.isEmpty && exponent.isEmpty), rest)

/-- `int(text)`. -/
def integerOf : List Char → Int
  | '-' :: digits => -(Nat.ofDigitChars 10 digits 0 : Nat)
  | digits => (Nat.ofDigitChars 10 digits 0 : Nat)

/-- Python's finite floats and `float(text)`: it reads what `repr` writes, which has a fraction or
an exponent. -/
class PyFloatText (φ : Type) extends PyFloat φ where
  parse : List Char → Option φ
  parse_repr : ∀ x, parse (repr x).toList = some x
  splitNumeral_repr : ∀ x, splitNumeral (repr x).toList = some ((repr x).toList, true, [])

/-! ### Strings -/

/-- The value of a hexadecimal digit. -/
def hexValue (c : Char) : Option Nat :=
  if '0' ≤ c ∧ c ≤ '9' then some (c.toNat - 48)
  else if 'a' ≤ c ∧ c ≤ 'f' then some (c.toNat - 87)
  else if 'A' ≤ c ∧ c ≤ 'F' then some (c.toNat - 55)
  else none

/-- The UTF-16 unit of `XXXX`, and what follows. -/
def readUnit : List Char → Option (Nat × List Char)
  | a :: b :: c :: d :: rest => do
    let a ← hexValue a
    let b ← hexValue b
    let c ← hexValue c
    let d ← hexValue d
    pure (((a * 16 + b) * 16 + c) * 16 + d, rest)
  | _ => none

/-- The character of a unit, or of a pair of surrogates.  A surrogate alone is refused: a `str` that
has one cannot be encoded. -/
def readUnicode (text : List Char) : Option (Char × List Char) := do
  let (unit, rest) ← readUnit text
  if 0xd800 ≤ unit ∧ unit < 0xdc00 then
    match rest with
    | '\\' :: 'u' :: second => do
      let (low, after) ← readUnit second
      if 0xdc00 ≤ low ∧ low < 0xe000 then
        pure (Char.ofNat (0x10000 + (unit - 0xd800) * 0x400 + (low - 0xdc00)), after)
      else none
    | _ => none
  else if 0xdc00 ≤ unit ∧ unit < 0xe000 then none
  else pure (Char.ofNat unit, rest)

/-- What stands after a backslash. -/
def readEscape : List Char → Option (Char × List Char)
  | '"' :: rest => some ('"', rest)
  | '\\' :: rest => some ('\\', rest)
  | '/' :: rest => some ('/', rest)
  | 'b' :: rest => some ('\x08', rest)
  | 'f' :: rest => some ('\x0c', rest)
  | 'n' :: rest => some ('\n', rest)
  | 'r' :: rest => some ('\r', rest)
  | 't' :: rest => some ('\t', rest)
  | 'u' :: rest => readUnicode rest
  | _ => none

/-- A string after its opening quote. -/
def readString : Nat → List Char → Option (List Char × List Char)
  | 0, _ => none
  | _ + 1, [] => none
  | fuel + 1, c :: rest =>
    if c = '"' then some ([], rest)
    else if c = '\\' then do
      let (escaped, after) ← readEscape rest
      let (text, left) ← readString fuel after
      pure (escaped :: text, left)
    else if c.toNat < 32 then none
    else do
      let (text, left) ← readString fuel rest
      pure (c :: text, left)

/-! ### Values -/

/-- Blanks. -/
def isBlank (c : Char) : Bool := c = ' ' || c = '\t' || c = '\n' || c = '\r'

/-- What follows the blanks. -/
def skipBlanks (text : List Char) : List Char := text.dropWhile isBlank

section

variable {φ : Type}

/-- The rest of a word, which stands for a value. -/
def readWord (word : List Char) (value : Value (Number φ)) (text : List Char) :
    Option (Value (Number φ) × List Char) :=
  if word.isPrefixOf text then some (value, text.drop word.length) else none

variable [PyFloatText φ]

/-- A number. -/
def readNumber (text : List Char) : Option (Value (Number φ) × List Char) := do
  let (numeral, isFloat, rest) ← splitNumeral text
  if isFloat then
    let x ← PyFloatText.parse numeral
    pure (.num (.float x), rest)
  else pure (.num (.int (integerOf numeral)), rest)

/-- `object_pairs_hook`: the `dict` of its entries in the order they are read in. -/
abbrev PairsHook (φ : Type) : Type := Fields (Number φ) → Option (Fields (Number φ))

variable (hook : PairsHook φ)

mutual

/-- `scan_once`.  `NaN` and the infinities, which are no finite floats, are refused. -/
def readValue : Nat → List Char → Option (Value (Number φ) × List Char)
  | 0, _ => none
  | _ + 1, [] => none
  | fuel + 1, c :: rest =>
    if c = '"' then do
      let (text, left) ← readString fuel rest
      pure (.str (String.ofList text), left)
    else if c = '[' then
      match skipBlanks rest with
      | ']' :: left => some (.list [], left)
      | text => do
        let (items, left) ← readItems fuel text
        pure (.list items, left)
    else if c = '\x7b' then do
      let (fields, left) ← match skipBlanks rest with
        | '\x7d' :: left => some ([], left)
        | text => readFields fuel text
      let fields ← hook fields
      pure (.dict fields, left)
    else if c = 'n' then readWord ['u', 'l', 'l'] .null rest
    else if c = 't' then readWord ['r', 'u', 'e'] (.bool true) rest
    else if c = 'f' then readWord ['a', 'l', 's', 'e'] (.bool false) rest
    else readNumber (c :: rest)

/-- The items of an array. -/
def readItems : Nat → List Char → Option (List (Value (Number φ)) × List Char)
  | 0, _ => none
  | fuel + 1, text => do
    let (item, after) ← readValue fuel text
    match skipBlanks after with
    | ',' :: rest => do
      let (items, left) ← readItems fuel (skipBlanks rest)
      pure (item :: items, left)
    | ']' :: left => some ([item], left)
    | _ => none

/-- The entries of an object. -/
def readFields : Nat → List Char → Option (Fields (Number φ) × List Char)
  | 0, _ => none
  | fuel + 1, text => do
    let (key, value, after) ← readField fuel text
    match skipBlanks after with
    | ',' :: rest => do
      let (fields, left) ← readFields fuel (skipBlanks rest)
      pure ((key, value) :: fields, left)
    | '\x7d' :: left => some ([(key, value)], left)
    | _ => none

/-- One entry. -/
def readField : Nat → List Char → Option (String × Value (Number φ) × List Char)
  | 0, _ => none
  | fuel + 1, '"' :: rest => do
    let (key, after) ← readString fuel rest
    match skipBlanks after with
    | ':' :: rest => do
      let (value, left) ← readValue fuel (skipBlanks rest)
      pure (String.ofList key, value, left)
    | _ => none
  | _ + 1, _ => none

end

/-- `json.loads` with a hook. -/
def loads (text : List Char) : Option (Value (Number φ)) :=
  match readValue hook (text.length + 1) (skipBlanks text) with
  | some (value, rest) => if (skipBlanks rest).isEmpty then some value else none
  | none => none

end

/-- `dict(pairs)`: a later entry of a key takes the place of an earlier one. -/
def lastOfKey {φ : Type} (fields : Fields (Number φ)) : Option (Fields (Number φ)) :=
  some (Fields.merge [] fields)

/-! ### Numbers are read back -/

/-- A character that can stand in the text of a number. -/
def isNumeralChar (c : Char) : Bool :=
  c.isDigit || c = '.' || c = 'e' || c = 'E' || c = '+' || c = '-'

/-- A number ends before the text. -/
def EndsNumber (rest : List Char) : Prop := ∀ c, rest.head? = some c → isNumeralChar c = false

theorem endsNumber_nil : EndsNumber [] := nofun

theorem endsNumber_cons {c : Char} {rest : List Char} (h : isNumeralChar c = false) :
    EndsNumber (c :: rest) := by
  rintro _ ⟨⟩
  exact h

variable {rest : List Char}

section

variable (h : EndsNumber rest)

include h

theorem head_not_digit : ∀ c, rest.head? = some c → c.isDigit = false := by
  intro c hc
  have hnot := h c hc
  simp only [isNumeralChar, Bool.or_eq_false_iff] at hnot
  exact hnot.1.1.1.1.1

theorem takeWhile_append (text : List Char) :
    (text ++ rest).takeWhile Char.isDigit = text.takeWhile Char.isDigit := by
  induction text with
  | nil =>
    rcases rest with _ | ⟨c, rest⟩
    · rfl
    · simp [head_not_digit h c rfl]
  | cons c text ih =>
    by_cases hc : c.isDigit = true
    · simpa [hc] using ih
    · simp [hc]

theorem dropWhile_append (text : List Char) :
    (text ++ rest).dropWhile Char.isDigit = text.dropWhile Char.isDigit ++ rest := by
  induction text with
  | nil =>
    rcases rest with _ | ⟨c, rest⟩
    · rfl
    · simp [head_not_digit h c rfl]
  | cons c text ih =>
    by_cases hc : c.isDigit = true
    · simpa [hc] using ih
    · simp [hc]

theorem splitSign_append (text : List Char) :
    splitSign (text ++ rest) = ((splitSign text).1, (splitSign text).2 ++ rest) := by
  rcases text with _ | ⟨c, text⟩
  · rcases rest with _ | ⟨c, rest⟩
    · rfl
    · have hc : c ≠ '-' := by
        rintro rfl
        exact absurd (h _ rfl) (by decide)
      simp [splitSign, hc]
  · by_cases hc : c = '-'
    all_goals simp [splitSign, hc]

theorem splitInteger_append {text digits after : List Char}
    (hsplit : splitInteger text = some (digits, after)) :
    splitInteger (text ++ rest) = some (digits, after ++ rest) := by
  rcases text with _ | ⟨c, text⟩
  · cases hsplit
  · by_cases hc : c = '0'
    · subst hc
      cases hsplit
      rfl
    · rw [List.cons_append]
      simp only [splitInteger] at hsplit ⊢
      split at hsplit
      · rename_i hdig
        rw [if_pos hdig, ← List.cons_append, takeWhile_append h, dropWhile_append h]
        cases hsplit
        rfl
      · cases hsplit

theorem splitFraction_append (text : List Char) :
    splitFraction (text ++ rest) = ((splitFraction text).1, (splitFraction text).2 ++ rest) := by
  rcases text with _ | ⟨c, text⟩
  · rcases rest with _ | ⟨c, rest⟩
    · rfl
    · have hc : c ≠ '.' := by
        rintro rfl
        exact absurd (h _ rfl) (by decide)
      simp [splitFraction, hc]
  · by_cases hc : c = '.'
    · subst hc
      simp only [splitFraction, List.cons_append, takeWhile_append h, dropWhile_append h]
      split <;> rfl
    · simp [splitFraction, hc]

theorem splitExponentSign_append (text : List Char) :
    splitExponentSign (text ++ rest) =
      ((splitExponentSign text).1, (splitExponentSign text).2 ++ rest) := by
  rcases text with _ | ⟨c, text⟩
  · rcases rest with _ | ⟨c, rest⟩
    · rfl
    · have hplus : c ≠ '+' := by
        rintro rfl
        exact absurd (h _ rfl) (by decide)
      have hminus : c ≠ '-' := by
        rintro rfl
        exact absurd (h _ rfl) (by decide)
      simp [splitExponentSign, hplus, hminus]
  · by_cases hplus : c = '+'
    · simp [splitExponentSign, hplus]
    · by_cases hminus : c = '-'
      · simp [splitExponentSign, hminus]
      · simp [splitExponentSign, hplus, hminus]

theorem splitExponent_append (text : List Char) :
    splitExponent (text ++ rest) = ((splitExponent text).1, (splitExponent text).2 ++ rest) := by
  rcases text with _ | ⟨c, text⟩
  · rcases rest with _ | ⟨c, rest⟩
    · rfl
    · have hc : ¬ (c = 'e' ∨ c = 'E') := by
        rintro (rfl | rfl) <;> exact absurd (h _ rfl) (by decide)
      simp only [splitExponent, List.nil_append]
      rw [if_neg fun h => hc h.1]
  · simp only [splitExponent, List.cons_append, splitExponentSign_append h, takeWhile_append h,
      dropWhile_append h]
    split <;> rfl

/-- What is split off a text is split off every text that goes on with it. -/
theorem splitNumeral_append {text numeral left : List Char} {isFloat : Bool}
    (hsplit : splitNumeral text = some (numeral, isFloat, left)) :
    splitNumeral (text ++ rest) = some (numeral, isFloat, left ++ rest) := by
  simp only [splitNumeral, Option.bind_eq_bind, Option.bind_eq_some_iff, Prod.exists] at hsplit ⊢
  obtain ⟨digits, after, hinteger, hrest⟩ := hsplit
  refine ⟨digits, after ++ rest, ?_, ?_⟩
  · rw [splitSign_append h]
    exact splitInteger_append h hinteger
  · simp only [splitSign_append h, splitFraction_append h, splitExponent_append h]
    simp only [Option.pure_def, Option.some.injEq, Prod.mk.injEq] at hrest ⊢
    obtain ⟨rfl, rfl, rfl⟩ := hrest
    exact ⟨rfl, rfl, rfl⟩

end

/-- The digits of a number do not begin with `0`, unless it is `0`. -/
theorem toDigits_head (n : Nat) (hn : 0 < n) :
    ∃ c digits, Nat.toDigits 10 n = c :: digits ∧ c ≠ '0' := by
  induction n using Nat.strong_induction_on with
  | _ n ih =>
    by_cases hsmall : n < 10
    · have hnonzero : ∀ n < 10, 0 < n → n.digitChar ≠ '0' := by decide
      exact ⟨n.digitChar, [], Nat.toDigits_of_lt_base hsmall, hnonzero n hsmall hn⟩
    · obtain ⟨c, digits, hdigs, hc⟩ := ih (n / 10) (by omega) (by omega)
      refine ⟨c, digits ++ [(n % 10).digitChar], ?_, hc⟩
      rw [Nat.toDigits_of_base_le (by decide) (by omega), hdigs]
      rfl

theorem splitInteger_toDigits (n : Nat) :
    splitInteger (Nat.toDigits 10 n) = some (Nat.toDigits 10 n, []) := by
  rcases Nat.eq_zero_or_pos n with rfl | hn
  · rfl
  · obtain ⟨c, digits, hdigs, _⟩ := toDigits_head n hn
    have hall : ∀ d ∈ c :: digits, d.isDigit = true := fun d hd =>
      Nat.isDigit_of_mem_toDigits (by decide) (by decide) (hdigs ▸ hd)
    rw [hdigs]
    simp only [splitInteger]
    rw [if_pos (hall c List.mem_cons_self), List.takeWhile_eq_self_iff.2 hall,
      List.dropWhile_eq_nil_iff.2 hall]

/-- The text of an `int`. -/
theorem toList_toString (n : Int) :
    (toString n).toList = if 0 ≤ n then Nat.toDigits 10 n.toNat
      else '-' :: Nat.toDigits 10 (-n).toNat := by
  rw [Int.toString_eq_repr, Int.repr_eq_if]
  split
  · exact Nat.toList_repr
  · rw [String.toList_append, Nat.toList_repr]
    rfl

theorem toDigits_ne_sign (n : Nat) : ∀ rest, Nat.toDigits 10 n ≠ '-' :: rest := by
  intro rest h
  have hdig : ('-' : Char).isDigit = true :=
    Nat.isDigit_of_mem_toDigits (n := n) (b := 10) (by decide) (by decide) (h ▸ .head _)
  exact absurd hdig (by decide)

theorem splitSign_toDigits (n : Nat) : splitSign (Nat.toDigits 10 n) = ([], Nat.toDigits 10 n) := by
  unfold splitSign
  split
  · rename_i rest h
    exact absurd h (toDigits_ne_sign n rest)
  · rfl

theorem splitNumeral_toString (n : Int) :
    splitNumeral (toString n).toList = some ((toString n).toList, false, []) := by
  rw [toList_toString]
  split
  · simp [splitNumeral, splitSign_toDigits, splitInteger_toDigits, splitFraction, splitExponent]
  · simp [splitNumeral, splitSign, splitInteger_toDigits, splitFraction, splitExponent]

theorem integerOf_toDigits (n : Nat) : integerOf (Nat.toDigits 10 n) = n := by
  unfold integerOf
  split
  · rename_i rest h
    exact absurd h (toDigits_ne_sign n rest)
  · rw [Nat.ofDigitChars_ten_toDigits]

theorem integerOf_toString (n : Int) : integerOf (toString n).toList = n := by
  rw [toList_toString]
  split
  · rename_i h
    rw [integerOf_toDigits]
    exact Int.toNat_of_nonneg h
  · rename_i h
    rw [integerOf, Nat.ofDigitChars_ten_toDigits]
    omega

section

variable {φ : Type} [PyFloatText φ]

/-- **A number is read back**, whatever follows it that does not go on with a number. -/
theorem readNumber_text (h : EndsNumber rest) (x : Number φ) :
    readNumber (x.text ++ rest) = some (.num x, rest) := by
  rcases x with n | x
  · have hsplit := splitNumeral_append h (splitNumeral_toString n)
    rw [Number.text, readNumber, hsplit]
    show some (Value.num (Number.int (integerOf (toString n).toList)), rest) = _
    rw [integerOf_toString]
  · have hsplit := splitNumeral_append h (PyFloatText.splitNumeral_repr x)
    rw [Number.text, readNumber, hsplit]
    simp [PyFloatText.parse_repr]

/-- The text of a number begins with a sign or a digit. -/
theorem head_of_splitNumeral {text numeral left : List Char} {isFloat : Bool}
    (h : splitNumeral text = some (numeral, isFloat, left)) :
    ∃ c after, text = c :: after ∧ (c = '-' ∨ c.isDigit = true) := by
  rcases text with _ | ⟨c, after⟩
  · cases h
  · refine ⟨c, after, rfl, ?_⟩
    by_contra hnot
    obtain ⟨hsign, hdig⟩ := not_or.1 hnot
    have hinteger : splitInteger (c :: after) = none := by
      unfold splitInteger
      split
      · rename_i rest hzero
        cases hzero
        exact absurd (show ('0' : Char).isDigit = true by decide) hdig
      · rename_i d rest hcons
        cases hcons
        exact if_neg hdig
      · rfl
    simp [splitNumeral, splitSign, hsign, hinteger] at h

theorem text_head (x : Number φ) :
    ∃ c after, x.text = c :: after ∧ (c = '-' ∨ c.isDigit = true) := by
  rcases x with n | x
  · exact head_of_splitNumeral (splitNumeral_toString n)
  · exact head_of_splitNumeral (PyFloatText.splitNumeral_repr x)

end

/-! ### Strings are read back -/

theorem hexValue_hexDigit : ∀ n < 16, hexValue (hexDigit n) = some n := by decide

theorem readUnicode_control {c : Char} (h : c.toNat < 32) (text : List Char) :
    readUnicode ('0' :: '0' :: hexDigit (c.toNat / 16) :: hexDigit (c.toNat % 16) :: text) =
      some (c, text) := by
  have hzero : hexValue '0' = some 0 := by decide
  have hhigh := hexValue_hexDigit (c.toNat / 16) (by omega)
  have hlow := hexValue_hexDigit (c.toNat % 16) (by omega)
  have hunit : c.toNat / 16 * 16 + c.toNat % 16 = c.toNat := by omega
  have hhighSurrogate : ¬ 0xd800 ≤ c.toNat := by omega
  have hlowSurrogate : ¬ 0xdc00 ≤ c.toNat := by omega
  simp [readUnicode, readUnit, hzero, hhigh, hlow, hunit, hhighSurrogate, hlowSurrogate]

theorem readString_escapeChar (fuel : Nat) (c : Char) (text : List Char) :
    readString (fuel + 1) (escapeChar c ++ text) =
      (readString fuel text).bind fun read => some (c :: read.1, read.2) := by
  unfold escapeChar
  split_ifs with hquote hbackslash hnewline hreturn htab hfeed hback hctrl
  · subst hquote
    simp [readString, readEscape]
  · subst hbackslash
    simp [readString, readEscape]
  · subst hnewline
    simp [readString, readEscape]
  · subst hreturn
    simp [readString, readEscape]
  · subst htab
    simp [readString, readEscape]
  · subst hfeed
    simp [readString, readEscape]
  · subst hback
    simp [readString, readEscape]
  · simp [readString, readEscape, readUnicode_control hctrl]
  · simp [readString, hquote, hbackslash, hctrl]

theorem readUnit_unicodeEscape {n : Nat} (h : n < 0x10000) (text : List Char) :
    readUnit (hexDigit (n / 4096 % 16) :: hexDigit (n / 256 % 16) :: hexDigit (n / 16 % 16) ::
      hexDigit (n % 16) :: text) = some (n, text) := by
  have hdig : ∀ m, hexValue (hexDigit (m % 16)) = some (m % 16) := fun m =>
    hexValue_hexDigit (m % 16) (Nat.mod_lt m (by omega))
  have hunit : ((n / 4096 % 16 * 16 + n / 256 % 16) * 16 + n / 16 % 16) * 16 + n % 16 = n := by
    omega
  simp [readUnit, hdig, hunit]

theorem not_surrogate (c : Char) : ¬ (0xd800 ≤ c.toNat ∧ c.toNat < 0xe000) := by
  have hval : c.toNat < 0xd800 ∨ (0xdfff < c.toNat ∧ c.toNat < 0x110000) := c.valid
  omega

theorem toNat_lt (c : Char) : c.toNat < 0x110000 := by
  have hval : c.toNat < 0xd800 ∨ (0xdfff < c.toNat ∧ c.toNat < 0x110000) := c.valid
  omega

/-- A character of the basic plane is read back from its unit. -/
theorem readUnicode_plane {c : Char} (h : c.toNat < 0x10000) (text : List Char) :
    readUnicode ((unicodeEscape c.toNat).drop 2 ++ text) = some (c, text) := by
  have hunit := readUnit_unicodeEscape h text
  have hscalar := not_surrogate c
  have hnot : ¬ (0xd800 ≤ c.toNat ∧ c.toNat < 0xdc00) := by omega
  have hnot' : ¬ (0xdc00 ≤ c.toNat ∧ c.toNat < 0xe000) := by omega
  simp [unicodeEscape, readUnicode, hunit, hnot, hnot']

/-- A character beyond the basic plane is read back from its surrogates. -/
theorem readUnicode_surrogates {high low : Nat} (hhigh : 0xd800 ≤ high ∧ high < 0xdc00)
    (hlow : 0xdc00 ≤ low ∧ low < 0xe000) (text : List Char) :
    readUnicode ((unicodeEscape high).drop 2 ++ (unicodeEscape low ++ text)) =
      some (Char.ofNat (0x10000 + (high - 0xd800) * 0x400 + (low - 0xdc00)), text) := by
  have hfirst := readUnit_unicodeEscape (show high < 0x10000 by omega) (unicodeEscape low ++ text)
  have hsecond := readUnit_unicodeEscape (show low < 0x10000 by omega) text
  simp only [unicodeEscape, List.drop_succ_cons, List.drop_zero, List.cons_append,
    List.nil_append] at hfirst hsecond ⊢
  simp only [readUnicode, hfirst, hsecond, Option.bind_eq_bind, Option.bind_some, hhigh, hlow,
    and_self, if_true]
  rfl

theorem readString_asciiChar (fuel : Nat) (c : Char) (text : List Char) :
    readString (fuel + 1) (asciiChar c ++ text) =
      (readString fuel text).bind fun read => some (c :: read.1, read.2) := by
  have hescape : ∀ after read, readUnicode (after ++ text) = some (read, text) →
      readString (fuel + 1) ('\\' :: 'u' :: (after ++ text)) =
        (readString fuel text).bind fun left => some (read :: left.1, left.2) := by
    intro after read hread
    simp [readString, readEscape, hread]
  rw [asciiChar]
  split_ifs with hascii hplane
  · exact readString_escapeChar fuel c text
  · exact hescape _ c (readUnicode_plane hplane text)
  · have hlim := toNat_lt c
    have hhigh : 0xd800 ≤ 0xd800 + (c.toNat - 0x10000) / 0x400 ∧
        0xd800 + (c.toNat - 0x10000) / 0x400 < 0xdc00 := by omega
    have hlow : 0xdc00 ≤ 0xdc00 + (c.toNat - 0x10000) % 0x400 ∧
        0xdc00 + (c.toNat - 0x10000) % 0x400 < 0xe000 := by omega
    have hread := readUnicode_surrogates hhigh hlow text
    have hsum : 0x10000 + (0xd800 + (c.toNat - 0x10000) / 0x400 - 0xd800) * 0x400 +
        (0xdc00 + (c.toNat - 0x10000) % 0x400 - 0xdc00) = c.toNat := by omega
    rw [hsum, Char.ofNat_toNat, ← List.append_assoc] at hread
    exact hescape _ c hread

/-- Each character is read back from what `escape` writes. -/
structure ReadableEscape (escape : Char → List Char) : Prop where
  reads : ∀ fuel c text, readString (fuel + 1) (escape c ++ text) =
    (readString fuel text).bind fun read => some (c :: read.1, read.2)
  writes : ∀ c, 1 ≤ (escape c).length

theorem readableEscape_escapeChar : ReadableEscape escapeChar where
  reads := readString_escapeChar
  writes c := by
    unfold escapeChar
    split_ifs <;> exact Nat.succ_pos _

theorem readableEscape_asciiChar : ReadableEscape asciiChar where
  reads := readString_asciiChar
  writes c := by
    rw [asciiChar]
    split_ifs
    · exact readableEscape_escapeChar.writes c
    all_goals exact Nat.succ_pos _

variable {escape : Char → List Char}

/-- **A string is read back.** -/
theorem readString_quote (hescape : ReadableEscape escape) (chars : List Char) :
    ∀ fuel, chars.length < fuel →
      readString fuel (chars.flatMap escape ++ '"' :: rest) = some (chars, rest) := by
  induction chars with
  | nil =>
    intro fuel hfuel
    rcases fuel with _ | fuel
    · exact absurd hfuel (Nat.lt_irrefl 0)
    · rfl
  | cons c chars ih =>
    intro fuel hfuel
    rcases fuel with _ | fuel
    · exact absurd hfuel (Nat.not_lt_zero _)
    · rw [List.flatMap_cons, List.append_assoc, hescape.reads,
        ih fuel (Nat.lt_of_succ_lt_succ hfuel)]
      rfl

theorem length_le_flatMap (hescape : ReadableEscape escape) (chars : List Char) :
    chars.length ≤ (chars.flatMap escape).length := by
  induction chars with
  | nil => exact Nat.le_refl 0
  | cons c =>
    have hc := hescape.writes c
    rw [List.flatMap_cons, List.length_append, List.length_cons]
    omega

/-! ### Values are read back -/

section

variable {φ : Type} [PyFloatText φ] {hook : PairsHook φ} {fuel : Nat} {rest : List Char}
  {blanks text : List Char} {value : Value (Number φ)}

open Value

/-- The text of a value begins with no blank and no bracket that closes. -/
theorem compactWith_head (value : Value (Number φ)) :
    ∃ c text, compactWith escape value = c :: text ∧ isBlank c = false ∧ c ≠ ']' := by
  cases value with
  | null | str => exact ⟨_, _, rfl, by decide, by decide⟩
  | bool b => cases b <;> exact ⟨_, _, rfl, by decide, by decide⟩
  | num x =>
    obtain ⟨c, text, htext, hc⟩ := text_head x
    refine ⟨c, text, htext, ?_, ?_⟩
    · rcases hc with rfl | hc
      · decide
      · simp only [isBlank, Bool.or_eq_false_iff, decide_eq_false_iff_not]
        refine ⟨⟨⟨?_, ?_⟩, ?_⟩, ?_⟩ <;>
        · rintro rfl
          exact absurd hc (by decide)
    · rintro rfl
      exact absurd hc (by decide)
  | list items => cases items <;> exact ⟨_, _, rfl, by decide, by decide⟩
  | dict fields =>
    rcases fields with _ | ⟨_, fields⟩
    all_goals exact ⟨_, _, rfl, by decide, by decide⟩

theorem skipBlanks_compactWith (value : Value (Number φ)) (text : List Char) :
    skipBlanks (compactWith escape value ++ text) = compactWith escape value ++ text := by
  obtain ⟨c, _, hcompact, hblank, -⟩ := compactWith_head value
  rw [hcompact, List.cons_append, skipBlanks, List.dropWhile_cons_of_neg (by simp [hblank])]

theorem compactItemsWith_head (items : List (Value (Number φ))) :
    ∃ c text, compactItemsWith escape items = c :: text ∧ isNumeralChar c = false := by
  rcases items with _ | ⟨_, items⟩
  all_goals exact ⟨_, _, rfl, by decide⟩

theorem compactFieldsWith_head (fields : Fields (Number φ)) :
    ∃ c text, compactFieldsWith escape fields = c :: text ∧ isNumeralChar c = false := by
  rcases fields with _ | ⟨_, fields⟩
  all_goals exact ⟨_, _, rfl, by decide⟩

/-- What is read back with some fuel: a value, the items of a list, the entries of a `dict`. -/
structure ReadsBack (escape : Char → List Char) (hook : PairsHook φ) (fuel : Nat) : Prop where
  value : ∀ value rest, Distinct value → (compactWith escape value).length ≤ fuel →
    EndsNumber rest → readValue hook fuel (compactWith escape value ++ rest) = some (value, rest)
  items : ∀ item items rest, Distinct item → DistinctItems items →
    (compactWith escape item).length + (compactItemsWith escape items).length ≤ fuel →
    readItems hook fuel (compactWith escape item ++ (compactItemsWith escape items ++ rest)) =
      some (item :: items, rest)
  field : ∀ key value rest, Distinct value →
    (quoteWith escape key).length + (compactWith escape value).length ≤ fuel → EndsNumber rest →
    readField hook fuel (quoteWith escape key ++ ':' :: (compactWith escape value ++ rest)) =
      some (key, value, rest)
  fields : ∀ key value fields rest, Distinct value → DistinctFields fields →
    (quoteWith escape key).length + (compactWith escape value).length +
      (compactFieldsWith escape fields).length < fuel →
    readFields hook fuel (quoteWith escape key ++
      ':' :: (compactWith escape value ++ (compactFieldsWith escape fields ++ rest))) =
      some ((key, value) :: fields, rest)

theorem readsBack_zero : ReadsBack escape hook 0 where
  value value rest _ hfuel := by
    obtain ⟨c, text, hcompact, -⟩ := compactWith_head value
    rw [hcompact] at hfuel
    exact absurd hfuel (Nat.not_succ_le_zero _)
  items item items rest _ _ hfuel := by
    obtain ⟨c, text, hcompact, -⟩ := compactWith_head item
    rw [hcompact, List.length_cons] at hfuel
    omega
  field key value rest _ hfuel := by
    rw [quoteWith, List.length_cons] at hfuel
    omega
  fields key value fields rest _ _ hfuel := absurd hfuel (Nat.not_lt_zero _)

omit [PyFloatText φ] in
theorem readWord_append (word : List Char) (value : Value (Number φ)) (rest : List Char) :
    readWord word value (word ++ rest) = some (value, rest) := by
  simp [readWord]

section

variable (hescape : ReadableEscape escape)
  (hhook : ∀ fields : Fields (Number φ), fields.keys.Nodup → hook fields = some fields)

include hescape hhook

/-- With one more unit of fuel the text of a value is read back, whatever follows it, as long as a
number cannot run on into the rest. -/
theorem ReadsBack.readValue_succ (h : ReadsBack escape hook fuel) (hdist : Distinct value)
    (hfuel : (compactWith escape value).length ≤ fuel + 1) (hrest : EndsNumber rest) :
    readValue hook (fuel + 1) (compactWith escape value ++ rest) = some (value, rest) := by
  cases value with
  | null => exact readWord_append ['u', 'l', 'l'] .null rest
  | bool b =>
    rcases b with _ | _
    · exact readWord_append ['a', 'l', 's', 'e'] (.bool false) rest
    · exact readWord_append ['r', 'u', 'e'] (.bool true) rest
  | num x =>
    have hread := readNumber_text hrest x
    obtain ⟨c, text, htext, hc⟩ := text_head x
    rw [compactWith, htext, List.cons_append]
    rw [htext, List.cons_append] at hread
    have hne : ∀ d : Char, d ≠ '-' → d.isDigit = false → c ≠ d := by
      rintro d hsign hdig rfl
      rcases hc with hc | hc
      · exact hsign hc
      · rw [hdig] at hc
        cases hc
    simp only [readValue, hne '"' (by decide) (by decide), hne '[' (by decide) (by decide),
      hne '\x7b' (by decide) (by decide), hne 'n' (by decide) (by decide),
      hne 't' (by decide) (by decide), hne 'f' (by decide) (by decide), if_false]
    exact hread
  | str s =>
    have hlen := length_le_flatMap hescape s.toList
    simp only [compactWith, quoteWith, List.length_cons, List.length_append] at hfuel
    have hread : readString fuel (s.toList.flatMap escape ++ '"' :: rest) =
      some (s.toList, rest) := readString_quote hescape s.toList fuel (by omega)
    simp only [compactWith, quoteWith, List.cons_append, List.append_assoc, List.nil_append,
      readValue, if_true, hread]
    simp
  | list items =>
    rcases items with _ | ⟨item, items⟩
    · rfl
    · obtain ⟨hitem, hitems⟩ := hdist
      simp only [compactWith, List.length_cons, List.length_append] at hfuel
      have hread := h.items item items rest hitem hitems (by omega)
      obtain ⟨c, text, hcompact, -, hclose⟩ := compactWith_head item
      have hskip : skipBlanks (compactWith escape item ++ (compactItemsWith escape items ++ rest)) =
        c :: (text ++ (compactItemsWith escape items ++ rest)) := by
        rw [skipBlanks_compactWith, hcompact, List.cons_append]
      rw [hcompact, List.cons_append] at hread
      simp only [compactWith, List.cons_append, List.append_assoc, readValue, if_true]
      rw [if_neg (by decide), hskip]
      split
      · rename_i left heq
        exact absurd (List.cons.inj heq).1 hclose
      · rw [hread]
        rfl
  | dict fields =>
    rcases fields with _ | ⟨field, fields⟩
    · have hnone : hook [] = some [] := hhook [] List.nodup_nil
      show (hook []).bind _ = _
      rw [hnone]
      rfl
    · obtain ⟨key, value⟩ := field
      obtain ⟨hnd, hv, hfields⟩ := hdist
      simp only [compactWith, List.length_cons, List.length_append] at hfuel
      have hread := h.fields key value fields rest hv hfields (by omega)
      simp only [compactWith, List.cons_append, List.append_assoc, readValue, if_true]
      rw [if_neg (by decide), if_neg (by decide)]
      have hskip : skipBlanks (quoteWith escape key ++
          ':' :: (compactWith escape value ++ (compactFieldsWith escape fields ++ rest))) =
          quoteWith escape key ++
          ':' :: (compactWith escape value ++ (compactFieldsWith escape fields ++ rest)) := rfl
      rw [hskip]
      split
      · rename_i left heq
        exact absurd (List.cons.inj heq).1 (by decide)
      · have hkept : hook ((key, value) :: fields) = some ((key, value) :: fields) :=
          hhook _ hnd
        rw [hread]
        show (hook ((key, value) :: fields)).bind _ = _
        rw [hkept]
        rfl

/-- The step of the induction on the fuel: values, items and fields are read back together. -/
theorem ReadsBack.succ (h : ReadsBack escape hook fuel) : ReadsBack escape hook (fuel + 1) where
  value _ _ hdist hfuel hrest := h.readValue_succ hescape hhook hdist hfuel hrest
  items item items rest hitem hitems hfuel := by
    obtain ⟨c, text, hcompact, hends⟩ := compactItemsWith_head items
    have hrest : EndsNumber (compactItemsWith escape items ++ rest) := by
      rw [hcompact]
      exact endsNumber_cons hends
    have hlen : (compactItemsWith escape items).length = text.length + 1 := by rw [hcompact]; rfl
    rw [readItems, h.value item _ hitem (by omega) hrest]
    rcases items with _ | ⟨next, items⟩
    · rfl
    · have hread := h.items next items rest hitems.1 hitems.2 (by
        simp only [compactItemsWith, List.length_cons, List.length_append] at hfuel
        omega)
      show (readItems hook fuel (skipBlanks
        ((compactWith escape next ++ compactItemsWith escape items) ++ rest))).bind _ = _
      rw [List.append_assoc, skipBlanks_compactWith, hread]
      rfl
  field key value rest hv hfuel hrest := by
    have hlen := length_le_flatMap hescape key.toList
    simp only [quoteWith, List.length_cons, List.length_append, List.length_nil] at hfuel
    have hstring : readString fuel (key.toList.flatMap escape ++
        '"' :: ':' :: (compactWith escape value ++ rest)) =
          some (key.toList, ':' :: (compactWith escape value ++ rest)) :=
      readString_quote hescape key.toList fuel (by omega)
    have hread := h.value value rest hv (by omega) hrest
    rw [quoteWith, List.cons_append, List.append_assoc, List.cons_append, List.nil_append, readField,
      hstring]
    show (readValue hook fuel (skipBlanks (compactWith escape value ++ rest))).bind _ = _
    rw [skipBlanks_compactWith, hread]
    simp
  fields key value fields rest hv hfields hfuel := by
    obtain ⟨c, text, hcompact, hends⟩ := compactFieldsWith_head fields
    have hrest : EndsNumber (compactFieldsWith escape fields ++ rest) := by
      rw [hcompact]
      exact endsNumber_cons hends
    rw [readFields, h.field key value _ hv (by omega) hrest]
    rcases fields with _ | ⟨field, fields⟩
    · rfl
    · obtain ⟨next, nextValue⟩ := field
      have hread := h.fields next nextValue fields rest hfields.1 hfields.2 (by
        simp only [compactFieldsWith, List.length_cons, List.length_append] at hfuel
        omega)
      show (readFields hook fuel (skipBlanks ((quoteWith escape next ++
        ':' :: (compactWith escape nextValue ++ compactFieldsWith escape fields)) ++
          rest))).bind _ = _
      have hskip : skipBlanks ((quoteWith escape next ++
          ':' :: (compactWith escape nextValue ++ compactFieldsWith escape fields)) ++ rest) =
          quoteWith escape next ++
          ':' :: (compactWith escape nextValue ++ (compactFieldsWith escape fields ++ rest)) := by
        rw [List.append_assoc, List.cons_append, List.append_assoc]
        rfl
      rw [hskip, hread]
      rfl

theorem readsBack (fuel : Nat) : ReadsBack escape hook fuel := by
  induction fuel with
  | zero => exact readsBack_zero
  | succ fuel ih => exact ih.succ hescape hhook

/-- **What is written is read back**: the value, when no `dict` in it has a key twice. -/
theorem loads_compactWith (hdist : Distinct value) (hblanks : blanks.all isBlank = true) :
    loads hook (compactWith escape value ++ blanks) = some value := by
  have hends : EndsNumber blanks := by
    rcases blanks with _ | ⟨c, blanks⟩
    · exact endsNumber_nil
    · simp only [List.all_cons, Bool.and_eq_true, isBlank, Bool.or_eq_true, decide_eq_true_eq]
        at hblanks
      obtain ⟨((rfl | rfl) | rfl) | rfl, -⟩ := hblanks <;> exact endsNumber_cons (by decide)
  have hread := (readsBack hescape hhook
    ((compactWith escape value ++ blanks).length + 1)).value value blanks hdist
    (by rw [List.length_append]; omega) hends
  have hskip : skipBlanks blanks = [] := by
    rw [skipBlanks, List.dropWhile_eq_nil_iff]
    exact List.all_eq_true.1 hblanks
  rw [loads, skipBlanks_compactWith, hread]
  simp [hskip]

end

/-- What `json.dumps(value, separators=(",", ":"))` writes is read back. -/
theorem loads_asciiCompact
    (hhook : ∀ fields : Fields (Number φ), fields.keys.Nodup → hook fields = some fields)
    (hdist : Distinct value) (hblanks : blanks.all isBlank = true) :
    loads hook (asciiCompact value ++ blanks) = some value :=
  loads_compactWith readableEscape_asciiChar hhook hdist hblanks

/-! ### What is read has distinct keys -/

/-- What is read with some fuel has distinct keys. -/
structure YieldsDistinct (hook : PairsHook φ) (fuel : Nat) : Prop where
  value : ∀ text value rest, readValue hook fuel text = some (value, rest) → Distinct value
  items : ∀ text items rest, readItems hook fuel text = some (items, rest) → DistinctItems items
  field : ∀ text key value rest, readField hook fuel text = some (key, value, rest) → Distinct value
  fields : ∀ text fields rest, readFields hook fuel text = some (fields, rest) →
    DistinctFields fields

theorem yieldsDistinct_zero : YieldsDistinct hook 0 where
  value _ _ _ h := by cases h
  items _ _ _ h := by cases h
  field _ _ _ _ h := by cases h
  fields _ _ _ h := by cases h

theorem distinct_of_readNumber (h : readNumber text = some (value, rest)) : Distinct value := by
  simp only [readNumber, Option.bind_eq_bind, Option.bind_eq_some_iff] at h
  obtain ⟨⟨_, _, _⟩, -, h⟩ := h
  split at h
  · obtain ⟨x, -, h⟩ := Option.bind_eq_some_iff.1 h
    cases h
    trivial
  · cases h
    trivial

omit [PyFloatText φ] in
theorem distinct_of_readWord {word : List Char} {read : Value (Number φ)} (hv : Distinct value)
    (h : readWord word value text = some (read, rest)) : Distinct read := by
  unfold readWord at h
  split at h
  · cases h
    exact hv
  · cases h

section

variable
  (hhook : ∀ fields kept : Fields (Number φ), hook fields = some kept → DistinctFields fields →
    Distinct (.dict kept))

include hhook

/-- A value that is read repeats no key in any of its objects. -/
theorem YieldsDistinct.readValue_succ
    (h : YieldsDistinct hook fuel) (hread : readValue hook (fuel + 1) text = some (value, rest)) :
    Distinct value := by
  rcases text with _ | ⟨c, text⟩
  · cases hread
  · simp only [readValue] at hread
    split_ifs at hread with hquote hlist hdict hnull htrue hfalse
    · obtain ⟨_, -, hread⟩ := Option.bind_eq_some_iff.1 hread
      cases hread
      trivial
    · split at hread
      · cases hread
        trivial
      · obtain ⟨⟨items, left⟩, hitems, hread⟩ := Option.bind_eq_some_iff.1 hread
        cases hread
        exact h.items _ items left hitems
    · split at hread
      · obtain ⟨⟨fields, left⟩, hnone, hread⟩ := Option.bind_eq_some_iff.1 hread
        cases hnone
        obtain ⟨kept, hkept, hread⟩ := Option.bind_eq_some_iff.1 hread
        cases hread
        exact hhook [] kept hkept trivial
      · obtain ⟨⟨fields, left⟩, hfields, hread⟩ := Option.bind_eq_some_iff.1 hread
        obtain ⟨kept, hkept, hread⟩ := Option.bind_eq_some_iff.1 hread
        cases hread
        exact hhook fields kept hkept (h.fields _ fields left hfields)
    · refine distinct_of_readWord ?_ hread
      trivial
    · refine distinct_of_readWord ?_ hread
      trivial
    · refine distinct_of_readWord ?_ hread
      trivial
    · exact distinct_of_readNumber hread

/-- The step of the induction on the fuel: whatever is read repeats no key, for values, items and
fields together. -/
theorem YieldsDistinct.succ (h : YieldsDistinct hook fuel) : YieldsDistinct hook (fuel + 1) where
  value _ _ _ hread := h.readValue_succ hhook hread
  items text items rest hread := by
    obtain ⟨⟨_, after⟩, hitem, hread⟩ := Option.bind_eq_some_iff.1 hread
    have hdist := h.value _ _ _ hitem
    dsimp only at hread
    split at hread
    · obtain ⟨⟨more, left⟩, hmore, hread⟩ := Option.bind_eq_some_iff.1 hread
      cases hread
      exact ⟨hdist, h.items _ _ _ hmore⟩
    · cases hread
      exact ⟨hdist, trivial⟩
    · cases hread
  field text key value rest hread := by
    unfold readField at hread
    split at hread
    · cases hread
    · rename_i _ _ heq
      cases heq
      obtain ⟨⟨_, after⟩, -, hread⟩ := Option.bind_eq_some_iff.1 hread
      dsimp only at hread
      split at hread
      · obtain ⟨⟨read, left⟩, hv, hread⟩ := Option.bind_eq_some_iff.1 hread
        cases hread
        exact h.value _ _ _ hv
      · cases hread
    · cases hread
  fields text fields rest hread := by
    obtain ⟨⟨key, value, after⟩, hfield, hread⟩ := Option.bind_eq_some_iff.1 hread
    have hdist := h.field _ _ _ _ hfield
    dsimp only at hread
    split at hread
    · obtain ⟨⟨more, left⟩, hmore, hread⟩ := Option.bind_eq_some_iff.1 hread
      cases hread
      exact ⟨hdist, h.fields _ _ _ hmore⟩
    · cases hread
      exact ⟨hdist, trivial⟩
    · cases hread

/-- **What is read has distinct keys**, with a hook that makes a `dict` of distinct keys. -/
theorem distinct_of_loads (h : loads hook text = some value) : Distinct value := by
  have hyields : YieldsDistinct hook (text.length + 1) := by
    generalize text.length + 1 = fuel
    induction fuel with
    | zero => exact yieldsDistinct_zero
    | succ fuel ih => exact ih.succ hhook
  unfold loads at h
  split at h
  · rename_i _ _ hread
    split at h
    · cases h
      exact hyields.value _ _ _ hread
    · cases h
  · cases h

end

end

/-! ### The two hooks -/

section

variable {φ : Type} {fields kept : Fields (Number φ)}

theorem lastOfKey_of_nodup (h : fields.keys.Nodup) : lastOfKey fields = some fields := by
  refine congrArg some (eq_of_lookup h ?_ fun key => ?_)
  · rw [Fields.keys_merge _ _ h]
    simp
  · rw [Fields.lookup_merge _ _ h]
    simp

end

end Wire
