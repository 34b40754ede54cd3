/-
# The text of a JSON value

`json.dumps(value, ensure_ascii=False, separators=(",", ":"), sort_keys=True)`, as a list of
characters: `compact` writes a value with the keys in the order they stand in, `dumps` sorts
them first.  `spaced` is `json.dumps(value)` with its defaults, a blank after each comma and
colon and ASCII only.  `byteLength` is the length of a text's UTF-8 encoding, and `nodes` and
`depth` are the number of values in a value and how deep they lie.
-/

import Mathlib.Algebra.GroupWithZero.Nat
import ClioQueue.Wire.Values

namespace Wire

/-- The length of a text in UTF-8. -/
def byteLength (text : List Char) : Nat := (text.map Char.utf8Size).sum

@[simp]
theorem byteLength_append (text rest : List Char) :
    byteLength (text ++ rest) = byteLength text + byteLength rest := by
  simp [byteLength]

/-- One digit of `\u00XX`. -/
def hexDigit (n : Nat) : Char := if n < 10 then Char.ofNat (48 + n) else Char.ofNat (87 + n)

/-- A character of a string. -/
def escapeChar (c : Char) : List Char :=
  if c = '"' then ['\\', '"']
  else if c = '\\' then ['\\', '\\']
  else if c = '\n' then ['\\', 'n']
  else if c = '\r' then ['\\', 'r']
  else if c = '\t' then ['\\', 't']
  else if c = '\x0c' then ['\\', 'f']
  else if c = '\x08' then ['\\', 'b']
  else if c.toNat < 32 then
    ['\\', 'u', '0', '0', hexDigit (c.toNat / 16), hexDigit (c.toNat % 16)]
  else [c]

/-- A quoted string. -/
def quote (s : String) : List Char := '"' :: (s.toList.flatMap escapeChar ++ ['"'])

section

variable {φ : Type} [PyFloat φ]

/-- The text of a number. -/
def Number.text : Number φ → List Char
  | .int n => (toString n).toList
  | .float x => (PyFloat.repr x).toList

namespace Value

mutual

/-- The text of a value. -/
def compact : Value (Number φ) → List Char
  | .null => ['n', 'u', 'l', 'l']
  | .bool true => ['t', 'r', 'u', 'e']
  | .bool false => ['f', 'a', 'l', 's', 'e']
  | .num x => x.text
  | .str s => quote s
  | .list [] => ['[', ']']
  | .list (item :: items) => '[' :: (compact item ++ compactItems items)
  | .dict [] => ['\x7b', '\x7d']
  | .dict ((key, value) :: fields) =>
    '\x7b' :: (quote key ++ ':' :: (compact value ++ compactFields fields))

/-- The text of a list after its first item. -/
def compactItems : List (Value (Number φ)) → List Char
  | [] => [']']
  | item :: items => ',' :: (compact item ++ compactItems items)

/-- The text of a `dict` after its first entry. -/
def compactFields : List (String × Value (Number φ)) → List Char
  | [] => ['\x7d']
  | (key, value) :: fields => ',' :: (quote key ++ ':' :: (compact value ++ compactFields fields))

end

/-- `json.dumps` with sorted keys. -/
def dumps (value : Value (Number φ)) : List Char := compact (sortKeys value)

end Value

/-! ### With blanks and in ASCII -/

/-- `\uXXXX`. -/
def unicodeEscape (n : Nat) : List Char :=
  ['\\', 'u', hexDigit (n / 4096 % 16), hexDigit (n / 256 % 16), hexDigit (n / 16 % 16),
    hexDigit (n % 16)]

/-- A character of a string in ASCII: beyond it, its one or two UTF-16 units. -/
def asciiChar (c : Char) : List Char :=
  if c.toNat < 127 then escapeChar c
  else if c.toNat < 0x10000 then unicodeEscape c.toNat
  else unicodeEscape (0xd800 + (c.toNat - 0x10000) / 0x400) ++
    unicodeEscape (0xdc00 + (c.toNat - 0x10000) % 0x400)

/-- A quoted string, its characters written as `escape` does. -/
def quoteWith (escape : Char → List Char) (s : String) : List Char :=
  '"' :: (s.toList.flatMap escape ++ ['"'])

/-- A quoted string in ASCII. -/
def asciiQuote (s : String) : List Char := '"' :: (s.toList.flatMap asciiChar ++ ['"'])

namespace Value

mutual

/-- The text of a value, with its keys in the order they stand in. -/
def spaced : Value (Number φ) → List Char
  | .null => ['n', 'u', 'l', 'l']
  | .bool true => ['t', 'r', 'u', 'e']
  | .bool false => ['f', 'a', 'l', 's', 'e']
  | .num x => x.text
  | .str s => asciiQuote s
  | .list [] => ['[', ']']
  | .list (item :: items) => '[' :: (spaced item ++ spacedItems items)
  | .dict [] => ['\x7b', '\x7d']
  | .dict ((key, value) :: fields) =>
    '\x7b' :: (asciiQuote key ++ ':' :: ' ' :: (spaced value ++ spacedFields fields))

/-- The text of a list after its first item. -/
def spacedItems : List (Value (Number φ)) → List Char
  | [] => [']']
  | item :: items => ',' :: ' ' :: (spaced item ++ spacedItems items)

/-- The text of a `dict` after its first entry. -/
def spacedFields : List (String × Value (Number φ)) → List Char
  | [] => ['\x7d']
  | (key, value) :: fields =>
    ',' :: ' ' :: (asciiQuote key ++ ':' :: ' ' :: (spaced value ++ spacedFields fields))

end

/-! ### With any escapes -/

mutual

/-- The text of a value, with its strings' characters written as `escape` does. -/
def compactWith (escape : Char → List Char) : Value (Number φ) → List Char
  | .null => ['n', 'u', 'l', 'l']
  | .bool true => ['t', 'r', 'u', 'e']
  | .bool false => ['f', 'a', 'l', 's', 'e']
  | .num x => x.text
  | .str s => quoteWith escape s
  | .list [] => ['[', ']']
  | .list (item :: items) => '[' :: (compactWith escape item ++ compactItemsWith escape items)
  | .dict [] => ['\x7b', '\x7d']
  | .dict ((key, value) :: fields) => '\x7b' :: (quoteWith escape key ++
    ':' :: (compactWith escape value ++ compactFieldsWith escape fields))

/-- The text of a list after its first item. -/
def compactItemsWith (escape : Char → List Char) : List (Value (Number φ)) → List Char
  | [] => [']']
  | item :: items => ',' :: (compactWith escape item ++ compactItemsWith escape items)

/-- The text of a `dict` after its first entry. -/
def compactFieldsWith (escape : Char → List Char) : List (String × Value (Number φ)) → List Char
  | [] => ['\x7d']
  | (key, value) :: fields => ',' :: (quoteWith escape key ++
    ':' :: (compactWith escape value ++ compactFieldsWith escape fields))

end

/-- `json.dumps(value, separators=(",", ":"))`. -/
def asciiCompact (value : Value (Number φ)) : List Char := compactWith asciiChar value

end Value

end

/-! ### How large a value is -/

namespace Value

variable {ν : Type}

mutual

/-- The values in a value. -/
def nodes : Value ν → Nat
  | .list items => 1 + itemNodes items
  | .dict fields => 1 + fieldNodes fields
  | _ => 1

/-- The values in the items of a list. -/
def itemNodes : List (Value ν) → Nat
  | [] => 0
  | item :: items => nodes item + itemNodes items

/-- The values in the entries of a `dict`. -/
def fieldNodes : List (String × Value ν) → Nat
  | [] => 0
  | (_, value) :: fields => nodes value + fieldNodes fields

end

mutual

/-- How deep the values in a value lie. -/
def depth : Value ν → Nat
  | .list items => itemDepth items
  | .dict fields => fieldDepth fields
  | _ => 0

/-- How deep the items of a list lie. -/
def itemDepth : List (Value ν) → Nat
  | [] => 0
  | item :: items => max (1 + depth item) (itemDepth items)

/-- How deep the entries of a `dict` lie. -/
def fieldDepth : List (String × Value ν) → Nat
  | [] => 0
  | (_, value) :: fields => max (1 + depth value) (fieldDepth fields)

end

end Value

end Wire
