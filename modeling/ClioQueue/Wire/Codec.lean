/-
# What is relied on of JSON

`JsonText` is what a program relies on of `json.loads` and of the `repr` of a `float`: a text is
read with its line's end or without, blanks are no value, and what `json.dumps` writes is read back.
`JsonText.ofReader` is the reader of `Wire.loads`.
-/

import ClioQueue.Wire.Lines
import ClioQueue.Wire.Reading
import Mathlib.Data.List.DropRight

namespace Wire

/-- A printable character of ASCII. -/
def isPrintable (c : Char) : Bool := 32 ≤ c.toNat && c.toNat < 127

/-- `json.loads`, with `none` for `JSONDecodeError`. -/
class JsonText (φ : Type) extends PyFloat φ where
  loads : List Char → Option (Value (Number φ))
  loads_newline : ∀ text, loads (text ++ ['\n']) = loads text
  loads_blank : ∀ text, isBlankLine text = true → loads text = none
  distinct_loads : ∀ text value, loads text = some value → value.Distinct
  loads_asciiCompact : ∀ value : Value (Number φ), value.Distinct →
    loads value.asciiCompact = some value
  printable_repr : ∀ x, (repr x).toList.all isPrintable = true

theorem isPrintable_iff {c : Char} : isPrintable c = true ↔ 32 ≤ c.toNat ∧ c.toNat < 127 := by
  simp [isPrintable]

/-- No boundary of lines can be printed. -/
theorem not_boundary {c : Char} (h : isPrintable c = true) : isLineBoundary c = false := by
  refine Bool.eq_false_iff.2 fun hbdry => ?_
  simp only [isLineBoundary, List.contains_iff_mem, List.mem_cons, List.not_mem_nil,
    or_false] at hbdry
  rcases hbdry with rfl | rfl | rfl | rfl | rfl | rfl | rfl | rfl | rfl | rfl <;>
    exact absurd h (by decide)

/-! ### What is written in ASCII can be printed -/

theorem printable_hexDigit : ∀ n < 16, isPrintable (hexDigit n) = true := by decide

theorem printable_unicodeEscape (n : Nat) : (unicodeEscape n).all isPrintable = true := by
  have hdig : ∀ m, isPrintable (hexDigit (m % 16)) = true := fun m =>
    printable_hexDigit (m % 16) (Nat.mod_lt m (by omega))
  have hmarks : isPrintable '\\' = true ∧ isPrintable 'u' = true := by decide
  simp [unicodeEscape, hdig, hmarks]

theorem printable_escapeChar {c : Char} (h : c.toNat < 127) :
    (escapeChar c).all isPrintable = true := by
  unfold escapeChar
  split_ifs with hquote hbackslash hnewline hreturn htab hfeed hback hctrl
  · rfl
  · rfl
  · rfl
  · rfl
  · rfl
  · rfl
  · rfl
  · have hzero : isPrintable '\\' = true ∧ isPrintable 'u' = true ∧ isPrintable '0' = true := by
      decide
    have hhigh := printable_hexDigit (c.toNat / 16) (by omega)
    have hlow := printable_hexDigit (c.toNat % 16) (by omega)
    simp [hzero, hhigh, hlow]
  · have hc : isPrintable c = true := isPrintable_iff.2 ⟨by omega, h⟩
    simp [hc]

theorem printable_asciiChar (c : Char) : (asciiChar c).all isPrintable = true := by
  rw [asciiChar]
  split_ifs with hascii hplane
  · exact printable_escapeChar hascii
  · exact printable_unicodeEscape _
  · rw [List.all_append, printable_unicodeEscape, printable_unicodeEscape]
    rfl

theorem printable_asciiQuote (s : String) : (quoteWith asciiChar s).all isPrintable = true := by
  have hquote : isPrintable '"' = true := by decide
  simp [quoteWith, hquote, printable_asciiChar]

theorem printable_of_isDigit {c : Char} (h : c.isDigit = true) : isPrintable c = true := by
  simp only [Char.isDigit, Bool.and_eq_true, decide_eq_true_eq, ge_iff_le,
    UInt32.le_iff_toNat_le] at h
  have hzero : '0'.val.toNat = 48 := rfl
  have hnine : '9'.val.toNat = 57 := rfl
  have hnat : c.toNat = c.val.toNat := rfl
  exact isPrintable_iff.2 ⟨by omega, by omega⟩

theorem printable_toDigits (n : Nat) : (Nat.toDigits 10 n).all isPrintable = true :=
  List.all_eq_true.2 fun _ hc =>
    printable_of_isDigit (Nat.isDigit_of_mem_toDigits (by decide) (by decide) hc)

theorem printable_toString (n : Int) : (toString n).toList.all isPrintable = true := by
  rw [toList_toString]
  split
  · exact printable_toDigits _
  · rw [List.all_cons, printable_toDigits]
    rfl

section

variable {φ : Type} [PyFloat φ]

/-- The `repr` of every `float` can be printed. -/
def PrintableFloats (φ : Type) [PyFloat φ] : Prop :=
  ∀ x : φ, (PyFloat.repr x).toList.all isPrintable = true

theorem printable_text (h : PrintableFloats φ) (x : Number φ) : x.text.all isPrintable = true := by
  rcases x with n | x
  · exact printable_toString n
  · exact h x

open Value

mutual

/-- What `json.dumps` writes in ASCII can be printed, so that it is one line. -/
theorem printable_asciiCompact (h : PrintableFloats φ) : ∀ value : Value (Number φ),
    (compactWith asciiChar value).all isPrintable = true
  | .null => rfl
  | .bool true => rfl
  | .bool false => rfl
  | .num x => printable_text h x
  | .str s => printable_asciiQuote s
  | .list [] => rfl
  | .list (item :: items) => by
    rw [compactWith, List.all_cons, List.all_append, printable_asciiCompact h item,
      printable_items h items]
    rfl
  | .dict [] => rfl
  | .dict ((key, value) :: fields) => by
    rw [compactWith, List.all_cons, List.all_append, List.all_cons, List.all_append,
      printable_asciiQuote, printable_asciiCompact h value, printable_fields h fields]
    rfl

theorem printable_items (h : PrintableFloats φ) : ∀ items : List (Value (Number φ)),
    (compactItemsWith asciiChar items).all isPrintable = true
  | [] => rfl
  | item :: items => by
    rw [compactItemsWith, List.all_cons, List.all_append, printable_asciiCompact h item,
      printable_items h items]
    rfl

theorem printable_fields (h : PrintableFloats φ) : ∀ fields : List (String × Value (Number φ)),
    (compactFieldsWith asciiChar fields).all isPrintable = true
  | [] => rfl
  | (key, value) :: fields => by
    rw [compactFieldsWith, List.all_cons, List.all_append, List.all_cons, List.all_append,
      printable_asciiQuote, printable_asciiCompact h value, printable_fields h fields]
    rfl

end

/-- What `json.dumps` writes has no boundary of lines. -/
theorem asciiCompact_unbroken (h : PrintableFloats φ) (value : Value (Number φ)) :
    ∀ c ∈ value.asciiCompact, isLineBoundary c = false := fun c hc =>
  not_boundary (List.all_eq_true.1 (printable_asciiCompact h value) c hc)

end

/-! ### The reader -/

section

variable {ν : Type} {d : Fields ν} {key : String} {value : Value ν}

open Value

theorem mem_assign {e : String × Value ν} (h : e ∈ assign d key value) :
    e = (key, value) ∨ e ∈ d := by
  induction d with
  | nil => exact .inl (List.mem_singleton.1 h)
  | cons entry d ih =>
    obtain ⟨k, v⟩ := entry
    rw [assign] at h
    split at h
    · rename_i hk
      rcases List.mem_cons.1 h with rfl | h
      · exact .inl (by rw [hk])
      · exact .inr (List.mem_cons_of_mem _ h)
    · rcases List.mem_cons.1 h with rfl | h
      · exact .inr List.mem_cons_self
      · exact (ih h).imp id (List.mem_cons_of_mem _)

theorem distinct_assign (hd : Distinct (.dict d)) (hv : Distinct value) :
    Distinct (.dict (assign d key value)) := by
  obtain ⟨hnd, hvalues⟩ := distinct_dict.1 hd
  refine distinct_dict.2 ⟨?_, fun e he => ?_⟩
  · rw [keys_assign]
    split
    · exact hnd
    · rename_i hfresh
      exact List.nodup_append.2 ⟨hnd, List.nodup_singleton _, fun k hk l hl heq =>
        hfresh (List.mem_singleton.1 hl ▸ heq ▸ hk)⟩
  · rcases mem_assign he with rfl | he
    · exact hv
    · exact hvalues e he

theorem distinct_merge {fields : Fields ν} : ∀ {d : Fields ν}, Distinct (.dict d) →
    (∀ e ∈ fields, Distinct e.2) → Distinct (.dict (d.merge fields)) := by
  induction fields with
  | nil => exact fun hd _ => hd
  | cons e fields ih =>
    intro d hd hfields
    exact ih (distinct_assign hd (hfields e List.mem_cons_self))
      fun other hmem => hfields other (List.mem_cons_of_mem _ hmem)

end

/-- Blanks other than a space cannot be printed. -/
theorem not_printable {c : Char} (h : isSpace c = true) (hc : isBlank c = false) :
    isPrintable c = false := by
  refine Bool.eq_false_iff.2 fun hprint => ?_
  simp only [isSpace, not_boundary hprint, Bool.or_false, Bool.or_eq_true, Bool.and_eq_true,
    decide_eq_true_eq, List.contains_iff_mem, List.mem_cons, List.not_mem_nil, or_false] at h
  have hrange := isPrintable_iff.1 hprint
  rcases h with (rfl | rfl | rfl | rfl | rfl | rfl | rfl | rfl) | h
  · exact absurd hc (by decide)
  all_goals first | exact absurd hprint (by decide) | omega

section

variable {φ : Type} [PyFloatText φ]

theorem readValue_not_printable {hook : PairsHook φ} {c : Char} (h : isPrintable c = false)
    (fuel : Nat) (rest : List Char) : readValue hook fuel (c :: rest) = none := by
  have hne : ∀ d : Char, isPrintable d = true → c ≠ d := by
    rintro d hd rfl
    exact absurd (hd.symm.trans h) (by decide)
  have hdig : c.isDigit = false :=
    Bool.eq_false_iff.2 fun hdig => absurd (printable_of_isDigit hdig) (by rw [h]; decide)
  have hsign : splitSign (c :: rest) = ([], c :: rest) := by simp [splitSign, hne '-' rfl]
  have hinteger : splitInteger (c :: rest) = none := by simp [splitInteger, hne '0' rfl, hdig]
  rcases fuel with _ | fuel
  · rfl
  · simp only [readValue, hne '"' rfl, hne '[' rfl, hne '\x7b' rfl, hne 'n' rfl, hne 't' rfl,
      hne 'f' rfl, if_false, readNumber, splitNumeral, hsign, hinteger]
    rfl

theorem loads_blankLine {hook : PairsHook φ} {text : List Char} (h : isBlankLine text = true) :
    loads hook text = none := by
  have hspace := List.all_eq_true.1 h
  have hread : readValue hook (text.length + 1) (skipBlanks text) = none := by
    rcases hskip : skipBlanks text with _ | ⟨c, rest⟩
    · rfl
    · have hc : isBlank c = false := by
        have hhead := List.head?_dropWhile_not isBlank text
        rw [skipBlanks] at hskip
        rw [hskip] at hhead
        simpa using hhead
      have hmem : c ∈ text := (List.dropWhile_suffix isBlank).subset (by
        rw [skipBlanks] at hskip
        rw [hskip]
        exact .head _)
      exact readValue_not_printable (not_printable (hspace c hmem) hc) _ rest
  rw [loads, hread]

/-- The reader with `dict(pairs)`, for floats whose `repr` can be printed. -/
@[reducible]
def JsonText.ofReader (h : PrintableFloats φ) : JsonText φ where
  loads text := Wire.loads lastOfKey (text.rdropWhile (· = '\n'))
  loads_newline text := by rw [List.rdropWhile_concat_pos _ _ _ (by simp)]
  loads_blank text hblank := loads_blankLine (List.all_eq_true.2 fun c hc =>
    List.all_eq_true.1 hblank c ((List.rdropWhile_prefix _ text).subset hc))
  distinct_loads text value hloads := distinct_of_loads (fun fields kept hkept hfields => by
      cases hkept
      exact distinct_merge (Value.distinct_dict.2 ⟨List.nodup_nil, fun e he => by cases he⟩)
        (Value.distinctFields_iff.1 hfields)) hloads
  loads_asciiCompact value hdist := by
    have hends : value.asciiCompact.rdropWhile (· = '\n') = value.asciiCompact := by
      refine List.rdropWhile_eq_self_iff.2 fun hne hlast => ?_
      have hunbroken := asciiCompact_unbroken h value _ (List.getLast_mem hne)
      rw [of_decide_eq_true hlast] at hunbroken
      exact absurd hunbroken (by decide)
    have hread : Wire.loads lastOfKey (value.asciiCompact ++ []) = some value :=
      Wire.loads_asciiCompact (fun _ hnd => lastOfKey_of_nodup hnd) hdist rfl
    rw [hends]
    rwa [List.append_nil] at hread
  printable_repr := h

end

end Wire
