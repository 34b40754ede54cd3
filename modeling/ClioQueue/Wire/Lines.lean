/-
# Lines of a text

`str.splitlines` ends a line at any of ten characters, a pipe at `\n` alone.  On a text of lines
that end with `\n`, `splitlines` works line by line (`splitlines_flatten`), and a line without
another boundary is one piece (`splitlines_unbroken`).
-/

import Mathlib.Data.List.Basic
import Mathlib.Tactic.Common

namespace Wire

/-- The characters at which `str.splitlines` ends a line. -/
def isLineBoundary (c : Char) : Bool :=
  ['\n', '\r', '\x0b', '\x0c', '\x1c', '\x1d', '\x1e', '\u0085', '\u2028', '\u2029'].contains c

/-- `str.splitlines`. -/
def splitlines : List Char → List (List Char)
  | [] => []
  | c :: rest =>
    -- `\r\n` is one boundary
    if c = '\r' ∧ rest.head? = some '\n' then splitlines rest
    else if isLineBoundary c then [] :: splitlines rest
    else
      match splitlines rest with
      | [] => [[c]]
      | line :: lines => (c :: line) :: lines

/-- `str.isspace`. -/
def isSpace (c : Char) : Bool :=
  [' ', '\t', '\x1f', '\u00a0', '\u1680', '\u202f', '\u205f', '\u3000'].contains c ||
    isLineBoundary c || 0x2000 ≤ c.toNat && c.toNat ≤ 0x200a

/-- `not line.strip()`. -/
def isBlankLine (line : List Char) : Bool := line.all isSpace

theorem splitlines_ne_nil {text : List Char} (h : text ≠ []) : splitlines text ≠ [] := by
  induction text with
  | nil => exact absurd rfl h
  | cons c rest ih =>
    rw [splitlines]
    split_ifs with hreturn hbdry
    · refine ih fun hnil => ?_
      rw [hnil] at hreturn
      exact absurd hreturn.2 (by simp)
    · simp
    · split <;> simp

theorem splitlines_newline_append (text rest : List Char) :
    splitlines (text ++ '\n' :: rest) = splitlines (text ++ ['\n']) ++ splitlines rest := by
  induction text with
  | nil => rfl
  | cons c text ih =>
    have hhead : (text ++ '\n' :: rest).head? = (text ++ ['\n']).head? := by
      cases text <;> rfl
    rw [List.cons_append, List.cons_append, splitlines, splitlines, hhead, ih]
    split_ifs with hreturn hbdry
    · rfl
    · rfl
    · have hne : splitlines (text ++ ['\n']) ≠ [] := splitlines_ne_nil (by simp)
      obtain ⟨_, lines, hlines⟩ := List.exists_cons_of_ne_nil hne
      rw [hlines]
      rfl

/-- A text of lines that end with `\n`: the pieces of the lines, one after the other. -/
theorem splitlines_flatten {lines : List (List Char)}
    (h : ∀ line ∈ lines, ∃ text, line = text ++ ['\n']) :
    splitlines lines.flatten = lines.flatMap splitlines := by
  induction lines with
  | nil => rfl
  | cons line lines ih =>
    obtain ⟨text, rfl⟩ := h line List.mem_cons_self
    rw [List.flatten_cons, List.append_assoc, List.singleton_append, splitlines_newline_append,
      ih fun other hmem => h other (List.mem_cons_of_mem _ hmem), List.flatMap_cons]

/-- A line with no boundary but its `\n` is one piece. -/
theorem splitlines_unbroken {text : List Char} (h : ∀ c ∈ text, isLineBoundary c = false) :
    splitlines (text ++ ['\n']) = [text] := by
  induction text with
  | nil => rfl
  | cons c text ih =>
    have hc : isLineBoundary c = false := h c List.mem_cons_self
    have hreturn : ¬ (c = '\r' ∧ (text ++ ['\n']).head? = some '\n') := by
      rintro ⟨rfl, -⟩
      exact absurd hc (by decide)
    rw [List.cons_append, splitlines, if_neg hreturn, if_neg (Bool.eq_false_iff.1 hc),
      ih fun d hd => h d (List.mem_cons_of_mem _ hd)]

end Wire
