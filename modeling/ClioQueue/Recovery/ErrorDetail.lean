/-
# Bounded error details

`bounded_error_detail` keeps an error text within 4 KiB: what is longer loses its middle, and a line
in between says how many bytes are gone.  An error with a text therefore keeps one
(`boundedErrorDetail_ne_empty`), whatever the cut leaves of it.
-/

import ClioQueue.Durable.Utf8
import ClioQueue.Wire.Lines

namespace ClioQueue.Recovery

open Wire Durable.Utf8

/-- `str.casefold`. -/
class CaseFold where
  casefold : List Char → List Char

/-- `ERROR_DETAIL_MAX_BYTES`. -/
def errorDetailMaxBytes : Nat := 4096

/-- `ERROR_DETAIL_SUMMARY_TAIL_BYTES`. -/
def errorDetailTailBytes : Nat := 1024

/-- `len(text.encode("utf-8"))`. -/
def encodedLength (text : List Char) : Nat := (encode text).length

/-- `_utf8_suffix`: the longest end of a text that fits. -/
def utf8Suffix (limit : Nat) (text : List Char) : List Char := (fit limit text.reverse).reverse

/-! ### The first diagnostic -/

/-- `str.splitlines(keepends=True)`. -/
def linesWithEnds : List Char → List (List Char)
  | [] => []
  | c :: rest =>
    -- `\r\n` is one boundary
    if isLineBoundary c ∧ ¬(c = '\r' ∧ rest.head? = some '\n') then [c] :: linesWithEnds rest
    else
      match linesWithEnds rest with
      | [] => [[c]]
      | line :: lines => (c :: line) :: lines

/-- `str.strip(chars)`. -/
def stripChars (p : Char → Bool) (text : List Char) : List Char :=
  ((text.dropWhile p).reverse.dropWhile p).reverse

/-- Whether a line is a heading of pytest's. -/
def isPytestHeading [CaseFold] (line : List Char) : Bool :=
  ["failures".toList, "errors".toList].contains
    (CaseFold.casefold (stripChars isSpace (stripChars (· = '=') (stripChars isSpace line))))

/-- Where the lines that are headings begin. -/
def headingOffsets [CaseFold] : (offset : Nat) → List (List Char) → List Nat
  | _, [] => []
  | offset, line :: lines =>
    (if isPytestHeading line then [offset] else []) ++ headingOffsets (offset + line.length) lines

/-- `str.find`. -/
def findText (needle text : List Char) : Option Nat :=
  (List.range (text.length + 1)).find? fun offset => needle.isPrefixOf (text.drop offset)

/-- `_first_diagnostic`: where the first diagnostic of an output begins. -/
def firstDiagnostic [CaseFold] (output : List Char) : Option Nat :=
  (headingOffsets 0 (linesWithEnds output) ++
    (findText "Traceback (most recent call last):".toList output).toList).min?

/-! ### The cut -/

/-- The line in place of what is left out. -/
def omissionLine (prefixBytes middleBytes : Nat) : List Char :=
  (s!"\n\n[... {prefixBytes} prefix bytes and {middleBytes} middle bytes omitted ...]\n\n").toList

/-- What is left of a head that is too long. -/
def shorterHead (head : List Char) (excess : Nat) : List Char := fit (encodedLength head - excess) head

theorem length_fit_lt {head : List Char} {limit : Nat} (h : limit < encodedLength head) :
    encodedLength (fit limit head) < encodedLength head :=
  Nat.lt_of_le_of_lt (length_encode_fit limit head) h

/-- The loop that shortens the head until the excerpt fits. -/
def shortenedExcerpt (maxBytes prefixBytes tailStart : Nat) (tail head placeholder : List Char) :
    List Char :=
  let excess := encodedLength (head ++ placeholder ++ tail) - maxBytes
  if 0 < excess ∧ 0 < encodedLength head then
    let shorter := shorterHead head excess
    let middleBytes := tailStart - prefixBytes - encodedLength shorter
    shortenedExcerpt maxBytes prefixBytes tailStart tail shorter
      (omissionLine prefixBytes middleBytes)
  else head ++ placeholder ++ tail
termination_by encodedLength head
decreasing_by
  rename_i h
  exact length_fit_lt (by omega)

/-- `_bounded_diagnostic_text`, the text. -/
def boundedDiagnosticText (output : List Char) (maxBytes tailBytes : Nat)
    (diagnosticOffset : Option Nat) : List Char :=
  if encodedLength output ≤ maxBytes then output
  else
    let tail := utf8Suffix (min tailBytes (maxBytes / 2)) output
    let front := output.take (output.length - tail.length)
    let tailStart := encodedLength front
    let headStart := diagnosticOffset.getD 0
    let prefixBytes := min (encodedLength (output.take headStart)) tailStart
    let diagnostic := front.drop headStart
    let headFor (placeholder : List Char) : List Char :=
      fit (maxBytes - encodedLength tail - encodedLength placeholder) diagnostic
    let firstHead := headFor "\n\n[... command output omitted ...]\n\n".toList
    let placeholder := omissionLine prefixBytes (tailStart - prefixBytes - encodedLength firstHead)
    shortenedExcerpt maxBytes prefixBytes tailStart tail (headFor placeholder) placeholder

/-- `bounded_error_detail`. -/
def boundedErrorDetail [CaseFold] (value : String) : String :=
  String.ofList (boundedDiagnosticText value.toList errorDetailMaxBytes errorDetailTailBytes
    (firstDiagnostic value.toList))

theorem omissionLine_ne_nil (prefixBytes middleBytes : Nat) :
    omissionLine prefixBytes middleBytes ≠ [] := by
  simp [omissionLine, toString]

theorem shortenedExcerpt_ne_nil (maxBytes prefixBytes tailStart : Nat)
    (tail head placeholder : List Char) (h : placeholder ≠ []) :
    shortenedExcerpt maxBytes prefixBytes tailStart tail head placeholder ≠ [] := by
  fun_induction shortenedExcerpt maxBytes prefixBytes tailStart tail head placeholder with
  | case1 head placeholder excess hlong shorter middleBytes ih => exact ih (omissionLine_ne_nil _ _)
  | case2 head placeholder excess hfits => simp [h]

theorem boundedDiagnosticText_ne_nil {output : List Char} (h : output ≠ []) (maxBytes tailBytes : Nat)
    (diagnosticOffset : Option Nat) :
    boundedDiagnosticText output maxBytes tailBytes diagnosticOffset ≠ [] := by
  unfold boundedDiagnosticText
  split_ifs
  · exact h
  · exact shortenedExcerpt_ne_nil _ _ _ _ _ _ (omissionLine_ne_nil _ _)

/-- **An error with a text keeps one.** -/
theorem boundedErrorDetail_ne_empty [CaseFold] {value : String} (h : value ≠ "") :
    boundedErrorDetail value ≠ "" := by
  have htext : value.toList ≠ [] := fun hnil => h (String.toList_eq_nil_iff.1 hnil)
  intro hempty
  have hnil := String.toList_eq_nil_iff.2 hempty
  rw [boundedErrorDetail, String.toList_ofList] at hnil
  exact boundedDiagnosticText_ne_nil htext _ _ _ hnil

end ClioQueue.Recovery
