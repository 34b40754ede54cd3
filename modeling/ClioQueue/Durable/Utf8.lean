/-
# UTF-8 in pieces

A text is a list of characters, its encoding a list of bytes.  `decodePrefix` reads the
characters at the start of a list of bytes, up to the first place where none is
(the strict decoder of Python stops there with an error).  `decodeReplace` goes on past such
a place with one U+FFFD (`errors="replace"`).

`fit limit text` is the longest prefix of a text whose encoding has at most `limit` bytes; cutting
an encoding after `limit` bytes leaves it and a part of one character (`take_encode`).
`encode_decodeReplace_pieces` says when an encoding that is cut into pieces, decoded piece by
piece and encoded again is what it was: when, and only when, no cut lies inside a character.
-/

import Mathlib.Algebra.GroupWithZero.Nat
import Mathlib.Data.List.Basic
import Mathlib.Tactic.Common

namespace Durable.Utf8

variable {c : Char} {pieces : List (List UInt8)} {front text : List Char} {bytes rest : List UInt8}
  {i limit : Nat} {lead : UInt8}

/-- The encoding of a text. -/
def encode (text : List Char) : List UInt8 := text.flatMap String.utf8EncodeChar

@[simp]
theorem encode_nil : encode [] = [] := rfl

theorem encode_cons (c : Char) (text : List Char) :
    encode (c :: text) = String.utf8EncodeChar c ++ encode text := rfl

@[simp]
theorem encode_append (text rest : List Char) : encode (text ++ rest) = encode text ++ encode rest :=
  List.flatMap_append

theorem length_encode_cons (c : Char) (text : List Char) :
    (encode (c :: text)).length = c.utf8Size + (encode text).length := by
  rw [encode_cons, List.length_append, String.length_utf8EncodeChar]

/-! ### One character -/

/-- The character whose encoding the bytes start with. -/
def head? (bytes : List UInt8) : Option Char := bytes.toByteArray.utf8DecodeChar? 0

theorem head?_append (c : Char) (rest : List UInt8) :
    head? (String.utf8EncodeChar c ++ rest) = some c := by
  rw [head?, List.toByteArray_append, ByteArray.utf8DecodeChar?_utf8EncodeChar_append]

/-- **A character is read exactly where its encoding stands.** -/
theorem head?_eq_some_iff :
    head? bytes = some c ↔ ∃ rest, bytes = String.utf8EncodeChar c ++ rest := by
  constructor
  · intro h
    obtain ⟨rest, hrest⟩ := ByteArray.exists_of_utf8DecodeChar?_eq_some h
    refine ⟨rest.data.toList, ?_⟩
    rw [← List.toByteArray_inj, hrest, List.toByteArray_append]
    congr 1
    ext1
    rw [List.data_toByteArray]
  · rintro ⟨rest, rfl⟩
    exact head?_append c rest

@[simp]
theorem head?_nil : head? [] = none := by
  rcases h : head? [] with _ | c
  · rfl
  · obtain ⟨_, hrest⟩ := head?_eq_some_iff.1 h
    have hnil := (List.append_eq_nil_iff.1 hrest.symm).1
    exact absurd hnil String.utf8EncodeChar_ne_nil

theorem utf8EncodeChar_drop (c : Char) (rest : List UInt8) :
    (String.utf8EncodeChar c ++ rest).drop c.utf8Size = rest :=
  List.drop_left' (String.length_utf8EncodeChar c)

/-- No encoding of a character is a proper prefix of another. -/
theorem head?_take_encodeChar (hi : i < c.utf8Size) :
    head? ((String.utf8EncodeChar c).take i) = none := by
  rcases h : head? ((String.utf8EncodeChar c).take i) with _ | d
  · rfl
  · exfalso
    obtain ⟨rest, hrest⟩ := head?_eq_some_iff.1 h
    have hwhole : String.utf8EncodeChar c ++ [] =
        String.utf8EncodeChar d ++ (rest ++ (String.utf8EncodeChar c).drop i) := by
      rw [← List.append_assoc, ← hrest, List.take_append_drop, List.append_nil]
    have hsame : some c = some d := by
      rw [← head?_append c [], hwhole, head?_append]
    cases hsame
    have hlen := congrArg List.length hrest
    rw [List.length_take, List.length_append, String.length_utf8EncodeChar] at hlen
    omega

/-! ### Strict decoding -/

/-- The characters at the start of the bytes and what is left where no character can be read; at
most `fuel` of them. -/
def scan : Nat → List UInt8 → List Char × List UInt8
  | 0, bytes => ([], bytes)
  | fuel + 1, bytes =>
    match head? bytes with
    | none => ([], bytes)
    | some c => (c :: (scan fuel (bytes.drop c.utf8Size)).1, (scan fuel (bytes.drop c.utf8Size)).2)

/-- The characters at the start of the bytes, and the rest, where the strict decoder stops. -/
def decodePrefix (bytes : List UInt8) : List Char × List UInt8 := scan bytes.length bytes

/-- Scanning takes the encoded characters one by one and stops where no character begins. -/
theorem scan_encode_append {rest : List UInt8} (hrest : head? rest = none) :
    ∀ (text : List Char) (fuel : Nat), (encode text ++ rest).length ≤ fuel →
      scan fuel (encode text ++ rest) = (text, rest)
  | [], 0, _ => rfl
  | [], fuel + 1, _ => by
      rw [encode_nil, List.nil_append, scan, hrest]
  | c :: text, fuel, hfuel => by
      have hpos := Char.utf8Size_pos c
      rw [List.length_append, length_encode_cons] at hfuel
      obtain ⟨fuel, rfl⟩ : ∃ n, fuel = n + 1 := ⟨fuel - 1, by omega⟩
      rw [encode_cons, List.append_assoc, scan, head?_append]
      dsimp only
      rw [utf8EncodeChar_drop, scan_encode_append hrest text fuel]
      rw [List.length_append]
      omega

/-- **Strict decoding reads an encoding back**, up to a place where no character can be read. -/
theorem decodePrefix_encode_append (text : List Char) (hrest : head? rest = none) :
    decodePrefix (encode text ++ rest) = (text, rest) :=
  scan_encode_append hrest text _ (Nat.le_refl _)

theorem decodePrefix_encode (text : List Char) : decodePrefix (encode text) = (text, []) := by
  have h : decodePrefix (encode text ++ []) = (text, []) := decodePrefix_encode_append text head?_nil
  rwa [List.append_nil] at h

/-! ### Cutting an encoding -/

/-- The longest prefix of a text whose encoding has at most `limit` bytes. -/
def fit : Nat → List Char → List Char
  | _, [] => []
  | limit, c :: text => if c.utf8Size ≤ limit then c :: fit (limit - c.utf8Size) text else []

theorem fit_isPrefix (limit : Nat) (text : List Char) : fit limit text <+: text := by
  induction text generalizing limit with
  | nil => exact List.prefix_refl _
  | cons c text ih =>
    rw [fit]
    split_ifs with h
    · exact (List.prefix_cons_inj c).2 (ih _)
    · exact List.nil_prefix

theorem length_encode_fit (limit : Nat) (text : List Char) :
    (encode (fit limit text)).length ≤ limit := by
  induction text generalizing limit with
  | nil => exact Nat.zero_le _
  | cons c text ih =>
    rw [fit]
    split_ifs with h
    · have hrest := ih (limit - c.utf8Size)
      rw [length_encode_cons]
      omega
    · exact Nat.zero_le _

/-- **`fit` is the longest such prefix.** -/
theorem prefix_fit (hfront : front <+: text) (hlen : (encode front).length ≤ limit) :
    front <+: fit limit text := by
  induction text generalizing limit front with
  | nil => exact hfront
  | cons c text ih =>
    rcases front with _ | ⟨d, front⟩
    · exact List.nil_prefix
    · obtain ⟨rfl, hrest⟩ := List.cons_prefix_cons.1 hfront
      rw [length_encode_cons] at hlen
      rw [fit, if_pos (by omega)]
      exact (List.prefix_cons_inj d).2 (ih hrest (by omega))

theorem fit_of_length_le (h : (encode text).length ≤ limit) : fit limit text = text :=
  (fit_isPrefix limit text).eq_of_length_le (prefix_fit (List.prefix_refl _) h).length_le

/-- A prefix of a text with as many bytes is the text. -/
theorem eq_of_prefix_of_length_le (h : front <+: text)
    (hlen : (encode text).length ≤ (encode front).length) : front = text := by
  obtain ⟨rest, rfl⟩ := h
  rcases rest with _ | ⟨c, rest⟩
  · rw [List.append_nil]
  · have hpos := Char.utf8Size_pos c
    rw [encode_append, List.length_append, length_encode_cons] at hlen
    omega

/-- **Cutting an encoding** leaves whole characters and a part of one that cannot be read. -/
theorem take_encode (limit : Nat) (text : List Char) :
    ∃ part, (encode text).take limit = encode (fit limit text) ++ part ∧ head? part = none := by
  induction text generalizing limit with
  | nil => exact ⟨[], by rw [encode_nil, List.take_nil, fit, encode_nil, List.append_nil], head?_nil⟩
  | cons c text ih =>
    rw [fit, encode_cons]
    split_ifs with h
    · obtain ⟨part, htake, hpart⟩ := ih (limit - c.utf8Size)
      refine ⟨part, ?_, hpart⟩
      rw [List.take_append, String.length_utf8EncodeChar, htake, encode_cons, List.append_assoc,
        List.take_of_length_le]
      rw [String.length_utf8EncodeChar]
      exact h
    · refine ⟨(String.utf8EncodeChar c).take limit, ?_, head?_take_encodeChar (by omega)⟩
      rw [encode_nil, List.nil_append, List.take_append_of_le_length]
      rw [String.length_utf8EncodeChar]
      omega

/-- A place between two characters of a text, as a number of bytes. -/
def IsBoundary (text : List Char) (position : Nat) : Prop :=
  ∃ front rest, text = front ++ rest ∧ position = (encode front).length

/-- Boundaries behind a text are those of the rest, moved by the bytes of the text. -/
theorem isBoundary_append (front rest : List Char) (position : Nat) :
    IsBoundary (front ++ rest) ((encode front).length + position) ↔ IsBoundary rest position := by
  constructor
  · rintro ⟨before, after, htext, hposition⟩
    rcases List.append_eq_append_iff.1 htext with ⟨more, rfl, rfl⟩ | ⟨more, rfl, rfl⟩
    · refine ⟨more, after, rfl, ?_⟩
      rw [encode_append, List.length_append] at hposition
      omega
    · rw [encode_append, List.length_append] at hposition
      have hmore : more = [] := by
        rcases more with _ | ⟨c, more⟩
        · rfl
        · have hpos := Char.utf8Size_pos c
          rw [length_encode_cons] at hposition
          omega
      subst hmore
      exact ⟨[], rest, rfl, by simpa using hposition⟩
  · rintro ⟨before, after, rfl, rfl⟩
    refine ⟨front ++ before, after, (List.append_assoc ..).symm, ?_⟩
    rw [encode_append, List.length_append]

/-- **Where an encoding can be split**: between two characters or inside one. -/
theorem split_encode (h : bytes ++ rest = encode text) :
    (∃ front back, text = front ++ back ∧ bytes = encode front ∧ rest = encode back) ∨
      ∃ front c back i, text = front ++ c :: back ∧ 0 < i ∧ i < c.utf8Size ∧
        bytes = encode front ++ (String.utf8EncodeChar c).take i ∧
        rest = (String.utf8EncodeChar c).drop i ++ encode back := by
  induction text generalizing bytes with
  | nil =>
    obtain ⟨rfl, rfl⟩ := List.append_eq_nil_iff.1 h
    exact .inl ⟨[], [], rfl, rfl, rfl⟩
  | cons c text ih =>
    rw [encode_cons] at h
    rcases List.append_eq_append_iff.1 h with ⟨more, hc, hrest⟩ | ⟨more, hbytes, hmore⟩
    · -- the cut lies in the first character or at one of its ends
      have htake : (String.utf8EncodeChar c).take bytes.length = bytes := by
        rw [hc, List.take_left]
      have hdrop : (String.utf8EncodeChar c).drop bytes.length = more := by
        rw [hc, List.drop_left]
      have hlen := congrArg List.length hc
      rw [List.length_append, String.length_utf8EncodeChar] at hlen
      rcases Nat.eq_zero_or_pos bytes.length with hzero | hpos
      · have hnil := List.length_eq_zero_iff.1 hzero
        subst hnil
        rw [List.nil_append] at hc
        exact .inl ⟨[], c :: text, rfl, rfl, by rw [hrest, ← hc, encode_cons]⟩
      · rcases Nat.eq_zero_or_pos more.length with hzero | hmore
        · have hnil := List.length_eq_zero_iff.1 hzero
          subst hnil
          rw [List.append_nil] at hc
          refine .inl ⟨[c], text, rfl, ?_, hrest⟩
          rw [encode_cons, hc, encode_nil, List.append_nil]
        · refine .inr ⟨[], c, text, bytes.length, rfl, hpos, by omega, ?_, ?_⟩
          · rw [encode_nil, List.nil_append, htake]
          · rw [hdrop, hrest]
    · -- the cut lies after the first character
      rcases ih hmore.symm with ⟨front, back, rfl, rfl, rfl⟩ |
        ⟨front, d, back, i, rfl, h0, hi, rfl, rfl⟩
      · exact .inl ⟨c :: front, back, rfl, by rw [hbytes, encode_cons], rfl⟩
      · refine .inr ⟨c :: front, d, back, i, rfl, h0, hi, ?_, rfl⟩
        rw [hbytes, encode_cons, List.append_assoc]

/-! ### Decoding with replacement -/

/-- The bytes that may follow `lead` in a character that is cut short: the range of each byte that
continues it, but for the last one. -/
def partialRanges (lead : UInt8) : List (UInt8 × UInt8) :=
  if lead = 0xE0 then [(0xA0, 0xBF)]
  else if lead = 0xED then [(0x80, 0x9F)]
  else if 0xE1 ≤ lead ∧ lead ≤ 0xEF then [(0x80, 0xBF)]
  else if lead = 0xF0 then [(0x90, 0xBF), (0x80, 0xBF)]
  else if lead = 0xF4 then [(0x80, 0x8F), (0x80, 0xBF)]
  else if 0xF1 ≤ lead ∧ lead ≤ 0xF3 then [(0x80, 0xBF), (0x80, 0xBF)]
  else []

/-- How many bytes lie in successive ranges. -/
def matching : List (UInt8 × UInt8) → List UInt8 → Nat
  | (low, high) :: ranges, b :: bytes =>
    if low ≤ b ∧ b ≤ high then matching ranges bytes + 1 else 0
  | _, _ => 0

/-- The number of bytes that one U+FFFD replaces where no character can be read: the first one
and those that continue it. -/
def subpart : List UInt8 → Nat
  | [] => 0
  | lead :: bytes => matching (partialRanges lead) bytes + 1

/-- At most `fuel` characters of `bytes.decode("utf-8", errors="replace")`. -/
def replace : Nat → List UInt8 → List Char
  | 0, _ => []
  | _ + 1, [] => []
  | fuel + 1, lead :: bytes =>
    match head? (lead :: bytes) with
    | some c => c :: replace fuel ((lead :: bytes).drop c.utf8Size)
    | none => '\uFFFD' :: replace fuel ((lead :: bytes).drop (subpart (lead :: bytes)))

/-- `bytes.decode("utf-8", errors="replace")`. -/
def decodeReplace (bytes : List UInt8) : List Char := replace bytes.length bytes

/-- A list of bytes, decoded with replacement and encoded again. -/
def reencode (bytes : List UInt8) : List UInt8 := encode (decodeReplace bytes)

/-- Decoding with replacement gives back every text that was encoded, by induction on its
characters. -/
theorem replace_encode : ∀ (text : List Char) (fuel : Nat), (encode text).length ≤ fuel →
    replace fuel (encode text) = text
  | [], 0, _ => rfl
  | [], _ + 1, _ => rfl
  | c :: text, fuel, hfuel => by
      have hpos := Char.utf8Size_pos c
      rw [length_encode_cons] at hfuel
      obtain ⟨fuel, rfl⟩ : ∃ n, fuel = n + 1 := ⟨fuel - 1, by omega⟩
      have hhead : head? (encode (c :: text)) = some c := head?_append c _
      have hdrop : (encode (c :: text)).drop c.utf8Size = encode text := utf8EncodeChar_drop c _
      rcases hbytes : encode (c :: text) with _ | ⟨_, _⟩
      · have hlen := congrArg List.length hbytes
        rw [length_encode_cons, List.length_nil] at hlen
        omega
      · rw [hbytes] at hhead hdrop
        rw [replace, hhead]
        dsimp only
        rw [hdrop, replace_encode text fuel (by omega)]

/-- **Whole characters survive decoding with replacement.** -/
theorem decodeReplace_encode (text : List Char) : decodeReplace (encode text) = text :=
  replace_encode text _ (Nat.le_refl _)

theorem length_partialRanges (lead : UInt8) : (partialRanges lead).length ≤ 2 := by
  unfold partialRanges
  split_ifs <;> simp

theorem matching_le (ranges : List (UInt8 × UInt8)) (bytes : List UInt8) :
    matching ranges bytes ≤ ranges.length := by
  induction ranges generalizing bytes with
  | nil => exact Nat.zero_le _
  | cons range ranges ih =>
    rcases bytes with _ | ⟨b, bytes⟩
    · exact Nat.zero_le _
    · rw [matching]
      split_ifs
      · exact Nat.succ_le_succ (ih bytes)
      · exact Nat.zero_le _

/-- One U+FFFD, of three bytes, replaces one, two or three bytes. -/
theorem subpart_le (lead : UInt8) (bytes : List UInt8) :
    0 < subpart (lead :: bytes) ∧ subpart (lead :: bytes) ≤ 3 := by
  have hmatching := matching_le (partialRanges lead) bytes
  have hranges := length_partialRanges lead
  rw [subpart]
  omega

/-- Replacement never shortens: each byte that is not part of a character stands for at least one
byte of the decoded text. -/
theorem length_le_encode_replace (fuel : Nat) (bytes : List UInt8) (hfuel : bytes.length ≤ fuel) :
    bytes.length ≤ (encode (replace fuel bytes)).length := by
  induction fuel generalizing bytes with
  | zero => omega
  | succ fuel ih =>
    rcases bytes with _ | ⟨lead, bytes⟩
    · exact Nat.zero_le _
    · rw [replace]
      rcases hhead : head? (lead :: bytes) with _ | c
      · obtain ⟨hpos, hle⟩ := subpart_le lead bytes
        have hrest := ih ((lead :: bytes).drop (subpart (lead :: bytes)))
          (by rw [List.length_drop]; omega)
        have hsize : Char.utf8Size '\uFFFD' = 3 := by decide
        dsimp only
        rw [length_encode_cons, hsize]
        rw [List.length_drop] at hrest
        omega
      · obtain ⟨rest, hrest⟩ := head?_eq_some_iff.1 hhead
        have hpos := Char.utf8Size_pos c
        have hlen := congrArg List.length hrest
        rw [List.length_append, String.length_utf8EncodeChar] at hlen
        have hdrop : (lead :: bytes).drop c.utf8Size = rest := by
          rw [hrest, utf8EncodeChar_drop]
        have hle := ih rest (by omega)
        dsimp only
        rw [hdrop, length_encode_cons]
        omega

/-- Decoding with replacement never makes bytes fewer. -/
theorem length_le_reencode (bytes : List UInt8) : bytes.length ≤ (reencode bytes).length :=
  length_le_encode_replace _ bytes (Nat.le_refl _)

theorem decodeReplace_eq_nil_iff : decodeReplace bytes = [] ↔ bytes = [] := by
  constructor
  · intro h
    have hlen := length_le_reencode bytes
    rw [reencode, h] at hlen
    exact List.length_eq_zero_iff.1 (Nat.le_zero.1 hlen)
  · rintro rfl
    rfl

theorem partialRanges_continuation :
    ∀ b : UInt8, ¬ b.IsUTF8FirstByte → partialRanges b = [] := by
  have hall : ∀ n : Fin 256, ¬ (UInt8.ofFin n).IsUTF8FirstByte →
      partialRanges (UInt8.ofFin n) = [] := by decide +kernel
  exact fun b => hall b.toFin

/-- **A piece that starts inside a character gets longer**: its first byte becomes three. -/
theorem length_lt_reencode (hlead : ¬ lead.IsUTF8FirstByte) (bytes : List UInt8) :
    (lead :: bytes).length < (reencode (lead :: bytes)).length := by
  have hhead : head? (lead :: bytes) = none := by
    rcases hhead : head? (lead :: bytes) with _ | c
    · rfl
    · exfalso
      obtain ⟨_, hrest⟩ := head?_eq_some_iff.1 hhead
      have hc : 0 < (String.utf8EncodeChar c).length := by
        rw [String.length_utf8EncodeChar]
        exact Char.utf8Size_pos c
      have hbyte : lead = (String.utf8EncodeChar c)[0] := by
        have hget := congrArg (·[0]?) hrest
        simpa only [List.getElem?_cons_zero, List.getElem?_append_left hc,
          List.getElem?_eq_getElem hc, Option.some.injEq] using hget
      rw [hbyte] at hlead
      exact hlead UInt8.isUTF8FirstByte_getElem_zero_utf8EncodeChar
  have hsubpart : subpart (lead :: bytes) = 1 := by
    rw [subpart, partialRanges_continuation lead hlead]
    rfl
  have hdrop : (lead :: bytes).drop 1 = bytes := rfl
  have hsize : Char.utf8Size '\uFFFD' = 3 := by decide
  have hrest := length_le_encode_replace bytes.length bytes (Nat.le_refl _)
  rw [reencode, decodeReplace, List.length_cons, replace, hhead]
  dsimp only
  rw [hsubpart, hdrop, length_encode_cons, hsize]
  omega

/-! ### Pieces -/

/-- The place after each piece. -/
def cuts : List (List UInt8) → List Nat
  | [] => []
  | piece :: pieces => piece.length :: (cuts pieces).map (piece.length + ·)

theorem cuts_concat (pieces : List (List UInt8)) (piece : List UInt8) :
    cuts (pieces ++ [piece]) = cuts pieces ++ [(pieces ++ [piece]).flatten.length] := by
  induction pieces with
  | nil => simp [cuts]
  | cons first pieces ih => simp [cuts, ih]

/-- The pieces, decoded one by one with replacement and encoded again. -/
def reencodeAll (pieces : List (List UInt8)) : List UInt8 := pieces.flatMap reencode

theorem reencodeAll_cons (piece : List UInt8) (pieces : List (List UInt8)) :
    reencodeAll (piece :: pieces) = reencode piece ++ reencodeAll pieces := rfl

theorem reencodeAll_concat (pieces : List (List UInt8)) (piece : List UInt8) :
    reencodeAll (pieces ++ [piece]) = reencodeAll pieces ++ reencode piece := by
  rw [reencodeAll, List.flatMap_append, List.flatMap_singleton]
  rfl

theorem length_flatten_le (pieces : List (List UInt8)) :
    pieces.flatten.length ≤ (reencodeAll pieces).length := by
  induction pieces with
  | nil => exact Nat.le_refl _
  | cons piece =>
    have hpiece := length_le_reencode piece
    rw [List.flatten_cons, reencodeAll_cons, List.length_append, List.length_append]
    omega

theorem length_flatten_lt (hlead : ¬ lead.IsUTF8FirstByte) (h : pieces.flatten = lead :: bytes) :
    pieces.flatten.length < (reencodeAll pieces).length := by
  induction pieces with
  | nil => cases h
  | cons piece pieces ih =>
    rw [List.flatten_cons] at h ⊢
    rw [reencodeAll_cons, List.length_append, List.length_append]
    rcases piece with _ | ⟨_, piece⟩
    · have hrest := ih h
      rw [List.length_nil]
      omega
    · rw [List.cons_append] at h
      cases h
      have hpiece := length_lt_reencode hlead piece
      have hrest := length_flatten_le pieces
      omega

/-- The bytes after a cut inside a character. -/
theorem drop_encodeChar (h0 : 0 < i) (hi : i < c.utf8Size) :
    ∃ lead bytes, (String.utf8EncodeChar c).drop i = lead :: bytes ∧ ¬ lead.IsUTF8FirstByte := by
  have hlen : i < (String.utf8EncodeChar c).length := by
    rwa [String.length_utf8EncodeChar]
  refine ⟨_, _, List.drop_eq_getElem_cons hlen, ?_⟩
  rw [UInt8.isUTF8FirstByte_getElem_utf8EncodeChar]
  omega

/-- **An encoding, cut into pieces, survives decoding with replacement piece by piece exactly
when every cut lies between two characters.** -/
theorem reencodeAll_eq_iff (h : pieces.flatten = encode text) :
    reencodeAll pieces = encode text ↔ ∀ position ∈ cuts pieces, IsBoundary text position := by
  induction pieces generalizing text with
  | nil => exact ⟨fun _ _ hp => (nomatch hp), fun _ => h⟩
  | cons piece pieces ih =>
    rw [List.flatten_cons] at h
    rw [reencodeAll_cons]
    rcases split_encode h with ⟨front, back, rfl, rfl, hback⟩ |
      ⟨front, c, back, i, rfl, h0, hi, hpiece, hrest⟩
    · -- the piece is a whole encoding: it survives, and the rest is the rest
      have hself : reencode (encode front) = encode front := by
        rw [reencode, decodeReplace_encode]
      have hfirst : IsBoundary (front ++ back) (encode front).length := ⟨front, back, rfl, rfl⟩
      rw [hself, encode_append, List.append_cancel_left_eq, ih hback, cuts]
      constructor
      · intro hall position hposition
        rcases List.mem_cons.1 hposition with rfl | hposition
        · exact hfirst
        · obtain ⟨later, hlater, rfl⟩ := List.mem_map.1 hposition
          exact (isBoundary_append front back later).2 (hall later hlater)
      · intro hall later hlater
        rw [← isBoundary_append front]
        exact hall _ (.tail _ (List.mem_map_of_mem hlater))
    · -- the piece ends inside `c`: what follows gets longer, and the place is no boundary
      obtain ⟨_, _, hdrop, hlead⟩ := drop_encodeChar h0 hi
      rw [hdrop, List.cons_append] at hrest
      have hlonger := length_flatten_lt hlead hrest
      have hpieceLength := length_le_reencode piece
      constructor
      · intro heq
        exfalso
        have hlen := congrArg List.length heq
        rw [← h, List.length_append, List.length_append] at hlen
        omega
      · intro hall
        exfalso
        have hbdry := hall piece.length (.head _)
        rw [hpiece, List.length_append, isBoundary_append, List.length_take,
          String.length_utf8EncodeChar] at hbdry
        obtain ⟨before, _, hsplit, hposition⟩ := hbdry
        rcases before with _ | ⟨d, before⟩
        · rw [encode_nil, List.length_nil] at hposition
          omega
        · cases hsplit
          rw [length_encode_cons] at hposition
          omega

/-- Two texts with one encoding are one text. -/
theorem encode_injective : Function.Injective encode := fun a b h => by
  rw [← decodeReplace_encode a, h, decodeReplace_encode]

/-- **The text of an encoding that is cut into pieces and decoded piece by piece** is the text exactly
when every cut lies between two characters. -/
theorem flatMap_decodeReplace_eq_iff (h : pieces.flatten = encode text) :
    pieces.flatMap decodeReplace = text ↔ ∀ position ∈ cuts pieces, IsBoundary text position := by
  have hencode : ∀ pieces : List (List UInt8),
      encode (pieces.flatMap decodeReplace) = reencodeAll pieces := by
    intro pieces
    induction pieces with
    | nil => rfl
    | cons piece pieces ih =>
      rw [List.flatMap_cons, encode_append, ih, reencodeAll_cons, reencode]
  rw [← reencodeAll_eq_iff h, ← hencode]
  exact encode_injective.eq_iff.symm

/-! ### Pages -/

/-- The pages of some bytes, with the sizes one after the other, up to the one that ends them. -/
def chunks : List Nat → List UInt8 → List (List UInt8)
  | [], _ => []
  | size :: sizes, bytes =>
    bytes.take size :: if bytes.length ≤ size then [] else chunks sizes (bytes.drop size)

theorem flatten_chunks {sizes : List Nat} {bytes : List UInt8} (h : bytes.length ≤ sizes.sum) :
    (chunks sizes bytes).flatten = bytes := by
  induction sizes generalizing bytes with
  | nil => exact (List.length_eq_zero_iff.1 (Nat.le_zero.1 h)).symm
  | cons size sizes ih =>
    rw [chunks, List.flatten_cons]
    rw [List.sum_cons] at h
    split_ifs with hend
    · rw [List.flatten_nil, List.append_nil, List.take_of_length_le hend]
    · have hrest : (bytes.drop size).length ≤ sizes.sum := by
        rw [List.length_drop]
        omega
      rw [ih hrest, List.take_append_drop]

/-- **Where pages end**: after every sum of sizes that lies before the end, and at the end. -/
theorem forall_cuts_chunks {P : Nat → Prop} {sizes : List Nat} {bytes : List UInt8} (hstart : P 0)
    (hend : P bytes.length) : (∀ position ∈ cuts (chunks sizes bytes), P position) ↔
      ∀ count, (sizes.take count).sum < bytes.length → P (sizes.take count).sum := by
  induction sizes generalizing P bytes with
  | nil => exact ⟨fun _ count _ => by rw [List.take_nil]; exact hstart, fun _ _ h => nomatch h⟩
  | cons size sizes ih =>
    rw [chunks]
    split_ifs with hlast
    · -- the first page is the last
      rw [List.take_of_length_le hlast]
      constructor
      · intro _ count hcnt
        rcases count with _ | count
        · exact hstart
        · rw [List.take_succ_cons, List.sum_cons] at hcnt
          omega
      · intro _ position hposition
        rw [List.mem_singleton.1 hposition]
        exact hend
    · have hsize : (bytes.take size).length = size := List.length_take_of_le (by omega)
      have hlen : size + (bytes.drop size).length = bytes.length := by
        rw [List.length_drop]
        omega
      rw [cuts, hsize, List.forall_mem_cons, List.forall_mem_map]
      constructor
      · rintro ⟨hfirst, hrest⟩ count hcnt
        have hrest := (ih (P := fun position => P (size + position)) hfirst
          (by rw [hlen]; exact hend)).1 hrest
        rcases count with _ | count
        · exact hstart
        · rw [List.take_succ_cons, List.sum_cons] at hcnt ⊢
          exact hrest count (by omega)
      · intro hall
        have hfirst : P size := hall 1 (by simpa using hlast)
        refine ⟨hfirst, (ih (P := fun position => P (size + position)) hfirst
          (by rw [hlen]; exact hend)).2 fun count hcnt => ?_⟩
        have hcnt := hall (count + 1)
        rw [List.take_succ_cons, List.sum_cons] at hcnt
        exact hcnt (by omega)

end Durable.Utf8
