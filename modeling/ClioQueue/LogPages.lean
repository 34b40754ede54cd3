/-
# Reading a log in pages

`JobSpool.read_log` of `clio_relay/spool.py`, called from offset 0 on and then at each
`next_offset` until `eof`.  An offset is a number of bytes and a page is decoded with replacement,
so that a page that ends inside a character loses it.
-/

import ClioQueue.ConsoleStream
import ClioQueue.SpoolCaptureRuns

namespace ClioQueue

open Durable

/-- `MAX_LOG_READ_BYTES`. -/
def maxLogReadBytes : Nat := 1048576

/-- `read_log`. -/
def readLog (s : SpoolStore) (stream : LogStreamName) (offset limit : Int) :
    Except SpoolError LogRange :=
  if offset < 0 then .error (.value "offset must be non-negative")
  else if limit ≤ 0 then .error (.value "limit must be positive")
  else if limit > maxLogReadBytes then .error (.value "limit cannot exceed 1048576 bytes")
  else
    match s.logs stream with
    | none => .ok ⟨"", offset.toNat, true⟩
    | some log =>
      let chunk := (log.drop offset.toNat).take limit.toNat
      .ok
        { text := String.ofList (Utf8.decodeReplace chunk)
          nextOffset := offset.toNat + chunk.length
          eof := decide (offset.toNat + chunk.length ≥ log.length) }

/-- The calls that follow `next_offset` from `offset` on, with one limit after the other, until the
end of the log. -/
def readPages (s : SpoolStore) (stream : LogStreamName) :
    List Nat → Nat → Except SpoolError (List LogRange)
  | [], _ => .ok []
  | limit :: limits, offset => do
    let page ← readLog s stream offset limit
    if page.eof then pure [page]
    else do
      let pages ← readPages s stream limits page.nextOffset
      pure (page :: pages)

/-- The last page reached the end of the log. -/
def ReachEof (pages : List LogRange) : Prop := ∃ page, pages.getLast? = some page ∧ page.eof = true

/-- The texts of the pages, one after the other. -/
def pagesText (pages : List LogRange) : List Char := pages.flatMap fun page => page.text.toList

variable {s : SpoolStore} {stream : LogStreamName} {log : List UInt8} {limits : List Nat}

/-- **A page is a chunk of the log, decoded.** -/
theorem readLog_eq (hlog : s.logs stream = some log) {limit : Nat} (hpos : 0 < limit)
    (hle : limit ≤ maxLogReadBytes) (offset : Nat) :
    readLog s stream offset limit = .ok
      { text := String.ofList (Utf8.decodeReplace ((log.drop offset).take limit))
        nextOffset := offset + ((log.drop offset).take limit).length
        eof := decide ((log.drop offset).length ≤ limit) } := by
  unfold readLog
  rw [if_neg (by omega), if_neg (by omega), if_neg (by omega), hlog]
  simp only [Int.toNat_natCast, List.length_take, List.length_drop]
  congr 3
  exact propext ⟨fun _ => by omega, fun _ => by omega⟩

theorem readPages_cons {limit offset : Nat} {page : LogRange}
    (h : readLog s stream offset limit = .ok page) :
    readPages s stream (limit :: limits) offset = if page.eof then .ok [page]
      else (readPages s stream limits page.nextOffset).map (page :: ·) := by
  rw [readPages, h]
  show (if page.eof then _ else _) = _
  congr 1

/-- **The pages are the chunks**, and the last one reaches the end when the limits do. -/
theorem readPages_eq (hlog : s.logs stream = some log)
    (hlimits : ∀ limit ∈ limits, 0 < limit ∧ limit ≤ maxLogReadBytes) (offset : Nat) :
    ∃ pages, readPages s stream limits offset = .ok pages ∧
      pagesText pages = (Utf8.chunks limits (log.drop offset)).flatMap Utf8.decodeReplace ∧
      (ReachEof pages ↔ limits ≠ [] ∧ (log.drop offset).length ≤ limits.sum) := by
  induction limits generalizing offset with
  | nil =>
    refine ⟨[], rfl, rfl, ?_⟩
    simp [ReachEof]
  | cons limit limits ih =>
    obtain ⟨hpos, hle⟩ := hlimits limit List.mem_cons_self
    rw [readPages_cons (readLog_eq hlog hpos hle offset), Utf8.chunks, List.sum_cons]
    by_cases hend : (log.drop offset).length ≤ limit
    · rw [if_pos hend, if_pos (decide_eq_true hend)]
      refine ⟨[_], rfl, by simp [pagesText], fun _ => ⟨List.cons_ne_nil _ _, by omega⟩,
        fun _ => ⟨_, rfl, decide_eq_true hend⟩⟩
    · have hnext : offset + ((log.drop offset).take limit).length = offset + limit := by
        rw [List.length_take_of_le (by omega)]
      obtain ⟨pages, hpages, htext, heof⟩ :=
        ih (fun limit h => hlimits limit (List.mem_cons_of_mem _ h)) (offset + limit)
      rw [← List.drop_drop] at htext heof
      rw [if_neg hend, if_neg (by simpa using hend)]
      dsimp only
      rw [hnext, hpages]
      have hsum : (log.drop offset).length ≤ limit + limits.sum ↔
          limits ≠ [] ∧ ((log.drop offset).drop limit).length ≤ limits.sum := by
        rw [List.length_drop (i := limit)]
        constructor
        · intro h
          refine ⟨?_, by omega⟩
          rintro rfl
          rw [List.sum_nil] at h
          omega
        · intro h
          omega
      refine ⟨_ :: pages, rfl, ?_, ?_⟩
      · rw [List.flatMap_cons, ← htext]
        simp [pagesText]
      · rw [hsum, ← heof]
        rcases pages with _ | ⟨page, pages⟩
        · simpa [ReachEof] using hend
        · simp [ReachEof]

/-- **A log is read in pages without loss exactly when no page ends inside a character.**  The log
is what calls of the spool wrote; the calls of `read_log` reach its end for all limits that reach
it, and then the texts of the pages are the text of the log if and only if every sum of limits that
lies before its end lies between two of its characters. -/
theorem log_pages_text (quotas : LogQuotas) (calls : List CaptureCall) (stream : LogStreamName)
    (limits : List Nat) (hlimits : ∀ limit ∈ limits, 0 < limit ∧ limit ≤ maxLogReadBytes) :
    ∃ pages, readPages (runCapture quotas (.create :: calls) .empty) stream limits 0 = .ok pages ∧
      ((Utf8.encode (acceptedTexts quotas calls (fun _ => []) stream)).length < limits.length →
        ReachEof pages) ∧
      (ReachEof pages → (pagesText pages = acceptedTexts quotas calls (fun _ => []) stream ↔
          ∀ count, (limits.take count).sum <
              (Utf8.encode (acceptedTexts quotas calls (fun _ => []) stream)).length →
            Utf8.IsBoundary (acceptedTexts quotas calls (fun _ => []) stream)
              (limits.take count).sum)) := by
  obtain ⟨pages, hpages, htext, heof⟩ :=
    readPages_eq ((holdsTexts_created.run calls).logs stream) hlimits 0
  generalize acceptedTexts quotas calls (fun _ => []) stream = text at *
  rw [List.drop_zero] at htext heof
  refine ⟨pages, hpages, fun hmany => heof.2 ⟨?_, ?_⟩, fun hend => ?_⟩
  · rintro rfl
    exact absurd hmany (Nat.not_lt_zero _)
  · have hsum := List.length_le_sum_of_one_le limits fun limit h => (hlimits limit h).1
    omega
  · rw [htext, Utf8.flatMap_decodeReplace_eq_iff (Utf8.flatten_chunks (heof.1 hend).2)]
    exact Utf8.forall_cuts_chunks ⟨[], text, rfl, rfl⟩ ⟨text, [], (List.append_nil _).symm, rfl⟩

/-- The calls that write `é` to `stdout`. -/
def accentCalls : List CaptureCall := [.append .stdout "é"]

/-- The calls that write `aé` and then `ü`. -/
def umlautCalls : List CaptureCall := [.append .stdout "aé", .append .stdout "ü"]

/-- Pages of one, two and two bytes, and some more, read the whole text. -/
theorem log_pages_text_sample :
    ∃ pages, readPages (runCapture smallQuotas (.create :: umlautCalls) .empty) .stdout
        [1, 2, 2, 1, 1, 1] 0 = .ok pages ∧
      ReachEof pages ∧ pagesText pages = "aéü".toList := by
  have hacc : acceptedTexts smallQuotas umlautCalls (fun _ => []) .stdout = "aéü".toList := by
    decide
  obtain ⟨pages, hpages, heof, htext⟩ :=
    log_pages_text smallQuotas umlautCalls .stdout [1, 2, 2, 1, 1, 1] (by decide)
  rw [hacc] at heof htext
  have hend := heof (by decide)
  refine ⟨pages, hpages, hend, (htext hend).2 fun count hlt => ?_⟩
  match count, hlt with
  | 0, _ => exact ⟨[], "aéü".toList, by decide, by decide⟩
  | 1, _ => exact ⟨['a'], ['é', 'ü'], by decide, by decide⟩
  | 2, _ => exact ⟨['a', 'é'], ['ü'], by decide, by decide⟩
  | count + 3, hlt =>
    have hlen : (Utf8.encode "aéü".toList).length = 5 := by decide
    simp only [List.take_succ_cons, List.sum_cons] at hlt
    omega

/-- **Pages of one byte of the two of `é`** are two U+FFFD. -/
theorem log_pages_lose_a_character :
    (runCapture smallQuotas (.create :: accentCalls) .empty).logs .stdout =
        some (Utf8.encode "é".toList) ∧
      ∃ pages, readPages (runCapture smallQuotas (.create :: accentCalls) .empty) .stdout [1, 1] 0 =
          .ok pages ∧
        ReachEof pages ∧ pagesText pages ≠ "é".toList := by
  have hheld : HoldsTexts smallQuotas (runCapture smallQuotas (.create :: accentCalls) .empty)
      (acceptedTexts smallQuotas accentCalls fun _ => []) := holdsTexts_created.run accentCalls
  have hlog := hheld.logs .stdout
  have hacc : acceptedTexts smallQuotas accentCalls (fun _ => []) .stdout = "é".toList := by
    decide
  rw [hacc] at hlog
  have hlimits : ∀ limit ∈ [1, 1], 0 < limit ∧ limit ≤ maxLogReadBytes := by decide
  obtain ⟨pages, hpages, htext, heof⟩ := readPages_eq hlog hlimits 0
  refine ⟨hlog, pages, hpages, heof.2 (by decide), ?_⟩
  rw [htext]
  decide

end ClioQueue
