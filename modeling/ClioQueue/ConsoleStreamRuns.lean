/-
# What the console stream holds after the terminal flush

A run of the tailer is a list of events: the application writes to a log, a channel is polled,
the launched server prints something.  After the events the terminal flush copies the rest.

The console stream then holds the pieces that were read, each decoded with replacement and
encoded again (`Copy`); together the pieces are the log.  So the stream holds the bytes of the
log exactly when no read ended inside a character (`console_copies_log`).
-/

import ClioQueue.ConsoleStream
import ClioQueue.SpoolCaptureRuns

namespace ClioQueue

open Durable Durable.Prog

variable {quotas : LogQuotas} {channel : ConsoleChannel} {w : ConsoleWorld} {paths : HostPaths}
  {pieces : List (List UInt8)} {ends : List Nat} {log : List UInt8} {state : LogCaptureState}
  {texts : LogStreamName → List Char} {offset : Nat} {s : SpoolStore}

/-! ### Appends to a recorded spool -/

/-- A spool whose state file holds `state`, and whose logs hold `texts`. -/
structure Recorded (quotas : LogQuotas) (state : LogCaptureState)
    (texts : LogStreamName → List Char) (s : SpoolStore) : Prop where
  holds : HoldsTexts quotas s texts
  capture : s.capture = .document state.document
  tallied : Tallied quotas state s

theorem Recorded.load (h : Recorded quotas state texts s) :
    ((loadCaptureState quotas).run s ()).result = .ok state := by
  have hload := wp_loadCaptureState_recorded h.capture h.tallied ()
  obtain ⟨_, hfound⟩ := wp_ok hload
  rw [hfound, (wp_result hload hfound).1]

/-- What an append to a stream does to a recorded spool. -/
structure AppendOutcome (quotas : LogQuotas) (stream : LogStreamName) (text : String)
    (state : LogCaptureState) (texts : LogStreamName → List Char) (result : LogAppendResult)
    (state' : LogCaptureState) (s : SpoolStore) : Prop where
  recorded : Recorded quotas state' (Function.update texts stream
    (texts stream ++ acceptedText quotas texts stream text)) s
  others : ∀ other, other ≠ stream → state'.streams other = state.streams other
  truncated : result.truncated = (state'.streams stream).truncated
  required : result.truncationEventRequired = true → (state'.streams stream).truncated = true
  whole : (state'.streams stream).truncated = false →
    (state.streams stream).truncated = false ∧ acceptedText quotas texts stream text = text.toList

/-- **An append** to a recorded spool returns. -/
theorem Recorded.append (h : Recorded quotas state texts s) (stream : LogStreamName) (text : String) :
    ∃ result state', ((appendLog quotas stream text).run s ()).result = .ok result ∧
      AppendOutcome quotas stream text state texts result state'
        ((appendLog quotas stream text).run s ()).store := by
  have hload : wp (loadCaptureState quotas) (fun _ => True) (fun found _ _ => found = state)
      (fun _ _ _ => True) s () :=
    wp_mono (wp_loadCaptureState_recorded h.capture h.tallied ()) (fun _ _ => trivial)
      (fun _ _ _ h => h.1) (fun _ _ _ _ => trivial)
  have happend := wp_appendLog h.holds stream text () hload
  obtain ⟨result, hres⟩ := wp_ok happend
  obtain ⟨plan, rfl, happended⟩ := wp_result happend hres
  obtain ⟨hholds, hcap, htally, rfl, hobs, hacc, -, htrunc, hreq⟩ :=
    happended
  refine ⟨result, plan.settled, hres, ⟨hholds, hcap, htally⟩, fun other hne => ?_,
    htrunc, fun hev => ?_, fun hfalse => ?_⟩
  · exact settle_stream_of_ne _ hne _ _ _
  · rw [hreq, Bool.and_eq_true] at hev
    exact hev.1
  · rw [AppendPlan.settled, settle_stream_self] at hfalse
    obtain ⟨hbefore, hdrop⟩ := Bool.or_eq_false_iff.1 hfalse
    refine ⟨hbefore, Utf8.eq_of_prefix_of_length_le (Utf8.fit_isPrefix _ _) ?_⟩
    have hzero := of_decide_eq_false hdrop
    rw [hobs, hacc] at hzero
    show _ ≤ (Utf8.encode (acceptedText quotas texts _ text)).length
    omega

/-- **Acknowledging a truncation** changes no text and no other stream. -/
theorem Recorded.mark (h : Recorded quotas state texts s) {stream : LogStreamName}
    (htrunc : (state.streams stream).truncated = true) :
    ((markTruncationEventRecorded quotas stream).run s ()).result = .ok () ∧
      Recorded quotas (state.withEventRecorded stream) texts
        ((markTruncationEventRecorded quotas stream).run s ()).store := by
  have hmark : wp (markTruncationEventRecorded quotas stream) (fun _ => True)
      (fun _ t _ => Recorded quotas (state.withEventRecorded stream) texts t)
      (fun _ _ _ => False) s () := by
    unfold markTruncationEventRecorded
    rw [wp_bind]
    refine wp_mono (wp_loadCaptureState_recorded h.capture h.tallied ()) (fun _ _ => trivial) ?_
      (fun _ _ _ => id)
    rintro _ t w ⟨rfl, rfl⟩
    have hmarked := h.tallied.withEventRecorded htrunc
    rw [wp_bind, wp_require, htrunc]
    refine ⟨fun _ => ?_, nofun⟩
    rw [writeCaptureState, wp_durably]
    exact ⟨trivial, ⟨hmarked.explained, h.holds.logs⟩, rfl,
      ⟨hmarked.balanced, hmarked.quiet, hmarked.sizes⟩⟩
  obtain ⟨⟨⟩, hres⟩ := wp_ok hmark
  exact ⟨hres, wp_result hmark hres⟩

theorem withEventRecorded_truncated (state : LogCaptureState) (stream other : LogStreamName) :
    ((state.withEventRecorded stream).streams other).truncated =
      (state.streams other).truncated := by
  unfold LogCaptureState.withEventRecorded
  by_cases hother : other = stream
  · subst hother
    simp
  · simp [hother]

/-- **A new spool** holds nothing, and nothing of it is truncated. -/
theorem recorded_created (quotas : LogQuotas) : ∃ state,
    Recorded quotas state (fun _ => []) ((initializeSpool quotas).run .empty ()).store ∧
      ∀ stream, (state.streams stream).truncated = false := by
  refine wp_store (C := fun _ => True) (I := fun t => ∃ state,
    Recorded quotas state (fun _ => []) t ∧ ∀ stream, (state.streams stream).truncated = false) ?_
  unfold initializeSpool
  rw [wp_bind]
  have hempty : Explained quotas .empty := explained_empty
  refine wp_mono (wp_createLogs hempty ()) (fun _ _ => trivial) (fun _ t w ht => ?_)
    (fun _ _ _ => False.elim)
  obtain ⟨-, hcap, hlogs⟩ := ht
  have hsize : ∀ stream, t.logSize stream = 0 := by
    intro stream
    rw [SpoolStore.logSize, hlogs]
    rfl
  have hsum : sumStreams t.logSize = 0 := by
    rw [funext hsize]
    rfl
  rw [wp_bind, loadCaptureState, wp_bind, wp_look, hcap]
  refine wp_mono (wp_existingCaptureState (fun stream => ?_) ?_ w) (fun _ => False.elim) ?_
    (fun _ _ _ => False.elim)
  · rw [hsize]
    exact Nat.zero_le _
  · rw [hsum]
    exact Nat.zero_le _
  · rintro state u x ⟨rfl, htally, hclean⟩
    rw [writeCaptureState, wp_durably]
    exact ⟨trivial, state, ⟨⟨htally.explained, hlogs⟩, rfl,
      ⟨htally.balanced, htally.quiet, htally.sizes⟩⟩, hclean⟩

/-! ### Pieces of a log -/

/-- The stream of a channel holds pieces, each decoded with replacement and encoded again. -/
structure Copy (quotas : LogQuotas) (channel : ConsoleChannel) (pieces : List (List UInt8))
    (state : LogCaptureState) (texts : LogStreamName → List Char) (s : SpoolStore) : Prop where
  recorded : Recorded quotas state texts s
  clean : (state.streams channel.stream).truncated = false
  text : Utf8.encode (texts channel.stream) = Utf8.reencodeAll pieces

/-- The stream of a channel is truncated. -/
structure Overflowed (quotas : LogQuotas) (channel : ConsoleChannel) (s : SpoolStore) :
    Prop where
  recorded : ∃ state texts, Recorded quotas state texts s ∧
    (state.streams channel.stream).truncated = true

theorem rangeBytes_eq_nil_iff : rangeBytes log offset = [] ↔ log.length ≤ offset := by
  rw [rangeBytes, List.take_eq_nil_iff, List.drop_eq_nil_iff]
  constructor
  · exact fun h => h.resolve_left (by decide)
  · exact .inr

theorem readExternalLogRange_empty :
    (readExternalLogRange log offset).text = "" ↔ log.length ≤ offset := by
  have htext : (readExternalLogRange log offset).text =
      String.ofList (Utf8.decodeReplace (rangeBytes log offset)) := rfl
  rw [← rangeBytes_eq_nil_iff, ← Utf8.decodeReplace_eq_nil_iff, htext, ← String.ofList_nil,
    String.ofList_inj]

/-- What was read before an offset, and the range that is read from there. -/
theorem prefix_range {read : List UInt8} (h : read <+: log) :
    read ++ rangeBytes log read.length <+: log := by
  obtain ⟨_, rfl⟩ := h
  rw [rangeBytes, List.drop_left, List.prefix_append_right_inj]
  exact List.take_prefix _ _

/-- **A chunk that is appended** becomes the next piece, or truncates the stream. -/
theorem Copy.append (h : Copy quotas channel pieces state texts s) (chunk : List UInt8) :
    ∃ result state', ((appendLog quotas channel.stream
        (String.ofList (Utf8.decodeReplace chunk))).run s ()).result = .ok result ∧
      AppendOutcome quotas channel.stream (String.ofList (Utf8.decodeReplace chunk)) state texts
        result state' ((appendLog quotas channel.stream
          (String.ofList (Utf8.decodeReplace chunk))).run s ()).store ∧
      ((state'.streams channel.stream).truncated = false → ∃ texts',
        Copy quotas channel (pieces ++ [chunk]) state' texts' ((appendLog quotas channel.stream
          (String.ofList (Utf8.decodeReplace chunk))).run s ()).store) := by
  obtain ⟨result, state', hres, hout⟩ :=
    h.recorded.append channel.stream (String.ofList (Utf8.decodeReplace chunk))
  refine ⟨result, state', hres, hout, fun hclean => ⟨_, hout.recorded, hclean, ?_⟩⟩
  rw [Function.update_self, (hout.whole hclean).2, String.toList_ofList, Utf8.encode_append,
    h.text, Utf8.reencodeAll_concat]
  rfl

/-! ### The loop of the flush -/

/-- Where the reads of a loop over a log end that starts at an offset, at most `fuel` of them. -/
def flushEnds (size : Nat) : Nat → Nat → List Nat
  | 0, _ => []
  | fuel + 1, offset =>
    if offset < size then
      min size (offset + consoleTailChunkBytes) ::
        flushEnds size fuel (min size (offset + consoleTailChunkBytes))
    else []

theorem range_end (h : offset < log.length) :
    offset + (rangeBytes log offset).length = min log.length (offset + consoleTailChunkBytes) := by
  rw [rangeBytes, List.length_take, List.length_drop]
  omega

/-- A read of the last chunk has reached the end. -/
theorem flushEnds_of_le {size fuel : Nat} (h : size ≤ offset) :
    flushEnds size fuel offset = [] := by
  rcases fuel with _ | fuel
  · rfl
  · rw [flushEnds, if_neg (by omega)]

/-- **The loop of the flush** copies what is left of a log, or truncates the stream. -/
theorem flushLoop_copies (fuel : Nat) (outcome : ConsoleFlushOutcome)
    (h : Copy quotas channel pieces state texts s) (hread : pieces.flatten <+: log)
    (hoff : offset = pieces.flatten.length) (hfuel : log.length - offset < fuel) :
    (∃ found, (flushLoop quotas channel (.ok log) fuel offset outcome s).1 = some (.ok found)) ∧
      (Overflowed quotas channel (flushLoop quotas channel (.ok log) fuel offset outcome s).2 ∨
        ∃ pieces' state' texts', Copy quotas channel pieces' state' texts'
            (flushLoop quotas channel (.ok log) fuel offset outcome s).2 ∧
          pieces'.flatten = log ∧
          Utf8.cuts pieces' = Utf8.cuts pieces ++ flushEnds log.length fuel offset) := by
  induction fuel generalizing offset outcome s pieces state texts with
  | zero => omega
  | succ fuel ih =>
    have hle := hread.length_le
    unfold flushLoop
    dsimp only
    by_cases hend : log.length ≤ offset
    · -- nothing is left to read
      have hwhole : pieces.flatten = log := hread.eq_of_length_le (by omega)
      rw [if_pos (readExternalLogRange_empty.2 hend), flushEnds_of_le hend, List.append_nil]
      exact ⟨⟨_, rfl⟩, .inr ⟨pieces, state, texts, h, hwhole, rfl⟩⟩
    · rw [if_neg (fun hempty => hend (readExternalLogRange_empty.1 hempty))]
      have hlt : offset < log.length := by omega
      have hpiece := prefix_range hread
      rw [← hoff, ← List.flatten_concat] at hpiece
      have hpos := range_end hlt
      have hlen : (pieces ++ [rangeBytes log offset]).flatten.length =
          min log.length (offset + consoleTailChunkBytes) := by
        rw [List.flatten_concat, List.length_append, ← hoff, hpos]
      have hchunk : 0 < consoleTailChunkBytes := by decide
      obtain ⟨result, state', hres, hout, hcopy⟩ := h.append (rangeBytes log offset)
      have htext : (readExternalLogRange log offset).text =
          String.ofList (Utf8.decodeReplace (rangeBytes log offset)) := rfl
      rw [htext, hres]
      dsimp only
      rcases hst' : (state'.streams channel.stream).truncated with _ | _
      · -- the chunk is copied whole
        have hreq : result.truncationEventRequired = false := by
          rcases hev : result.truncationEventRequired with _ | _
          · rfl
          · rw [hout.required hev] at hst'
            cases hst'
        obtain ⟨texts', hnext⟩ := hcopy hst'
        rw [hreq, if_neg Bool.false_ne_true, hout.truncated, hst', Bool.false_or]
        rw [flushEnds, if_pos hlt]
        have hcuts : Utf8.cuts (pieces ++ [rangeBytes log offset]) =
            Utf8.cuts pieces ++ [min log.length (offset + consoleTailChunkBytes)] := by
          rw [Utf8.cuts_concat, hlen]
        have hnextOffset : (readExternalLogRange log offset).nextOffset =
            min log.length (offset + consoleTailChunkBytes) := hpos
        by_cases heof : (readExternalLogRange log offset).eof = true
        · rw [if_pos heof]
          have hfull : log.length ≤ min log.length (offset + consoleTailChunkBytes) := by
            have hge := of_decide_eq_true heof
            rw [hpos] at hge
            exact hge
          refine ⟨⟨_, rfl⟩, .inr ⟨_, state', texts', hnext, hpiece.eq_of_length_le (by omega), ?_⟩⟩
          rw [hcuts, flushEnds_of_le hfull]
        · rw [if_neg heof, hnextOffset]
          obtain ⟨hret, hrest⟩ := ih { outcome with
              appendedBytes := outcome.appendedBytes + result.acceptedBytes }
            hnext hpiece hlen.symm (by omega)
          refine ⟨hret, hrest.imp_right ?_⟩
          rintro ⟨pieces', state'', texts'', hdone, hall, hends⟩
          refine ⟨pieces', state'', texts'', hdone, hall, ?_⟩
          rw [hends, hcuts, List.append_assoc]
          rfl
      · -- the stream overflows, and the loop ends
        rw [hout.truncated, hst', Bool.true_or]
        by_cases hev : result.truncationEventRequired = true
        · obtain ⟨hmarked, hrecorded⟩ := hout.recorded.mark hst'
          rw [if_pos hev, hmarked]
          dsimp only
          rw [if_pos rfl]
          refine ⟨⟨_, rfl⟩, .inl ⟨_, _, hrecorded, ?_⟩⟩
          rw [withEventRecorded_truncated, hst']
        · rw [if_neg hev, if_pos rfl]
          exact ⟨⟨_, rfl⟩, .inl ⟨_, _, hout.recorded, hst'⟩⟩

/-- A loop of the flush on a truncated stream leaves it truncated. -/
theorem flushLoop_overflowed (fuel offset : Nat) (outcome : ConsoleFlushOutcome)
    (h : Overflowed quotas channel s) :
    Overflowed quotas channel (flushLoop quotas channel (.ok log) fuel offset outcome s).2 := by
  rcases fuel with _ | fuel
  · exact h
  · unfold flushLoop
    dsimp only
    by_cases hempty : (readExternalLogRange log offset).text = ""
    · rw [if_pos hempty]
      exact h
    · rw [if_neg hempty]
      obtain ⟨_, _, hrecorded, htrunc⟩ := h.recorded
      obtain ⟨result, state', hres, hout⟩ :=
        hrecorded.append channel.stream (readExternalLogRange log offset).text
      have hst' : (state'.streams channel.stream).truncated = true := by
        rcases hclean : (state'.streams channel.stream).truncated with _ | _
        · rw [(hout.whole hclean).1] at htrunc
          cases htrunc
        · rfl
      rw [hres]
      dsimp only
      rw [hout.truncated, hst', Bool.true_or]
      by_cases hev : result.truncationEventRequired = true
      · obtain ⟨hmarked, hafter⟩ := hout.recorded.mark hst'
        rw [if_pos hev, hmarked]
        dsimp only
        rw [if_pos rfl]
        refine ⟨_, _, hafter, ?_⟩
        rw [withEventRecorded_truncated, hst']
      · rw [if_neg hev, if_pos rfl]
        exact ⟨_, _, hout.recorded, hst'⟩

/-! ### Polls -/

/-- What appending a chunk to a channel does to the spool and to the tailer. -/
structure ChunkOutcome (quotas : LogQuotas) (channel : ConsoleChannel) (text : String)
    (state : LogCaptureState) (texts : LogStreamName → List Char) (w : TailWorld)
    (state' : LogCaptureState) (w' : TailWorld) : Prop where
  recorded : Recorded quotas state' (Function.update texts channel.stream
    (texts channel.stream ++ acceptedText quotas texts channel.stream text)) w'.spool
  others : ∀ other, other ≠ channel.stream →
    (state'.streams other).truncated = (state.streams other).truncated
  whole : (state'.streams channel.stream).truncated = false →
    (state.streams channel.stream).truncated = false ∧
      acceptedText quotas texts channel.stream text = text.toList ∧ w'.tailer = w.tailer
  root : w'.tailer.executionRoot = w.tailer.executionRoot
  apart : ∀ other, other ≠ channel → w'.tailer.channels other = w.tailer.channels other

theorem withChannel_of_ne (w : TailWorld) {other : ConsoleChannel} (h : other ≠ channel)
    (state : ChannelTailState) :
    (w.withChannel channel state).tailer.channels other = w.tailer.channels other :=
  Function.update_of_ne h ..

@[simp]
theorem withChannel_self (w : TailWorld) (channel : ConsoleChannel) (state : ChannelTailState) :
    (w.withChannel channel state).tailer.channels channel = state := Function.update_self ..

/-- **Appending a chunk** to a recorded spool. -/
theorem appendChunk_outcome (channel : ConsoleChannel) {w : TailWorld}
    (h : Recorded quotas state texts w.spool) (text : String) :
    ∃ state', ChunkOutcome quotas channel text state texts w state'
      (appendChunk quotas channel text w).2 := by
  obtain ⟨result, state', hres, hout⟩ := h.append channel.stream text
  have hothers : ∀ other, other ≠ channel.stream →
      (state'.streams other).truncated = (state.streams other).truncated :=
    fun other hne => by rw [hout.others other hne]
  unfold appendChunk
  dsimp only
  rw [hres]
  dsimp only
  rw [hout.truncated]
  rcases hst' : (state'.streams channel.stream).truncated with _ | _
  · have hreq : result.truncationEventRequired = false := by
      rcases hev : result.truncationEventRequired with _ | _
      · rfl
      · rw [hout.required hev] at hst'
        cases hst'
    rw [hreq]
    obtain ⟨hclean, hwhole⟩ := hout.whole hst'
    exact ⟨state', hout.recorded, hothers, fun _ => ⟨hclean, hwhole, rfl⟩, rfl, fun _ _ => rfl⟩
  · rw [if_pos rfl]
    by_cases hev : result.truncationEventRequired = true
    · obtain ⟨hmarked, hafter⟩ := hout.recorded.mark hst'
      rw [if_pos hev]
      refine ⟨state'.withEventRecorded channel.stream, ?_⟩
      have hres' : ((markTruncationEventRecorded quotas channel.stream).run
          (TailWorld.withChannel { w with spool :=
            ((appendLog quotas channel.stream text).run w.spool ()).store } channel
            { w.tailer.channels channel with truncated := true }).spool ()).result = .ok () :=
        hmarked
      rw [hres']
      refine ⟨hafter, fun other hne => ?_, fun hclean => ?_, rfl, fun other hne => ?_⟩
      · rw [withEventRecorded_truncated, hothers other hne]
      · rw [withEventRecorded_truncated, hst'] at hclean
        cases hclean
      · exact Function.update_of_ne hne ..
    · rw [if_neg hev]
      refine ⟨state', hout.recorded, hothers, fun hclean => ?_, rfl, fun other hne => ?_⟩
      · rw [hst'] at hclean
        cases hclean
      · exact Function.update_of_ne hne ..

/-- The tailer has copied pieces of the log of a channel, whose reads ended at `ends`. -/
structure Tailing (quotas : LogQuotas) (paths : HostPaths) (logs : ApplicationLogs)
    (channel : ConsoleChannel) (ends : List Nat) (pieces : List (List UInt8))
    (state : LogCaptureState) (texts : LogStreamName → List Char) (w : TailWorld) : Prop where
  copy : Copy quotas channel pieces state texts w.spool
  offset : (w.tailer.channels channel).offset = pieces.flatten.length
  ends : Utf8.cuts pieces = ends
  unlocked : w.tailer.executionRoot = none → pieces = []
  locked : ∀ root directory, w.tailer.executionRoot = some root →
    paths.directory root = some directory → pieces.flatten <+: logs directory channel

/-- The tailer follows the log of a channel, or its stream is truncated. -/
inductive TailCopies (quotas : LogQuotas) (paths : HostPaths) (logs : ApplicationLogs)
    (channel : ConsoleChannel) (ends : List Nat) (w : TailWorld) : Prop where
  | overflowed (h : Overflowed quotas channel w.spool)
  | following (pieces : List (List UInt8)) (state : LogCaptureState)
      (texts : LogStreamName → List Char)
      (h : Tailing quotas paths logs channel ends pieces state texts w)

section

variable {paths : HostPaths} {logs : ApplicationLogs} {channel : ConsoleChannel} {ends : List Nat}
  {w w' : TailWorld} {other : ConsoleChannel} {stream : LogStreamName}

/-- Only the spool, the execution root and the offset matter. -/
theorem TailCopies.congr (h : TailCopies quotas paths logs channel ends w) (hspool : w'.spool = w.spool)
    (hroot : w'.tailer.executionRoot = w.tailer.executionRoot)
    (hoff : (w'.tailer.channels channel).offset = (w.tailer.channels channel).offset) :
    TailCopies quotas paths logs channel ends w' := by
  rcases h with h | ⟨pieces, state, texts, h⟩
  · exact .overflowed (hspool ▸ h)
  · refine .following pieces state texts ⟨hspool ▸ h.copy, hoff.trans h.offset, h.ends, ?_, ?_⟩
    · rw [hroot]
      exact h.unlocked
    · rw [hroot]
      exact h.locked

/-- **Locking** an execution root. -/
theorem TailCopies.lock (h : TailCopies quotas paths logs channel ends w)
    (hroot : w.tailer.executionRoot = none) (root : String) :
    TailCopies quotas paths logs channel ends
      { w with tailer := { w.tailer with executionRoot := some root } } := by
  rcases h with h | ⟨_, state, texts, h⟩
  · exact .overflowed h
  · have hnil := h.unlocked hroot
    subst hnil
    exact .following [] state texts ⟨h.copy, h.offset, h.ends, fun _ => rfl,
      fun _ _ _ _ => List.nil_prefix⟩

/-- **The logs grow.** -/
theorem TailCopies.grow {logs' : ApplicationLogs} (h : TailCopies quotas paths logs channel ends w)
    (hgrow : ∀ directory, logs directory channel <+: logs' directory channel) :
    TailCopies quotas paths logs' channel ends w := by
  rcases h with h | ⟨pieces, state, texts, h⟩
  · exact .overflowed h
  · exact .following pieces state texts ⟨h.copy, h.offset, h.ends, h.unlocked,
      fun root directory hroot hdirectory =>
        (h.locked root directory hroot hdirectory).trans (hgrow directory)⟩

theorem stream_injective {a b : ConsoleChannel} (h : a.stream = b.stream) : a = b := by
  cases a <;> cases b <;> first | rfl | cases h

/-- A stream that overflowed stays so, whatever is appended to it. -/
theorem AppendOutcome.stays {text : String} {state state' : LogCaptureState}
    {texts : LogStreamName → List Char} {result : LogAppendResult} {s : SpoolStore}
    (h : AppendOutcome quotas stream text state texts result state' s) {other : LogStreamName}
    (htrunc : (state.streams other).truncated = true) :
    (state'.streams other).truncated = true := by
  by_cases hother : other = stream
  · subst hother
    rcases hclean : (state'.streams other).truncated with _ | _
    · rw [(h.whole hclean).1] at htrunc
      cases htrunc
    · rfl
  · rw [h.others other hother, htrunc]

/-- **An append to another stream** leaves a channel as it is. -/
theorem TailCopies.append_other (h : TailCopies quotas paths logs channel ends w)
    (hstr : stream ≠ channel.stream) (text : String) :
    TailCopies quotas paths logs channel ends
      { w with spool := ((appendLog quotas stream text).run w.spool ()).store } := by
  rcases h with h | ⟨pieces, state, texts, h⟩
  · obtain ⟨state, texts, hrecorded, htrunc⟩ := h.recorded
    obtain ⟨result, state', -, hout⟩ := hrecorded.append stream text
    exact .overflowed ⟨_, _, hout.recorded, hout.stays htrunc⟩
  · obtain ⟨result, state', -, hout⟩ := h.copy.recorded.append stream text
    refine .following pieces state' _ ⟨⟨hout.recorded, ?_, ?_⟩, h.offset, h.ends, h.unlocked,
      h.locked⟩
    · rw [hout.others _ hstr.symm]
      exact h.copy.clean
    · rw [Function.update_of_ne hstr.symm]
      exact h.copy.text

/-- **A chunk of another channel** leaves a channel as it is. -/
theorem TailCopies.chunk_other (h : TailCopies quotas paths logs channel ends w)
    (hother : other ≠ channel) (text : String) :
    TailCopies quotas paths logs channel ends (appendChunk quotas other text w).2 := by
  have hstr : channel.stream ≠ other.stream := fun heq => hother (stream_injective heq).symm
  rcases h with h | ⟨pieces, state, texts, h⟩
  · obtain ⟨state, texts, hrecorded, htrunc⟩ := h.recorded
    obtain ⟨state', hout⟩ := appendChunk_outcome other hrecorded text
    refine .overflowed ⟨_, _, hout.recorded, ?_⟩
    rw [hout.others _ hstr, htrunc]
  · obtain ⟨state', hout⟩ := appendChunk_outcome other h.copy.recorded text
    refine .following pieces state' _ ⟨⟨hout.recorded, ?_, ?_⟩, ?_, h.ends, ?_, ?_⟩
    · rw [hout.others _ hstr]
      exact h.copy.clean
    · rw [Function.update_of_ne hstr]
      exact h.copy.text
    · rw [hout.apart _ hother.symm]
      exact h.offset
    · rw [hout.root]
      exact h.unlocked
    · rw [hout.root]
      exact h.locked

theorem overflowed_chunk (h : Overflowed quotas channel w.spool) (text : String) :
    Overflowed quotas channel (appendChunk quotas channel text w).2.spool := by
  obtain ⟨_, _, hrecorded, htrunc⟩ := h.recorded
  obtain ⟨state', hout⟩ := appendChunk_outcome channel hrecorded text
  refine ⟨_, _, hout.recorded, ?_⟩
  rcases hclean : (state'.streams channel.stream).truncated with _ | _
  · rw [(hout.whole hclean).1] at htrunc
    cases htrunc
  · rfl

/-- The step that only reports a reason. -/
theorem TailCopies.reason (h : TailCopies quotas paths logs channel ends w) (other : ConsoleChannel)
    (reason message : String) :
    TailCopies quotas paths logs channel ends (reasonStep other reason message w).2 := by
  unfold reasonStep
  dsimp only
  split_ifs
  · exact h
  · refine h.congr rfl rfl ?_
    by_cases hother : channel = other
    · subst hother
      rw [withChannel_self]
    · rw [withChannel_of_ne w hother]

/-- Where the read of a log at an offset ends, if it reads anything. -/
def rangeEnd (log : Except String (List UInt8)) (offset : Nat) : Option Nat :=
  match log with
  | .error _ => none
  | .ok log =>
    if offset < log.length then some (min log.length (offset + consoleTailChunkBytes)) else none

section

variable (h : TailCopies quotas paths logs channel ends w)

include h

/-- **A read of another channel** leaves a channel as it is. -/
theorem TailCopies.tail_other (hother : other ≠ channel) (log : Except String (List UInt8)) :
    TailCopies quotas paths logs channel ends (tailLockedExecution quotas other log w).2 := by
  unfold tailLockedExecution
  rcases log with message | log
  · exact h.reason other _ message
  · dsimp only
    split_ifs
    · exact h
    · have hmoved : TailCopies quotas paths logs channel ends (w.withChannel other
          { w.tailer.channels other with offset :=
            (readExternalLogRange log (w.tailer.channels other).offset).nextOffset }) := by
        refine h.congr rfl rfl ?_
        rw [withChannel_of_ne w hother.symm]
      exact hmoved.chunk_other hother _

/-- **A read of the channel** copies one more piece. -/
theorem TailCopies.tail_self {root : String}
    (hroot : w.tailer.executionRoot = some root) (failure : Option String) :
    TailCopies quotas paths logs channel
      (ends ++ (rangeEnd (openLog paths logs root channel failure)
        (w.tailer.channels channel).offset).toList)
      (tailLockedExecution quotas channel (openLog paths logs root channel failure) w).2 := by
  rcases hlog : openLog paths logs root channel failure with message | log
  · unfold tailLockedExecution
    dsimp only
    rw [rangeEnd, Option.toList_none, List.append_nil]
    exact h.reason channel _ message
  · obtain ⟨directory, hdirectory, rfl⟩ : ∃ directory, paths.directory root = some directory ∧
        log = logs directory channel := by
      unfold openLog at hlog
      dsimp only at hlog
      rcases failure with _ | _
      · rcases hdirectory : paths.directory root with _ | directory
        · rw [hdirectory] at hlog
          cases hlog
        · rw [hdirectory] at hlog
          cases hlog
          exact ⟨directory, rfl, rfl⟩
      · cases hlog
    unfold tailLockedExecution
    dsimp only
    by_cases hend : (logs directory channel).length ≤ (w.tailer.channels channel).offset
    · rw [if_pos (readExternalLogRange_empty.2 hend), rangeEnd, if_neg (by omega),
        Option.toList_none, List.append_nil]
      exact h
    · rw [if_neg fun hempty => hend (readExternalLogRange_empty.1 hempty)]
      rcases h with h | ⟨pieces, state, texts, h⟩
      · have hmoved : Overflowed quotas channel (w.withChannel channel
            { w.tailer.channels channel with offset :=
              (readExternalLogRange (logs directory channel)
                (w.tailer.channels channel).offset).nextOffset }).spool := h
        exact .overflowed (overflowed_chunk hmoved _)
      · have hread := h.locked root directory hroot hdirectory
        have hpiece := prefix_range hread
        rw [← h.offset, ← List.flatten_concat] at hpiece
        have hlt : (w.tailer.channels channel).offset < (logs directory channel).length := by
          omega
        have hpos := range_end hlt
        set offset := (w.tailer.channels channel).offset
        have hlen : (pieces ++ [rangeBytes (logs directory channel) offset]).flatten.length =
            min (logs directory channel).length (offset + consoleTailChunkBytes) := by
          rw [List.flatten_concat, List.length_append, ← h.offset, ← hpos]
        have htext : (readExternalLogRange (logs directory channel) offset).text =
            String.ofList (Utf8.decodeReplace (rangeBytes (logs directory channel) offset)) := rfl
        have hrecorded : Recorded quotas state texts (w.withChannel channel
            { w.tailer.channels channel with
              offset := (readExternalLogRange (logs directory channel) offset).nextOffset }).spool :=
          h.copy.recorded
        obtain ⟨state', hout⟩ := appendChunk_outcome channel hrecorded
          (readExternalLogRange (logs directory channel) offset).text
        rcases hst' : (state'.streams channel.stream).truncated with _ | _
        · obtain ⟨-, hwhole, htailer⟩ := hout.whole hst'
          refine .following (pieces ++ [rangeBytes (logs directory channel) offset]) state' _
            ⟨⟨hout.recorded, hst', ?_⟩, ?_, ?_, ?_, ?_⟩
          · rw [Function.update_self, hwhole, htext, String.toList_ofList, Utf8.encode_append,
              h.copy.text, Utf8.reencodeAll_concat]
            rfl
          · rw [htailer, withChannel_self, hlen]
            exact hpos
          · rw [Utf8.cuts_concat, hlen, h.ends, rangeEnd, if_pos hlt]
            rfl
          · intro hnone
            rw [hout.root] at hnone
            exact absurd (hroot.symm.trans hnone) (Option.some_ne_none root)
          · intro root' _ hroot' hdirectory'
            rw [hout.root] at hroot'
            have hsame : some root = some root' := hroot.symm.trans hroot'
            cases hsame
            rw [hdirectory] at hdirectory'
            cases hdirectory'
            exact hpiece
        · exact .overflowed ⟨_, _, hout.recorded, hst'⟩

/-- **A poll of another channel** leaves a channel as it is. -/
theorem TailCopies.poll_other
    (hother : other ≠ channel) (now : ℚ) (located : Located) (failure : Option String) :
    TailCopies quotas paths logs channel ends
      (pollChannel quotas paths logs other now located failure w).2 := by
  unfold pollChannel
  split_ifs
  · exact h
  · have hstamped : TailCopies quotas paths logs channel ends (w.withChannel other
        { w.tailer.channels other with lastPollMonotonic := some now }) := by
      refine h.congr rfl rfl ?_
      rw [withChannel_of_ne w hother.symm]
    dsimp only
    split
    · exact hstamped.tail_other hother _
    · rename_i hnone
      split
      · exact hstamped.reason other _ _
      · exact hstamped
      · exact (hstamped.lock hnone _).tail_other hother _

end

/-- Where the read of a poll of a channel ends, if it reads anything. -/
def pollEnd (paths : HostPaths) (logs : ApplicationLogs) (channel : ConsoleChannel) (now : ℚ)
    (located : Located) (failure : Option String) (tailer : ConsoleLiveTailer) : Option Nat :=
  if throttled tailer channel now then none
  else
    let offset := (tailer.channels channel).offset
    match tailer.executionRoot, located with
    | some root, _ => rangeEnd (openLog paths logs root channel failure) offset
    | none, .ok (some root) => rangeEnd (openLog paths logs root channel failure) offset
    | none, _ => none

/-- **A poll of the channel** copies one more piece, or none. -/
theorem TailCopies.poll_self (h : TailCopies quotas paths logs channel ends w) (now : ℚ)
    (located : Located) (failure : Option String) :
    TailCopies quotas paths logs channel
      (ends ++ (pollEnd paths logs channel now located failure w.tailer).toList)
      (pollChannel quotas paths logs channel now located failure w).2 := by
  unfold pollChannel pollEnd
  by_cases hthrottled : throttled w.tailer channel now = true
  · rw [if_pos hthrottled, if_pos hthrottled, Option.toList_none, List.append_nil]
    exact h
  · rw [if_neg hthrottled, if_neg hthrottled]
    have hstamped : TailCopies quotas paths logs channel ends (w.withChannel channel
        { w.tailer.channels channel with lastPollMonotonic := some now }) := by
      refine h.congr rfl rfl ?_
      rw [withChannel_self]
    have hoff : ((w.withChannel channel { w.tailer.channels channel with
        lastPollMonotonic := some now }).tailer.channels channel).offset =
        (w.tailer.channels channel).offset := by
      rw [withChannel_self]
    have hroot : (w.withChannel channel { w.tailer.channels channel with
        lastPollMonotonic := some now }).tailer.executionRoot = w.tailer.executionRoot := rfl
    dsimp only
    rw [hroot]
    rcases hlocked : w.tailer.executionRoot with _ | root
    · rcases located with ⟨reason, _⟩ | _ | root
      · dsimp only
        rw [Option.toList_none, List.append_nil]
        exact hstamped.reason channel _ _
      · dsimp only
        rw [Option.toList_none, List.append_nil]
        exact hstamped
      · have htail := (hstamped.lock (hroot.trans hlocked) root).tail_self rfl failure
        dsimp only at htail
        rw [hoff] at htail
        exact htail
    · have htail := hstamped.tail_self (hroot.trans hlocked) failure
      rw [hoff] at htail
      exact htail

end

/-! ### Runs -/

/-- What happens while the application runs. -/
inductive ConsoleEvent where
  | grow (directory : String) (channel : ConsoleChannel) (bytes : List UInt8)
  | poll (channel : ConsoleChannel) (now : ℚ) (located : Located) (failure : Option String)
  | output (channel : ConsoleChannel) (text : String)

/-- The tailer, its spool and the logs of the applications. -/
structure ConsoleWorld extends TailWorld where
  logs : ApplicationLogs

/-- The logs after the application has written. -/
def growLog (logs : ApplicationLogs) (directory : String) (channel : ConsoleChannel)
    (bytes : List UInt8) : ApplicationLogs :=
  fun found other =>
    if found = directory ∧ other = channel then logs found other ++ bytes else logs found other

/-- One event. -/
def ConsoleEvent.apply (quotas : LogQuotas) (paths : HostPaths) (event : ConsoleEvent)
    (w : ConsoleWorld) : ConsoleWorld :=
  match event with
  | .grow directory channel bytes => { w with logs := growLog w.logs directory channel bytes }
  | .poll channel now located failure =>
    { w with toTailWorld :=
        (pollChannel quotas paths w.logs channel now located failure w.toTailWorld).2 }
  | .output channel text =>
    { w with spool := ((appendLog quotas channel.wire text).run w.spool ()).store }

/-- The events of a run, one after the other. -/
def runConsole (quotas : LogQuotas) (paths : HostPaths) :
    List ConsoleEvent → ConsoleWorld → ConsoleWorld
  | [], w => w
  | event :: events, w => runConsole quotas paths events (event.apply quotas paths w)

/-- Where the read of a channel ends that an event makes. -/
def ConsoleEvent.readEnd (paths : HostPaths) (channel : ConsoleChannel) (event : ConsoleEvent)
    (w : ConsoleWorld) : Option Nat :=
  match event with
  | .poll polled now located failure =>
    if polled = channel then pollEnd paths w.logs channel now located failure w.tailer else none
  | .grow .. | .output .. => none

/-- Where the reads of a channel end that the polls of a run make. -/
def readEnds (quotas : LogQuotas) (paths : HostPaths) (channel : ConsoleChannel) :
    List ConsoleEvent → ConsoleWorld → List Nat
  | [], _ => []
  | event :: events, w =>
    (event.readEnd paths channel w).toList ++
      readEnds quotas paths channel events (event.apply quotas paths w)

/-- A tailer that has polled nothing, a new spool, and no logs. -/
def newConsoleWorld (quotas : LogQuotas) (minPollIntervalSeconds : ℚ) : ConsoleWorld where
  spool := ((initializeSpool quotas).run .empty ()).store
  tailer := ⟨minPollIntervalSeconds, none, fun _ => {}⟩
  logs _ _ := []

theorem wire_ne_stream (a b : ConsoleChannel) : a.wire ≠ b.stream := by
  cases a <;> cases b <;> decide

theorem prefix_growLog (logs : ApplicationLogs) (directory : String) (channel : ConsoleChannel)
    (bytes : List UInt8) (found : String) (other : ConsoleChannel) :
    logs found other <+: growLog logs directory channel bytes found other := by
  unfold growLog
  split_ifs
  · exact List.prefix_append _ _
  · exact List.prefix_refl _

/-- **One event** copies at most one more piece of the log of a channel. -/
theorem TailCopies.step (h : TailCopies quotas paths w.logs channel ends w.toTailWorld)
    (event : ConsoleEvent) :
    TailCopies quotas paths (event.apply quotas paths w).logs channel
      (ends ++ (event.readEnd paths channel w).toList)
      (event.apply quotas paths w).toTailWorld := by
  cases event with
  | grow =>
    rw [ConsoleEvent.readEnd, Option.toList_none, List.append_nil]
    exact h.grow fun found => prefix_growLog _ _ _ _ found channel
  | poll other now located failure =>
    unfold ConsoleEvent.readEnd
    dsimp only
    by_cases hother : other = channel
    · subst hother
      rw [if_pos rfl]
      exact h.poll_self now located failure
    · rw [if_neg hother, Option.toList_none, List.append_nil]
      exact h.poll_other hother now located failure
  | output other text =>
    rw [ConsoleEvent.readEnd, Option.toList_none, List.append_nil]
    exact h.append_other (wire_ne_stream other channel) text

/-- **A run** copies pieces of the log of a channel that end where the reads of its polls end. -/
theorem TailCopies.run (h : TailCopies quotas paths w.logs channel ends w.toTailWorld)
    (events : List ConsoleEvent) :
    TailCopies quotas paths (runConsole quotas paths events w).logs channel
      (ends ++ readEnds quotas paths channel events w)
      (runConsole quotas paths events w).toTailWorld := by
  induction events generalizing ends w with
  | nil =>
    rw [readEnds, List.append_nil]
    exact h
  | cons event events ih =>
    rw [readEnds, ← List.append_assoc]
    exact ih (h.step event)

theorem tailCopies_new (paths : HostPaths) (channel : ConsoleChannel) (interval : ℚ) :
    TailCopies quotas paths (newConsoleWorld quotas interval).logs channel []
      (newConsoleWorld quotas interval).toTailWorld := by
  obtain ⟨state, hrecorded, hclean⟩ := recorded_created quotas
  unfold newConsoleWorld
  generalize ((initializeSpool quotas).run .empty ()).store = spool at hrecorded ⊢
  exact .following [] state (fun _ => []) ⟨⟨hrecorded, hclean _, rfl⟩, rfl, rfl, fun _ => rfl,
    fun _ _ _ _ => List.nil_prefix⟩

/-! ### The console stream after the flush -/

/-- The directory that the terminal result names, when it names one that can be opened. -/
def flushDirectory (paths : HostPaths) (document : Dict) : Option String :=
  ((executionRecord document).bind (executionRootFromRecord paths)).bind paths.directory

/-- The directory that the tailer has locked is the one of the terminal result, if it has locked
one. -/
def SameExecution (paths : HostPaths) (document : Dict) (tailer : ConsoleLiveTailer) : Prop :=
  ∀ root, tailer.executionRoot = some root → paths.directory root = flushDirectory paths document

/-- Where the reads of a channel end: those of the polls, then those of the flush. -/
def allEnds (quotas : LogQuotas) (paths : HostPaths) (channel : ConsoleChannel)
    (events : List ConsoleEvent) (size : Nat) (w : ConsoleWorld) : List Nat :=
  readEnds quotas paths channel events w ++ flushEnds size (size + 1)
      ((runConsole quotas paths events w).tailer.channels channel).offset

/-- **The flush after a run** copies the rest of the log, unless the stream is truncated. -/
theorem TailCopies.flush (h : TailCopies quotas paths w.logs channel ends w.toTailWorld)
    {document : Dict} {directory : String}
    (hdirectory : flushDirectory paths document = some directory)
    (hsame : SameExecution paths document w.tailer) :
    Overflowed quotas channel (flushTerminalChannel quotas paths w.logs channel document
        (some w.tailer) none w.spool).2 ∨
      (∃ outcome, (flushTerminalChannel quotas paths w.logs channel document
        (some w.tailer) none w.spool).1 = some (.ok outcome)) ∧
      ∃ pieces state texts, Copy quotas channel pieces state texts
          (flushTerminalChannel quotas paths w.logs channel document (some w.tailer) none
            w.spool).2 ∧
        pieces.flatten = w.logs directory channel ∧
        Utf8.cuts pieces = ends ++ flushEnds (w.logs directory channel).length
          ((w.logs directory channel).length + 1) (w.tailer.channels channel).offset := by
  obtain ⟨root, hroot, hopen⟩ := Option.bind_eq_some_iff.1 hdirectory
  obtain ⟨_, hrec, hroot⟩ := Option.bind_eq_some_iff.1 hroot
  have hlog : openLog paths w.logs root channel none = .ok (w.logs directory channel) := by
    unfold openLog
    rw [hopen]
  unfold flushTerminalChannel
  rw [hrec]
  dsimp only
  rw [hroot]
  dsimp only
  rw [hlog]
  dsimp only
  -- the flush starts where the tailer stopped
  have hstart : flushStart paths channel root (some w.tailer) =
      (if w.tailer.executionRoot = none then 0 else (w.tailer.channels channel).offset,
        ⟨0, none, none⟩) := by
    unfold flushStart
    dsimp only
    rcases htailed : w.tailer.executionRoot with _ | tailed
    · rw [if_pos rfl]
    · have hboth : sameDirectory paths tailed root = true := by
        unfold sameDirectory
        rw [hsame tailed htailed, hdirectory, hopen]
        exact decide_eq_true rfl
      dsimp only
      rw [if_pos hboth, if_neg (Option.some_ne_none tailed)]
  rw [hstart]
  rcases h with h | ⟨pieces, state, texts, h⟩
  · exact .inl (flushLoop_overflowed _ _ _ h)
  · have hoff : (if w.tailer.executionRoot = none then 0
        else (w.tailer.channels channel).offset) = (w.tailer.channels channel).offset := by
      split_ifs with hnone
      · rw [h.offset, h.unlocked hnone]
        rfl
      · rfl
    have hread : pieces.flatten <+: w.logs directory channel := by
      rcases htailed : w.tailer.executionRoot with _ | tailed
      · rw [h.unlocked htailed]
        exact List.nil_prefix
      · exact h.locked tailed directory htailed ((hsame tailed htailed).trans hdirectory)
    dsimp only
    rw [hoff]
    obtain ⟨hret, hrest⟩ := flushLoop_copies ((w.logs directory channel).length + 1)
      ⟨0, none, none⟩ h.copy hread h.offset (by omega)
    refine hrest.imp_right fun hcopied => ⟨hret, ?_⟩
    obtain ⟨pieces', state', texts', hcopy, hall, hends⟩ := hcopied
    rw [h.ends] at hends
    exact ⟨pieces', state', texts', hcopy, hall, hends⟩

/-- **When the console stream is the application log.**  Take any events (writes of the application,
polls of both channels, output of the launched server), then the flush for the same execution, with
no quota reached and a log that can be opened and is UTF-8.  The flush returns, and the stream of
the channel holds the bytes of the log exactly when every read ended between two characters. -/
theorem console_copies_log (quotas : LogQuotas) (paths : HostPaths) (interval : ℚ)
    (events : List ConsoleEvent) (channel : ConsoleChannel) (document : Dict) (directory : String)
    (text : List Char) (flushed : SpoolStore)
    (hdirectory : flushDirectory paths document = some directory)
    (hsame : SameExecution paths document
      (runConsole quotas paths events (newConsoleWorld quotas interval)).tailer)
    (htext : (runConsole quotas paths events (newConsoleWorld quotas interval)).logs directory
      channel = Utf8.encode text)
    (hflushed : flushed = (flushTerminalChannel quotas paths
      (runConsole quotas paths events (newConsoleWorld quotas interval)).logs channel document
      (some (runConsole quotas paths events (newConsoleWorld quotas interval)).tailer) none
      (runConsole quotas paths events (newConsoleWorld quotas interval)).spool).2)
    (hquota : ∀ state, ((loadCaptureState quotas).run flushed ()).result = .ok state →
      (state.streams channel.stream).truncated = false) :
    (∃ outcome, (flushTerminalChannel quotas paths
      (runConsole quotas paths events (newConsoleWorld quotas interval)).logs channel document
      (some (runConsole quotas paths events (newConsoleWorld quotas interval)).tailer) none
      (runConsole quotas paths events (newConsoleWorld quotas interval)).spool).1 =
        some (.ok outcome)) ∧
    (flushed.logs channel.stream = some (Utf8.encode text) ↔
      ∀ position ∈ allEnds quotas paths channel events (Utf8.encode text).length
        (newConsoleWorld quotas interval), Utf8.IsBoundary text position) := by
  have hnew : TailCopies quotas paths (newConsoleWorld quotas interval).logs channel []
      (newConsoleWorld quotas interval).toTailWorld := tailCopies_new paths channel interval
  have hrun := hnew.run events
  rw [List.nil_append] at hrun
  unfold allEnds
  generalize runConsole quotas paths events (newConsoleWorld quotas interval) = w at *
  have hflush := hrun.flush hdirectory hsame
  rw [← hflushed, htext] at hflush
  rcases hflush with ⟨state, texts, hrecorded, htrunc⟩ |
    ⟨hret, pieces, state, texts, hcopy, hall, hends⟩
  · rw [hquota state hrecorded.load] at htrunc
    cases htrunc
  · refine ⟨hret, ?_⟩
    rw [hcopy.recorded.holds.logs, hcopy.text, Option.some.injEq, ← hends]
    exact Utf8.reencodeAll_eq_iff hall

/-- Paths under which everything lies in one directory. -/
def onePath : HostPaths := ⟨fun _ => "run", some⟩

/-- A terminal result that names its script. -/
def namedResult : Dict :=
  [("structured_result", .obj [("execution_record", .obj [("metadata",
    .obj [("script_path", .str "run/script.py")])])])]

/-- The application writes one character of two bytes, and the channel is polled between them. -/
def cutEvents : List ConsoleEvent :=
  [.grow "run" .stdout [0xC3], .poll .stdout 0 (.ok (some "run")) none,
    .grow "run" .stdout [0xA9]]

/-- What the spool holds after a run and the flush of `stdout`. -/
def flushedSpool (events : List ConsoleEvent) : SpoolStore :=
  let w := runConsole smallQuotas onePath events (newConsoleWorld smallQuotas 2)
  (flushTerminalChannel smallQuotas onePath w.logs .stdout namedResult (some w.tailer) none
    w.spool).2

theorem flushedSpool_eq (events : List ConsoleEvent) : flushedSpool events =
    (flushTerminalChannel smallQuotas onePath
      (runConsole smallQuotas onePath events (newConsoleWorld smallQuotas 2)).logs .stdout
      namedResult
      (some (runConsole smallQuotas onePath events (newConsoleWorld smallQuotas 2)).tailer) none
      (runConsole smallQuotas onePath events (newConsoleWorld smallQuotas 2)).spool).2 := rfl

/-- Whether the `console` stream of a spool is truncated. -/
def consoleTruncated (s : SpoolStore) : Bool :=
  match ((loadCaptureState smallQuotas).run s ()).result with
  | .ok state => (state.streams .console).truncated
  | .error _ => false

theorem not_truncated_of (h : consoleTruncated s = false) (state : LogCaptureState)
    (hload : ((loadCaptureState smallQuotas).run s ()).result = .ok state) :
    (state.streams ConsoleChannel.stdout.stream).truncated = false := by
  unfold consoleTruncated at h
  rw [hload] at h
  exact h

theorem cutEvents_run : onePath.directory "run" = flushDirectory onePath namedResult ∧
    (runConsole smallQuotas onePath cutEvents (newConsoleWorld smallQuotas 2)).tailer.executionRoot =
      some "run" ∧
    (runConsole smallQuotas onePath cutEvents (newConsoleWorld smallQuotas 2)).logs "run" .stdout =
      Utf8.encode ['é'] ∧
    consoleTruncated (flushedSpool cutEvents) = false ∧
    (flushedSpool cutEvents).logs ConsoleChannel.stdout.stream =
      some [0xEF, 0xBF, 0xBD, 0xEF, 0xBF, 0xBD] := by
  decide +kernel

theorem cutEvents_log : (runConsole smallQuotas onePath cutEvents
    (newConsoleWorld smallQuotas 2)).logs "run" .stdout = Utf8.encode ['é'] :=
  cutEvents_run.2.2.1

theorem flushedSpool_cut : consoleTruncated (flushedSpool cutEvents) = false ∧
    (flushedSpool cutEvents).logs ConsoleChannel.stdout.stream =
      some [0xEF, 0xBF, 0xBD, 0xEF, 0xBF, 0xBD] :=
  cutEvents_run.2.2.2

theorem cutEvents_same : SameExecution onePath namedResult
    (runConsole smallQuotas onePath cutEvents (newConsoleWorld smallQuotas 2)).tailer := by
  intro _ hroot
  rw [cutEvents_run.2.1] at hroot
  cases hroot
  exact cutEvents_run.1

/-- For a log of one character of two bytes: it is what the console was given exactly if no end of a
chunk cuts the character. -/
theorem console_copies_log_sample :
    (flushedSpool cutEvents).logs ConsoleChannel.stdout.stream = some (Utf8.encode ['é']) ↔
      ∀ position ∈ allEnds smallQuotas onePath .stdout cutEvents (Utf8.encode ['é']).length
        (newConsoleWorld smallQuotas 2), Utf8.IsBoundary ['é'] position :=
  (console_copies_log smallQuotas onePath 2 cutEvents .stdout namedResult "run" ['é']
    (flushedSpool cutEvents) (by decide +kernel) cutEvents_same cutEvents_log
    (flushedSpool_eq cutEvents)
    (not_truncated_of flushedSpool_cut.1)).2

/-- **A read that ends inside a character** puts two replacement characters into the console stream,
and the character is lost. -/
theorem console_loses_character :
    ¬ ∀ (quotas : LogQuotas) (paths : HostPaths) (interval : ℚ) (events : List ConsoleEvent)
      (channel : ConsoleChannel) (document : Dict) (directory : String) (text : List Char)
      (flushed : SpoolStore), flushDirectory paths document = some directory →
      SameExecution paths document
        (runConsole quotas paths events (newConsoleWorld quotas interval)).tailer →
      (runConsole quotas paths events (newConsoleWorld quotas interval)).logs directory channel =
        Utf8.encode text →
      flushed = (flushTerminalChannel quotas paths
        (runConsole quotas paths events (newConsoleWorld quotas interval)).logs channel document
        (some (runConsole quotas paths events (newConsoleWorld quotas interval)).tailer) none
        (runConsole quotas paths events (newConsoleWorld quotas interval)).spool).2 →
      (∀ state, ((loadCaptureState quotas).run flushed ()).result = .ok state →
        (state.streams channel.stream).truncated = false) →
      flushed.logs channel.stream = some (Utf8.encode text) := by
  intro h
  have hne : (some [0xEF, 0xBF, 0xBD, 0xEF, 0xBF, 0xBD] : Option (List UInt8)) ≠
      some (Utf8.encode ['é']) := by decide +kernel
  have hcopied := h smallQuotas onePath 2 cutEvents .stdout namedResult "run" ['é']
    (flushedSpool cutEvents) (by decide +kernel) cutEvents_same cutEvents_log
    (flushedSpool_eq cutEvents) (not_truncated_of flushedSpool_cut.1)
  exact hne (flushedSpool_cut.2.symm.trans hcopied)

end ClioQueue
