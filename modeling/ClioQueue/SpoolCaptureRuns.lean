/-
# Log capture over runs

`Explained` says what the capture state of a spool and the sizes of its logs have to do with
each other: no state file yet, a state that counts every byte (`Tallied`), or a state with a
pending append whose log has none or all of the accepted bytes.  Loading an explained spool
succeeds; every operation keeps a spool explained wherever it stops, but for one place: an
append that stops when some of the accepted bytes are in the log and some are not leaves a
size that no later load accepts.
-/

import ClioQueue.SpoolCapture

namespace ClioQueue

open Durable Durable.Prog

variable {quotas : LogQuotas} {plan : AppendPlan} {accepted : List Char} {state : LogCaptureState}
  {P : LogCaptureState → Prop} {stream : LogStreamName} {texts : LogStreamName → List Char}
  {E : SpoolError → SpoolStore → Unit → Prop} {s t u : SpoolStore} {C : SpoolStore → Prop}

/-! ### Explained spools -/

/-- A state without a pending append that counts the bytes of every log. -/
structure Tallied (quotas : LogQuotas) (state : LogCaptureState) (s : SpoolStore) : Prop where
  balanced : state.Balanced quotas
  quiet : state.pending = none
  sizes : ∀ stream, s.logSize stream = (state.streams stream).persistedBytes

/-- The capture state of a spool explains the sizes of its logs. -/
inductive Explained (quotas : LogQuotas) (s : SpoolStore) : Prop where
  | existing (absent : s.capture = .absent)
      (perStream : ∀ stream, s.logSize stream ≤ quotas.maxBytesPerStream)
      (perJob : sumStreams s.logSize ≤ quotas.maxBytesPerJob)
  | recorded (state : LogCaptureState) (capture : s.capture = .document state.document)
      (tallied : Tallied quotas state s)
  | announced (state : LogCaptureState) (pending : PendingCaptureState)
      (capture : s.capture =
        .document ({ state with pending := some pending } : LogCaptureState).document)
      (balanced : state.Balanced quotas) (admitted : pending.Admitted state)
      (others : ∀ stream, stream ≠ pending.stream →
        s.logSize stream = (state.streams stream).persistedBytes)
      (here : s.logSize pending.stream = pending.beforePersistedBytes ∨
        s.logSize pending.stream = pending.beforePersistedBytes + pending.acceptedBytes)

theorem Tallied.sum (h : Tallied quotas state s) :
    sumStreams s.logSize = state.persistedJobBytes := by
  have hsizes : s.logSize = fun stream => (state.streams stream).persistedBytes :=
    funext h.sizes
  rw [hsizes]
  rfl

/-- A balanced account stays balanced under whatever is pending. -/
theorem LogCaptureState.Balanced.withPending (h : state.Balanced quotas)
    (pending : Option PendingCaptureState) :
    ({ state with pending } : LogCaptureState).Balanced quotas :=
  ⟨h.perStream, h.perJob, h.streams, h.within⟩

@[simp]
theorem settle_stream_self (state : LogCaptureState) (stream : LogStreamName)
    (observed persisted dropped : Nat) :
    (state.settle stream observed persisted dropped).streams stream =
      { state.streams stream with
        observedBytes := (state.streams stream).observedBytes + observed
        persistedBytes := (state.streams stream).persistedBytes + persisted
        droppedBytes := (state.streams stream).droppedBytes + dropped
        truncated := (state.streams stream).truncated || decide (dropped > 0) } :=
  Function.update_self ..

theorem settle_stream_of_ne (state : LogCaptureState) {other : LogStreamName} (h : other ≠ stream)
    (observed persisted dropped : Nat) :
    (state.settle stream observed persisted dropped).streams other = state.streams other :=
  Function.update_of_ne h ..

theorem settle_persistedJobBytes (state : LogCaptureState) (stream : LogStreamName)
    (observed persisted dropped : Nat) :
    (state.settle stream observed persisted dropped).persistedJobBytes =
      state.persistedJobBytes + persisted := by
  have hupd : (fun name =>
      ((state.settle stream observed persisted dropped).streams name).persistedBytes) =
      Function.update (fun name => (state.streams name).persistedBytes) stream
        ((state.streams stream).persistedBytes + persisted) := by
    funext name
    by_cases hname : name = stream
    · subst hname
      simp
    · rw [settle_stream_of_ne state hname, Function.update_of_ne hname]
  have hsum := sumStreams_update (fun name => (state.streams name).persistedBytes) stream
    ((state.streams stream).persistedBytes + persisted)
  unfold LogCaptureState.persistedJobBytes
  rw [hupd]
  omega

/-- **An append that ended is counted**, whether its bytes reached the log or not. -/
theorem tallied_settle {observed persisted dropped : Nat} (h : state.Balanced quotas)
    (hobs : observed = persisted + dropped)
    (hstr : (state.streams stream).persistedBytes + persisted ≤ quotas.maxBytesPerStream)
    (hjob : state.persistedJobBytes + persisted ≤ quotas.maxBytesPerJob)
    (hothers : ∀ other, other ≠ stream → s.logSize other = (state.streams other).persistedBytes)
    (hhere : s.logSize stream = (state.streams stream).persistedBytes + persisted) :
    Tallied quotas (state.settle stream observed persisted dropped) s := by
  refine ⟨⟨h.perStream, h.perJob, fun other => ?_, ?_⟩, rfl, fun other => ?_⟩
  · by_cases hother : other = stream
    · subst hother
      obtain ⟨_, htrunc, hrecorded, -⟩ := h.streams other
      rw [settle_stream_self]
      refine ⟨?_, ?_, fun hev => ?_, hstr⟩
      · show _ + observed = _ + persisted + (_ + dropped)
        omega
      · show (_ || decide (dropped > 0)) = decide (_ + dropped > 0)
        rw [htrunc, ← Bool.decide_or]
        congr 1
        rw [eq_iff_iff]
        omega
      · show (_ || decide (dropped > 0)) = true
        rw [hrecorded hev, Bool.true_or]
    · rw [settle_stream_of_ne state hother]
      exact h.streams other
  · rw [settle_persistedJobBytes]
    exact hjob
  · by_cases hother : other = stream
    · subst hother
      rw [hhere, settle_stream_self]
    · rw [hothers other hother, settle_stream_of_ne state hother]

theorem Tallied.explained (h : Tallied quotas state s) : Explained quotas (s.withCapture state) :=
  .recorded state rfl ⟨h.balanced, h.quiet, h.sizes⟩

/-! ### Loading -/

theorem wp_each_ensure {Q : Unit → SpoolStore → Unit → Prop} {f : LogStreamName → SpoolOp Unit}
    (hf : ∀ name w (Q : Unit → SpoolStore → Unit → Prop), Q () s w → wp (f name) C Q E s w)
    (names : List LogStreamName) (v : Unit) (hQ : Q () s v) : wp (each f names) C Q E s v := by
  refine wp_each (fun _ t _ => t = s) f (fun name names t w ht => ?_) (fun t w ht => ?_) names s v
    rfl
  · subst ht
    exact hf name w _ rfl
  · subst ht
    exact hQ

/-- Without a record the state of the capture is taken from the logs themselves, if they are within
both bounds. -/
theorem wp_existingCaptureState (hstr : ∀ stream, s.logSize stream ≤ quotas.maxBytesPerStream)
    (hjob : sumStreams s.logSize ≤ quotas.maxBytesPerJob) (v : Unit) :
    wp (existingCaptureState quotas) (fun _ => False)
      (fun state t _ => t = s ∧ Tallied quotas state s ∧
        ∀ stream, (state.streams stream).truncated = false) (fun _ _ _ => False) s v := by
  unfold existingCaptureState
  rw [wp_bind]
  refine wp_each_ensure (fun name w Q hQ => ?_) _ _ ?_
  · rw [wp_bind, wp_look, ensure, wp_require]
    refine ⟨fun _ => hQ, fun hfalse => ?_⟩
    exact of_decide_eq_false hfalse (hstr name)
  · rw [wp_bind, wp_look, wp_bind, ensure, wp_require]
    refine ⟨fun _ => ?_, fun hfalse => of_decide_eq_false hfalse hjob⟩
    rw [wp_pure]
    refine ⟨rfl, ⟨⟨rfl, rfl, fun stream => ?_, hjob⟩, rfl, fun _ => rfl⟩, fun _ => rfl⟩
    exact ⟨rfl, rfl, nofun, hstr stream⟩

/-- The check of the sizes at the end of `_load_capture_state_unlocked`. -/
theorem wp_checkSizes (h : Tallied quotas state s) {Q : LogCaptureState → SpoolStore → Unit → Prop}
    (v : Unit) (hQ : Q state s v) :
    wp (each (fun name => look (·.logSize name) >>= fun actualSize =>
        ensure (actualSize = (state.streams name).persistedBytes)
          "log capture state does not match the log") logStreamNames >>= fun _ => pure state)
      C Q E s v := by
  rw [wp_bind]
  refine wp_each_ensure (fun name w Q hQ => ?_) _ _ ?_
  · rw [wp_bind, wp_look, ensure, wp_require]
    exact ⟨fun _ => hQ, fun hfalse => absurd (h.sizes name) (of_decide_eq_false hfalse)⟩
  · rw [wp_pure]
    exact hQ

/-- **Recovery settles a pending append** whose log has none or all of its bytes. -/
theorem wp_recoverPendingCapture {pending : PendingCaptureState} (balanced : state.Balanced quotas)
    (admitted : pending.Admitted state)
    (others : ∀ stream, stream ≠ pending.stream → s.logSize stream = (state.streams stream).persistedBytes)
    (here : s.logSize pending.stream = pending.beforePersistedBytes ∨ s.logSize pending.stream = pending.beforePersistedBytes + pending.acceptedBytes)
    (v : Unit) :
    wp (recoverPendingCapture { state with pending := some pending })
      (fun t => Explained quotas t ∧ t.logs = s.logs)
      (fun settled t _ => t = s.withCapture settled ∧ Tallied quotas settled s)
      (fun _ _ _ => False) s v := by
  obtain ⟨hbefore, hobs, hstr, hjob⟩ := admitted
  rw [balanced.perStream] at hstr
  rw [balanced.perJob] at hjob
  -- either way the settled state counts what is in the log
  have hwrite : ∀ settled : LogCaptureState, Tallied quotas settled s →
      wp (pure settled >>= fun settled => writeCaptureState settled >>= fun _ => pure settled)
        (fun t => Explained quotas t ∧ t.logs = s.logs)
        (fun settled t _ => t = s.withCapture settled ∧ Tallied quotas settled s)
        (fun _ _ _ => False) s v := by
    intro settled htally
    rw [wp_bind, wp_pure, wp_bind, writeCaptureState, wp_durably, wp_pure]
    exact ⟨⟨htally.explained, rfl⟩, rfl, htally⟩
  unfold recoverPendingCapture
  dsimp only
  rw [wp_bind, ensure, wp_require]
  refine ⟨fun _ => ?_, fun hfalse => absurd hbefore.symm (of_decide_eq_false hfalse)⟩
  rw [wp_bind, wp_look]
  by_cases hall : s.logSize pending.stream = pending.beforePersistedBytes + pending.acceptedBytes
  · rw [if_pos hall]
    refine hwrite _ (tallied_settle (balanced.withPending _) hobs hstr hjob others ?_)
    rw [hall, hbefore]
  · have hnone := here.resolve_right hall
    rw [if_neg hall, if_pos hnone]
    refine hwrite _ (tallied_settle (balanced.withPending _) (Nat.zero_add _).symm ?_ ?_ others ?_)
    · exact Nat.le_trans (Nat.add_le_add_left (Nat.zero_le _) _) hstr
    · exact Nat.le_trans (Nat.add_le_add_left (Nat.zero_le _) _) hjob
    · rw [hnone, hbefore]
      rfl

/-- The check of the quotas in `_load_capture_state_unlocked`. -/
theorem quotas_unchanged (h : state.Balanced quotas) :
    decide (state.maxBytesPerStream = quotas.maxBytesPerStream ∧
      state.maxBytesPerJob = quotas.maxBytesPerJob) = true :=
  decide_eq_true ⟨h.perStream, h.perJob⟩

/-- A recorded state that tallies with the logs is loaded as it is, and nothing is written. -/
theorem wp_loadCaptureState_recorded (capture : s.capture = .document state.document)
    (tallied : Tallied quotas state s) (v : Unit) :
    wp (loadCaptureState quotas) (fun _ => False) (fun found t _ => found = state ∧ t = s)
      (fun _ _ _ => False) s v := by
  have hval := validateCaptureState_document tallied.balanced
    (fun pending hp => by rw [tallied.quiet] at hp; cases hp)
  unfold loadCaptureState
  rw [wp_bind, wp_look, capture]
  dsimp only
  rw [hval, wp_bind]
  show wp (pure state) _ _ _ _ _
  rw [wp_pure, wp_bind, ensure, quotas_unchanged tallied.balanced, wp_require]
  refine ⟨fun _ => ?_, nofun⟩
  rw [wp_bind, recoverPendingCapture, tallied.quiet]
  dsimp only
  rw [wp_pure]
  exact wp_checkSizes tallied v ⟨rfl, rfl⟩

/-- **Loading an explained spool succeeds**, leaves the logs alone, and returns a state that counts
every byte. -/
theorem wp_loadCaptureState (h : Explained quotas s) (v : Unit) :
    wp (loadCaptureState quotas) (fun t => Explained quotas t ∧ t.logs = s.logs)
      (fun state t _ => Tallied quotas state t ∧ Explained quotas t ∧ t.logs = s.logs)
      (fun _ _ _ => False) s v := by
  cases h with
  | existing absent perStream perJob =>
    unfold loadCaptureState
    rw [wp_bind, wp_look, absent]
    refine wp_mono (wp_existingCaptureState perStream perJob v) (fun _ => False.elim) ?_
      (fun _ _ _ => id)
    rintro state t - ⟨rfl, htally, -⟩
    exact ⟨htally, .existing absent perStream perJob, rfl⟩
  | recorded state capture tallied =>
    refine wp_mono (wp_loadCaptureState_recorded capture tallied v) (fun _ => False.elim) ?_
      (fun _ _ _ => id)
    rintro found t - ⟨rfl, rfl⟩
    exact ⟨tallied, .recorded found capture tallied, rfl⟩
  | announced state pending capture balanced admitted others here =>
    have hadm : pending.Admitted { state with pending := some pending } :=
      ⟨admitted.before, admitted.observed, admitted.perStream, admitted.perJob⟩
    have hval := validateCaptureState_document (balanced.withPending (some pending))
      (fun found hp => by cases hp; exact hadm)
    unfold loadCaptureState
    rw [wp_bind, wp_look, capture]
    dsimp only
    rw [hval, wp_bind]
    show wp (pure ({ state with pending := some pending } : LogCaptureState)) _ _ _ _ _
    rw [wp_pure, wp_bind, ensure, quotas_unchanged (balanced.withPending _), wp_require]
    refine ⟨fun _ => ?_, nofun⟩
    rw [wp_bind]
    refine wp_mono (wp_recoverPendingCapture balanced admitted others here v) (fun _ => id) ?_
      (fun _ _ _ => False.elim)
    rintro settled t w ⟨rfl, htally⟩
    have hafter : Tallied quotas settled (s.withCapture settled) :=
      ⟨htally.balanced, htally.quiet, htally.sizes⟩
    exact wp_checkSizes hafter w ⟨hafter, htally.explained, rfl⟩

/-! ### Appending -/

/-- The bytes that a stream still takes. -/
def SpoolStore.room (quotas : LogQuotas) (s : SpoolStore) (stream : LogStreamName) : Nat :=
  min (quotas.maxBytesPerStream - s.logSize stream) (quotas.maxBytesPerJob - sumStreams s.logSize)

/-- An append of `accepted` that has been announced in the state file. -/
structure Announced (quotas : LogQuotas) (plan : AppendPlan) (accepted : List Char)
    (t : SpoolStore) : Prop where
  tallied : Tallied quotas plan.state t
  bytes : plan.accepted = Utf8.encode accepted
  observed : plan.accepted.length ≤ plan.observedBytes
  perStream : (plan.state.streams plan.stream).persistedBytes + plan.accepted.length ≤
    quotas.maxBytesPerStream
  perJob : plan.state.persistedJobBytes + plan.accepted.length ≤ quotas.maxBytesPerJob
  capture : t.capture = .document ({ plan.state with
    pending := some
      { stream := plan.stream
        beforePersistedBytes := (plan.state.streams plan.stream).persistedBytes
        observedBytes := plan.observedBytes, acceptedBytes := plan.accepted.length
        droppedBytes := plan.observedBytes - plan.accepted.length } } : LogCaptureState).document

/-- A spool whose log has none or all of the bytes of an announced append. -/
theorem Announced.explained (h : Announced quotas plan accepted t) (hcap : u.capture = t.capture)
    (hothers : ∀ stream, stream ≠ plan.stream → u.logSize stream = t.logSize stream)
    (hhere : u.logSize plan.stream = t.logSize plan.stream ∨ u.logSize plan.stream = t.logSize plan.stream + plan.accepted.length) :
    Explained quotas u := by
  have hobs := h.observed
  refine .announced plan.state _ (hcap.trans h.capture) h.tallied.balanced
    ⟨rfl, ?_, ?_, ?_⟩ (fun stream hne => ?_) ?_
  · show plan.observedBytes = plan.accepted.length + (plan.observedBytes - plan.accepted.length)
    omega
  · rw [h.tallied.balanced.perStream]
    exact h.perStream
  · rw [h.tallied.balanced.perJob]
    exact h.perJob
  · rw [hothers stream hne, h.tallied.sizes]
  · show u.logSize plan.stream = _ ∨ u.logSize plan.stream = _ + plan.accepted.length
    rw [← h.tallied.sizes]
    exact hhere

/-- **The first stage of an append** announces the longest prefix that fits; `P` is what is known
of the loaded state. -/
theorem wp_beginAppend (h : Explained quotas s) (stream : LogStreamName) (text : String) (v : Unit)
    (hload : wp (loadCaptureState quotas) (fun _ => True) (fun state _ _ => P state) (fun _ _ _ => True) s v) :
    wp (beginAppend quotas stream text) (fun t => Explained quotas t ∧ t.logs = s.logs)
      (fun plan t _ => Announced quotas plan (Utf8.fit (s.room quotas stream) text.toList) t ∧
        P plan.state ∧ plan.stream = stream ∧
        plan.observedBytes = (Utf8.encode text.toList).length ∧ t.logs = s.logs)
      (fun _ _ _ => False) s v := by
  unfold beginAppend
  dsimp only
  rw [wp_bind]
  refine wp_mono (wp_and (wp_loadCaptureState h v) hload) (fun _ h => h.1) ?_ (fun _ _ _ h => h.1)
  rintro state t w ⟨⟨htally, -, hlogs⟩, hst⟩
  have hroom : min (quotas.maxBytesPerStream - (state.streams stream).persistedBytes)
      (quotas.maxBytesPerJob - state.persistedJobBytes) = s.room quotas stream := by
    have hsize : t.logSize = s.logSize := by
      unfold SpoolStore.logSize
      rw [hlogs]
    rw [SpoolStore.room, ← hsize, htally.sum, htally.sizes]
  have hlen := Utf8.length_encode_fit (s.room quotas stream) text.toList
  have hpre := (Utf8.fit_isPrefix (s.room quotas stream) text.toList)
  have hobs : (Utf8.encode (Utf8.fit (s.room quotas stream) text.toList)).length ≤
      (Utf8.encode text.toList).length := by
    obtain ⟨_, hrest⟩ := hpre
    rw [← hrest, Utf8.encode_append, List.length_append, hrest]
    omega
  have hwithinStream := (htally.balanced.streams stream).within
  have hwithinJob := htally.balanced.within
  have hfitStream : (state.streams stream).persistedBytes +
      (Utf8.encode (Utf8.fit (s.room quotas stream) text.toList)).length ≤
      quotas.maxBytesPerStream := by omega
  have hfitJob : state.persistedJobBytes +
      (Utf8.encode (Utf8.fit (s.room quotas stream) text.toList)).length ≤
      quotas.maxBytesPerJob := by omega
  rw [wp_bind, writeCaptureState, wp_durably, wp_pure, hroom, completeUtf8Prefix_encode]
  have hann : Announced quotas
      { state, stream, observedBytes := (Utf8.encode text.toList).length
        accepted := Utf8.encode (Utf8.fit (s.room quotas stream) text.toList) }
      (Utf8.fit (s.room quotas stream) text.toList) (t.withCapture { state with
        pending := some
          { stream, beforePersistedBytes := (state.streams stream).persistedBytes
            observedBytes := (Utf8.encode text.toList).length
            acceptedBytes := (Utf8.encode (Utf8.fit (s.room quotas stream) text.toList)).length
            droppedBytes := (Utf8.encode text.toList).length -
              (Utf8.encode (Utf8.fit (s.room quotas stream) text.toList)).length } }) := by
    exact ⟨⟨htally.balanced, htally.quiet, htally.sizes⟩, rfl, hobs, hfitStream, hfitJob, rfl⟩
  exact ⟨⟨hann.explained rfl (fun _ _ => rfl) (.inl rfl), hlogs⟩, hann, hst, rfl, rfl, hlogs⟩

/-- **The second stage** appends all accepted bytes, or none to a log that is missing. -/
theorem wp_writeAccepted (stream : LogStreamName) (accepted : List UInt8) (t : SpoolStore)
    (w : Unit) :
    wp (writeAccepted stream accepted) (fun _ => True) (fun _ u _ => u.capture = t.capture ∧
        (∀ other, other ≠ stream → u.logs other = t.logs other) ∧
        u.logs stream = (t.logs stream).map (· ++ accepted) ∧
        (accepted ≠ [] → (t.logs stream).isSome = true))
      (fun _ _ _ => accepted ≠ [] ∧ t.logs stream = none) t w := by
  rcases accepted with _ | ⟨byte, accepted⟩
  · rw [writeAccepted, wp_pure]
    refine ⟨rfl, fun _ _ => rfl, ?_, fun h => (h rfl).elim⟩
    simp
  · rw [writeAccepted, wp_bind, wp_look, wp_bind, ensure, wp_require]
    refine ⟨fun hsome => ?_, fun hnone => ⟨List.cons_ne_nil _ _, ?_⟩⟩
    · obtain ⟨log, hlog⟩ := Option.isSome_iff_exists.1 hsome
      rw [hlog]
      refine wp_each (fun rest u _ => u.capture = t.capture ∧
          (∀ other, other ≠ stream → u.logs other = t.logs other) ∧
          ∃ done, u.logs stream = some (log ++ done) ∧ done ++ rest = byte :: accepted) _
        (fun next rest u x hu => ?_) (fun u x hu => ?_) _ t w ?_
      · obtain ⟨hcap, hothers, done, hdone, hrest⟩ := hu
        rw [wp_durably]
        refine ⟨trivial, hcap, fun other hne => ?_, done ++ [next], ?_, ?_⟩
        · rw [SpoolStore.withByte, SpoolStore.withLog_logs_of_ne _ hne, hothers other hne]
        · rw [SpoolStore.withByte, SpoolStore.withLog_logs_self, hdone, Option.getD_some,
            List.append_assoc]
        · rw [← hrest, List.append_assoc, List.singleton_append]
      · obtain ⟨hcap, hothers, done, hdone, hrest⟩ := hu
        rw [List.append_nil] at hrest
        exact ⟨hcap, hothers, by rw [hdone, hrest]; rfl, fun _ => rfl⟩
      · exact ⟨rfl, fun _ _ => rfl, [], by rw [hlog, List.append_nil], rfl⟩
    · exact Option.isNone_iff_eq_none.1 (Option.isSome_eq_false_iff.1 hnone)

theorem logSize_append {accepted : List UInt8}
    (hlog : u.logs stream = (t.logs stream).map (· ++ accepted))
    (hsome : accepted ≠ [] → (t.logs stream).isSome = true) :
    u.logSize stream = t.logSize stream + accepted.length := by
  unfold SpoolStore.logSize
  rw [hlog]
  rcases hold : t.logs stream with _ | _
  · rcases accepted with _ | ⟨_, accepted⟩
    · rfl
    · rw [hold] at hsome
      cases hsome (List.cons_ne_nil _ _)
  · simp

/-- The account after an append. -/
def AppendPlan.settled (plan : AppendPlan) : LogCaptureState :=
  plan.state.settle plan.stream plan.observedBytes plan.accepted.length
    (plan.observedBytes - plan.accepted.length)

/-- **The last stage** counts the append, and returns what the account says. -/
theorem wp_finishAppend (h : Announced quotas plan accepted t)
    (hothers : ∀ stream, stream ≠ plan.stream → u.logSize stream = t.logSize stream)
    (hhere : u.logSize plan.stream = t.logSize plan.stream + plan.accepted.length) (w : Unit) :
    wp (finishAppend plan) (Explained quotas)
      (fun result x _ => Tallied quotas plan.settled u ∧ x = u.withCapture plan.settled ∧
        result.acceptedText = String.ofList accepted ∧
        result.truncated = (plan.settled.streams plan.stream).truncated ∧
        result.truncationEventRequired = ((plan.settled.streams plan.stream).truncated &&
          !(plan.settled.streams plan.stream).truncationEventRecorded))
      (fun _ _ _ => False) u w := by
  have hobs := h.observed
  have htally : Tallied quotas plan.settled u := by
    refine tallied_settle h.tallied.balanced (by omega) h.perStream h.perJob
      (fun other hne => ?_) ?_
    · rw [hothers other hne, h.tallied.sizes]
    · rw [hhere, h.tallied.sizes]
  have hdecode : decodeStrict plan.accepted = .ok (String.ofList accepted) := by
    rw [decodeStrict, h.bytes, Utf8.decodePrefix_encode, if_pos rfl]
  unfold finishAppend
  dsimp only
  rw [wp_bind, writeCaptureState, wp_durably, hdecode]
  refine ⟨htally.explained, ?_⟩
  rw [wp_bind]
  show wp (pure (String.ofList accepted)) _ _ _ _ _
  rw [wp_pure, wp_pure]
  exact ⟨htally, rfl, rfl, rfl, rfl⟩

/-! ### Runs -/

/-- The calls of a spool. -/
inductive CaptureCall where
  | create
  | append (stream : LogStreamName) (text : String)
  | mark (stream : LogStreamName)
  | summary

/-- The program of a call. -/
def CaptureCall.prog (quotas : LogQuotas) : CaptureCall → SpoolOp Unit
  | .create => initializeSpool quotas
  | .append stream text => do let _ ← appendLog quotas stream text
  | .mark stream => markTruncationEventRecorded quotas stream
  | .summary => do let _ ← captureSummary quotas

/-- What a call leaves behind that stops anywhere. -/
def CaptureCall.halts (quotas : LogQuotas) (call : CaptureCall) (s : SpoolStore) :
    List SpoolStore :=
  Prog.halts (call.prog quotas) s ()

/-- What a call leaves behind that does not stop when some of the accepted bytes of an append are in
the log and some are not. -/
def CaptureCall.haltsBesideBytes (quotas : LogQuotas) (call : CaptureCall) (s : SpoolStore) :
    List SpoolStore :=
  match call with
  | .append stream text =>
    outside (beginAppend quotas stream text) (fun plan => writeAccepted plan.stream plan.accepted)
      (fun plan => finishAppend plan) s ()
  | call => Prog.halts (call.prog quotas) s ()

/-- A spool without files. -/
def SpoolStore.empty : SpoolStore := ⟨.absent, fun _ => none⟩

/-- The spools that calls lead to from an empty one, each call leaving one of `halts`. -/
inductive CaptureRun (halts : CaptureCall → SpoolStore → List SpoolStore) : SpoolStore → Prop where
  | start : CaptureRun halts .empty
  | step {s t : SpoolStore} (run : CaptureRun halts s) (call : CaptureCall)
      (left : t ∈ halts call s) : CaptureRun halts t

/-- What a state that is loaded says about the logs. -/
structure Accounts (quotas : LogQuotas) (state : LogCaptureState) (s : SpoolStore) : Prop where
  observed : ∀ stream, (state.streams stream).observedBytes =
    (state.streams stream).persistedBytes + (state.streams stream).droppedBytes
  persisted : ∀ stream, (state.streams stream).persistedBytes = s.logSize stream
  truncated : ∀ stream, (state.streams stream).truncated = true ↔
    0 < (state.streams stream).droppedBytes
  perStream : ∀ stream, (state.streams stream).persistedBytes ≤ quotas.maxBytesPerStream
  perJob : state.persistedJobBytes ≤ quotas.maxBytesPerJob

theorem Tallied.accounts (h : Tallied quotas state s) : Accounts quotas state s where
  observed stream := (h.balanced.streams stream).observed
  persisted stream := (h.sizes stream).symm
  truncated stream := by
    rw [(h.balanced.streams stream).truncated, decide_eq_true_iff]
  perStream stream := (h.balanced.streams stream).within
  perJob := h.balanced.within

theorem explained_empty : Explained quotas .empty :=
  .existing rfl (fun _ => Nat.zero_le _) (Nat.zero_le _)

/-- **Marking a truncated stream** keeps the account. -/
theorem Tallied.withEventRecorded (h : Tallied quotas state s)
    (htrunc : (state.streams stream).truncated = true) :
    Tallied quotas (state.withEventRecorded stream) s := by
  have hself : (state.withEventRecorded stream).streams stream =
      { state.streams stream with truncationEventRecorded := true } := Function.update_self ..
  have hothers : ∀ other, other ≠ stream →
      (state.withEventRecorded stream).streams other = state.streams other :=
    fun other hne => Function.update_of_ne hne ..
  have hpersisted : ∀ other, ((state.withEventRecorded stream).streams other).persistedBytes =
      (state.streams other).persistedBytes := by
    intro other
    by_cases hother : other = stream
    · subst hother
      rw [hself]
    · rw [hothers other hother]
  refine ⟨⟨h.balanced.perStream, h.balanced.perJob, fun other => ?_, ?_⟩, h.quiet, fun other => ?_⟩
  · have hother := h.balanced.streams other
    by_cases hsame : other = stream
    · subst hsame
      rw [hself]
      exact ⟨hother.observed, hother.truncated, fun _ => htrunc, hother.within⟩
    · rw [hothers other hsame]
      exact hother
  · have hsum := h.balanced.within
    unfold LogCaptureState.persistedJobBytes at hsum ⊢
    rw [funext hpersisted]
    exact hsum
  · rw [hpersisted, h.sizes]

section

variable (h : Explained quotas s)

include h

/-- Only the state file and the sizes of the logs matter. -/
theorem Explained.congr (hcap : t.capture = s.capture)
    (hsize : t.logSize = s.logSize) : Explained quotas t := by
  cases h with
  | existing absent perStream perJob =>
    exact .existing (hcap.trans absent) (hsize ▸ perStream) (hsize ▸ perJob)
  | recorded state capture tallied =>
    exact .recorded state (hcap.trans capture)
      ⟨tallied.balanced, tallied.quiet, hsize ▸ tallied.sizes⟩
  | announced state pending capture balanced admitted others here =>
    exact .announced state pending (hcap.trans capture) balanced admitted (hsize ▸ others)
      (hsize ▸ here)

/-- **The loop of `initialize`** creates the missing logs, empty. -/
theorem wp_createLogs (v : Unit) :
    wp (each createMissingLog logStreamNames) (Explained quotas)
      (fun _ t _ => Explained quotas t ∧ t.capture = s.capture ∧
        ∀ stream, t.logs stream = some ((s.logs stream).getD [])) (fun _ _ _ => False) s v := by
  -- a log is as it was, or it has been looked at and exists
  refine wp_each (fun rest t _ => t.capture = s.capture ∧
      (∀ stream, t.logs stream = s.logs stream ∨ t.logs stream = some ((s.logs stream).getD [])) ∧
      ∀ stream, stream ∉ rest → t.logs stream = some ((s.logs stream).getD [])) _
    (fun name rest t w ht => ?_) (fun t w ht => ?_) _ s v ⟨rfl, fun _ => .inl rfl, ?_⟩
  · obtain ⟨hcap, heither, hdone⟩ := ht
    rw [createMissingLog, wp_bind, wp_look]
    refine wp_cases (fun hsome => ?_) fun hnone => ?_
    · rw [wp_pure]
      refine ⟨hcap, heither, fun stream hstr => ?_⟩
      by_cases hname : stream = name
      · subst hname
        refine (heither stream).elim (fun hsame => ?_) id
        obtain ⟨log, hlog⟩ := Option.isSome_iff_exists.1 hsome
        rw [hlog, ← hsame, hlog]
        rfl
      · exact hdone stream fun hmem => (List.mem_cons.1 hmem).elim hname hstr
    · have hlog : t.logs name = none := Option.not_isSome_iff_eq_none.1 hnone
      have hold : (s.logs name).getD [] = [] := by
        rcases heither name with hsame | hsame
        · rw [← hsame, hlog]
          rfl
        · rw [hsame] at hlog
          cases hlog
      have hafter : ∀ stream, (t.withLog name []).logs stream = t.logs stream ∨
          (t.withLog name []).logs stream = some ((s.logs stream).getD []) := by
        intro stream
        by_cases hname : stream = name
        · subst hname
          rw [SpoolStore.withLog_logs_self, hold]
          exact .inr rfl
        · exact .inl (SpoolStore.withLog_logs_of_ne t hname _)
      have heither' : ∀ stream, (t.withLog name []).logs stream = s.logs stream ∨
          (t.withLog name []).logs stream = some ((s.logs stream).getD []) := by
        intro stream
        rcases hafter stream with hsame | hnew
        · rw [hsame]
          exact heither stream
        · exact .inr hnew
      rw [wp_durably]
      refine ⟨h.congr hcap (funext fun stream => ?_), hcap, heither', fun stream hstr => ?_⟩
      · unfold SpoolStore.logSize
        rcases heither' stream with hsame | hnew
        · rw [hsame]
        · rw [hnew]
          rfl
      · by_cases hname : stream = name
        · subst hname
          rw [SpoolStore.withLog_logs_self, hold]
        · rw [SpoolStore.withLog_logs_of_ne t hname]
          exact hdone stream fun hmem => (List.mem_cons.1 hmem).elim hname hstr
  · obtain ⟨hcap, -, hdone⟩ := ht
    have hlogs : ∀ stream, t.logs stream = some ((s.logs stream).getD []) :=
      fun stream => hdone stream List.not_mem_nil
    refine ⟨h.congr hcap (funext fun stream => ?_), hcap, hlogs⟩
    unfold SpoolStore.logSize
    rw [hlogs]
    rfl
  · exact fun stream hstr => absurd (mem_logStreamNames stream) hstr

/-- **A call other than an append** keeps a spool explained wherever it stops. -/
theorem wp_otherCall {call : CaptureCall}
    (hcall : ∀ stream text, call ≠ .append stream text) (v : Unit) :
    wp (call.prog quotas) (Explained quotas) (fun _ t _ => Explained quotas t ∧ (call = .create →
        ∀ stream, t.logs stream = some ((s.logs stream).getD [])) ∧
        (call ≠ .create → t.logs = s.logs))
      (fun _ t _ => Explained quotas t ∧ call ≠ .create ∧ t.logs = s.logs) s v := by
  cases call with
  | create =>
    show wp (initializeSpool quotas) _ _ _ _ _
    unfold initializeSpool
    rw [wp_bind]
    refine wp_mono (wp_createLogs h v) (fun _ => id) (fun _ t w ht => ?_) (fun _ _ _ => False.elim)
    obtain ⟨hexplained, -, hlogs⟩ := ht
    rw [wp_bind]
    refine wp_mono (wp_loadCaptureState hexplained w) (fun _ h => h.1) (fun state u x hu => ?_)
      (fun _ _ _ => False.elim)
    obtain ⟨htally, -, hsame⟩ := hu
    rw [writeCaptureState, wp_durably]
    refine ⟨htally.explained, htally.explained, fun _ stream => ?_, fun hne => (hne rfl).elim⟩
    rw [SpoolStore.withCapture_logs, hsame, hlogs]
  | append stream text => exact (hcall stream text rfl).elim
  | mark stream =>
    show wp (markTruncationEventRecorded quotas stream) _ _ _ _ _
    unfold markTruncationEventRecorded
    rw [wp_bind]
    refine wp_mono (wp_loadCaptureState h v) (fun _ h => h.1) (fun state t w ht => ?_)
      (fun _ _ _ => False.elim)
    obtain ⟨htally, hexplained, hlogs⟩ := ht
    refine wp_require_then (fun htrunc => ?_) fun _ => ⟨hexplained, nofun, hlogs⟩
    have hmark := htally.withEventRecorded htrunc
    rw [writeCaptureState, wp_durably]
    exact ⟨hmark.explained, hmark.explained, nofun, fun _ => hlogs⟩
  | summary =>
    show wp (captureSummary quotas >>= fun _ => pure ()) _ _ _ _ _
    unfold captureSummary
    rw [wp_bind, wp_bind]
    refine wp_mono (wp_loadCaptureState h v) (fun _ h => h.1) (fun state t w ht => ?_)
      (fun _ _ _ => False.elim)
    obtain ⟨htally, hexplained, hlogs⟩ := ht
    rw [wp_pure, wp_pure]
    exact ⟨hexplained, nofun, fun _ => hlogs⟩

/-- **An append** keeps a spool explained unless it stops among the accepted bytes. -/
theorem explained_outside_append (stream : LogStreamName) (text : String) :
    ∀ t ∈ outside (beginAppend quotas stream text)
      (fun plan => writeAccepted plan.stream plan.accepted) (fun plan => finishAppend plan) s (),
      Explained quotas t := by
  refine wp_outside h (wp_mono (wp_beginAppend h stream text () (wp_trivial _)) (fun _ h => h.1)
    (fun plan t w ht => ?_) (fun _ _ _ => False.elim))
  obtain ⟨hann, -, rfl, -, -⟩ := ht
  refine ⟨hann.explained rfl (fun _ _ => rfl) (.inl rfl),
    wp_mono (wp_writeAccepted plan.stream plan.accepted t w) (fun _ => id) (fun _ u x hu => ?_)
      (fun _ _ _ _ => trivial)⟩
  obtain ⟨hcap, hothers, hlog, hsome⟩ := hu
  have hsizes : ∀ other, other ≠ plan.stream → u.logSize other = t.logSize other := by
    intro other hne
    unfold SpoolStore.logSize
    rw [hothers other hne]
  have hhere := logSize_append hlog hsome
  exact ⟨hann.explained hcap hsizes (.inr hhere),
    wp_mono (wp_finishAppend hann hsizes hhere x) (fun _ => id)
      (fun _ _ _ h => h.2.1 ▸ h.1.explained) (fun _ _ _ => False.elim)⟩

/-- **A call that does not stop among the accepted bytes** keeps a spool explained. -/
theorem explained_step {call : CaptureCall}
    (left : t ∈ call.haltsBesideBytes quotas s) : Explained quotas t := by
  have hother : (∀ stream text, call ≠ .append stream text) →
      ∀ t ∈ halts (call.prog quotas) s (), Explained quotas t := fun hcall =>
    wp_halts (wp_mono (wp_otherCall h hcall ()) (fun _ => id) (fun _ _ _ h => h.1)
      (fun _ _ _ h => h.1)) h
  cases call with
  | create | mark | summary => exact hother nofun t left
  | append stream text => exact explained_outside_append h stream text t left

end

/-- **Every spool of such a run is explained.** -/
theorem CaptureRun.explained (run : CaptureRun (CaptureCall.haltsBesideBytes quotas) s) :
    Explained quotas s := by
  induction run with
  | start => exact explained_empty
  | step _ _ left ih => exact explained_step ih left

/-! ### Runs without stops -/

/-- Calls that run to their ends, one after the other. -/
def runCapture (quotas : LogQuotas) : List CaptureCall → SpoolStore → SpoolStore
  | [], s => s
  | call :: calls, s => runCapture quotas calls (Prog.run (call.prog quotas) s ()).store

/-- The bytes that a stream still takes when the logs hold `texts`. -/
def textRoom (quotas : LogQuotas) (texts : LogStreamName → List Char) (stream : LogStreamName) :
    Nat :=
  min (quotas.maxBytesPerStream - (Utf8.encode (texts stream)).length)
    (quotas.maxBytesPerJob - sumStreams fun name => (Utf8.encode (texts name)).length)

/-- The part of a text that an append accepts when the logs hold `texts`. -/
def acceptedText (quotas : LogQuotas) (texts : LogStreamName → List Char) (stream : LogStreamName)
    (text : String) : List Char :=
  Utf8.fit (textRoom quotas texts stream) text.toList

/-- The texts of the logs after calls: the accepted texts, one after the other. -/
def acceptedTexts (quotas : LogQuotas) :
    List CaptureCall → (LogStreamName → List Char) → LogStreamName → List Char
  | [], texts => texts
  | .append stream text :: calls, texts =>
    acceptedTexts quotas calls (Function.update texts stream
      (texts stream ++ acceptedText quotas texts stream text))
  | .create :: calls, texts | .mark _ :: calls, texts | .summary :: calls, texts =>
    acceptedTexts quotas calls texts

/-- An explained spool whose logs hold `texts`. -/
structure HoldsTexts (quotas : LogQuotas) (s : SpoolStore) (texts : LogStreamName → List Char) :
    Prop where
  explained : Explained quotas s
  logs : ∀ stream, s.logs stream = some (Utf8.encode (texts stream))

theorem HoldsTexts.room_eq (h : HoldsTexts quotas s texts) (stream : LogStreamName) :
    s.room quotas stream = textRoom quotas texts stream := by
  have hsize : s.logSize = fun name => (Utf8.encode (texts name)).length := by
    funext name
    rw [SpoolStore.logSize, h.logs]
    rfl
  rw [SpoolStore.room, hsize, textRoom]

/-- What an append leaves behind that was announced by `plan`. -/
structure Appended (quotas : LogQuotas) (plan : AppendPlan) (texts : LogStreamName → List Char)
    (stream : LogStreamName) (text : String) (result : LogAppendResult) (t : SpoolStore) :
    Prop where
  holds : HoldsTexts quotas t (Function.update texts stream
    (texts stream ++ acceptedText quotas texts stream text))
  capture : t.capture = .document plan.settled.document
  tallied : Tallied quotas plan.settled t
  target : plan.stream = stream
  observed : plan.observedBytes = (Utf8.encode text.toList).length
  accepted : plan.accepted = Utf8.encode (acceptedText quotas texts stream text)
  returned : result.acceptedText = String.ofList (acceptedText quotas texts stream text)
  truncated : result.truncated = (plan.settled.streams stream).truncated
  required : result.truncationEventRequired = ((plan.settled.streams stream).truncated &&
    !(plan.settled.streams stream).truncationEventRecorded)

/-- **An append** adds the accepted text to its log, and to no other. -/
theorem wp_appendLog (h : HoldsTexts quotas s texts) (stream : LogStreamName) (text : String)
    (v : Unit)
    (hload : wp (loadCaptureState quotas) (fun _ => True) (fun state _ _ => P state) (fun _ _ _ => True) s v) :
    wp (appendLog quotas stream text) (fun _ => True)
      (fun result t _ => ∃ plan, P plan.state ∧ Appended quotas plan texts stream text result t)
      (fun _ _ _ => False) s v := by
  unfold appendLog
  rw [wp_bind]
  refine wp_mono (wp_beginAppend h.explained stream text v hload) (fun _ _ => trivial)
    (fun plan t w ht => ?_) (fun _ _ _ => id)
  obtain ⟨hann, hst, rfl, hobs, hlogs⟩ := ht
  rw [h.room_eq] at hann
  rw [wp_bind]
  refine wp_mono (wp_writeAccepted plan.stream plan.accepted t w) (fun _ => id)
    (fun _ u x hu => ?_) (fun _ _ _ hmiss => ?_)
  · obtain ⟨-, hothers, hlog, hsome⟩ := hu
    have hsizes : ∀ other, other ≠ plan.stream → u.logSize other = t.logSize other := by
      intro other hne
      unfold SpoolStore.logSize
      rw [hothers other hne]
    refine wp_mono (wp_finishAppend hann hsizes (logSize_append hlog hsome) x)
      (fun _ _ => trivial) (fun result y _ hy => ?_) (fun _ _ _ => id)
    obtain ⟨htally, rfl, htext, htrunc, hreq⟩ := hy
    have hsettled : Tallied quotas plan.settled (u.withCapture plan.settled) :=
      ⟨htally.balanced, htally.quiet, htally.sizes⟩
    refine ⟨plan, hst, ⟨htally.explained, fun other => ?_⟩, rfl, hsettled, rfl, hobs,
      hann.bytes, htext, htrunc, hreq⟩
    by_cases hother : other = plan.stream
    · subst hother
      rw [SpoolStore.withCapture_logs, hlog, hlogs, h.logs, Function.update_self, Option.map_some,
        hann.bytes, Utf8.encode_append]
      rfl
    · rw [SpoolStore.withCapture_logs, hothers other hother, hlogs, h.logs,
        Function.update_of_ne hother]
  · rw [hlogs, h.logs] at hmiss
    cases hmiss.2

/-- **A call that runs to its end** leaves the texts that are accepted. -/
theorem HoldsTexts.call {s : SpoolStore} {texts : LogStreamName → List Char}
    (h : HoldsTexts quotas s texts) (call : CaptureCall) :
    HoldsTexts quotas (Prog.run (call.prog quotas) s ()).store
      (acceptedTexts quotas [call] texts) := by
  have hother : (∀ stream text, call ≠ .append stream text) →
      HoldsTexts quotas (Prog.run (call.prog quotas) s ()).store texts := by
    intro hcall
    refine wp_store (I := fun t => HoldsTexts quotas t texts)
      (wp_mono (wp_otherCall h.explained hcall ()) (fun _ => id) (fun _ t _ ht => ?_)
        (fun _ t _ ht => ?_))
    · refine ⟨ht.1, fun stream => ?_⟩
      by_cases hcreate : call = .create
      · rw [ht.2.1 hcreate, h.logs]
        rfl
      · rw [ht.2.2 hcreate, h.logs]
    · exact ⟨ht.1, fun stream => by rw [ht.2.2, h.logs]⟩
  cases call with
  | create | mark | summary => exact hother nofun
  | append stream text =>
    refine wp_store (C := fun _ => True)
      (I := fun t => HoldsTexts quotas t (acceptedTexts quotas [.append stream text] texts)) ?_
    show wp (appendLog quotas stream text >>= fun _ => pure ()) _ _ _ s ()
    rw [wp_bind]
    refine wp_mono (wp_appendLog h stream text () (wp_trivial _)) (fun _ => id)
      (fun _ _ _ ht => ?_) (fun _ _ _ => False.elim)
    obtain ⟨_, -, happended⟩ := ht
    exact (wp_pure ()).2 happended.holds

theorem acceptedTexts_cons (call : CaptureCall) (calls : List CaptureCall)
    (texts : LogStreamName → List Char) :
    acceptedTexts quotas (call :: calls) texts =
      acceptedTexts quotas calls (acceptedTexts quotas [call] texts) := by
  cases call <;> rfl

/-- **Calls that run to their ends** leave the texts that are accepted. -/
theorem HoldsTexts.run (h : HoldsTexts quotas s texts) (calls : List CaptureCall) :
    HoldsTexts quotas (runCapture quotas calls s) (acceptedTexts quotas calls texts) := by
  induction calls generalizing s texts with
  | nil => exact h
  | cons call calls ih =>
    rw [runCapture, acceptedTexts_cons]
    exact ih (h.call call)

theorem holdsTexts_created :
    HoldsTexts quotas (Prog.run (CaptureCall.create.prog quotas) .empty ()).store fun _ => [] := by
  have hcreate : ∀ stream text, CaptureCall.create ≠ .append stream text := nofun
  refine wp_store (I := fun t => HoldsTexts quotas t fun _ => [])
    (wp_mono (wp_otherCall explained_empty hcreate ()) (fun _ => id)
      (fun _ t _ ht => ⟨ht.1, ht.2.1 rfl⟩) (fun _ _ _ ht => (ht.2.1 rfl).elim))

/-- **The accounting of log capture.**  In every run in which no append stops when some of its
accepted bytes are in the log and some are not, loading the capture state succeeds, and what it
returns accounts for every byte.  Without stops each log is the accepted texts, each the longest
prefix of whole characters that fits. -/
theorem log_capture_accounting (quotas : LogQuotas) :
    (∀ s, CaptureRun (CaptureCall.haltsBesideBytes quotas) s →
      ∃ state, ((loadCaptureState quotas).run s ()).result = .ok state ∧
        Accounts quotas state ((loadCaptureState quotas).run s ()).store) ∧
    (∀ calls stream, (runCapture quotas (.create :: calls) .empty).logs stream =
      some (Utf8.encode (acceptedTexts quotas calls (fun _ => []) stream))) ∧
    (∀ calls stream text, ∃ result,
      ((appendLog quotas stream text).run (runCapture quotas (.create :: calls) .empty) ()).result =
        .ok result ∧
      result.acceptedText = String.ofList
        (acceptedText quotas (acceptedTexts quotas calls fun _ => []) stream text)) ∧
    ∀ texts stream text, acceptedText quotas texts stream text <+: text.toList ∧
      (Utf8.encode (acceptedText quotas texts stream text)).length ≤ textRoom quotas texts stream ∧
      ∀ front, front <+: text.toList → (Utf8.encode front).length ≤ textRoom quotas texts stream →
        front <+: acceptedText quotas texts stream text := by
  refine ⟨fun s run => ?_, fun calls stream => ?_, fun calls stream text => ?_,
    fun texts stream text => ⟨?_, ?_, fun front hfront hlen => ?_⟩⟩
  · have hload := wp_loadCaptureState run.explained ()
    obtain ⟨state, hst⟩ := wp_ok hload
    exact ⟨state, hst, (wp_result hload hst).1.accounts⟩
  · exact (holdsTexts_created.run calls).logs stream
  · have hheld : HoldsTexts quotas (runCapture quotas (.create :: calls) .empty)
        (acceptedTexts quotas calls fun _ => []) := holdsTexts_created.run calls
    have happend := wp_appendLog hheld stream text () (wp_trivial _)
    obtain ⟨result, hres⟩ := wp_ok happend
    obtain ⟨_, -, happended⟩ := wp_result happend hres
    exact ⟨result, hres, happended.returned⟩
  · exact Utf8.fit_isPrefix _ _
  · exact Utf8.length_encode_fit _ _
  · exact Utf8.prefix_fit hfront hlen

/-- Quotas of eight and sixteen bytes. -/
def smallQuotas : LogQuotas := ⟨8, 16, by decide, by decide⟩

/-- The spool that calls leave when each ends at the given one of the places where it may stop. -/
def haltedCapture : List (CaptureCall × Nat) → SpoolStore → SpoolStore
  | [], s => s
  | (call, place) :: calls, s =>
    haltedCapture calls ((call.haltsBesideBytes smallQuotas s).getD place s)

theorem captureRun_haltedCapture (calls : List (CaptureCall × Nat)) {s : SpoolStore}
    (run : CaptureRun (CaptureCall.haltsBesideBytes smallQuotas) s) :
    CaptureRun (CaptureCall.haltsBesideBytes smallQuotas) (haltedCapture calls s) := by
  induction calls generalizing s with
  | nil => exact run
  | cons call calls ih =>
    refine ih (run.step call.1 ?_)
    rw [List.getD_eq_getElem?_getD]
    rcases hget : (call.1.haltsBesideBytes smallQuotas s)[call.2]? with _ | t
    · rcases call.1 with _ | _ | _ | _ <;> exact .head _
    · exact List.mem_of_getElem? hget

/-- Eleven bytes for a stream of eight, of which whole characters are kept; an append that stops
before its first byte; the mark of the truncation; and an append that stops after its last byte. -/
def truncatedSpool : SpoolStore :=
  haltedCapture [(.create, 5), (.append .stdout "ab€€€", 5), (.append .stderr "lost", 1),
    (.mark .stdout, 2), (.append .stderr "xyz", 3)] .empty

/-- The next load accounts for the truncated stream and for both stops. -/
theorem log_capture_accounting_truncated :
    (∃ state, ((loadCaptureState smallQuotas).run truncatedSpool ()).result = .ok state ∧
      Accounts smallQuotas state ((loadCaptureState smallQuotas).run truncatedSpool ()).store) ∧
    ((loadCaptureState smallQuotas).run truncatedSpool ()).result.toOption.map (fun state =>
        [state.streams .stdout, state.streams .stderr]) =
      some [⟨11, 8, 3, true, true⟩, ⟨7, 3, 4, true, false⟩] :=
  ⟨(log_capture_accounting smallQuotas).1 _ (captureRun_haltedCapture _ .start), by decide +kernel⟩

/-- The spool that an append of `ok` leaves when it stops after one of its two bytes. -/
def interruptedSpool : SpoolStore :=
  Prog.stopped ((CaptureCall.append .stdout "ok").prog smallQuotas) 2
    (Prog.stopped (CaptureCall.create.prog smallQuotas) 5 .empty ()) ()

theorem interruptedSpool_fails :
    ((loadCaptureState smallQuotas).run interruptedSpool ()).result.isOk = false := by
  decide +kernel

/-- **An append that stops among its accepted bytes** leaves a spool whose state no later load
accepts. -/
theorem log_capture_not_recovered :
    ¬ ∀ quotas s, CaptureRun (CaptureCall.halts quotas) s →
      ∃ state, ((loadCaptureState quotas).run s ()).result = .ok state := by
  intro h
  obtain ⟨state, hst⟩ := h smallQuotas interruptedSpool
    (.step (.step .start .create (stopped_mem_halts _ 5 _ _)) (.append .stdout "ok")
      (stopped_mem_halts _ 2 _ _))
  have hfails := interruptedSpool_fails
  rw [hst] at hfails
  cases hfails

end ClioQueue
