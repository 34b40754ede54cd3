/-
# The event logs over whole runs

A history is the sequence of stores that the queue passes through, those between two
durable writes of one call included: a reader takes no lock, so each of its reads may see
any of them.  Along every history each log is the sequences from 1 to its length, later
stores keep the events of earlier ones, and a reader that drains page after page misses
nothing and sees nothing twice.
-/

import ClioQueue.EventLogOperations
import ClioQueue.GlobalPaging
import ClioQueue.LeaseRuns

namespace ClioQueue

open Durable

/-! ### Calls -/

/-- The operations that append events, and the replay of the journal. -/
inductive EventCall where
  | appendEvent (jobId : DurableRecordId) (eventType message : String) (payload : Dict)
  | appendTaskEvent (event : TaskTimelineEvent)
  | lease (call : LeaseCall)
  | updateJobState (jobId : DurableRecordId) (state : JobState) (update : StateUpdate)
  | updateJobMetadata (jobId : DurableRecordId) (metadata : Dict)
  | cancelJobIfActive (jobId : DurableRecordId) (cancelScheduler : Bool)
      (expectedState : Option JobState) (expectedUpdatedAt : Option Time)
  | acknowledgeJobCancellation (jobId : DurableRecordId)
  | appendTask (task : RelayTask)
  | updateTaskState (taskId : DurableRecordId) (state : JobState) (message : Option String)
      (metadata : Dict)
  | updateTaskMetadata (taskId : DurableRecordId) (metadata : Dict)
  | appendArtifact (artifact : ArtifactRef)
  | appendProgress (progress : ProgressRecord)
  | beginInputIngest (jobId attemptId : DurableRecordId)
      (policy : Option InputArtifactIngestPolicy)
  | failInputIngest (jobId attemptId : DurableRecordId) (error : String)
  | recoverAbandonedInputIngests (cluster : String) (staleBefore : Option Time) (limit : Int)
  | reconcileInputArtifact (artifact : ArtifactRef) (attemptId : Option DurableRecordId)
  | completeInputIngest (jobId : DurableRecordId) (attemptId : Option DurableRecordId)
  | reconcilePendingTransitions

section

variable [Platform] [Entropy]

/-- The program of a call, its result dropped. -/
def EventCall.prog : EventCall → Op Unit
  | .appendEvent jobId eventType message payload =>
    ClioQueue.appendEvent jobId eventType message payload >>= fun _ => pure ()
  | .appendTaskEvent event => ClioQueue.appendTaskEvent event >>= fun _ => pure ()
  | .lease call => call.prog
  | .updateJobState jobId state update =>
    ClioQueue.updateJobState jobId state update >>= fun _ => pure ()
  | .updateJobMetadata jobId metadata =>
    ClioQueue.updateJobMetadata jobId metadata >>= fun _ => pure ()
  | .cancelJobIfActive jobId cancelScheduler expectedState expectedUpdatedAt =>
    ClioQueue.cancelJobIfActive jobId cancelScheduler expectedState expectedUpdatedAt >>=
      fun _ => pure ()
  | .acknowledgeJobCancellation jobId =>
    ClioQueue.acknowledgeJobCancellation jobId >>= fun _ => pure ()
  | .appendTask task => ClioQueue.appendTask task >>= fun _ => pure ()
  | .updateTaskState taskId state message metadata =>
    ClioQueue.updateTaskState taskId state message metadata >>= fun _ => pure ()
  | .updateTaskMetadata taskId metadata =>
    ClioQueue.updateTaskMetadata taskId metadata >>= fun _ => pure ()
  | .appendArtifact artifact => ClioQueue.appendArtifact artifact >>= fun _ => pure ()
  | .appendProgress progress => ClioQueue.appendProgress progress >>= fun _ => pure ()
  | .beginInputIngest jobId attemptId policy =>
    ClioQueue.beginInputIngest jobId attemptId policy >>= fun _ => pure ()
  | .failInputIngest jobId attemptId error =>
    ClioQueue.failInputIngest jobId attemptId error >>= fun _ => pure ()
  | .recoverAbandonedInputIngests cluster staleBefore limit =>
    ClioQueue.recoverAbandonedInputIngests cluster staleBefore limit >>= fun _ => pure ()
  | .reconcileInputArtifact artifact attemptId =>
    ClioQueue.reconcileInputArtifact artifact attemptId >>= fun _ => pure ()
  | .completeInputIngest jobId attemptId =>
    ClioQueue.completeInputIngest jobId attemptId >>= fun _ => pure ()
  | .reconcilePendingTransitions => recoverPendingTransitions

/-- No lease call writes an event log but by appending to it; one case for each call. -/
theorem LeaseCall.logged_prog (call : LeaseCall) : Logged call.prog := by
  cases call with
  | submitJob job => exact .bind (logged_submitJob job) fun _ => .pure _
  | acquireNextJob args lane => exact .bind (logged_acquireNextJob args lane) fun _ => .pure _
  | acquireJob jobId args => exact .bind (logged_acquireJob jobId args) fun _ => .pure _
  | submitAndAcquireJob job args =>
    exact .bind (logged_submitAndAcquireJob job args) fun _ => .pure _
  | renewLease => exact .bind (logged_renewLease ..) fun _ => .pure _
  | releaseLease leaseId => exact .bind (logged_releaseLease leaseId) fun _ => .pure _
  | recoverStaleJobs cluster maxAttempts =>
    exact .bind (logged_recoverStaleJobs cluster maxAttempts) fun _ => .pure _
  | recoverStaleJob jobId cluster maxAttempts =>
    exact .bind (logged_recoverStaleJob jobId cluster maxAttempts) fun _ => .pure _
  | repairLeaseOperationalIndexes limit =>
    exact .bind (logged_repairLeaseOperationalIndexes limit) fun _ => .pure _

/-- **Every call keeps the logs**, wherever it stops. -/
theorem EventCall.logged_prog (call : EventCall) : Logged call.prog := by
  cases call with
  | appendEvent =>
    exact .bind (logged_appendEvent ..) fun _ => .pure _
  | appendTaskEvent event => exact .bind (logged_appendTaskEvent event) fun _ => .pure _
  | lease call => exact call.logged_prog
  | updateJobState => exact .bind (logged_updateJobState ..) fun _ => .pure _
  | updateJobMetadata =>
    exact .bind (logged_updateJobMetadata ..) fun _ => .pure _
  | cancelJobIfActive =>
    exact .bind (logged_cancelJobIfActive ..) fun _ => .pure _
  | acknowledgeJobCancellation jobId =>
    exact .bind (logged_acknowledgeJobCancellation jobId) fun _ => .pure _
  | appendTask task => exact .bind (logged_appendTask task) fun _ => .pure _
  | updateTaskState =>
    exact .bind (logged_updateTaskState ..) fun _ => .pure _
  | updateTaskMetadata =>
    exact .bind (logged_updateTaskMetadata ..) fun _ => .pure _
  | appendArtifact artifact => exact .bind (logged_appendArtifact artifact) fun _ => .pure _
  | appendProgress progress => exact .bind (logged_appendProgress progress) fun _ => .pure _
  | beginInputIngest =>
    exact .bind (logged_beginInputIngest ..) fun _ => .pure _
  | failInputIngest =>
    exact .bind (logged_failInputIngest ..) fun _ => .pure _
  | recoverAbandonedInputIngests =>
    exact .bind (logged_recoverAbandonedInputIngests ..) fun _ => .pure _
  | reconcileInputArtifact =>
    exact .bind (logged_reconcileInputArtifact ..) fun _ => .pure _
  | completeInputIngest =>
    exact .bind (logged_completeInputIngest ..) fun _ => .pure _
  | reconcilePendingTransitions => exact logged_recoverPendingTransitions

end

/-! ### Histories -/

section

variable [Platform]

/-- The stores of a run: calls that stop after any number of durable writes or run to their end,
and changes beside the logs. -/
inductive EventHistory : List Store → Prop
  | start {s : Store} (h : InitializedQueue s) : EventHistory [s]
  | call {past : List Store} {s : Store} (entropy : Entropy) (call : EventCall) (v : Supply)
      (writes : Nat) (h : EventHistory (past ++ [s])) :
      EventHistory (past ++ (call.prog.halts s v).take (writes + 1))
  | beside {past : List Store} {s t : Store} (h : EventHistory (past ++ [s]))
      (hst : BesideLogs s t) : EventHistory (past ++ [s, t])

omit [Platform] in
theorem InitializedQueue.logOk {s : Store} (h : InitializedQueue s) : LogOk s := by
  have hnone : ∀ p, logFile p → s.read p = none := by
    intro p hp
    refine h.empty p (fun hcap => ?_) ?_
    · cases p <;> first | exact hp | exact hcap
    · rintro rfl
      exact hp
  refine ⟨fun id k event he => ?_, fun id k he => ?_, fun id index he => ?_,
    fun key intent he => ?_⟩
  all_goals
    rw [hnone _ (by trivial)] at he
    cases he

omit [Platform] in
/-- A history that ends in `s` goes on with stores that grow from `s`. -/
theorem pairwise_continue {past next : List Store} {s : Store}
    (h : (past ++ [s]).Pairwise LogGrows) (hnext : next.Pairwise LogGrows)
    (hgrow : ∀ t ∈ next, LogGrows s t) : (past ++ next).Pairwise LogGrows := by
  rw [List.pairwise_append] at h ⊢
  refine ⟨h.1, hnext, fun x hx y hy => ?_⟩
  exact LogGrows.trans x s y (h.2.2 x hx s (List.mem_singleton_self s)) (hgrow y hy)

/-- **Along a history the logs are kept, and only grow.** -/
theorem EventHistory.kept {H : List Store} (h : EventHistory H) :
    (∀ s ∈ H, LogOk s) ∧ H.Pairwise LogGrows := by
  induction h with
  | start h =>
    refine ⟨fun s hs => ?_, List.pairwise_singleton ..⟩
    rw [List.mem_singleton.1 hs]
    exact h.logOk
  | @call past s entropy call v writes h ih =>
    have hs : LogOk s := ih.1 s (List.mem_append_right _ (List.mem_singleton_self s))
    have hcall := call.logged_prog.maintains s v hs
    have hmem : ∀ t ∈ (call.prog.halts s v).take (writes + 1), LogOk t ∧ LogGrows s t :=
      fun t ht => hcall.halts LogGrows.refl t (List.mem_of_mem_take ht)
    refine ⟨fun t ht => ?_, pairwise_continue ih.2 (hcall.2.sublist (List.take_sublist ..))
      fun t ht => (hmem t ht).2⟩
    rcases List.mem_append.1 ht with ht | ht
    · exact ih.1 t (List.mem_append_left _ ht)
    · exact (hmem t ht).1
  | @beside past s t h hst ih =>
    have hs : LogOk s := ih.1 s (List.mem_append_right _ (List.mem_singleton_self s))
    refine ⟨fun u hu => ?_, pairwise_continue ih.2 (by simp [hst.grows]) fun u hu => ?_⟩
    · rcases List.mem_append.1 hu with hu | hu
      · exact ih.1 u (List.mem_append_left _ hu)
      · rcases List.mem_pair.1 hu with rfl | rfl
        · exact hs
        · exact hs.beside hst
    · rcases List.mem_pair.1 hu with rfl | rfl
      · exact LogGrows.refl _
      · exact hst.grows

end

/-! ### Pages -/

/-- **What one page returns**: the events from its cursor on, each as its file holds it, up to
the limit or the first missing one. -/
theorem readEventsFrom_eq {view : Nat → Store} {jobId : DurableRecordId} :
    ∀ {left candidate : Nat} {events : List RelayEvent} {next : Nat},
      readEventsFrom view jobId left candidate = .ok (events, next) →
        next = candidate + events.length ∧ events.length ≤ left ∧
          events.map RelayEvent.seq = List.range' candidate events.length ∧
          (∀ event ∈ events, (view event.seq).read (.event jobId event.seq) = some event) ∧
          (events.length < left → (view next).read (.event jobId next) = none)
  | 0, candidate, events, next, h => by
      cases h
      simp
  | left + 1, candidate, events, next, h => by
      unfold readEventsFrom at h
      rcases hread : (view candidate).read (.event jobId candidate) with _ | event
      · rw [hread] at h
        cases h
        simpa using hread
      · rw [hread] at h
        dsimp only at h
        rcases haccess : validateLegacyOutputEventAccess event with e | ⟨⟩
        · rw [haccess] at h
          cases h
        rw [haccess, except_ok_bind] at h
        split at h
        · next hname =>
            rcases hpage : readEventsFrom view jobId left (candidate + 1) with e | page
            · rw [hpage] at h
              cases h
            · rw [hpage, except_ok_bind] at h
              cases h
              obtain ⟨hnext, _, hseqs, hstored, hshort⟩ := readEventsFrom_eq hpage
              refine ⟨?_, ?_, ?_, ?_, ?_⟩
              · rw [hnext, List.length_cons]
                omega
              · rw [List.length_cons]
                omega
              · rw [List.map_cons, List.length_cons, List.range'_succ, hseqs, hname.2]
              · intro other hother
                rcases List.mem_cons.1 hother with rfl | hother
                · rwa [hname.2]
                · exact hstored other hother
              · intro hlt
                rw [List.length_cons] at hlt
                exact hshort (by omega)
        · cases h

/-- A page over sound logs does not raise, unless it comes to an event with the reserved key. -/
theorem readEventsFrom_ok {view : Nat → Store} (hview : ∀ k, LogOk (view k))
    (jobId : DurableRecordId) :
    ∀ left candidate, (∀ k event, candidate ≤ k → k < candidate + left →
      (view k).read (.event jobId k) = some event → event.payload.has "legacy_output" = false) →
        ∃ page, readEventsFrom view jobId left candidate = .ok page
  | 0, candidate, _ => ⟨_, rfl⟩
  | left + 1, candidate, hfree => by
      unfold readEventsFrom
      rcases hread : (view candidate).read (.event jobId candidate) with _ | event
      · exact ⟨_, rfl⟩
      · obtain ⟨hjob, hseq, -⟩ := (hview candidate).named jobId candidate event hread
        obtain ⟨page, hpage⟩ := readEventsFrom_ok hview jobId left (candidate + 1)
          fun k event hle hlt => hfree k event (by omega) (by omega)
        have haccess := validateLegacyOutputEventAccess_ok.2
          (hfree candidate event le_rfl (by omega) hread)
        refine ⟨(event :: page.1, page.2), ?_⟩
        dsimp only
        rw [haccess, except_ok_bind, if_pos ⟨hjob, hseq⟩, hpage]
        rfl

/-! ### Draining -/

/-- A reader drains page after page along a history: `Drained H i cursor limits events last` says
that from the moment `i` on, pages of the given limits have returned `events` and have moved the
cursor to `last`.  Each read of a page sees the store of its moment, and moments do not go
back. -/
inductive Drained (H : List Store) :
    Fin H.length → Cursor → List Int → List RelayEvent → Cursor → Prop
  | stop (i : Fin H.length) (cursor : Cursor) : Drained H i cursor [] [] cursor
  | page {i j : Fin H.length} {cursor next last : Cursor} {limit : Int} {limits : List Int}
      {events rest : List RelayEvent} (moment : Nat → Fin H.length)
      (hafter : ∀ k, i ≤ moment k) (hbefore : ∀ k, moment k ≤ j)
      (hpage : drainEvents (fun k => H.get (moment k)) cursor limit = .ok (events, next))
      (hrest : Drained H j next limits rest last) :
      Drained H i cursor (limit :: limits) (events ++ rest) last

theorem drainEvents_eq {view : Nat → Store} {cursor next : Cursor} {limit : Int}
    {events : List RelayEvent} (h : drainEvents view cursor limit = .ok (events, next)) :
    1 ≤ cursor.nextSeq ∧ 1 ≤ limit ∧ next = ⟨cursor.jobId, cursor.nextSeq + events.length⟩ ∧
      events.map RelayEvent.seq = List.range' cursor.nextSeq events.length ∧
      (∀ event ∈ events, (view event.seq).read (.event cursor.jobId event.seq) = some event) ∧
      ((events.length : Int) < limit →
        (view next.nextSeq).read (.event cursor.jobId next.nextSeq) = none) := by
  unfold drainEvents readEventPage at h
  split at h
  · cases h
  · next hcursor =>
      split at h
      · cases h
      · next hlim =>
          rw [Int.toNat_natCast] at h
          rcases hpage : readEventsFrom view cursor.jobId limit.toNat cursor.nextSeq with e | _
          · rw [hpage] at h
            cases h
          · rw [hpage, except_ok_bind] at h
            cases h
            obtain ⟨hnext, _, hseqs, hstored, hshort⟩ := readEventsFrom_eq hpage
            refine ⟨by omega, by omega, ?_, hseqs, hstored, fun hlt => hshort (by omega)⟩
            rw [hnext]

/-- **A drain returns every event once, in order.** -/
theorem Drained.holds {H : List Store} (hok : ∀ s ∈ H, LogOk s) (hgrow : H.Pairwise LogGrows)
    {i : Fin H.length} {cursor last : Cursor} {limits : List Int} {events : List RelayEvent}
    (h : Drained H i cursor limits events last) :
    last = ⟨cursor.jobId, cursor.nextSeq + events.length⟩ ∧
      events.map RelayEvent.seq = List.range' cursor.nextSeq events.length ∧
      (∀ event ∈ events, ∃ s ∈ H, s.read (.event cursor.jobId event.seq) = some event) ∧
      ∀ k event, (H.get i).read (.event cursor.jobId k) = some event → cursor.nextSeq ≤ k →
        (k : Int) < cursor.nextSeq + limits.sum → event ∈ events := by
  -- the stores of later moments keep the events of earlier ones
  have hlater : ∀ {i j : Fin H.length}, i ≤ j → LogGrows (H.get i) (H.get j) := by
    intro i j hij
    rcases lt_or_eq_of_le hij with hlt | rfl
    · exact List.pairwise_iff_get.1 hgrow i j hlt
    · exact LogGrows.refl _
  induction h with
  | stop =>
    refine ⟨rfl, rfl, by simp, fun k event _ hle hlt => ?_⟩
    simp only [List.sum_nil] at hlt
    omega
  | @page i j cursor next last limit limits events rest moment hafter hbefore hpage hrest ih =>
    obtain ⟨_, _, rfl, hseqs, hstored, hshort⟩ := drainEvents_eq hpage
    obtain ⟨hlast, hseqs', hstored', hall⟩ := ih
    refine ⟨?_, ?_, ?_, ?_⟩
    · rw [hlast, List.length_append]
      simp only [Nat.add_assoc]
    · rw [List.map_append, hseqs, hseqs', List.length_append, List.range'_append_1]
    · intro event hev
      rcases List.mem_append.1 hev with hev | hev
      · exact ⟨_, List.get_mem .., hstored event hev⟩
      · exact hstored' event hev
    · intro k event hread hle hlt
      by_cases hin : k < cursor.nextSeq + events.length
      · -- the page has passed `k`, and has returned what its file holds
        have hk : k ∈ events.map RelayEvent.seq := by
          rw [hseqs, List.mem_range'_1]
          omega
        obtain ⟨found, hfound, rfl⟩ := List.mem_map.1 hk
        have hsame := hstored found hfound
        rw [hlater (hafter found.seq) _ _ _ hread] at hsame
        cases hsame
        exact List.mem_append_left _ hfound
      · refine List.mem_append_right _ (hall k event (hlater ?_ _ _ _ hread) (by simpa using hin) ?_)
        · exact (hafter 0).trans (hbefore 0)
        · -- a short page would have met a gap before `k`
          have hfull : ¬ (events.length : Int) < limit := by
            intro hlt'
            have hnone := hshort hlt'
            have hpres : ((H.get i).read (.event cursor.jobId
                (cursor.nextSeq + events.length))).isSome := by
              rcases Nat.lt_or_ge (cursor.nextSeq + events.length) k with h | h
              · exact (hok _ (List.get_mem ..)).closed cursor.jobId k
                  (by rw [hread]; rfl) _ (by omega) h
              · obtain rfl : k = cursor.nextSeq + events.length := by omega
                rw [hread]
                rfl
            have := (hlater (hafter (cursor.nextSeq + events.length))).isSome hpres
            rw [hnone] at this
            cases this
          simp only [List.sum_cons] at hlt
          push_cast at hlt ⊢
          omega

section

variable [Platform]

/-- **The event logs are append-only and gap-free.**  Along every history the log of a job is the
sequences from 1 to its length and later stores hold the events of earlier ones unchanged; a
valid page raises only when it comes to an event with the reserved key `legacy_output`, and pages
of any limits, read at any moments of the history, return events in the order of their sequences
from the cursor on, each as it is stored, and none that is in the log when they begin is missing. -/
theorem event_logs_append_only {H : List Store} (hH : EventHistory H) :
    (∀ s ∈ H, ∀ jobId, ∃ n, ∀ k, (s.read (.event jobId k)).isSome ↔ 1 ≤ k ∧ k ≤ n) ∧
      H.Pairwise LogGrows ∧
      (∀ (moment : Nat → Fin H.length) (cursor : Cursor) (limit : Int), 1 ≤ cursor.nextSeq →
        1 ≤ limit → (∀ k event, cursor.nextSeq ≤ k → (k : Int) < cursor.nextSeq + limit →
          (H.get (moment k)).read (.event cursor.jobId k) = some event →
            event.payload.has "legacy_output" = false) →
        ∃ page, drainEvents (fun k => H.get (moment k)) cursor limit = .ok page) ∧
      ∀ i cursor limits events last, Drained H i cursor limits events last →
        last = ⟨cursor.jobId, cursor.nextSeq + events.length⟩ ∧
          events.map RelayEvent.seq = List.range' cursor.nextSeq events.length ∧
          (∀ event ∈ events, ∃ s ∈ H, s.read (.event cursor.jobId event.seq) = some event) ∧
          ∀ k event, (H.get i).read (.event cursor.jobId k) = some event →
            cursor.nextSeq ≤ k → (k : Int) < cursor.nextSeq + limits.sum → event ∈ events := by
  obtain ⟨hok, hgrow⟩ := hH.kept
  refine ⟨fun s hs jobId => (hok s hs).exact jobId, hgrow,
    fun moment cursor limit hcursor hlim hfree => ?_,
    fun i cursor limits events last h => h.holds hok hgrow⟩
  obtain ⟨page, hpage⟩ := readEventsFrom_ok (fun k => hok _ (List.get_mem H (moment k)))
    cursor.jobId limit.toNat cursor.nextSeq fun k event hle hlt => hfree k event hle (by omega)
  refine ⟨(page.1, ⟨cursor.jobId, page.2⟩), ?_⟩
  unfold drainEvents readEventPage
  rw [if_neg (by omega), if_neg (by omega), Int.toNat_natCast, hpage]
  rfl

end

/-! ### Sample histories -/

/-- The call that the sample histories repeat. -/
def sampleAppend (payload : Dict) : Op Unit :=
  @EventCall.prog samplePlatform sampleEntropy (.appendEvent sampleJob.jobId "note" "Note" payload)

/-- A history goes on with a whole call. -/
theorem eventHistory_sampleAppend (payload : Dict) (past : List Store) {s : Store}
    (h : @EventHistory samplePlatform (past ++ [s])) :
    @EventHistory samplePlatform (past ++ (sampleAppend payload).halts s sampleSupply) := by
  let := samplePlatform
  have htaken : EventHistory (past ++ ((sampleAppend payload).halts s sampleSupply).take
      (((sampleAppend payload).halts s sampleSupply).length + 1)) :=
    .call sampleEntropy (.appendEvent sampleJob.jobId "note" "Note" payload) sampleSupply _ h
  rwa [List.take_of_length_le (Nat.le_succ _)] at htaken

/-- An event is appended whose payload has the reserved key. -/
def reservedEventHistory : List Store :=
  (sampleAppend [("legacy_output", .str "x")]).halts sampleInitialized sampleSupply

/-- **An event with the reserved key** is appended, and no page that begins with it can be read. -/
theorem reserved_event_never_drained :
    ¬ ∀ H : List Store, @EventHistory samplePlatform H →
    ∀ (moment : Nat → Fin H.length) (cursor : Cursor) (limit : Int), 1 ≤ cursor.nextSeq →
      1 ≤ limit → ∃ page, drainEvents (fun k => H.get (moment k)) cursor limit = .ok page := by
  intro h
  obtain ⟨page, hpage⟩ := h reservedEventHistory (eventHistory_sampleAppend _ []
    (@EventHistory.start samplePlatform _ initializedQueue_sample)) (fun _ => ⟨2, by decide +kernel⟩)
    ⟨sampleJob.jobId, 1⟩ 1 le_rfl le_rfl
  have hraises : (drainEvents (fun _ => reservedEventHistory.get ⟨2, by decide +kernel⟩)
      ⟨sampleJob.jobId, 1⟩ 1).isOk = false := by decide +kernel
  rw [hpage] at hraises
  cases hraises

/-- Two events are appended in turn. -/
def sampleEventHistory : List Store :=
  (sampleInitialized :: ((sampleAppend []).run sampleInitialized sampleSupply).trail) ++
    (sampleAppend []).halts ((sampleAppend []).run sampleInitialized sampleSupply).store sampleSupply

/-- Pages of one and of five events drain the two events of the sample history. -/
theorem event_logs_append_only_sample :
    ∃ (i : Fin sampleEventHistory.length) (events : List RelayEvent) (last : Cursor),
      Drained sampleEventHistory i ⟨sampleJob.jobId, 1⟩ [1, 5] events last ∧
        events.map RelayEvent.seq = List.range' 1 events.length ∧
        (∃ event ∈ events, event.seq = 2) := by
  let := samplePlatform
  have hH : EventHistory sampleEventHistory :=
    eventHistory_sampleAppend [] _ (eventHistory_sampleAppend [] []
      (.start initializedQueue_sample))
  obtain ⟨hexact, -, hpages, hdrains⟩ := event_logs_append_only hH
  let i : Fin sampleEventHistory.length := ⟨4, by decide +kernel⟩
  -- the two events, and no third one, are in the log that the pages read
  obtain ⟨htwo, hthree, hfree⟩ : ((sampleEventHistory.get i).read (.event sampleJob.jobId 2)).map
        RelayEvent.seq = some 2 ∧
      ((sampleEventHistory.get i).read (.event sampleJob.jobId 3)).isSome = false ∧
      ∀ k < 3, ((sampleEventHistory.get i).read (.event sampleJob.jobId k)).all
        fun event => !event.payload.has "legacy_output" := by
    decide +kernel
  have hfree' : ∀ k event, (sampleEventHistory.get i).read (.event sampleJob.jobId k) =
      some event → event.payload.has "legacy_output" = false := by
    intro k event hread
    obtain ⟨n, hn⟩ := hexact _ (List.get_mem sampleEventHistory i) sampleJob.jobId
    have hle := (hn k).1 (by rw [hread]; rfl)
    have hlast : ¬ 3 ≤ n := fun h => by
      rw [(hn 3).2 ⟨by omega, h⟩] at hthree
      cases hthree
    have hall := hfree k (by omega)
    rw [hread] at hall
    simpa using hall
  obtain ⟨event, hev, hseq⟩ := Option.map_eq_some_iff.1 htwo
  obtain ⟨⟨events, next⟩, hpage⟩ := hpages (fun _ => i) ⟨sampleJob.jobId, 1⟩ 1 le_rfl le_rfl
    fun k event _ _ => hfree' k event
  have hnext : next = ⟨sampleJob.jobId, 1 + events.length⟩ := (drainEvents_eq hpage).2.2.1
  obtain ⟨⟨rest, last⟩, hpage'⟩ := hpages (fun _ => i) next 5
    (by rw [hnext]; exact Nat.le_add_right ..) (by decide)
    fun k event _ _ hread => hfree' k event (by rwa [hnext] at hread)
  have hdrained : Drained sampleEventHistory i ⟨sampleJob.jobId, 1⟩ [1, 5] (events ++ (rest ++ []))
      last :=
    .page (fun _ => i) (fun _ => le_rfl) (fun _ => le_rfl) hpage
      (.page (fun _ => i) (fun _ => le_rfl) (fun _ => le_rfl) hpage' (.stop i last))
  obtain ⟨-, hseqs, -, hall⟩ := hdrains _ _ _ _ _ hdrained
  exact ⟨i, _, last, hdrained, hseqs, event, hall 2 event hev (by decide) (by decide), hseq⟩

end ClioQueue
