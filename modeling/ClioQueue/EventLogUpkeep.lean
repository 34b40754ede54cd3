/-
# What keeps the event logs

A log is allocated by two rules: `append_event` takes the first free sequence after a
head that may lag behind the files, and a recovery writes its event under a sequence
that was pinned in an intent before.  Both keep every log an initial segment of the
sequences, because a pinned sequence never lies behind a gap (`LogOk.pinned`), and
neither replaces an event, because the pinned one is compared with what the file holds.
-/

import Mathlib.Data.Finset.Preimage
import Mathlib.Data.Fintype.EquivFin
import ClioQueue.Durable.Growth
import ClioQueue.InputIngest
import ClioQueue.SubmissionStages

namespace ClioQueue

variable {jobId : DurableRecordId} {seq : Nat} {s t : Store}

open Durable Durable.Prog Durable.Files

/-- Every sequence of the log below `seq` has an event. -/
def EventsBelow (s : Store) (jobId : DurableRecordId) (seq : Nat) : Prop :=
  ∀ k, 1 ≤ k → k < seq → (s.read (.event jobId k)).isSome

/-- The event of a recovery intent does not lie behind a gap. -/
def TransitionIntent.Pinned (s : Store) : TransitionIntent → Prop
  | .staleLeaseRecovery _ _ _ event _ => EventsBelow s event.jobId event.seq
  | _ => True

/-- The event logs: every event carries its file name, no log has a gap, no head is ahead of
its log and no pinned sequence lies behind a gap. -/
structure LogOk (s : Store) : Prop where
  named : ∀ jobId k event, s.read (.event jobId k) = some event →
    event.jobId = jobId ∧ event.seq = k ∧ 1 ≤ k
  closed : ∀ jobId k, (s.read (.event jobId k)).isSome → EventsBelow s jobId k
  head : ∀ jobId index, s.read (.jobIndex jobId) = some index →
    EventsBelow s jobId (index.latestEventSeq + 1)
  pinned : ∀ key intent, s.read (.intent key) = some intent → intent.Pinned s

/-- Every event of `s` is unchanged in `t`. -/
def LogGrows (s t : Store) : Prop :=
  ∀ jobId k event, s.read (.event jobId k) = some event → t.read (.event jobId k) = some event

theorem LogGrows.refl (s : Store) : LogGrows s s := fun _ _ _ h => h

theorem LogGrows.trans (s t u : Store) (h : LogGrows s t) (h' : LogGrows t u) : LogGrows s u :=
  fun jobId k event hev => h' jobId k event (h jobId k event hev)

theorem LogGrows.isSome (h : LogGrows s t) {k : Nat} (hs : (s.read (.event jobId k)).isSome) :
    (t.read (.event jobId k)).isSome := by
  obtain ⟨event, hev⟩ := Option.isSome_iff_exists.1 hs
  rw [h jobId k event hev]
  rfl

theorem EventsBelow.grow (h : EventsBelow s jobId seq) (hst : LogGrows s t) :
    EventsBelow t jobId seq :=
  fun k hk hlt => hst.isSome (h k hk hlt)

theorem TransitionIntent.Pinned.grow {intent : TransitionIntent} (h : intent.Pinned s)
    (hst : LogGrows s t) : intent.Pinned t := by
  cases intent with
  | staleLeaseRecovery => exact EventsBelow.grow h hst
  | _ => trivial

/-- A log is the sequences from 1 to its length. -/
theorem LogOk.exact (h : LogOk s) (jobId : DurableRecordId) :
    ∃ n, ∀ k, (s.read (.event jobId k)).isSome ↔ 1 ≤ k ∧ k ≤ n := by
  classical
  have hmiss : ∃ k, (s.read (.event jobId (k + 1))).isSome = false := by
    obtain ⟨k, hk⟩ := Infinite.exists_notMem_finset
      ((s.having fun _ _ => true).preimage (fun k : Nat => Path.event jobId (k + 1))
        (by intro a _ b _ hab; injection hab with _ hab; omega))
    refine ⟨k, Bool.eq_false_iff.2 fun hsome => hk ?_⟩
    obtain ⟨event, hev⟩ := Option.isSome_iff_exists.1 hsome
    exact Finset.mem_preimage.2 (Files.mem_having.2 ⟨event, hev, rfl⟩)
  refine ⟨Nat.find hmiss, fun k => ⟨fun hk => ?_, fun hk => ?_⟩⟩
  · obtain ⟨event, hev⟩ := Option.isSome_iff_exists.1 hk
    refine ⟨(h.named jobId k event hev).2.2, not_lt.1 fun hlt => ?_⟩
    -- an event behind the first gap would have filled it
    rcases Nat.lt_or_ge (Nat.find hmiss + 1) k with hbehind | _
    · have := h.closed jobId k hk (Nat.find hmiss + 1) (by omega) hbehind
      rw [Nat.find_spec hmiss] at this
      cases this
    · have heq : k = Nat.find hmiss + 1 := by omega
      rw [heq, Nat.find_spec hmiss] at hk
      cases hk
  · have hfound := Nat.find_min hmiss (m := k - 1) (by omega)
    rw [Nat.sub_add_cancel hk.1] at hfound
    exact Bool.eq_true_of_not_eq_false hfound

/-! ### Writes beside the logs -/

/-- The files that the logs depend on. -/
def logFile : Path → Prop
  | .event .. | .jobIndex _ | .intent _ => True
  | _ => False

/-- What leaves the events as they are, lets no head go ahead and adds no recovery intent. -/
structure BesideLogs (s t : Store) : Prop where
  event : ∀ jobId k, t.read (.event jobId k) = s.read (.event jobId k)
  head : ∀ jobId index, t.read (.jobIndex jobId) = some index →
    index.latestEventSeq = 0 ∨ ∃ before, s.read (.jobIndex jobId) = some before ∧
      index.latestEventSeq ≤ before.latestEventSeq
  intent : ∀ key intent, t.read (.intent key) = some intent →
    s.read (.intent key) = some intent ∨ ∀ u, intent.Pinned u

theorem BesideLogs.grows (h : BesideLogs s t) : LogGrows s t :=
  fun jobId k event hev => by rw [h.event, hev]

theorem BesideLogs.below (h : BesideLogs s t) (hs : EventsBelow s jobId seq) :
    EventsBelow t jobId seq :=
  hs.grow h.grows

/-- **Beside the logs nothing breaks them.** -/
theorem LogOk.beside (h : LogOk s) (hst : BesideLogs s t) : LogOk t where
  named jobId k event hev := h.named jobId k event (by rw [← hst.event, hev])
  closed jobId k hk := hst.below (h.closed jobId k (by rwa [← hst.event]))
  head jobId index hidx := by
    rcases hst.head jobId index hidx with _ | ⟨before, hbefore, _⟩
    · intro k hk hlt
      omega
    · intro k hk hlt
      exact hst.below (h.head jobId before hbefore) k hk (by omega)
  pinned key intent hintent := by
    rcases hst.intent key intent hintent with hs | hany
    · exact (h.pinned key intent hs).grow hst.grows
    · exact hany t

theorem besideLogs_agree {A : Path → Prop} (hA : ∀ p, A p → ¬ logFile p) (h : Agree A s t) :
    BesideLogs s t where
  event jobId k := h _ fun hp => hA _ hp trivial
  head jobId index hidx := by
    refine .inr ⟨index, ?_, le_rfl⟩
    rw [← h (.jobIndex jobId) fun hp => hA _ hp trivial, hidx]
  intent key intent hintent := by
    refine .inl ?_
    rw [← h (.intent key) fun hp => hA _ hp trivial, hintent]

/-! ### Programs that keep the logs -/

/-- The program keeps the logs, and only adds to them, wherever it stops. -/
structure Logged {α : Type} (m : Op α) : Prop where
  maintains : Prog.Maintains LogOk LogGrows m

namespace Logged

variable {α β γ δ : Type}

theorem readOnly {m : Op α} (h : m.ReadOnly) : Logged m :=
  ⟨Prog.ReadOnly.maintains LogGrows.refl h⟩

theorem pure (a : α) : Logged (Pure.pure a) := readOnly (.pure a)

theorem raise (e : RelayError) : Logged (raise e : Op α) := readOnly (.raise e)

theorem require (b : Bool) (e : RelayError) : Logged (require b e) := readOnly (.require b e)

theorem ofExcept (x : Except RelayError α) : Logged (ofExcept x) := readOnly (.ofExcept x)

theorem bind {m : Op α} {f : α → Op β} (hm : Logged m) (hf : ∀ a, Logged (f a)) :
    Logged (m >>= f) :=
  ⟨Prog.Maintains.bind LogGrows.trans hm.maintains fun a => (hf a).maintains⟩

theorem guard {b : Bool} {e : RelayError} {m : Op α} (hm : Logged m) :
    Logged (Prog.require b e >>= fun _ => m) := .bind (.require b e) fun _ => hm

theorem ite {p : Prop} [Decidable p] {m₁ m₂ : Op α} (h₁ : Logged m₁) (h₂ : Logged m₂) :
    Logged (if p then m₁ else m₂) :=
  ⟨Prog.Maintains.ite h₁.maintains h₂.maintains⟩

theorem each {f : γ → Op Unit} (xs : List γ) (h : ∀ x ∈ xs, Logged (f x)) :
    Logged (each f xs) :=
  ⟨Prog.Maintains.each LogGrows.refl LogGrows.trans xs fun x hx => (h x hx).maintains⟩

theorem gather {f : γ → Op (List δ)} (xs : List γ) (h : ∀ x ∈ xs, Logged (f x)) :
    Logged (gather f xs) :=
  ⟨Prog.Maintains.gather LogGrows.refl LogGrows.trans xs fun x hx => (h x hx).maintains⟩

/-- A program that is confined to other files. -/
theorem confined {A : Path → Prop} {m : Op α} (h : Confined A m) (hA : ∀ p, A p → ¬ logFile p) :
    Logged m :=
  ⟨h.maintains (fun _ _ hs hst => hs.beside (besideLogs_agree hA hst))
    fun _ _ hst => (besideLogs_agree hA hst).grows⟩

/-- One durable change beside the logs. -/
theorem durably {f : Store → Store} (h : ∀ s, BesideLogs s (f s)) :
    Logged (Prog.durably f : Op Unit) :=
  ⟨maintains_durably LogGrows.refl fun s hs => ⟨hs.beside (h s), (h s).grows⟩⟩

theorem put {p : Path} (c : Content p) (hp : ¬ logFile p) : Logged (ClioQueue.put p c) :=
  confined (A := fun q => q = p) (confined_put c rfl) fun _ hq => hq ▸ hp

theorem putWithin {p : Path} (fits : Bool) (c : Content p) (hp : ¬ logFile p) :
    Logged (ClioQueue.putWithin fits p c) :=
  (require _ _).bind fun _ => put c hp

theorem unlink {p : Path} (hp : ¬ logFile p) : Logged (ClioQueue.unlink p) :=
  confined (A := fun q => q = p) (confined_unlink rfl) fun _ hq => hq ▸ hp

theorem unlinkIntent (key : IntentKey) : Logged (ClioQueue.unlink (.intent key)) := by
  refine durably fun s => ⟨fun _ _ => read_unlink_ne, fun jobId index h => ?_,
    fun key' intent h => ?_⟩
  · rw [read_unlink_ne] at h
    exact .inr ⟨index, h, le_rfl⟩
  · refine .inl ?_
    by_cases hkey : key' = key
    · subst hkey
      rw [read_unlink_self] at h
      cases h
    · rwa [read_unlink_ne (by simpa using hkey)] at h

/-- A new job index: its log may have begun, but its head is at the start. -/
theorem initializeJobIndex (jobId : DurableRecordId) :
    Logged (ClioQueue.initializeJobIndex jobId) := by
  refine (readOnly (readOnly_present _)).bind fun _ => ite (pure _) (durably fun s =>
    ⟨fun _ _ => read_write_ne _, fun id index h => ?_, fun key intent h => ?_⟩)
  · by_cases hid : id = jobId
    · subst hid
      rw [read_write_self] at h
      cases h
      exact .inl rfl
    · rw [read_write_ne _ (by simpa using hid)] at h
      exact .inr ⟨index, h, le_rfl⟩
  · rw [read_write_ne _] at h
    exact .inl h

end Logged

/-! ### Events -/

/-- An index may name any latest event below which the log has no gap; the log stays in order and
only grows. -/
theorem LogOk.writeIndex (h : LogOk s) {index : JobIndex}
    (hidx : EventsBelow s jobId (index.latestEventSeq + 1)) :
    LogOk (s.write (.jobIndex jobId) index) ∧ LogGrows s (s.write (.jobIndex jobId) index) := by
  have hev : ∀ id k, (s.write (.jobIndex jobId) index).read (.event id k) =
      s.read (.event id k) := fun id k => read_write_ne _
  have hgrow : LogGrows s (s.write (.jobIndex jobId) index) := by
    intro id k event he
    rw [hev, he]
  refine ⟨⟨fun id k event he => ?_, fun id k hk => ?_, fun id found he => ?_,
    fun key intent he => ?_⟩, hgrow⟩
  · rw [hev] at he
    exact h.named id k event he
  · rw [hev] at hk
    exact (h.closed id k hk).grow hgrow
  · by_cases hid : id = jobId
    · subst hid
      rw [read_write_self] at he
      cases he
      exact hidx.grow hgrow
    · rw [read_write_ne _ (by simpa using hid)] at he
      exact (h.head id found he).grow hgrow
  · rw [read_write_ne _] at he
    exact (h.pinned key intent he).grow hgrow

/-- **A new event** at a free sequence that does not lie behind a gap. -/
theorem LogOk.writeEvent (h : LogOk s) {e : RelayEvent} (hseq : 1 ≤ e.seq)
    (hbelow : EventsBelow s e.jobId e.seq) (hfree : s.read (.event e.jobId e.seq) = none) :
    LogOk (s.write (.event e.jobId e.seq) e) ∧
      LogGrows s (s.write (.event e.jobId e.seq) e) := by
  have hother : ∀ id k, (id, k) ≠ (e.jobId, e.seq) →
      (s.write (.event e.jobId e.seq) e).read (.event id k) = s.read (.event id k) := by
    intro id k hne
    refine read_write_ne _ fun heq => hne ?_
    injection heq with hid hk
    rw [hid, hk]
  have hgrow : LogGrows s (s.write (.event e.jobId e.seq) e) := by
    intro id k found he
    rw [hother, he]
    rintro heq
    cases heq
    rw [hfree] at he
    cases he
  refine ⟨⟨fun id k found he => ?_, fun id k hk => ?_, fun id index he => ?_,
    fun key intent he => ?_⟩, hgrow⟩
  · by_cases heq : (id, k) = (e.jobId, e.seq)
    · cases heq
      rw [read_write_self] at he
      cases he
      exact ⟨rfl, rfl, hseq⟩
    · rw [hother id k heq] at he
      exact h.named id k found he
  · by_cases heq : (id, k) = (e.jobId, e.seq)
    · cases heq
      exact hbelow.grow hgrow
    · rw [hother id k heq] at hk
      exact (h.closed id k hk).grow hgrow
  · rw [read_write_ne _] at he
    exact (h.head id index he).grow hgrow
  · rw [read_write_ne _] at he
    exact (h.pinned key intent he).grow hgrow

section

variable [Platform] [Entropy] {s : Store} {v : Supply} {α : Type}
  {jobId : DurableRecordId} {update : JobIndex → JobIndex} {p : Path} {event : RelayEvent}
  {intent : TransitionIntent}

section

omit [Platform] [Entropy]

theorem grows_read {f : Option (Content p) → Op α} (hs : LogOk s)
    (h : Grows LogOk LogGrows (f (s.read p)) s v) :
    Grows LogOk LogGrows (read p >>= f) s v := by
  refine ((Logged.readOnly (readOnly_read p)).maintains s v hs).bind LogGrows.trans fun found hfound => ?_
  cases hfound
  exact h

/-- What follows a program that writes nothing. -/
theorem grows_readOnly {β : Type} {m : Op β} {f : β → Op α} (hm : m.ReadOnly) (hs : LogOk s)
    (hf : ∀ a w, Grows LogOk LogGrows (f a) s w) :
    Grows LogOk LogGrows (m >>= f) s v :=
  ((Logged.readOnly hm).maintains s v hs).bind_wp LogGrows.trans
    (hm.wp (fun a w => hf a w) fun _ _ => trivial)

theorem grows_putWithin {fits : Bool} {c : Content p} {f : Unit → Op α} (hs : LogOk s)
    (hwrite : LogOk (s.write p c) ∧ LogGrows s (s.write p c))
    (hf : ∀ w, Grows LogOk LogGrows (f ()) (s.write p c) w) :
    Grows LogOk LogGrows (putWithin fits p c >>= f) s v := by
  have hput : Grows LogOk LogGrows (putWithin fits p c) s v :=
    grows_readOnly (.require _ _) hs fun _ _ =>
      grows_durably LogGrows.refl hs hwrite.1 hwrite.2
  refine hput.bind_wp LogGrows.trans ?_
  rw [wp_putWithin]
  exact ⟨fun _ => ⟨trivial, hf v⟩, fun _ => trivial⟩

/-- A new head that is not ahead of its log. -/
theorem grows_updateJobIndex (hs : LogOk s)
    (h : ∀ index, s.read (.jobIndex jobId) = some index → EventsBelow s jobId ((update index).latestEventSeq + 1)) :
    Grows LogOk LogGrows (updateJobIndex jobId update) s v := by
  refine grows_read hs ?_
  rcases hidx : s.read (.jobIndex jobId) with _ | index
  · exact (Logged.pure _).maintains s v hs
  · obtain ⟨hok, hgrow⟩ := hs.writeIndex (h index hidx)
    exact grows_durably LogGrows.refl hs hok hgrow

/-- An update of the index that leaves the head where it is, or puts it back. -/
theorem logged_updateJobIndex (jobId : DurableRecordId)
    (h : ∀ index, (update index).latestEventSeq ≤ index.latestEventSeq) :
    Logged (updateJobIndex jobId update) := by
  refine ⟨fun s v hs => grows_updateJobIndex hs fun index hidx k hk hlt => ?_⟩
  exact hs.head jobId index hidx k hk (lt_of_lt_of_le hlt (Nat.succ_le_succ (h index)))

/-- The allocated sequence does not lie behind a gap. -/
theorem wp_nextEventSeq_logOk {C : Store → Prop} {Q : Post Nat} {E : Post RelayError} (hs : LogOk s)
    (hQ : ∀ seq, 1 ≤ seq → EventsBelow s jobId seq → s.read (.event jobId seq) = none → Q seq s v)
    (hE : ∀ err, E err s v) : wp (nextEventSeq jobId) C Q E s v := by
  refine wp_nextEventSeq_first (fun head seq hhead hlt hnone hbtw => ?_) hE
  refine hQ seq (Nat.one_le_of_lt hlt) (fun k hk hks => ?_) hnone
  rcases Nat.lt_or_ge head k with h | h
  · exact hbtw k h hks
  · rcases hhead with rfl | ⟨index, hidx, rfl⟩
    · omega
    · exact hs.head jobId index hidx k hk (Nat.lt_succ_of_le h)

theorem EventsBelow.succ {seq : Nat} (h : EventsBelow s jobId seq)
    (hseq : (s.read (.event jobId seq)).isSome) : EventsBelow s jobId (seq + 1) := by
  intro k hk _
  rcases Nat.lt_or_ge k seq with hk' | hk'
  · exact h k hk hk'
  · obtain rfl : k = seq := by omega
    exact hseq

end

/-- **`append_event` keeps the logs**: the event, then the head. -/
theorem logged_appendEventUnlocked (jobId : DurableRecordId) (eventType message : String)
    (payload : Dict) : Logged (appendEventUnlocked jobId eventType message payload) := by
  refine ⟨fun s v hs => ?_⟩
  refine ((Logged.readOnly (readOnly_nextEventSeq jobId)).maintains s v hs).bind_wp LogGrows.trans ?_
  refine wp_nextEventSeq_logOk hs (fun seq hseq hbelow hfree => ?_) fun _ => trivial
  refine grows_readOnly readOnly_utcNow hs fun createdAt w => ?_
  obtain ⟨hok, hgrow⟩ := hs.writeEvent
    (e := { jobId, seq, eventType, message, createdAt, payload }) hseq hbelow hfree
  refine grows_putWithin hs ⟨hok, hgrow⟩ fun w => ?_
  have hhead : EventsBelow (s.write (.event jobId seq)
      { jobId, seq, eventType, message, createdAt, payload }) jobId (seq + 1) := by
    refine (hbelow.grow hgrow).succ ?_
    rw [read_write_self]
    rfl
  refine (grows_updateJobIndex hok fun _ _ => hhead).bind LogGrows.trans fun _ _ => ?_
  exact (Logged.pure _).maintains _ _ (grows_updateJobIndex hok fun _ _ => hhead).store.1

/-- A queued event that a submission finds missing: the head goes back to the start. -/
theorem logged_ensureJobQueuedEvent (job : RelayJob) : Logged (ensureJobQueuedEvent job) :=
  .bind (.readOnly (readOnly_present _)) fun _ => .ite (.pure _)
    (.bind (logged_updateJobIndex _ fun _ => Nat.zero_le _) fun _ =>
      .bind (logged_appendEventUnlocked ..) fun _ => .pure _)

/-! ### Jobs and tasks -/

omit [Platform] in
/-- A new intent: its event, if it pins one, does not lie behind a gap. -/
theorem grows_writeTransitionIntent (hs : LogOk s) (hpin : intent.Pinned s) :
    Grows LogOk LogGrows (writeTransitionIntent intent) s v := by
  have hgrow : LogGrows s (s.write (.intent intent.key) intent) := by
    intro id k event he
    rw [read_write_ne _, he]
  refine grows_readOnly readOnly_utcNow hs fun _ w => grows_durably LogGrows.refl hs
    ⟨fun id k event he => ?_, fun id k hk => ?_, fun id index he => ?_, fun key found he => ?_⟩
    hgrow
  · rw [read_write_ne _] at he
    exact hs.named id k event he
  · rw [read_write_ne _] at hk
    exact (hs.closed id k hk).grow hgrow
  · rw [read_write_ne _] at he
    exact (hs.head id index he).grow hgrow
  · by_cases hkey : key = intent.key
    · subst hkey
      rw [read_write_self] at he
      cases he
      exact hpin.grow hgrow
    · rw [read_write_ne _ (by simpa using hkey)] at he
      exact (hs.pinned key found he).grow hgrow

omit [Platform] in
theorem Logged.putIntent (hintent : ∀ u, intent.Pinned u) : Logged (writeTransitionIntent intent) :=
  ⟨fun s _ hs => grows_writeTransitionIntent hs (hintent s)⟩

section

omit [Platform] [Entropy]

theorem derivedFile.not_logFile (h : derivedFile jobId p) : ¬ logFile p := by
  intro hp
  rcases h with h | h | h
  all_goals
    cases p <;> first | exact h | exact hp

theorem schedulerFile.not_logFile (h : schedulerFile p) : ¬ logFile p := by
  intro hp
  cases p <;> first | exact h | exact hp

theorem leasingFile.not_logFile (h : leasingFile p) : ¬ logFile p := by
  intro hp
  cases p <;> first | exact h | exact hp

theorem cleanupReceipt.not_logFile (h : cleanupReceipt p) : ¬ logFile p := by
  intro hp
  cases p <;> first | exact h | exact hp

end

omit [Entropy] in
theorem logged_syncJobDerived (job : RelayJob) : Logged (syncJobDerived job) :=
  .confined (confined_syncJobDerived job) fun _ => derivedFile.not_logFile

theorem logged_writeJob (job : RelayJob) : Logged (writeJob job) :=
  .bind (.confined (confined_migrateExecutionCleanupShard ..) fun _ => cleanupReceipt.not_logFile)
    fun _ => .bind (.putIntent fun _ => trivial) fun _ =>
      .bind (.putWithin _ _ id) fun _ =>
        .bind (logged_syncJobDerived job) fun _ => .unlinkIntent _

omit [Entropy] in
theorem logged_syncTaskDerived (task : RelayTask) : Logged (syncTaskDerived task) := by
  refine .bind (.initializeJobIndex _) fun _ => .bind (.putWithin _ _ id) fun _ =>
    .bind ?_ fun _ => .bind (.ite (.unlink id) (.putWithin _ _ id)) fun _ =>
      .confined (confined_syncSchedulerSource ..) fun _ => schedulerFile.not_logFile
  rcases task.sequence with _ | sequence
  · exact .pure _
  · exact .bind (.putWithin _ _ id) fun _ => .bind (.readOnly (readOnly_read _)) fun _ =>
      .ite (logged_updateJobIndex _ fun _ => le_rfl) (.pure _)

theorem logged_writeTask (task : RelayTask) : Logged (writeTask task) :=
  .bind (.putIntent fun _ => trivial) fun _ => .bind (.putWithin _ _ id) fun _ =>
    .bind (logged_syncTaskDerived task) fun _ => .unlinkIntent _

/-! ### Recovery -/

omit [Platform] [Entropy] in
/-- The head follows, unless it is further already. -/
theorem grows_recoveryHead (hs : LogOk s) (hbelow : EventsBelow s event.jobId (event.seq + 1)) :
    Grows LogOk LogGrows (do
      let index ← read (.jobIndex event.jobId)
      match index with
      | none => raise (.conflict s!"stale recovery job index is missing: {event.jobId}")
      | some index =>
        if index.latestEventSeq < event.seq then
          updateJobIndex event.jobId (JobIndex.setLatestEventSeq event.seq)
        else pure ()) s v := by
  refine grows_read hs ?_
  rcases s.read (.jobIndex event.jobId) with _ | index
  · exact (Logged.raise _).maintains s _ hs
  · dsimp only
    split
    · exact grows_updateJobIndex hs fun _ _ => hbelow
    · exact (Logged.pure _).maintains s _ hs

omit [Entropy] in
/-- **A pinned event**: it takes its place at the end of the log, or is found there. -/
theorem grows_writeRecoveryEvent (hs : LogOk s) (hseq : 1 ≤ event.seq)
    (hpin : EventsBelow s event.jobId event.seq) :
    Grows LogOk LogGrows (writeRecoveryEvent event) s v := by
  refine grows_read hs ?_
  rcases hread : s.read (.event event.jobId event.seq) with _ | _
  · refine grows_readOnly (.require _ _) hs fun _ w => ?_
    obtain ⟨hok, hgrow⟩ := hs.writeEvent hseq hpin hread
    refine grows_putWithin hs ⟨hok, hgrow⟩ fun w => grows_recoveryHead hok ?_
    refine (hpin.grow hgrow).succ ?_
    rw [read_write_self]
    rfl
  · have hsome : (s.read (.event event.jobId event.seq)).isSome := by rw [hread]; rfl
    exact grows_readOnly (.require _ _) hs fun _ w =>
      grows_readOnly (.pure _) hs fun _ w => grows_recoveryHead hs (hpin.succ hsome)

/-- **The recovery of a job**, from an intent whose event is pinned. -/
theorem grows_applyStaleLeaseRecoveryIntent (original target : RelayJob) (leases : List Lease)
    (event : RelayEvent) (transition : LeaseCapacityTransition) (hs : LogOk s)
    (hpin : EventsBelow s event.jobId event.seq) :
    Grows LogOk LogGrows
      (applyStaleLeaseRecoveryIntent original target leases event transition) s v := by
  have hrest : Logged (do
      each (deleteRecoveredLease original) leases
      let _pair ← applyLeaseCapacityTransition transition .after
        s!"stale lease recovery {original.jobId}"
      unlink (.intent (TransitionIntent.key (.staleLeaseRecovery original target leases event
        transition)))
      pure target) :=
    .bind (.each _ fun _ _ => .confined (confined_deleteRecoveredLease_replay ..)
      fun _ => leasingFile.not_logFile) fun _ =>
      .bind (.confined (confined_applyLeaseCapacityTransition ..)
        fun _ => leasingFile.not_logFile) fun _ =>
        .bind (.unlinkIntent _) fun _ => .pure _
  refine ((Logged.require _ _).maintains s v hs).bind_wp LogGrows.trans ?_
  rw [wp_require]
  refine ⟨fun hval => ?_, fun _ => trivial⟩
  have hseq : 1 ≤ event.seq := by
    simp only [recoveryIntentValid, Bool.and_eq_true, decide_eq_true_eq] at hval
    exact hval.1.1.1.2
  refine grows_readOnly (readOnly_readJob _) hs fun current w => ?_
  refine grows_readOnly (.require _ _) hs fun _ w => ?_
  refine grows_readOnly (.each _ fun _ _ => readOnly_checkRecoveredLease ..) hs fun _ w => ?_
  have hwrite := (logged_writeJob target).maintains s w hs
  refine hwrite.bind LogGrows.trans fun _ _ => ?_
  obtain ⟨hok, hgrow⟩ := hwrite.store
  have hev := grows_writeRecoveryEvent (v := (Prog.run (writeJob target) s w).supply) hok hseq
    (hpin.grow hgrow)
  exact hev.bind LogGrows.trans fun _ _ => hrest.maintains _ _ hev.store.1

/-! ### The replay -/

omit [Entropy] in
theorem logged_applyLeaseIndexRepairIntent (limit : Nat) (target : LeaseCapacityPair)
    (restoreComplete : Bool) :
    Logged (applyLeaseIndexRepairIntent limit target restoreComplete) :=
  .guard <| .bind (.readOnly (readOnly_canonicalLeaseCapacityRecords limit)) fun _ =>
      .bind (.ofExcept _) fun _ => .guard <|
        .bind (.confined confined_clearLeaseOperationalIndexes fun _ => leasingFile.not_logFile)
          fun _ => .bind (.each _ fun _ _ => .bind (.confined
            (confined_syncLeaseOperationalIndexes ..) fun _ => leasingFile.not_logFile)
              fun _ => .pure _) fun _ =>
            .bind (.confined (confined_writeLeaseCapacityPair _) fun _ => leasingFile.not_logFile)
              fun _ => .bind (.readOnly readOnly_readIndexMigrationState) fun _ =>
                .bind (.put _ id) fun _ => .bind (.unlinkIntent _) fun _ => .pure _

omit [Platform] in
omit [Entropy] in
theorem logged_applyLeaseCapacityTransition (transition : LeaseCapacityTransition)
    (target : TransitionTarget) (label : String) :
    Logged (applyLeaseCapacityTransition transition target label) :=
  .confined (confined_applyLeaseCapacityTransition ..) fun _ => leasingFile.not_logFile

section

omit [Entropy]

theorem logged_syncLeaseOperationalIndexes (lease : Lease) (job : RelayJob)
    (previous : Option Lease) : Logged (syncLeaseOperationalIndexes lease job previous) :=
  .confined (confined_syncLeaseOperationalIndexes ..) fun _ => leasingFile.not_logFile

theorem logged_reconcileLeaseAcquireIntent (lease : Lease) (original target : RelayJob)
    (targetUpdatedAt : Time) (transition : LeaseCapacityTransition) :
    Logged (reconcileLeaseAcquireIntent lease original target targetUpdatedAt transition) :=
  .guard <| .bind (.readOnly (readOnly_readJob _)) fun _ =>
    .bind (.ite (.bind (.putWithin _ _ id) fun _ => logged_syncJobDerived original) (.pure _))
      fun _ => .bind (.ofExcept _) fun _ =>
        .bind (.confined (confined_settleAcquiredLease ..) fun _ => leasingFile.not_logFile)
          fun _ => .bind (logged_applyLeaseCapacityTransition ..) fun _ => .unlinkIntent _

theorem logged_applyLeaseSyncIntent (lease previous : Lease) (job : RelayJob)
    (transition : LeaseCapacityTransition) (label : String) :
    Logged (applyLeaseSyncIntent lease previous job transition label) :=
  .bind (.put _ id) fun _ => .bind (.put _ id) fun _ =>
    .bind (logged_syncLeaseOperationalIndexes ..) fun _ =>
      .bind (logged_applyLeaseCapacityTransition ..) fun _ => .unlinkIntent _

end

/-- **The replay of one intent**, pinned as it was when it was written. -/
theorem grows_applyIntent (hs : LogOk s) (hpin : intent.Pinned s) :
    Grows LogOk LogGrows (applyIntent intent) s v := by
  cases intent with
  | staleLeaseRecovery original target leases event transition =>
    have happly := grows_applyStaleLeaseRecoveryIntent (v := v) original target leases event
      transition hs hpin
    exact happly.bind LogGrows.trans fun _ _ => (Logged.pure _).maintains _ _ happly.store.1
  | leaseIndexRepair =>
    exact (Logged.bind (logged_applyLeaseIndexRepairIntent ..) fun _ => .pure _).maintains s v hs
  | leaseAcquire =>
    exact (Logged.bind (logged_reconcileLeaseAcquireIntent ..) fun _ => .pure _).maintains s v hs
  | leaseSync =>
    exact (Logged.bind (.guard <| logged_applyLeaseSyncIntent ..) fun _ => .pure _).maintains s v hs
  | leaseDelete =>
    exact (Logged.bind (.bind (.ofExcept _) fun _ => .bind (.confined
      (confined_deleteLeaseFiles ..) fun _ => leasingFile.not_logFile) fun _ =>
        .bind (logged_applyLeaseCapacityTransition ..) fun _ => .unlinkIntent _)
          fun _ => .pure _).maintains s v hs
  | jobSync =>
    refine (Logged.bind (.bind (.readOnly (readOnly_readJob _)) fun job =>
      .bind ?_ fun _ => .unlinkIntent _) fun _ => .pure _).maintains s v hs
    rcases job with _ | job
    · exact .pure _
    · exact logged_syncJobDerived job
  | taskSync =>
    refine (Logged.bind (.bind (.readOnly (.bind (readOnly_read _) fun _ =>
      .guard <| .pure _)) fun task =>
        .bind ?_ fun _ => .unlinkIntent _) fun _ => .pure _).maintains s v hs
    rcases task with _ | task
    · exact .pure _
    · exact logged_syncTaskDerived task
  | gatewaySync sessionId =>
    refine (Logged.bind (.bind (.confined (confined_syncGatewaySessionDerived sessionId)
      fun p hp hlog => ?_) fun _ => .unlinkIntent _) fun _ => .pure _).maintains s v hs
    cases p <;> first | exact hp | exact hlog

/-- The replay of several intents: what is pinned stays pinned while those before it are
replayed. -/
theorem grows_applyIntents (intents : List TransitionIntent) (hs : LogOk s)
    (hpin : ∀ intent ∈ intents, intent.Pinned s) :
    Grows LogOk LogGrows (gather applyIntent intents) s v := by
  induction intents generalizing s v with
  | nil => exact (Logged.pure _).maintains s v hs
  | cons intent intents ih =>
    have hfirst := grows_applyIntent (v := v) hs (hpin intent (.head _))
    obtain ⟨hok, hgrow⟩ := hfirst.store
    refine hfirst.bind LogGrows.trans fun _ _ => ?_
    have hrest := ih (v := (Prog.run (applyIntent intent) s v).supply) hok
      fun other hother => (hpin other (.tail _ hother)).grow hgrow
    exact hrest.bind LogGrows.trans fun _ _ => (Logged.pure _).maintains _ _ hrest.store.1

/-- **The replay of the journal keeps the logs.** -/
theorem logged_reconcileTransitionIntents : Logged reconcileTransitionIntents := by
  refine ⟨fun s v hs => ?_⟩
  refine ((Logged.readOnly (readOnly_boundedListing ..)).maintains s v hs).bind_wp LogGrows.trans ?_
  unfold boundedListing listing
  rw [wp_bind, wp_look]
  refine wp_require_then (fun _ => (wp_pure _).2 (grows_applyIntents _ hs fun intent hintent => ?_))
    fun _ => trivial
  obtain ⟨p, c, hread, hlist⟩ := Files.mem_collect.1
    ((List.perm_insertionSort _ _).mem_iff.1 hintent)
  cases p with
  | intent key =>
    cases hlist
    exact hs.pinned key _ hread
  | _ => cases hlist

theorem logged_recoverPendingTransitions : Logged recoverPendingTransitions :=
  .bind logged_reconcileTransitionIntents fun _ => .pure _

end

end ClioQueue
