/-
# Runs of appends

A task is appended through the journal, so that an append that a process has left
half done is finished by whoever comes next (`Listings.wp_replay`); artifacts and
progress records are not.  `AppendCall.Run` are the runs of appends with stops after
any durable write, `AppendCall.CleanRun` those in which no process stops while an
artifact or a progress record is indexed.  Along the latter the pages of a job
return its listing.
-/

import ClioQueue.GlobalPaging
import ClioQueue.JobListingUpkeep

namespace ClioQueue

open Durable Durable.Prog Durable.Files

/-! ### Beside the tasks -/

/-- Only copies, positions and counts of tasks have changed. -/
structure TaskSide (s t : Store) : Prop where
  files : ∀ p, listingFile p → (∀ job id, p ≠ .taskByJob job id) → (∀ job n, p ≠ .taskOrder job n) →
    t.read p = s.read p
  counts : ∀ job, (countsOf t job).2 = (countsOf s job).2
  indexes : ∀ job, (s.read (.jobIndex job)).isSome → (t.read (.jobIndex job)).isSome
  records : ∀ p, recordFile p → (s.read p).isSome → (t.read p).isSome

section

variable {s t u b : Store} {task : RelayTask}

namespace TaskSide

theorem refl (s : Store) : TaskSide s s :=
  ⟨fun _ _ _ _ => rfl, fun _ => rfl, fun _ => id, fun _ _ => id⟩

theorem trans (h : TaskSide s t) (h' : TaskSide t u) : TaskSide s u :=
  ⟨fun p hp hne hne' => (h'.files p hp hne hne').trans (h.files p hp hne hne'),
    fun job => (h'.counts job).trans (h.counts job),
    fun job hjob => h'.indexes job (h.indexes job hjob),
    fun p hp hs => h'.records p hp (h.records p hp hs)⟩

theorem of_beside (h : Beside s t) : TaskSide s t :=
  ⟨fun p hp _ _ => h.files p hp, fun job => by rw [h.counts job], h.indexes, h.records⟩

theorem copy {p : Path} (hp : (∃ job id, p = .taskByJob job id) ∨ ∃ job n, p = .taskOrder job n)
    (s : Store) (c : Content p) : TaskSide s (s.write p c) := by
  have hindex : ∀ job, (s.write p c).read (.jobIndex job) = s.read (.jobIndex job) := by
    intro job
    refine read_write_ne _ ?_
    rintro rfl
    simp at hp
  refine ⟨fun q _ hne hne' => read_write_ne _ ?_, fun job => ?_, fun job hjob => ?_,
    fun q hq hs => ?_⟩
  · rintro rfl
    rcases hp with ⟨job, id, rfl⟩ | ⟨job, n, rfl⟩
    · exact hne job id rfl
    · exact hne' job n rfl
  · unfold countsOf
    rw [hindex]
  · rwa [hindex]
  · rwa [read_write_ne _ (by rintro rfl; rcases hp with ⟨_, _, rfl⟩ | ⟨_, _, rfl⟩ <;> exact hq)]

theorem count {jobId : DurableRecordId} {index : JobIndex} (n : Nat)
    (hindex : s.read (.jobIndex jobId) = some index) :
    TaskSide s (s.write (.jobIndex jobId) { index with taskCount := n }) := by
  refine ⟨fun p hp _ _ => read_write_ne _ (by rintro rfl; exact hp), fun job => ?_,
    fun job hjob => ?_, fun p hp hs => ?_⟩
  · unfold countsOf
    by_cases heq : job = jobId
    · subst heq
      rw [read_write_self, hindex]
      rfl
    · rw [read_write_ne _ (by simpa using heq)]
  · by_cases heq : job = jobId
    · subst heq
      rw [read_write_self]
      rfl
    · rwa [read_write_ne _ (by simpa using heq)]
  · rwa [read_write_ne _ (by rintro rfl; exact hp)]

theorem sameArtifacts (h : TaskSide s t) : SameFamily artifactFamily s t :=
  ⟨fun job id => h.files (.artifactByJob job id) trivial (by simp) (by simp),
    fun job n => h.files (.artifactOrder job n) trivial (by simp) (by simp),
    fun job => by rw [artifactFamily_size, artifactFamily_size, h.counts]⟩

theorem sameProgress (h : TaskSide s t) : SameFamily progressFamily s t :=
  ⟨fun job id => h.files (.progressByJob job id) trivial (by simp) (by simp),
    fun job n => h.files (.progressOrder job n) trivial (by simp) (by simp),
    fun job => by rw [progressFamily_size, progressFamily_size, h.counts]⟩

end TaskSide

/-! ### One task -/

/-- The copy of the task by name is written. -/
theorem Toward.copy (h : Toward b task s) :
    Toward b task (s.write (.taskByJob task.jobId task.taskId) task) := by
  have hsize : ∀ job, taskFamily.size (s.write (.taskByJob task.jobId task.taskId) task) job =
      taskFamily.size s job := by
    intro job
    unfold JobFamily.size
    rw [read_write_ne _]
  have hord : ∀ job n, taskFamily.ordered (s.write (.taskByJob task.jobId task.taskId) task) job n =
      taskFamily.ordered s job n := fun job n => by
    rw [taskFamily_ordered, taskFamily_ordered, read_write_ne _]
  have hown : taskFamily.copy (s.write (.taskByJob task.jobId task.taskId) task) task.jobId
      task.taskId = some task := read_write_self ..
  refine ⟨h.base, h.fresh, h.position, fun job id hne => ?_, .inr hown,
    fun job n hne => (hord job n).trans (h.orders job n hne),
    fun job hne => (hsize job).trans (h.sizes job hne), ?_⟩
  · refine Eq.trans (read_write_ne _ ?_) (h.copies job id hne)
    rintro ⟨⟩
    exact hne ⟨rfl, rfl⟩
  · rw [hsize, hord]
    exact h.size.imp_right fun hdone => ⟨hdone.1, hown, hdone.2.2⟩

/-- The copy of the task by position is written. -/
theorem Toward.order (h : Toward b task s) :
    Toward b task (s.write (.taskOrder task.jobId (taskFamily.size b task.jobId + 1)) task) := by
  have hsize : ∀ job, taskFamily.size
      (s.write (.taskOrder task.jobId (taskFamily.size b task.jobId + 1)) task) job =
      taskFamily.size s job := by
    intro job
    unfold JobFamily.size
    rw [read_write_ne _]
  have hcopy : ∀ job id, taskFamily.copy
      (s.write (.taskOrder task.jobId (taskFamily.size b task.jobId + 1)) task) job id =
      taskFamily.copy s job id := fun job id => by
    rw [taskFamily_copy, taskFamily_copy, read_write_ne _]
  refine ⟨h.base, h.fresh, h.position, fun job id hne => (hcopy job id).trans (h.copies job id hne),
    ?_, fun job n hne => ?_, fun job hne => (hsize job).trans (h.sizes job hne), ?_⟩
  · rw [hcopy]
    exact h.own
  · refine Eq.trans (read_write_ne _ ?_) (h.orders job n hne)
    rintro ⟨⟩
    exact hne ⟨rfl, rfl⟩
  · rw [hsize, hcopy]
    exact h.size.imp_right fun hdone => ⟨hdone.1, hdone.2.1, read_write_self ..⟩

/-- The last write of a record counts it, after its copy and its place in the order are there. -/
theorem Toward.count {index : JobIndex} (h : Toward b task s)
    (hcopy : taskFamily.copy s task.jobId task.taskId = some task)
    (hord : taskFamily.ordered s task.jobId (taskFamily.size b task.jobId + 1) = some task) :
    Toward b task (s.write (.jobIndex task.jobId)
      { index with taskCount := taskFamily.size b task.jobId + 1 }) := by
  have hcopies : ∀ job id, taskFamily.copy (s.write (.jobIndex task.jobId)
      { index with taskCount := taskFamily.size b task.jobId + 1 }) job id =
      taskFamily.copy s job id := fun job id => by
    rw [taskFamily_copy, taskFamily_copy, read_write_ne _]
  have horders : ∀ job n, taskFamily.ordered (s.write (.jobIndex task.jobId)
      { index with taskCount := taskFamily.size b task.jobId + 1 }) job n =
      taskFamily.ordered s job n := fun job n => by
    rw [taskFamily_ordered, taskFamily_ordered, read_write_ne _]
  refine ⟨h.base, h.fresh, h.position,
    fun job id hne => (hcopies job id).trans (h.copies job id hne), .inr ((hcopies _ _).trans hcopy),
    fun job n hne => (horders job n).trans (h.orders job n hne), fun job hne => ?_,
    .inr ⟨?_, (hcopies _ _).trans hcopy, (horders _ _).trans hord⟩⟩
  · refine Eq.trans ?_ (h.sizes job hne)
    unfold JobFamily.size
    rw [read_write_ne _ (by simpa using hne)]
  · unfold JobFamily.size
    rw [read_write_self]
    rfl

section

variable [Platform] [Entropy] {v : Supply}
  {key : IntentKey} {p : Path} {E : Post RelayError} {C : Store → Prop}
  {I : TransitionIntent} {Q : Post Unit}

omit [Entropy] in
theorem within_beside_syncTaskRetentionIndexes (task : RelayTask) :
    Within Beside (syncTaskRetentionIndexes task) := by
  refine within_beside_confined
    (A := fun p => p = .activeTask task.jobId task.taskId ∨ schedulerFile p) ?_ fun p hp => ?_
  · exact .bind (.ite (confined_unlink (.inl rfl)) (confined_putWithin _ _ (.inl rfl))) fun _ =>
      (confined_syncSchedulerSource ..).mono fun _ => .inr
  · rcases hp with rfl | hp
    · exact ⟨id, id, by simp⟩
    · cases p <;> first | exact hp.elim | exact ⟨id, id, by simp⟩

omit [Entropy] in
/-- **The derived files of the task that is being appended.** -/
theorem Toward.wp_syncTaskDerived (h : Toward b task s) :
    wp (syncTaskDerived task) (fun t => Toward b task t ∧ TaskSide s t)
      (fun _ t _ => (Toward b task t ∧ TaskSide s t) ∧
        taskFamily.size t task.jobId = taskFamily.size b task.jobId + 1)
      (fun _ t _ => Toward b task t ∧ TaskSide s t) s v := by
  have hbeside : ∀ {t u : Store}, Toward b task t ∧ TaskSide s t → Beside t u →
      Toward b task u ∧ TaskSide s u := fun ht hu =>
    ⟨ht.1.frame hu.sameTasks, ht.2.trans (.of_beside hu)⟩
  have hstart : Toward b task s ∧ TaskSide s s := ⟨h, .refl s⟩
  unfold syncTaskDerived
  rw [wp_bind]
  have hinit : wp (initializeJobIndex task.jobId) (Beside s)
      (fun _ t _ => Beside s t ∧ (t.read (.jobIndex task.jobId)).isSome) (fun _ t _ => Beside s t)
      s v := by
    unfold initializeJobIndex
    rw [wp_bind, wp_present]
    refine wp_cases (fun hsome => (wp_pure _).2 ⟨.refl s, hsome⟩) fun hnone => ?_
    have hindex : Beside s (s.write (.jobIndex task.jobId) emptyJobIndex) := by
      refine .index emptyJobIndex ?_
      unfold countsOf
      rw [Option.not_isSome_iff_eq_none.1 hnone]
      rfl
    refine wp_put.2 ⟨hindex, hindex, ?_⟩
    rw [read_write_self]
    rfl
  refine wp_mono hinit (fun _ ht => hbeside hstart ht) (fun _ t w ht => ?_)
    fun _ _ _ ht => hbeside hstart ht
  obtain ⟨ht, _⟩ := ht
  have h₁ := hbeside hstart ht
  clear ht hstart hinit h
  refine wp_putWithin_then (fun _ => ?_) fun _ => h₁
  have h₂ : Toward b task (t.write (.taskByJob task.jobId task.taskId) task) ∧
      TaskSide s (t.write (.taskByJob task.jobId task.taskId) task) :=
    ⟨h₁.1.copy, h₁.2.trans (.copy (p := .taskByJob _ _) (.inl ⟨_, _, rfl⟩) t task)⟩
  have hindex₂ : ((t.write (.taskByJob task.jobId task.taskId) task).read
      (.jobIndex task.jobId)).isSome := by
    rwa [read_write_ne _]
  have hcopy₂ : taskFamily.copy (t.write (.taskByJob task.jobId task.taskId) task) task.jobId
      task.taskId = some task := read_write_self ..
  refine ⟨h₂, ?_⟩
  generalize t.write (.taskByJob task.jobId task.taskId) task = t₂ at h₂ hindex₂ hcopy₂ ⊢
  have hposition := h₂.1.position
  rw [wp_bind, hposition]
  unfold syncTaskOrder
  refine wp_putWithin_then (fun _ => ?_) fun _ => h₂
  have h₃ : Toward b task (t₂.write (.taskOrder task.jobId (taskFamily.size b task.jobId + 1)) task) ∧
      TaskSide s (t₂.write (.taskOrder task.jobId (taskFamily.size b task.jobId + 1)) task) :=
    ⟨h₂.1.order, h₂.2.trans (.copy (p := .taskOrder _ _) (.inr ⟨_, _, rfl⟩) t₂ task)⟩
  have hindex₃ : ((t₂.write (.taskOrder task.jobId (taskFamily.size b task.jobId + 1)) task).read
      (.jobIndex task.jobId)).isSome := by
    rwa [read_write_ne _]
  have hcopy₃ : taskFamily.copy (t₂.write (.taskOrder task.jobId (taskFamily.size b task.jobId + 1))
      task) task.jobId task.taskId = some task := by
    rw [taskFamily_copy, read_write_ne _]
    exact hcopy₂
  have hord₃ : taskFamily.ordered (t₂.write (.taskOrder task.jobId
      (taskFamily.size b task.jobId + 1)) task) task.jobId (taskFamily.size b task.jobId + 1) =
      some task := read_write_self ..
  refine ⟨h₃, ?_⟩
  generalize t₂.write (.taskOrder task.jobId (taskFamily.size b task.jobId + 1)) task = t₃
    at h₃ hindex₃ hcopy₃ hord₃ ⊢
  have hrest : ∀ {u : Store} {w : Supply}, Toward b task u ∧ TaskSide s u →
      taskFamily.size u task.jobId = taskFamily.size b task.jobId + 1 →
      wp (syncTaskRetentionIndexes task) (fun t => Toward b task t ∧ TaskSide s t)
        (fun _ t _ => (Toward b task t ∧ TaskSide s t) ∧
          taskFamily.size t task.jobId = taskFamily.size b task.jobId + 1)
        (fun _ t _ => Toward b task t ∧ TaskSide s t) u w := fun hu hsize =>
    (within_beside_syncTaskRetentionIndexes task).wp (fun _ ht => hbeside hu ht)
      (fun _ t _ ht => ⟨hbeside hu ht, (ht.sameTasks.size _).trans hsize⟩)
      fun _ _ _ ht => hbeside hu ht
  obtain ⟨index, hread⟩ := Option.isSome_iff_exists.1 hindex₃
  have hcount : taskFamily.size t₃ task.jobId = index.taskCount := by
    unfold JobFamily.size
    rw [hread]
    rfl
  rw [wp_bind, read_eq_look, wp_look, hread]
  refine wp_cases (fun _ => ?_) fun hge => (wp_pure _).2 (hrest h₃ ?_)
  · unfold updateJobIndex
    rw [wp_bind, read_eq_look, wp_look, hread]
    have h₄ := (⟨h₃.1.count hcopy₃ hord₃,
      h₃.2.trans (.count (taskFamily.size b task.jobId + 1) hread)⟩ :
      Toward b task (t₃.write (.jobIndex task.jobId)
        { index with taskCount := taskFamily.size b task.jobId + 1 }) ∧ TaskSide s _)
    refine wp_put.2 ⟨h₄, hrest h₄ ?_⟩
    unfold JobFamily.size
    rw [read_write_self]
    rfl
  · have hle : ¬ index.taskCount < taskFamily.size b task.jobId + 1 := by simpa using hge
    rcases h₃.1.size with _ | ⟨hdone, -⟩
    · omega
    · exact hdone

/-! ### The replay -/

/-- A task append under way. -/
structure Pending (b : Store) (task : RelayTask) (s : Store) : Prop where
  listings : Listings s
  toward : Toward b task s
  intent : s.read (.intent (.taskSync task.taskId)) = some (.taskSync task.jobId task.taskId)
  alone : ∀ key, key ≠ .taskSync task.taskId → s.read (.intent key) = none
  canonical : s.read (.task task.taskId) = some task

omit [Platform] [Entropy] in
/-- A pending record stays pending while its files are added one by one. -/
theorem Pending.step (h : Pending b task s) (ht : Toward b task t) (hside : TaskSide s t) :
    Pending b task t := by
  have hintent : ∀ key, t.read (.intent key) = s.read (.intent key) := fun key =>
    hside.files (.intent key) trivial (by simp) (by simp)
  have htask : ∀ id, t.read (.task id) = s.read (.task id) := fun id =>
    hside.files (.task id) trivial (by simp) (by simp)
  have halone : ∀ key, key ≠ .taskSync task.taskId → t.read (.intent key) = none := fun key hne =>
    (hintent key).trans (h.alone key hne)
  have hst := hside.files .migrationState trivial (by simp) (by simp)
  refine ⟨⟨?_, ?_, ?_, ?_, fun job id hid => ?_⟩, ht, (hintent _).trans h.intent, halone,
    (htask _).trans h.canonical⟩
  · rw [hst]
    exact h.listings.migration
  · exact h.listings.artifacts.frame hside.sameArtifacts fun id => hside.records (.artifact id) trivial
  · exact h.listings.progress.frame hside.sameProgress fun id => hside.records (.progress id) trivial
  · exact .pending task b ht ((hintent _).trans h.intent) halone ((htask _).trans h.canonical)
  · by_cases hown : job = task.jobId ∧ id = task.taskId
    · obtain ⟨-, rfl⟩ := hown
      rw [htask, h.canonical]
      rfl
    · rw [ht.copies job id hown, ← h.toward.copies job id hown] at hid
      rw [htask]
      exact h.listings.taskNamed job id hid

omit [Platform] [Entropy] in
/-- The last intent is removed when the tasks agree. -/
theorem Listings.unlinkIntent (h : Listings s) (hagrees : ∀ job, Agrees taskFamily s job)
    (halone : ∀ k, k ≠ key → s.read (.intent k) = none) :
    Listings (s.unlink (.intent key)) ∧ ∀ k, (s.unlink (.intent key)).read (.intent k) = none := by
  have hread : ∀ p, (∀ k, p ≠ .intent k) → (s.unlink (.intent key)).read p = s.read p :=
    fun p hp => read_unlink_ne (hp _)
  have hcnt : ∀ job, countsOf (s.unlink (.intent key)) job = countsOf s job := by
    intro job
    unfold countsOf
    rw [hread _ (by simp)]
  have hquiet : ∀ k, (s.unlink (.intent key)).read (.intent k) = none := by
    intro k
    by_cases heq : k = key
    · subst heq
      exact read_unlink_self ..
    · rw [read_unlink_ne (by simpa using heq)]
      exact halone k heq
  have htasks : SameFamily taskFamily s (s.unlink (.intent key)) :=
    ⟨fun job id => hread _ (by simp), fun job n => hread _ (by simp), fun job => by
      rw [taskFamily_size, taskFamily_size, hcnt]⟩
  refine ⟨⟨?_, ?_, ?_, .settled (fun job => htasks.agrees (hagrees job)) hquiet,
    fun job id hid => ?_⟩, hquiet⟩
  · rw [hread _ (by simp)]
    exact h.migration
  · refine h.artifacts.frame ⟨fun job id => hread _ (by simp), fun job n => hread _ (by simp),
      fun job => by rw [artifactFamily_size, artifactFamily_size, hcnt]⟩ fun id hid => ?_
    rwa [hread _ (by simp)]
  · refine h.progress.frame ⟨fun job id => hread _ (by simp), fun job n => hread _ (by simp),
      fun job => by rw [progressFamily_size, progressFamily_size, hcnt]⟩ fun id hid => ?_
    rwa [hread _ (by simp)]
  · rw [htasks.copy] at hid
    rw [hread _ (by simp)]
    exact h.taskNamed job id hid

omit [Entropy] in
/-- The rest of an append, or its replay: the derived files and the removal of the intent. -/
theorem Pending.wp_settle (h : Pending b task s) :
    wp (syncTaskDerived task >>= fun _ => unlink (.intent (.taskSync task.taskId))) Listings
      (fun _ t _ => (Listings t ∧ ∀ key, t.read (.intent key) = none) ∧
        Extended taskFamily task task.jobId b t ∧ (∀ id, t.read (.task id) = s.read (.task id)) ∧
        ∀ job, (s.read (.jobIndex job)).isSome → (t.read (.jobIndex job)).isSome)
      (fun _ t _ => Listings t) s v := by
  rw [wp_bind]
  refine wp_mono h.toward.wp_syncTaskDerived (fun t ht => (h.step ht.1 ht.2).listings)
    (fun _ t w ht => ?_) fun _ t _ ht => (h.step ht.1 ht.2).listings
  obtain ⟨⟨htoward, hside⟩, hsize⟩ := ht
  have hpend := h.step htoward hside
  obtain ⟨hlistings, hquiet⟩ :=
    hpend.listings.unlinkIntent (htoward.agrees hsize) hpend.alone
  refine wp_unlink.2 ⟨hlistings, ⟨hlistings, hquiet⟩, ?_, fun id => ?_, fun job hjob => ?_⟩
  · rcases htoward.size with _ | ⟨-, hcopy, hord⟩
    · omega
    · have hread : ∀ p, (∀ key, p ≠ .intent key) →
          (t.unlink (.intent (.taskSync task.taskId))).read p = t.read p := fun p hp =>
        read_unlink_ne (hp _)
      have hsizes : ∀ job, taskFamily.size (t.unlink (.intent (.taskSync task.taskId))) job =
          taskFamily.size t job := fun job => by
        unfold JobFamily.size
        rw [hread _ (by simp)]
      refine ⟨fun job id hne => ?_, ?_, fun job n hne => ?_, ?_, fun job hne => ?_, ?_⟩
      · exact (hread (.taskByJob job id) (by simp)).trans (htoward.copies job id hne)
      · exact (hread (.taskByJob _ _) (by simp)).trans hcopy
      · exact (hread (.taskOrder job n) (by simp)).trans (htoward.orders job n hne)
      · exact (hread (.taskOrder _ _) (by simp)).trans hord
      · exact (hsizes job).trans (htoward.sizes job hne)
      · exact (hsizes _).trans hsize
  · rw [read_unlink_ne]
    exact hside.files (.task id) trivial (by simp) (by simp)
  · rw [read_unlink_ne]
    exact hside.indexes job hjob

/-- The copy of a task once the journal has been replayed. -/
def replayedCopy (s : Store) (jobId taskId : DurableRecordId) : Option RelayTask :=
  match s.read (.intent (.taskSync taskId)) with
  | some (.taskSync owner _) =>
    if owner = jobId then (s.read (.task taskId)).or (taskFamily.copy s jobId taskId)
    else taskFamily.copy s jobId taskId
  | _ => taskFamily.copy s jobId taskId

/-- The journal of `s` has been replayed. -/
structure Replayed (s t : Store) : Prop where
  listings : Listings t
  quiet : ∀ key, t.read (.intent key) = none
  copies : ∀ jobId taskId, taskFamily.copy t jobId taskId = replayedCopy s jobId taskId
  tasks : ∀ id, t.read (.task id) = s.read (.task id)
  indexes : ∀ job, (s.read (.jobIndex job)).isSome → (t.read (.jobIndex job)).isSome

section

omit [Platform] [Entropy]

/-- A journal that is empty has been replayed. -/
theorem Replayed.refl (h : Listings s) (hquiet : ∀ key, s.read (.intent key) = none) :
    Replayed s s := by
  refine ⟨h, hquiet, fun jobId taskId => ?_, fun _ => rfl, fun _ => id⟩
  unfold replayedCopy
  rw [hquiet]

theorem Replayed.agrees (h : Replayed s t) (jobId : DurableRecordId) :
    Agrees taskFamily t jobId := by
  cases h.listings.tasks with
  | settled agrees => exact agrees jobId
  | announced task _ intent | pending task _ _ intent =>
    rw [h.quiet] at intent
    cases intent

/-- Replaying a pending record adds it to the listings, leaves no intent, and changes no task. -/
theorem Pending.replayed (h : Pending b task s) (ht : Listings t)
    (hquiet : ∀ key, t.read (.intent key) = none) (hext : Extended taskFamily task task.jobId b t)
    (htask : ∀ id, t.read (.task id) = s.read (.task id))
    (hindex : ∀ job, (s.read (.jobIndex job)).isSome → (t.read (.jobIndex job)).isSome) :
    Replayed s t := by
  refine ⟨ht, hquiet, fun jobId taskId => ?_, htask, hindex⟩
  unfold replayedCopy
  by_cases heq : taskId = task.taskId
  · subst heq
    rw [h.intent]
    by_cases hjob : task.jobId = jobId
    · subst hjob
      simp only [if_pos]
      rw [h.canonical]
      exact hext.own
    · simp only [if_neg hjob]
      have hne : ¬ (jobId = task.jobId ∧ task.taskId = task.taskId) := fun hand => hjob hand.1.symm
      exact (hext.copy jobId task.taskId hne).trans (h.toward.copies jobId task.taskId hne).symm
  · rw [h.alone _ (by simpa using heq)]
    have hne : ¬ (jobId = task.jobId ∧ taskId = task.taskId) := fun hand => heq hand.2
    exact (hext.copy jobId taskId hne).trans (h.toward.copies jobId taskId hne).symm

theorem collect_intents_alone (hI : s.read (.intent key) = some I)
    (halone : ∀ k, k ≠ key → s.read (.intent k) = none) : s.collect intentsListed = [I] := by
  have hkey : ∀ {p : Path} {c : Content p} {x : TransitionIntent}, s.read p = some c →
      intentsListed p c = some x → p = .intent key ∧ x = I := by
    intro p c x hread hlisted
    cases p <;> cases hlisted
    next k =>
      by_cases heq : k = key
      · subst heq
        rw [hI] at hread
        cases hread
        exact ⟨rfl, rfl⟩
      · rw [halone k heq] at hread
        cases hread
  have hnd : (s.collect intentsListed).Nodup := nodup_collect fun p c q d x hp hq hx hy =>
    (hkey hp hx).1.trans (hkey hq hy).1.symm
  refine List.perm_singleton.1 ((List.perm_ext_iff_of_nodup hnd (List.nodup_singleton I)).2 ?_)
  intro x
  rw [List.mem_singleton, mem_collect]
  constructor
  · rintro ⟨p, c, hread, hlisted⟩
    exact (hkey hread hlisted).2
  · rintro rfl
    exact ⟨.intent key, x, hI, rfl⟩

end

/-- A journal with one intent is replayed by applying it. -/
theorem wp_recoverPendingTransitions_alone (hI : s.read (.intent key) = some I)
    (halone : ∀ k, k ≠ key → s.read (.intent k) = none)
    (h : wp (applyIntent I) C (fun _ => Q ()) E s v) :
    wp recoverPendingTransitions C Q E s v := by
  unfold recoverPendingTransitions reconcileTransitionIntents boundedListing
  rw [wp_bind, wp_bind, wp_bind, wp_listing, collect_intents_alone hI halone, wp_bind, wp_require]
  refine ⟨fun _ => (wp_pure _).2 ?_, fun hlong => ?_⟩
  swap
  · rw [List.length_singleton] at hlong
    exact absurd hlong (by decide)
  rw [List.insertionSort_cons, List.insertionSort_nil, List.orderedInsert_nil, gather_cons, wp_bind]
  refine wp_imp h fun _ t w ht => ?_
  rw [gather_nil, wp_bind]
  exact (wp_pure _).2 ((wp_pure _).2 ((wp_pure _).2 ht))

/-- An empty journal is replayed by doing nothing. -/
theorem wp_recoverPendingTransitions_none (hquiet : ∀ key, s.read (.intent key) = none)
    (h : Q () s v) : wp recoverPendingTransitions C Q E s v := by
  have hempty : s.collect intentsListed = [] := by
    refine List.eq_nil_iff_forall_not_mem.2 fun x hx => ?_
    obtain ⟨p, c, hread, hlisted⟩ := Files.mem_collect.1 hx
    cases p <;> cases hlisted
    rw [hquiet] at hread
    cases hread
  unfold recoverPendingTransitions reconcileTransitionIntents boundedListing
  rw [wp_bind, wp_bind, wp_bind, wp_listing, hempty]
  exact wp_require_then (fun _ => (wp_pure _).2 ((wp_pure _).2 ((wp_pure _).2 h)))
    fun hlong => absurd hlong (by decide)

/-- **The replay of a task append**, begun or announced. -/
theorem Listings.wp_replay (h : Listings s) :
    wp recoverPendingTransitions Listings (fun _ t _ => Replayed s t) (fun _ t _ => Listings t)
      s v := by
  have hdrop : ∀ {m : Op Unit} {Q : Store → Prop} {E : Store → Prop},
      wp m Listings (fun _ t _ => Q t) (fun _ t _ => E t) s v →
      wp (m >>= fun _ => (pure [] : Op (List RelayJob))) Listings (fun _ t _ => Q t)
        (fun _ t _ => E t) s v := fun hm => by
    exact wp_then hm fun _ _ _ h => (wp_pure _).2 h
  cases h.tasks with
  | settled agrees quiet => exact wp_recoverPendingTransitions_none quiet (.refl h quiet)
  | announced task agrees intent alone canonical =>
    obtain ⟨hlistings, hquiet⟩ := h.unlinkIntent agrees alone
    refine wp_recoverPendingTransitions_alone intent alone (hdrop ?_)
    unfold replayTaskSync readTask
    rw [wp_bind, wp_bind, read_eq_look, wp_look, canonical, wp_bind, wp_require]
    refine ⟨fun _ => (wp_pure _).2 ?_, fun hfalse => by cases hfalse⟩
    rw [wp_bind]
    refine (wp_pure _).2 (wp_unlink.2 ⟨hlistings, hlistings, hquiet, fun job id => ?_,
      fun id => read_unlink_ne, fun job hjob => ?_⟩)
    · -- the task has no canonical record, so it has no copy either
      unfold replayedCopy
      rw [taskFamily_copy, read_unlink_ne]
      by_cases heq : id = task.taskId
      · subst heq
        rw [intent]
        simp only [canonical, Option.none_or, ite_self]
        rfl
      · rw [alone _ (by simpa using heq)]
        rfl
    · rwa [read_unlink_ne]
  | pending task b toward intent alone canonical =>
    have hpend : Pending b task s := ⟨h, toward, intent, alone, canonical⟩
    refine wp_recoverPendingTransitions_alone intent alone (hdrop ?_)
    unfold replayTaskSync readTask
    rw [wp_bind, wp_bind, read_eq_look, wp_look, canonical, wp_bind, wp_require]
    refine ⟨fun _ => (wp_pure _).2 ?_, fun hfalse => by simp at hfalse⟩
    refine wp_imp hpend.wp_settle fun _ t _ ht => ?_
    obtain ⟨⟨hlistings, hquiet⟩, hext, htask, hindex⟩ := ht
    exact hpend.replayed hlistings hquiet hext htask hindex

/-! ### Appending a task -/

section

omit [Platform] [Entropy]

theorem read_journalled (hp : (∃ key, p = .intent key) ∨ ∃ id, p = .task id) (s : Store)
    (c : Content p) (q : Path) (hq : ∀ key, q ≠ .intent key) (hq' : ∀ id, q ≠ .task id) :
    (s.write p c).read q = s.read q := by
  refine read_write_ne _ ?_
  rintro rfl
  rcases hp with ⟨key, rfl⟩ | ⟨id, rfl⟩
  · exact hq key rfl
  · exact hq' id rfl

/-- An intent or the canonical record of a task is written. -/
theorem Listings.journalled {c : Content p} (h : Listings s)
    (hp : (∃ key, p = .intent key) ∨ ∃ id, p = .task id) (htasks : TaskBooks (s.write p c))
    (hnamed : ∀ id, (s.read (.task id)).isSome → ((s.write p c).read (.task id)).isSome) :
    Listings (s.write p c) := by
  have hread := read_journalled hp s c
  have hcnt : ∀ job, countsOf (s.write p c) job = countsOf s job := by
    intro job
    unfold countsOf
    rw [hread _ (by simp) (by simp)]
  refine ⟨?_, ?_, ?_, htasks, fun job id hid => ?_⟩
  · rw [hread _ (by simp) (by simp)]
    exact h.migration
  · refine h.artifacts.frame ⟨fun job id => hread _ (by simp) (by simp),
      fun job n => hread _ (by simp) (by simp),
      fun job => by rw [artifactFamily_size, artifactFamily_size, hcnt]⟩ fun id hid => ?_
    rwa [hread _ (by simp) (by simp)]
  · refine h.progress.frame ⟨fun job id => hread _ (by simp) (by simp),
      fun job n => hread _ (by simp) (by simp),
      fun job => by rw [progressFamily_size, progressFamily_size, hcnt]⟩ fun id hid => ?_
    rwa [hread _ (by simp) (by simp)]
  · rw [taskFamily_copy, hread _ (by simp) (by simp)] at hid
    exact hnamed id (h.taskNamed job id hid)

/-- The tasks do not notice an intent or a canonical record. -/
theorem sameTasks_write (hp : (∃ key, p = .intent key) ∨ ∃ id, p = .task id) (s : Store)
    (c : Content p) : SameFamily taskFamily s (s.write p c) := by
  have hread := read_journalled hp s c
  refine ⟨fun job id => hread _ (by simp) (by simp), fun job n => hread _ (by simp) (by simp),
    fun job => ?_⟩
  unfold JobFamily.size
  rw [hread _ (by simp) (by simp)]

/-- The intent of an append is written. -/
theorem Listings.announce (h : Listings s) (hagrees : ∀ job, Agrees taskFamily s job)
    (hquiet : ∀ key, s.read (.intent key) = none) (hfresh : s.read (.task task.taskId) = none) :
    Listings (s.write (.intent (.taskSync task.taskId)) (.taskSync task.jobId task.taskId)) := by
  have hp : (∃ key, Path.intent (.taskSync task.taskId) = .intent key) ∨
      ∃ id, Path.intent (.taskSync task.taskId) = .task id := .inl ⟨_, rfl⟩
  have hsame := sameTasks_write hp s (.taskSync task.jobId task.taskId)
  refine h.journalled hp (.announced task (fun job => hsame.agrees (hagrees job))
    (read_write_self ..) (fun key hne => ?_) ?_) fun id hid => ?_
  · rw [read_write_ne _ (by simpa using hne)]
    exact hquiet key
  · rw [read_write_ne _]
    exact hfresh
  · rwa [read_write_ne _]

/-- The canonical record of the task is written: the append is under way. -/
theorem Listings.begin (h : Listings s) (hagrees : ∀ job, Agrees taskFamily s job)
    (hquiet : ∀ key, s.read (.intent key) = none) (hfresh : s.read (.task task.taskId) = none)
    (hposition : task.sequence = some (taskFamily.size s task.jobId + 1)) :
    Pending s task ((s.write (.intent (.taskSync task.taskId))
      (.taskSync task.jobId task.taskId)).write (.task task.taskId) task) := by
  have hcopy : taskFamily.copy s task.jobId task.taskId = none := by
    rw [Option.eq_none_iff_forall_ne_some]
    intro _ hfound
    have hnamed := h.taskNamed task.jobId task.taskId (by rw [hfound]; rfl)
    rw [hfresh] at hnamed
    cases hnamed
  have hsame := sameTasks_write (p := .intent (.taskSync task.taskId)) (.inl ⟨_, rfl⟩) s
    (.taskSync task.jobId task.taskId)
  have hann := h.announce hagrees hquiet hfresh
  have hintent : (s.write (.intent (.taskSync task.taskId)) (.taskSync task.jobId task.taskId)).read
      (.intent (.taskSync task.taskId)) = some (.taskSync task.jobId task.taskId) :=
    read_write_self ..
  have halone : ∀ key, key ≠ .taskSync task.taskId → (s.write (.intent (.taskSync task.taskId))
      (.taskSync task.jobId task.taskId)).read (.intent key) = none := by
    intro key hne
    rw [read_write_ne _ (by simpa using hne)]
    exact hquiet key
  generalize s.write (.intent (.taskSync task.taskId)) (.taskSync task.jobId task.taskId) = m
    at hsame hann hintent halone ⊢
  have hp : (∃ key, Path.task task.taskId = .intent key) ∨
      ∃ id, Path.task task.taskId = .task id := .inr ⟨_, rfl⟩
  have hsame' := sameTasks_write hp m task
  have htoward : Toward s task (m.write (.task task.taskId) task) := by
    have hcopies : ∀ job id, taskFamily.copy (m.write (.task task.taskId) task) job id =
        taskFamily.copy s job id := fun job id => (hsame'.copy job id).trans (hsame.copy job id)
    refine ⟨hagrees, hcopy, hposition, fun job id _ => hcopies job id,
      .inl ((hcopies _ _).trans hcopy),
      fun job n _ => (hsame'.ordered job n).trans (hsame.ordered job n),
      fun job _ => (hsame'.size job).trans (hsame.size job),
      .inl ((hsame'.size _).trans (hsame.size _))⟩
  have hintent' : (m.write (.task task.taskId) task).read (.intent (.taskSync task.taskId)) =
      some (.taskSync task.jobId task.taskId) := by
    rw [read_write_ne _]
    exact hintent
  have halone' : ∀ key, key ≠ .taskSync task.taskId →
      (m.write (.task task.taskId) task).read (.intent key) = none := by
    intro key hne
    rw [read_write_ne _]
    exact halone key hne
  refine ⟨hann.journalled hp (.pending task s htoward hintent' halone'
    (read_write_self ..)) fun id hid => ?_, htoward, hintent', halone', read_write_self ..⟩
  by_cases heq : id = task.taskId
  · subst heq
    rw [read_write_self]
    rfl
  · rwa [read_write_ne _ (by simpa using heq)]

end

/-- **A task is appended**, by a process that may stop anywhere. -/
theorem Listings.wp_appendTask (h : Listings s) (hfresh : s.read (.task task.taskId) = none) :
    Leaves Listings (appendTask task) s v := by
  unfold appendTask
  refine wp_then h.wp_replay fun _ t w ht => ?_
  have hfresh : t.read (.task task.taskId) = none := (ht.tasks _).trans hfresh
  have hagrees := ht.agrees
  have hlistings := ht.listings
  have hquiet := ht.quiet
  clear ht h
  unfold appendTaskUnlocked
  rw [wp_bind]
  refine (readOnly_getJob _).wp (fun _ w => ?_) fun _ _ => hlistings
  rw [wp_bind]
  refine wp_nextJobRecordSequence taskFamily (fun hindex => ?_) fun _ => hlistings
  generalize hsaved : ({ task with sequence := some (taskFamily.size t task.jobId + 1) } : RelayTask)
    = saved
  have hid : saved.taskId = task.taskId := by rw [← hsaved]
  have hposition : saved.sequence = some (taskFamily.size t saved.jobId + 1) := by rw [← hsaved]
  rw [← hid] at hfresh
  have hann := hlistings.announce hagrees hquiet hfresh
  have hpend := hlistings.begin hagrees hquiet hfresh hposition
  unfold writeTask writeTransitionIntent
  rw [wp_bind, wp_bind, wp_bind, wp_utcNow, wp_put]
  refine ⟨hann, ?_⟩
  refine wp_putWithin_then (fun _ => ⟨hpend.listings, ?_⟩) fun _ => hann
  refine wp_imp hpend.wp_settle fun _ u _ hu => ?_
  rw [wp_bind]
  exact (within_beside_appendEventUnlocked _ _ _ _).wp (fun _ => hu.1.1.beside)
    (fun _ _ _ ht => (wp_pure _).2 (hu.1.1.beside ht)) fun _ _ _ => hu.1.1.beside

/-! ### Pages and listings -/

/-- **The pages return the listing**: whenever the listing returns, the pages can be followed from
cursor 1 to the end with any limits, and however they are followed they return the records of the
listing, each once. -/
def PagesReturnListing {α : Type} (page : Int → Int → Op (Page α)) (list : Op (List α))
    (s : Store) : Prop :=
  ∀ v listed, (list.run s v).result = .ok listed →
    ∀ limits : Nat → Int, (∀ c, 1 ≤ limits c ∧ limits c ≤ maxResponsePageRecords) →
      (∃ records t, JobPageWalk page limits s 1 records t) ∧
      ∀ records t, JobPageWalk page limits s 1 records t → records.Perm listed ∧ records.Nodup

section

variable {α : Type} {K : JobFamily α} {jobId : DurableRecordId}

section

omit [Platform] [Entropy]

/-- A listing and pages that read the same store. -/
theorem PagesAt.returnListing {page : Int → Int → Op (Page α)} {list : Op (List α)}
    (hpages : PagesAt page K s jobId) (hagrees : Agrees K s jobId)
    (hlist : ∀ v, wp list (fun _ => True) (fun listed _ _ => listed.Perm (K.records s jobId
      (List.range' 1 (K.size s jobId)))) (fun _ _ _ => True) s v) :
    PagesReturnListing page list s := by
  intro v listed hlisted _ hlim
  refine ⟨?_, fun records t hwalk => ?_⟩
  · obtain ⟨records, hwalk⟩ := hpages.walk hlim v (K.size s jobId) 1 (by omega) le_rfl
    exact ⟨records, s, hwalk⟩
  · obtain ⟨-, rfl⟩ := hwalk.records_eq hpages
    rw [Nat.add_sub_cancel]
    exact ⟨(wp_result (hlist v) hlisted).symm, hagrees.nodup_records⟩

theorem Listings.artifacts_return (h : Listings s) (hindex : (s.read (.jobIndex jobId)).isSome) :
    PagesReturnListing (listArtifactsPage jobId) (listArtifacts jobId) s := by
  have hagrees := h.artifacts.agrees jobId
  refine PagesAt.returnListing (hagrees.pagesAt "artifact" h.migration hindex) hagrees fun v => ?_
  exact hagrees.wp_readJobRecords artifactsListed_copies _ hindex (fun _ hperm => hperm)
    fun _ => trivial

theorem Listings.progress_return (h : Listings s) (hindex : (s.read (.jobIndex jobId)).isSome) :
    PagesReturnListing (listProgressPage jobId) (listProgress jobId) s := by
  have hagrees := h.progress.agrees jobId
  refine PagesAt.returnListing (hagrees.pagesAt "progress" h.migration hindex) hagrees fun v => ?_
  unfold listProgress
  rw [wp_bind]
  refine hagrees.wp_readJobRecords progressListed_copies _ hindex (fun _ hperm => ?_)
    fun _ => trivial
  exact (wp_pure _).2 ((List.perm_insertionSort _ _).trans hperm)

end

/-- After a replay the pages of tasks of an indexed job hold its tasks, whichever part of the sync
had been done before. -/
theorem Replayed.pagesAt (h : Replayed s t) (hindex : (t.read (.jobIndex jobId)).isSome) :
    PagesAt (listTasksPage jobId) taskFamily t jobId := by
  have hpages := (h.agrees jobId).pagesAt "task" h.listings.migration hindex
  have hrepl : ∀ v, (recoverPendingTransitions.run t v).result = .ok () ∧
      (recoverPendingTransitions.run t v).store = t := by
    intro v
    have hwp : wp recoverPendingTransitions (fun _ => True) (fun _ u _ => u = t)
        (fun _ _ _ => False) t v := wp_recoverPendingTransitions_none h.quiet rfl
    obtain ⟨⟨⟩, hok⟩ := wp_ok hwp
    exact ⟨hok, wp_result hwp hok⟩
  have hrun : ∀ (cursor limit : Int) v, ∃ w, ((listTasksPage jobId cursor limit).run t v).result =
        ((readOrderedJobPage (fun n => look fun s => taskFamily.ordered s jobId n) "task"
          taskFamily.count jobId cursor limit).run t w).result ∧
      ((listTasksPage jobId cursor limit).run t v).store =
        ((readOrderedJobPage (fun n => look fun s => taskFamily.ordered s jobId n) "task"
          taskFamily.count jobId cursor limit).run t w).store := by
    intro cursor limit v
    have hbind := run_bind (f := fun _ => readOrderedJobPage (fun n => look fun s =>
      taskFamily.ordered s jobId n) "task" taskFamily.count jobId cursor limit) (hrepl v).1
    rw [(hrepl v).2] at hbind
    exact ⟨_, hbind⟩
  refine ⟨fun cursor limit v found hfound => ?_, fun cursor limit v hcursor hlimit hbd => ?_⟩
  · obtain ⟨w, hres, hstore⟩ := hrun cursor limit v
    rw [hres] at hfound
    rw [hstore]
    exact hpages.read cursor limit w found hfound
  · obtain ⟨w, hres, -⟩ := hrun cursor limit v
    rw [hres]
    exact hpages.returns cursor limit w hcursor hlimit hbd

omit [Platform] [Entropy] in
/-- Two replays of one journal list the same tasks. -/
theorem Replayed.perm {u : Store} (h : Replayed s t) (h' : Replayed s u) :
    (taskFamily.records t jobId (List.range' 1 (taskFamily.size t jobId))).Perm
      (taskFamily.records u jobId (List.range' 1 (taskFamily.size u jobId))) := by
  refine (List.perm_ext_iff_of_nodup (h.agrees jobId).nodup_records
    (h'.agrees jobId).nodup_records).2 fun r => ?_
  rw [(h.agrees jobId).mem_records, (h'.agrees jobId).mem_records]
  refine exists_congr fun id => ?_
  rw [h.copies, h'.copies]

/-- Pages of tasks, followed by their cursors, return exactly what the full listing of the job
returns, since each task has one place in the order. -/
theorem Listings.tasks_return (h : Listings s) (hindex : (s.read (.jobIndex jobId)).isSome) :
    PagesReturnListing (listTasksPage jobId) (listTasks jobId) s := by
  intro v listed hlisted limits hlim
  obtain ⟨⟨⟩, hrepl⟩ := bind_ok hlisted
  have hlist : ∃ u, Replayed s u ∧
      listed.Perm (taskFamily.records u jobId (List.range' 1 (taskFamily.size u jobId))) := by
    refine wp_result (C := fun _ => True) (E := fun _ _ _ => True)
      (Q := fun listed _ _ => ∃ u, Replayed s u ∧
        listed.Perm (taskFamily.records u jobId (List.range' 1 (taskFamily.size u jobId)))) ?_ hlisted
    unfold listTasks
    rw [wp_bind]
    refine wp_mono h.wp_replay (fun _ _ => trivial) (fun _ u w hu => ?_) fun _ _ _ _ => trivial
    rw [wp_bind]
    refine (hu.agrees jobId).wp_readJobRecords tasksListed_copies _ (hu.indexes jobId hindex)
      (fun _ hperm => ?_) fun _ => trivial
    exact (wp_pure _).2 ⟨u, hu, (List.perm_insertionSort _ _).trans hperm⟩
  obtain ⟨u, hu, hperm⟩ := hlist
  -- the first page replays the journal, the others find it empty
  have hfirst : ∀ w found, ((listTasksPage jobId (1 : Nat) (limits 1)).run s w).result = .ok found →
      ∃ t, Replayed s t ∧ ((listTasksPage jobId (1 : Nat) (limits 1)).run s w).store = t ∧
        PageOf taskFamily t jobId 1 (limits 1) found := by
    intro w found hfound
    obtain ⟨⟨⟩, hok⟩ := bind_ok hfound
    have ht : Replayed s (recoverPendingTransitions.run s w).store := wp_result h.wp_replay hok
    obtain ⟨hres, hstore⟩ := run_bind (f := fun _ => readOrderedJobPage (fun n =>
      look fun s => taskFamily.ordered s jobId n) "task" taskFamily.count jobId (1 : Nat)
        (limits 1)) hok
    have hpages := (ht.agrees jobId).pagesAt "task" ht.listings.migration (ht.indexes jobId hindex)
    obtain ⟨hsame, hpage⟩ := hpages.read 1 (limits 1) _ found (hres.symm.trans hfound)
    exact ⟨_, ht, hstore.trans hsame, hpage⟩
  refine ⟨?_, fun records t hwalk => ?_⟩
  · have ht : Replayed s (recoverPendingTransitions.run s v).store :=
      wp_result h.wp_replay hrepl
    obtain ⟨hres, hstore⟩ := run_bind (f := fun _ => readOrderedJobPage (fun n =>
      look fun s => taskFamily.ordered s jobId n) "task" taskFamily.count jobId (1 : Nat)
        (limits 1)) hrepl
    have hpages := (ht.agrees jobId).pagesAt "task" ht.listings.migration (ht.indexes jobId hindex)
    obtain ⟨found, hfound⟩ := hpages.returns 1 (limits 1) (recoverPendingTransitions.run s v).supply
      le_rfl (hlim 1).1 (hlim 1).2
    obtain ⟨hsame, hpage⟩ := hpages.read 1 (limits 1) _ found hfound
    have hread : ((listTasksPage jobId (1 : Nat) (limits 1)).run s v).result = .ok found :=
      hres.trans hfound
    rcases hnext : found.nextCursor with _ | next
    · exact ⟨_, _, .last hread hnext⟩
    · obtain ⟨_, -, -⟩ := hpage.append hnext
      obtain ⟨records, hrest⟩ := (ht.pagesAt (ht.indexes jobId hindex)).walk hlim v _ next le_rfl
        (by omega)
      have hleft : ((listTasksPage jobId (1 : Nat) (limits 1)).run s v).store =
          (recoverPendingTransitions.run s v).store := hstore.trans hsame
      rw [← hleft] at hrest
      exact ⟨_, _, .more hread hnext hrest⟩
  · have hrecs : ∃ t, Replayed s t ∧
        records = taskFamily.records t jobId (List.range' 1 (taskFamily.size t jobId)) := by
      rcases hwalk with ⟨read, hnext⟩ | ⟨read, hnext, rest⟩
      · obtain ⟨t, ht, -, hpage⟩ := hfirst _ _ read
        exact ⟨t, ht, hpage.last hnext⟩
      · obtain ⟨t, ht, hstore, hpage⟩ := hfirst _ _ read
        rw [hstore] at rest
        obtain ⟨-, hrest⟩ := rest.records_eq (ht.pagesAt (ht.indexes jobId hindex))
        rw [hrest]
        exact ⟨t, ht, (hpage.append hnext).2.2⟩
    obtain ⟨t, ht, rfl⟩ := hrecs
    exact ⟨(ht.perm hu).trans hperm.symm, (ht.agrees jobId).nodup_records⟩

end

end

end

/-! ### Runs -/

/-- The calls that append records to a job. -/
inductive AppendCall where
  | task (task : RelayTask)
  | artifact (artifact : ArtifactRef)
  | progress (progress : ProgressRecord)

namespace AppendCall

/-- The record has a fresh id. -/
def Fresh (s : Store) : AppendCall → Prop
  | .task record => s.read (.task record.taskId) = none
  | .artifact record => s.read (.artifact record.artifactId) = none
  | .progress record => s.read (.progress record.progressId) = none

section

variable [Platform]

/-- The program of a call, its result dropped. -/
def prog [Entropy] : AppendCall → Op Unit
  | .task record => appendTask record >>= fun _ => pure ()
  | .artifact record => appendArtifact record >>= fun _ => pure ()
  | .progress record => appendProgress record >>= fun _ => pure ()

/-- An append, stopped after one of its durable writes or run to its end. -/
def Step (s t : Store) : Prop :=
  ∃ (_ : Entropy) (call : AppendCall) (v : Supply), call.Fresh s ∧ t ∈ call.prog.halts s v

/-- A run of appends. -/
def Run : Store → Store → Prop := Relation.ReflTransGen Step

/-- The append did not end, by a stop or by an error, while it indexed an artifact or a progress
record. -/
def Uncut [Entropy] (call : AppendCall) (s : Store) (v : Supply) (t : Store) : Prop :=
  match call with
  | .task _ => True
  | .artifact record => t ∈ Prog.outside (saveArtifact record)
      (fun saved => indexArtifact saved.1 saved.2) (fun saved => announceArtifact record saved.1) s v
  | .progress record => t ∈ Prog.outside (saveProgress record)
      (fun saved => indexProgress saved.1 saved.2) (fun saved => announceProgress record saved.1) s v

/-- An append that did not end while it indexed its record. -/
def CleanStep (s t : Store) : Prop :=
  ∃ (_ : Entropy) (call : AppendCall) (v : Supply), call.Fresh s ∧ t ∈ call.prog.halts s v ∧
    call.Uncut s v t

/-- A run of such appends. -/
def CleanRun : Store → Store → Prop := Relation.ReflTransGen CleanStep

/-- **One append keeps the listings.** -/
theorem CleanStep.listings {s t : Store} (hs : Listings s) (h : CleanStep s t) : Listings t := by
  obtain ⟨_, call, v, hfresh, hhalts, huncut⟩ := h
  cases call with
  | task record =>
    refine wp_halts ?_ hs t hhalts
    show wp (appendTask record >>= fun _ => pure ()) _ _ _ s v
    exact wp_then (hs.wp_appendTask hfresh) fun _ _ _ h => (wp_pure _).2 h
  | artifact => exact hs.outside_artifact hfresh t huncut
  | progress => exact hs.outside_progress hfresh t huncut

/-- **Every run of appends keeps the listings.** -/
theorem CleanRun.listings {s t : Store} (hs : Listings s) (h : CleanRun s t) : Listings t := by
  induction h with
  | refl => exact hs
  | tail _ hstep ih => exact hstep.listings ih

end

end AppendCall

/-- A migrated queue with jobs to which nothing has been appended. -/
structure NothingAppended (s : Store) : Prop where
  migration : ∃ state, s.read .migrationState = some state ∧ state.complete = true
  files : ∀ p, listingFile p → p ≠ .migrationState → s.read p = none
  counts : ∀ jobId, countsOf s jobId = (0, 0, 0)

/-- A queue to which nothing was appended lists nothing, so its listings agree with its pages. -/
theorem NothingAppended.listings {s : Store} (h : NothingAppended s) : Listings s := by
  have hagrees : ∀ {α : Type} (K : JobFamily α) (jobId : DurableRecordId),
      (∀ id, K.copy s jobId id = none) → K.size s jobId = 0 → Agrees K s jobId := by
    intro α K jobId hcopy _
    refine ⟨fun id r hr => ?_, fun n hpos hle => by omega⟩
    rw [hcopy] at hr
    cases hr
  refine ⟨h.migration, ⟨fun jobId => hagrees _ jobId (fun id => ?_) ?_, fun jobId id hid => ?_⟩,
    ⟨fun jobId => hagrees _ jobId (fun id => ?_) ?_, fun jobId id hid => ?_⟩,
    .settled (fun jobId => hagrees _ jobId (fun id => ?_) ?_) fun key => ?_, fun jobId id hid => ?_⟩
  · exact h.files (.artifactByJob jobId id) trivial (by simp)
  · rw [artifactFamily_size, h.counts]
  · rw [show artifactFamily.copy s jobId id = none from
      h.files (.artifactByJob jobId id) trivial (by simp)] at hid
    cases hid
  · exact h.files (.progressByJob jobId id) trivial (by simp)
  · rw [progressFamily_size, h.counts]
  · rw [show progressFamily.copy s jobId id = none from
      h.files (.progressByJob jobId id) trivial (by simp)] at hid
    cases hid
  · exact h.files (.taskByJob jobId id) trivial (by simp)
  · rw [taskFamily_size, h.counts]
  · exact h.files (.intent key) trivial (by simp)
  · rw [taskFamily_copy, h.files (.taskByJob jobId id) trivial (by simp)] at hid
    cases hid

/-- **The pages of a job return its listings** in every state of every run of appends in which no
append of an artifact or of a progress record ends while it is indexed; appends of tasks may stop
anywhere. -/
theorem pages_return_listings_of_run [Platform] [Entropy] {s₀ s : Store} (h₀ : NothingAppended s₀)
    (hrun : AppendCall.CleanRun s₀ s) (jobId : DurableRecordId)
    (hindex : (s.read (.jobIndex jobId)).isSome) :
    PagesReturnListing (listTasksPage jobId) (listTasks jobId) s ∧
      PagesReturnListing (listArtifactsPage jobId) (listArtifacts jobId) s ∧
      PagesReturnListing (listProgressPage jobId) (listProgress jobId) s := by
  have hs := hrun.listings h₀.listings
  exact ⟨hs.tasks_return hindex, hs.artifacts_return hindex, hs.progress_return hindex⟩

/-! ### A sample run -/

/-- A queue with one job. -/
def sampleOneJob : Store :=
  ((@submitJob samplePlatform sampleEntropy sampleJob).run sampleInitialized sampleSupply).store

theorem nothingAppended_sampleOneJob : NothingAppended sampleOneJob := by
  refine ⟨⟨⟨true, true, true, true, none, 0, 0⟩, by decide +kernel, rfl⟩, fun p hp hne => ?_,
    fun jobId => ?_⟩
  · have hpaths : ∀ p ∈ sampleOneJob.collect fun p _ => some p,
        listingFile p → p = .migrationState := by decide +kernel
    rw [Option.eq_none_iff_forall_ne_some]
    intro c hread
    exact hne (hpaths p (Files.mem_collect.2 ⟨p, c, hread, rfl⟩) hp)
  · have hindexes : ∀ counts ∈ sampleOneJob.collect fun p c => match p, c with
        | .jobIndex _, index => some (index.taskCount, index.artifactCount, index.progressCount)
        | _, _ => none, counts = (0, 0, 0) := by decide +kernel
    unfold countsOf
    rcases hread : sampleOneJob.read (.jobIndex jobId) with _ | index
    · rfl
    · exact hindexes _ (Files.mem_collect.2 ⟨_, index, hread, rfl⟩)

/-- Two artifacts of the job. -/
def sampleArtifact : Bool → ArtifactRef
  | first =>
    { artifactId := if first then ⟨"artifact_1", by decide⟩ else ⟨"artifact_2", by decide⟩
      jobId := sampleJob.jobId
      sequence := none
      uri := "file:///result"
      kind := "file"
      sizeBytes := none
      sha256 := none
      createdAt := 0
      metadata := [] }

/-- The first artifact is appended by a process that stops after `writes` durable writes, then the
second by one that runs to its end. -/
def sampleAppended (writes : Nat) : Store :=
  let append first := @AppendCall.prog samplePlatform sampleEntropy (.artifact (sampleArtifact first))
  ((append false).run ((append true).stopped writes sampleOneJob sampleSupply) sampleSupply).store

/-- **The pages and the listing disagree.**  A process stops after it has written the first
artifact at position 1 and before it has counted it; the second artifact takes the position: the
listing returns both artifacts, the pages return one. -/
theorem artifact_pages_lose_record :
    NothingAppended sampleOneJob ∧
      @AppendCall.Run samplePlatform sampleOneJob (sampleAppended 4) ∧
      ((sampleAppended 4).read (.jobIndex sampleJob.jobId)).isSome ∧
      ¬ PagesReturnListing (listArtifactsPage sampleJob.jobId) (listArtifacts sampleJob.jobId)
        (sampleAppended 4) := by
  let := samplePlatform
  let := sampleEntropy
  refine ⟨nothingAppended_sampleOneJob, ?_, by decide +kernel, fun hreturn => ?_⟩
  · have hfresh : sampleOneJob.read (.artifact (sampleArtifact true).artifactId) = none := by
      decide +kernel
    have hfresh' : ((AppendCall.prog (.artifact (sampleArtifact true))).stopped 4 sampleOneJob
        sampleSupply).read (.artifact (sampleArtifact false).artifactId) = none := by decide +kernel
    have hstop : AppendCall.Step sampleOneJob
        ((AppendCall.prog (.artifact (sampleArtifact true))).stopped 4 sampleOneJob sampleSupply) :=
      ⟨sampleEntropy, .artifact (sampleArtifact true), sampleSupply, hfresh, stopped_mem_halts ..⟩
    refine .head hstop (.single ⟨sampleEntropy, .artifact (sampleArtifact false), sampleSupply,
      hfresh', ?_⟩)
    exact List.mem_append_right _ (.head _)
  · have hlist : ((listArtifacts sampleJob.jobId).run (sampleAppended 4)
        sampleSupply).result.toOption.map List.length = some 2 := by decide +kernel
    have hpage : ((listArtifactsPage sampleJob.jobId (1 : Nat) 500).run (sampleAppended 4)
        sampleSupply).result.toOption.map (fun page => (page.records.length, page.nextCursor)) =
          some (1, none) := by decide +kernel
    rcases hlisted : ((listArtifacts sampleJob.jobId).run (sampleAppended 4) sampleSupply).result
      with e | listed
    · rw [hlisted] at hlist
      cases hlist
    rcases hfound : ((listArtifactsPage sampleJob.jobId (1 : Nat) 500).run (sampleAppended 4)
      sampleSupply).result with e | found
    · rw [hfound] at hpage
      cases hpage
    rw [hlisted] at hlist
    rw [hfound] at hpage
    have hlen : listed.length = 2 := Option.some.inj hlist
    obtain ⟨_, hnext⟩ := Prod.mk.inj (Option.some.inj hpage)
    have hperm := ((hreturn sampleSupply listed hlisted (fun _ => 500) fun _ => by decide).2 _ _
      (.last hfound hnext)).1.length_eq
    omega

/-- Both artifacts are appended by processes that run to their end: pages and listing agree. -/
theorem pages_return_listings_of_run_sample :
    ((listArtifacts sampleJob.jobId).run (sampleAppended 100) sampleSupply).result.toOption.map
        List.length = some 2 ∧
      PagesReturnListing (listArtifactsPage sampleJob.jobId) (listArtifacts sampleJob.jobId)
        (sampleAppended 100) := by
  let := samplePlatform
  let := sampleEntropy
  have hclean : ∀ first s, AppendCall.Fresh s (.artifact (sampleArtifact first)) →
      ((appendArtifact (sampleArtifact first)).run s sampleSupply).result.isOk = true →
      AppendCall.CleanStep s ((AppendCall.prog (.artifact (sampleArtifact first))).run s
        sampleSupply).store := by
    intro first s hfresh hok
    rcases hres : ((appendArtifact (sampleArtifact first)).run s sampleSupply).result with e | _
    · rw [hres] at hok
      cases hok
    refine ⟨sampleEntropy, .artifact (sampleArtifact first), sampleSupply, hfresh,
      List.mem_append_right _ (.head _), ?_⟩
    have hstore := (run_bind (f := fun _ => (pure () : Op Unit)) hres).2
    exact hstore ▸ store_mem_outside hres
  have hfirst : (AppendCall.prog (.artifact (sampleArtifact true))).stopped 100 sampleOneJob
      sampleSupply = ((AppendCall.prog (.artifact (sampleArtifact true))).run sampleOneJob
        sampleSupply).store := by
    unfold stopped
    rw [List.getD_eq_getElem?_getD, List.getElem?_eq_none (by decide +kernel), Option.getD_none]
  have hfresh : sampleOneJob.read (.artifact (sampleArtifact true).artifactId) = none := by
    decide +kernel
  have hfresh' : ((AppendCall.prog (.artifact (sampleArtifact true))).stopped 100 sampleOneJob
      sampleSupply).read (.artifact (sampleArtifact false).artifactId) = none := by decide +kernel
  have hrun : AppendCall.CleanRun sampleOneJob (sampleAppended 100) := by
    have hhead := hclean true sampleOneJob hfresh (by decide +kernel)
    rw [← hfirst] at hhead
    exact .head hhead (.single (hclean false _ hfresh' (by decide +kernel)))
  exact ⟨by decide +kernel,
    (pages_return_listings_of_run nothingAppended_sampleOneJob hrun sampleJob.jobId
      (by decide +kernel)).2.1⟩

end ClioQueue
