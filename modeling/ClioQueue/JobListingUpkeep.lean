/-
# Appending to a job

An append of an artifact or of a progress record is not journalled: the copy by
name, the copy by position and the count are written in turn, and a process that
stops among them leaves a position that the next append takes again.  Where no
process stops there, and for tasks in any case, the order and the copies agree
(`Listings`) in every state of every run.
-/

import ClioQueue.JobListingAgreement
import ClioQueue.QuietWrites
import ClioQueue.SyncReplay

namespace ClioQueue

open Durable Durable.Prog Durable.Files

/-! ### Beside the listings -/

/-- The files that the listings, the pages and the replay read. -/
def listingFile : Path → Prop
  | .task _ | .taskByJob .. | .taskOrder .. | .artifactByJob .. | .artifactOrder ..
  | .progressByJob .. | .progressOrder .. | .intent _ | .migrationState => True
  | _ => False

instance : DecidablePred listingFile := fun p => by
  cases p <;> first | exact .isTrue trivial | exact .isFalse id

/-- The canonical records of artifacts and progress. -/
def recordFile : Path → Prop
  | .artifact _ | .progress _ => True
  | _ => False

/-- The counts of a job. -/
def countsOf (s : Store) (jobId : DurableRecordId) : Nat × Nat × Nat :=
  ((s.read (.jobIndex jobId)).map fun index =>
    (index.taskCount, index.artifactCount, index.progressCount)).getD (0, 0, 0)

/-- The listings are the same, and no job has lost its index. -/
structure Beside (s t : Store) : Prop where
  files : ∀ p, listingFile p → t.read p = s.read p
  counts : ∀ jobId, countsOf t jobId = countsOf s jobId
  indexes : ∀ jobId, (s.read (.jobIndex jobId)).isSome → (t.read (.jobIndex jobId)).isSome
  records : ∀ p, recordFile p → (s.read p).isSome → (t.read p).isSome

section

variable {s t u : Store} {A : Path → Prop} {jobId : DurableRecordId}

theorem taskFamily_size (s : Store) (jobId : DurableRecordId) :
    taskFamily.size s jobId = (countsOf s jobId).1 := by
  unfold JobFamily.size countsOf
  cases s.read (.jobIndex jobId) <;> rfl

theorem artifactFamily_size (s : Store) (jobId : DurableRecordId) :
    artifactFamily.size s jobId = (countsOf s jobId).2.1 := by
  unfold JobFamily.size countsOf
  cases s.read (.jobIndex jobId) <;> rfl

theorem progressFamily_size (s : Store) (jobId : DurableRecordId) :
    progressFamily.size s jobId = (countsOf s jobId).2.2 := by
  unfold JobFamily.size countsOf
  cases s.read (.jobIndex jobId) <;> rfl

namespace Beside

theorem refl (s : Store) : Beside s s :=
  ⟨fun _ _ => rfl, fun _ => rfl, fun _ => id, fun _ _ => id⟩

theorem trans (h : Beside s t) (h' : Beside t u) : Beside s u :=
  ⟨fun p hp => (h'.files p hp).trans (h.files p hp),
    fun id => (h'.counts id).trans (h.counts id), fun id hid => h'.indexes id (h.indexes id hid),
    fun p hp hs => h'.records p hp (h.records p hp hs)⟩

theorem of_agree (hA : ∀ p, A p → ¬ listingFile p ∧ ¬ recordFile p ∧ ∀ id, p ≠ .jobIndex id)
    (h : Agree A s t) : Beside s t := by
  have hidx : ∀ id, t.read (.jobIndex id) = s.read (.jobIndex id) := fun id =>
    h _ fun hA' => (hA _ hA').2.2 id rfl
  refine ⟨fun p hp => h p fun hA' => (hA p hA').1 hp, fun id => ?_, fun id hid => ?_,
    fun p hp hs => ?_⟩
  · unfold countsOf
    rw [hidx]
  · rwa [hidx]
  · rwa [h p fun hA' => (hA p hA').2.1 hp]

theorem record {p : Path} (hp : recordFile p) (s : Store) (c : Content p) :
    Beside s (s.write p c) := by
  have hidx : ∀ id, (s.write p c).read (.jobIndex id) = s.read (.jobIndex id) := fun id =>
    read_write_ne _ (by rintro rfl; exact hp)
  refine ⟨fun q hq => read_write_ne _ ?_, fun id => ?_, fun id hid => ?_, fun q _ hs => ?_⟩
  · rintro rfl
    cases q <;> first | exact hp.elim | exact hq.elim
  · unfold countsOf
    rw [hidx]
  · rwa [hidx]
  · rw [read_write]
    split
    · next heq =>
        subst heq
        rfl
    · exact hs

/-- An index is rewritten with the same counts. -/
theorem index (index : JobIndex) (hcounts : (index.taskCount, index.artifactCount,
    index.progressCount) = countsOf s jobId) : Beside s (s.write (.jobIndex jobId) index) := by
  refine ⟨fun p hp => read_write_ne _ (by rintro rfl; exact hp), fun id => ?_,
    fun id hid => ?_, fun p hp hs => ?_⟩
  · by_cases heq : id = jobId
    · subst heq
      rw [← hcounts, countsOf, read_write_self]
      rfl
    · unfold countsOf
      rw [read_write_ne _ (by simpa using heq)]
  · by_cases heq : id = jobId
    · subst heq
      rw [read_write_self]
      rfl
    · rwa [read_write_ne _ (by simpa using heq)]
  · rwa [read_write_ne _ (by rintro rfl; exact hp)]

end Beside

theorem within_beside_confined {α : Type} {m : Op α} (hm : Confined A m)
    (hA : ∀ p, A p → ¬ listingFile p ∧ ¬ recordFile p ∧ ∀ id, p ≠ .jobIndex id) :
    Within Beside m :=
  fun _ _ => hm.wp (fun _ => Beside.of_agree hA) (fun _ _ _ => Beside.of_agree hA)
    fun _ _ _ => Beside.of_agree hA

theorem within_beside_readOnly {α : Type} {m : Op α} (hm : m.ReadOnly) : Within Beside m :=
  fun s _ => hm.wp (fun _ _ => Beside.refl s) fun _ _ => Beside.refl s

theorem within_beside_bind {α β : Type} {m : Op α} {f : α → Op β} (hm : Within Beside m)
    (hf : ∀ a, Within Beside (f a)) : Within Beside (m >>= f) :=
  within_bind (R := Beside) (fun _ _ _ => Beside.trans) hm hf

/-- An update that leaves the counts alone. -/
theorem within_beside_updateJobIndex (jobId : DurableRecordId) {update : JobIndex → JobIndex}
    (hupd : ∀ index, ((update index).taskCount, (update index).artifactCount,
      (update index).progressCount) = (index.taskCount, index.artifactCount, index.progressCount)) :
    Within Beside (updateJobIndex jobId update) := by
  intro s v
  unfold updateJobIndex
  rw [wp_bind, read_eq_look, wp_look]
  rcases hidx : s.read (.jobIndex jobId) with _ | index
  · exact (wp_pure _).2 (.refl s)
  · have hbeside : Beside s (s.write (.jobIndex jobId) (update index)) := by
      refine .index _ ?_
      unfold countsOf
      rw [hidx, hupd]
      rfl
    exact wp_put.2 ⟨hbeside, hbeside⟩

theorem within_beside_appendEventUnlocked [Platform] [Entropy] (jobId : DurableRecordId)
    (eventType message : String) (payload : Dict) :
    Within Beside (appendEventUnlocked jobId eventType message payload) := by
  refine within_beside_bind (within_beside_readOnly (readOnly_nextEventSeq jobId)) fun seq =>
    within_beside_bind (within_beside_readOnly readOnly_utcNow) fun createdAt =>
      within_beside_bind ?_ fun _ => within_beside_bind ?_ fun _ =>
        within_pure Beside.refl _
  · refine within_beside_confined (A := (· = Path.event jobId seq)) (confined_putWithin _ _ rfl) ?_
    rintro p rfl
    exact ⟨id, id, by simp⟩
  · exact within_beside_updateJobIndex jobId fun _ => rfl

end

/-! ### The invariant -/

/-- The copies of a family agree with its order for every job, and every copy has its canonical
record. -/
structure Kept {α : Type} (K : JobFamily α) (canonical : DurableRecordId → Path) (s : Store) :
    Prop where
  agrees : ∀ jobId, Agrees K s jobId
  named : ∀ jobId id, (K.copy s jobId id).isSome → (s.read (canonical id)).isSome

/-- A task is being appended: `s` is on its way from the settled `b`. -/
structure Toward (b : Store) (task : RelayTask) (s : Store) : Prop where
  base : ∀ jobId, Agrees taskFamily b jobId
  fresh : taskFamily.copy b task.jobId task.taskId = none
  position : task.sequence = some (taskFamily.size b task.jobId + 1)
  copies : ∀ jobId id, ¬ (jobId = task.jobId ∧ id = task.taskId) →
    taskFamily.copy s jobId id = taskFamily.copy b jobId id
  own : taskFamily.copy s task.jobId task.taskId = none ∨
    taskFamily.copy s task.jobId task.taskId = some task
  orders : ∀ jobId n, ¬ (jobId = task.jobId ∧ n = taskFamily.size b task.jobId + 1) →
    taskFamily.ordered s jobId n = taskFamily.ordered b jobId n
  sizes : ∀ jobId, jobId ≠ task.jobId → taskFamily.size s jobId = taskFamily.size b jobId
  size : taskFamily.size s task.jobId = taskFamily.size b task.jobId ∨
    taskFamily.size s task.jobId = taskFamily.size b task.jobId + 1 ∧
      taskFamily.copy s task.jobId task.taskId = some task ∧
      taskFamily.ordered s task.jobId (taskFamily.size b task.jobId + 1) = some task

/-- **The tasks of all jobs**: settled, or with one append under way that its intent knows of. -/
inductive TaskBooks (s : Store) : Prop
  | settled (agrees : ∀ jobId, Agrees taskFamily s jobId)
      (quiet : ∀ key, s.read (.intent key) = none)
  | announced (task : RelayTask) (agrees : ∀ jobId, Agrees taskFamily s jobId)
      (intent : s.read (.intent (.taskSync task.taskId)) = some (.taskSync task.jobId task.taskId))
      (alone : ∀ key, key ≠ .taskSync task.taskId → s.read (.intent key) = none)
      (canonical : s.read (.task task.taskId) = none)
  | pending (task : RelayTask) (b : Store) (toward : Toward b task s)
      (intent : s.read (.intent (.taskSync task.taskId)) = some (.taskSync task.jobId task.taskId))
      (alone : ∀ key, key ≠ .taskSync task.taskId → s.read (.intent key) = none)
      (canonical : s.read (.task task.taskId) = some task)

/-- **The listings of all jobs.** -/
structure Listings (s : Store) : Prop where
  migration : ∃ state, s.read .migrationState = some state ∧ state.complete = true
  artifacts : Kept artifactFamily .artifact s
  progress : Kept progressFamily .progress s
  tasks : TaskBooks s
  taskNamed : ∀ jobId id, (taskFamily.copy s jobId id).isSome → (s.read (.task id)).isSome

/-- The copies, the order and the counts of a family are the same. -/
structure SameFamily {α : Type} (K : JobFamily α) (s t : Store) : Prop where
  copy : ∀ jobId id, K.copy t jobId id = K.copy s jobId id
  ordered : ∀ jobId n, K.ordered t jobId n = K.ordered s jobId n
  size : ∀ jobId, K.size t jobId = K.size s jobId

section

variable {s t : Store} {α : Type} {K : JobFamily α}
  {jobId : DurableRecordId} {task : RelayTask} {b : Store}

theorem Beside.sameTasks (h : Beside s t) : SameFamily taskFamily s t :=
  ⟨fun jobId id => h.files (.taskByJob jobId id) trivial,
    fun jobId n => h.files (.taskOrder jobId n) trivial,
    fun jobId => by rw [taskFamily_size, taskFamily_size, h.counts]⟩

theorem Beside.sameArtifacts (h : Beside s t) : SameFamily artifactFamily s t :=
  ⟨fun jobId id => h.files (.artifactByJob jobId id) trivial,
    fun jobId n => h.files (.artifactOrder jobId n) trivial,
    fun jobId => by rw [artifactFamily_size, artifactFamily_size, h.counts]⟩

theorem Beside.sameProgress (h : Beside s t) : SameFamily progressFamily s t :=
  ⟨fun jobId id => h.files (.progressByJob jobId id) trivial,
    fun jobId n => h.files (.progressOrder jobId n) trivial,
    fun jobId => by rw [progressFamily_size, progressFamily_size, h.counts]⟩

theorem SameFamily.agrees (h : SameFamily K s t) (hs : Agrees K s jobId) : Agrees K t jobId :=
  hs.frame (h.copy jobId) (h.ordered jobId) (h.size jobId)

theorem Kept.frame {canonical : DurableRecordId → Path} (h : Kept K canonical s)
    (hK : SameFamily K s t)
    (hnamed : ∀ id, (s.read (canonical id)).isSome → (t.read (canonical id)).isSome) :
    Kept K canonical t := by
  refine ⟨fun jobId => hK.agrees (h.agrees jobId), fun jobId id hid => hnamed id (h.named jobId id ?_)⟩
  rwa [hK.copy] at hid

theorem Toward.frame (h : Toward b task s) (hK : SameFamily taskFamily s t) : Toward b task t := by
  refine ⟨h.base, h.fresh, h.position, fun jobId id hne => (hK.copy ..).trans (h.copies jobId id hne),
    ?_, fun jobId n hne => (hK.ordered ..).trans (h.orders jobId n hne),
    fun jobId hne => (hK.size jobId).trans (h.sizes jobId hne), ?_⟩
  · rw [hK.copy]
    exact h.own
  · rw [hK.copy, hK.ordered, hK.size]
    exact h.size

/-- A record is added to the job `jobId`: the copies, the order and the count. -/
structure Extended (K : JobFamily α) (r : α) (jobId : DurableRecordId) (s t : Store) : Prop where
  copy : ∀ job id, ¬ (job = jobId ∧ id = K.identity r) → K.copy t job id = K.copy s job id
  own : K.copy t jobId (K.identity r) = some r
  ordered : ∀ job n, ¬ (job = jobId ∧ n = K.size s jobId + 1) →
    K.ordered t job n = K.ordered s job n
  last : K.ordered t jobId (K.size s jobId + 1) = some r
  sizes : ∀ job, job ≠ jobId → K.size t job = K.size s job
  size : K.size t jobId = K.size s jobId + 1

/-- One record more at the next position keeps the agreement of listings, copies and counts for
every job. -/
theorem Extended.agrees {r : α} (h : Extended K r jobId s t) (hs : ∀ job, Agrees K s job)
    (hpos : K.position r = some (K.size s jobId + 1))
    (hfresh : K.copy s jobId (K.identity r) = none) : ∀ job, Agrees K t job := by
  intro job
  by_cases heq : job = jobId
  · subst heq
    refine (hs job).extend hpos hfresh (fun id hne => ?_) h.own (fun n hne => ?_) h.last h.size
    · exact h.copy _ _ fun hand => hne hand.2
    · exact h.ordered _ _ fun hand => hne hand.2
  · refine (hs job).frame (fun id => ?_) (fun n => ?_) (h.sizes job heq)
    · exact h.copy _ _ fun hand => heq hand.1
    · exact h.ordered _ _ fun hand => heq hand.1

/-- An append that has counted its task is done. -/
theorem Toward.agrees (h : Toward b task s)
    (hsize : taskFamily.size s task.jobId = taskFamily.size b task.jobId + 1) :
    ∀ jobId, Agrees taskFamily s jobId := by
  rcases h.size with _ | ⟨-, hcopy, hord⟩
  · omega
  · have hext : Extended taskFamily task task.jobId b s :=
      ⟨h.copies, hcopy, h.orders, hord, h.sizes, hsize⟩
    exact hext.agrees h.base h.position h.fresh

/-- The books of tasks depend on the tasks, their copies and orders, and the intents only. -/
theorem TaskBooks.frame (h : TaskBooks s) (hK : SameFamily taskFamily s t)
    (hintent : ∀ key, t.read (.intent key) = s.read (.intent key))
    (htask : ∀ id, t.read (.task id) = s.read (.task id)) : TaskBooks t := by
  cases h with
  | settled agrees quiet =>
    exact .settled (fun id => hK.agrees (agrees id)) fun key => (hintent key).trans (quiet key)
  | announced task agrees intent alone canonical =>
    exact .announced task (fun id => hK.agrees (agrees id)) ((hintent _).trans intent)
      (fun key hne => (hintent key).trans (alone key hne)) ((htask _).trans canonical)
  | pending task b toward intent alone canonical =>
    exact .pending task b (toward.frame hK) ((hintent _).trans intent)
      (fun key hne => (hintent key).trans (alone key hne)) ((htask _).trans canonical)

/-- The listings when the tasks are the same. -/
theorem Listings.rebuild (h : Listings s) (harts : Kept artifactFamily .artifact t)
    (hprog : Kept progressFamily .progress t) (htasks : SameFamily taskFamily s t)
    (hst : t.read .migrationState = s.read .migrationState)
    (hintent : ∀ key, t.read (.intent key) = s.read (.intent key))
    (htask : ∀ id, t.read (.task id) = s.read (.task id)) : Listings t := by
  refine ⟨?_, harts, hprog, h.tasks.frame htasks hintent htask, fun jobId id hid => ?_⟩
  · rw [hst]
    exact h.migration
  · rw [htasks.copy] at hid
    rw [htask]
    exact h.taskNamed jobId id hid

/-- What happens beside the listings keeps them. -/
theorem Listings.beside (h : Listings s) (ht : Beside s t) : Listings t :=
  h.rebuild (h.artifacts.frame ht.sameArtifacts fun id => ht.records (.artifact id) trivial)
    (h.progress.frame ht.sameProgress fun id => ht.records (.progress id) trivial) ht.sameTasks
    (ht.files .migrationState trivial) (fun key => ht.files (.intent key) trivial)
    fun id => ht.files (.task id) trivial

end

/-! ### Artifacts and progress -/

section

variable [Platform] [Entropy] {s : Store} {v : Supply}
  {artifact saved : ArtifactRef} {jobId : DurableRecordId} {n : Nat}
  {bump : Nat × Nat × Nat → Nat × Nat × Nat} {byName byPosition : Path} {progress : ProgressRecord}
  {E : Post RelayError} {t : Store} {C : Store → Prop}

omit [Platform] [Entropy] in
theorem artifactWithSequence_ok {sequence : Nat}
    (h : artifactWithSequence artifact sequence = .ok saved) :
    saved.artifactId = artifact.artifactId ∧ saved.jobId = artifact.jobId ∧
      saved.sequence = some sequence := by
  unfold artifactWithSequence at h
  split at h
  · cases h
    exact ⟨rfl, rfl, rfl⟩
  · split at h
    · cases h
    · cases h
      exact ⟨rfl, rfl, rfl⟩

omit [Platform] [Entropy] in
theorem wp_nextJobRecordSequence {Q : Post Nat} {α : Type} (K : JobFamily α)
    (hQ : (s.read (.jobIndex jobId)).isSome → Q (K.size s jobId + 1) s v) (hE : ∀ err, E err s v) :
    wp (nextJobRecordSequence jobId K.count) C Q E s v := by
  unfold nextJobRecordSequence
  rw [wp_bind, read_eq_look, wp_look]
  rcases hidx : s.read (.jobIndex jobId) with _ | _
  · exact (wp_raise _).2 (hE _)
  · refine (wp_pure _).2 ?_
    have hnext := hQ (by rw [hidx]; rfl)
    unfold JobFamily.size at hnext
    rw [hidx] at hnext
    exact hnext

omit [Entropy] in
/-- The canonical record of an artifact is saved beside the listings. -/
theorem wp_saveArtifact {Q : Post (ArtifactRef × Nat)} (hC : ∀ t, Beside s t → C t)
    (hE : ∀ err w, E err s w)
    (hQ : ∀ (saved : ArtifactRef) w, saved.artifactId = artifact.artifactId → saved.sequence = some (artifactFamily.size s saved.jobId + 1) → (s.read (.jobIndex saved.jobId)).isSome → Q (saved, artifactFamily.size s saved.jobId + 1) (s.write (.artifact saved.artifactId) saved) w) :
    wp (saveArtifact artifact) C Q E s v := by
  unfold saveArtifact
  rw [wp_bind]
  refine (readOnly_getJob _).wp (fun _ w => ?_) fun _ _ => hE _ _
  rw [wp_bind]
  refine wp_nextJobRecordSequence artifactFamily (fun hidx => ?_) fun _ => hE _ _
  refine wp_ofExcept_then (fun saved hsaved => ?_) fun _ _ => hE _ _
  obtain ⟨hid, hjob, hseq⟩ := artifactWithSequence_ok hsaved
  refine wp_putWithin_then (fun _ => ⟨hC _ (.record (p := .artifact saved.artifactId) trivial s saved), ?_⟩)
    fun _ => hE _ _
  rw [← hjob] at hidx hseq ⊢
  exact (wp_pure _).2 (hQ saved w hid hseq hidx)

omit [Entropy] in
/-- The canonical record of a progress observation is saved beside the listings. -/
theorem wp_saveProgress {Q : Post (ProgressRecord × Nat)}
    (hC : ∀ t, Beside s t → C t) (hE : ∀ err w, E err s w)
    (hQ : ∀ (saved : ProgressRecord) w, saved.progressId = progress.progressId → saved.sequence = some (progressFamily.size s saved.jobId + 1) → (s.read (.jobIndex saved.jobId)).isSome → Q (saved, progressFamily.size s saved.jobId + 1) (s.write (.progress saved.progressId) saved) w) :
    wp (saveProgress progress) C Q E s v := by
  unfold saveProgress
  rw [wp_bind]
  refine (readOnly_getJob _).wp (fun _ w => ?_) fun _ _ => hE _ _
  rw [wp_bind]
  refine wp_nextJobRecordSequence progressFamily (fun hidx => ?_) fun _ => hE _ _
  refine wp_putWithin_then (fun _ => ⟨hC _ (.record (p := .progress progress.progressId) trivial s _), ?_⟩)
    fun _ => hE _ _
  exact (wp_pure _).2
    (hQ { progress with sequence := some (progressFamily.size s progress.jobId + 1) } w rfl rfl hidx)

/-- A record has been indexed: its copy by name and by position are written and it is counted. -/
structure Counted {byName byPosition : Path} (first : Content byName) (second : Content byPosition)
    (bump : Nat × Nat × Nat → Nat × Nat × Nat) (jobId : DurableRecordId) (s t : Store) : Prop where
  files : ∀ p, listingFile p → p ≠ byName → p ≠ byPosition → t.read p = s.read p
  named : t.read byName = some first
  placed : t.read byPosition = some second
  counts : ∀ id, countsOf t id = if id = jobId then bump (countsOf s jobId) else countsOf s id
  indexes : ∀ id, (s.read (.jobIndex id)).isSome → (t.read (.jobIndex id)).isSome
  records : ∀ p, recordFile p → (s.read p).isSome → (t.read p).isSome

omit [Platform] [Entropy] in
/-- Three writes with quiet work between them. -/
theorem Counted.of_steps {first : Content byName} {second : Content byPosition} {index : JobIndex}
    (update : JobIndex → JobIndex) {s₂ s₄ : Store} (hname : listingFile byName)
    (hpos : listingFile byPosition) (hne : byName ≠ byPosition)
    (h₂ : Beside (s.write byName first) s₂) (h₄ : Beside (s₂.write byPosition second) s₄)
    (hidx : s₄.read (.jobIndex jobId) = some index)
    (hbump : ∀ index, ((update index).taskCount, (update index).artifactCount, (update index).progressCount) = bump (index.taskCount, index.artifactCount, index.progressCount)) :
    Counted first second bump jobId s (s₄.write (.jobIndex jobId) (update index)) := by
  have hcounts : ∀ {s : Store} {p : Path} {c : Content p} {id : DurableRecordId}, listingFile p →
      countsOf (s.write p c) id = countsOf s id := by
    intro s p c id hp
    unfold countsOf
    rw [read_write_ne _ (by rintro rfl; exact hp)]
  have hrecs : ∀ {s : Store} {p q : Path} {c : Content p}, listingFile p → recordFile q →
      (s.write p c).read q = s.read q := by
    intro s p q c hp hq
    refine read_write_ne _ ?_
    rintro rfl
    cases q <;> first | exact hp.elim | exact hq.elim
  have hsame : ∀ id, countsOf s₄ id = countsOf s id := fun id => by
    rw [h₄.counts, hcounts hpos, h₂.counts, hcounts hname]
  refine ⟨fun p hp hne hne' => ?_, ?_, ?_, fun id => ?_, fun id hid => ?_, fun p hp hs => ?_⟩
  · rw [read_write_ne _ (by rintro rfl; exact hp), h₄.files p hp, read_write_ne _ hne',
      h₂.files p hp, read_write_ne _ hne]
  · rw [read_write_ne _ (by rintro rfl; exact hname), h₄.files _ hname,
      read_write_ne _ hne, h₂.files _ hname, read_write_self]
  · rw [read_write_ne _ (by rintro rfl; exact hpos), h₄.files _ hpos, read_write_self]
  · by_cases heq : id = jobId
    · subst heq
      rw [if_pos rfl, ← hsame]
      unfold countsOf
      rw [read_write_self, hidx]
      exact hbump index
    · rw [if_neg heq, ← hsame]
      unfold countsOf
      rw [read_write_ne _ (by simpa using heq)]
  · by_cases heq : id = jobId
    · subst heq
      rw [read_write_self]
      rfl
    · rw [read_write_ne _ (by simpa using heq)]
      refine h₄.indexes id ?_
      rw [read_write_ne _ (by rintro rfl; exact hpos)]
      refine h₂.indexes id ?_
      rwa [read_write_ne _ (by rintro rfl; exact hname)]
  · rw [read_write_ne _ (by rintro rfl; exact hp)]
    refine h₄.records p hp ?_
    rw [hrecs hpos hp]
    refine h₂.records p hp ?_
    rwa [hrecs hname hp]

omit [Platform] [Entropy] in
/-- What is written while an artifact is indexed, beside its copies and its count. -/
theorem within_beside_initializeArtifactUserOrder (artifactId : DurableRecordId) :
    Within Beside (initializeArtifactUserOrder artifactId) := by
  refine within_beside_confined (A := (· = Path.artifactUserHead artifactId)) ?_ ?_
  · exact .bind (confined_present _) fun _ => .ite (.pure _) (confined_put _ rfl)
  · rintro p rfl
    exact ⟨id, id, by simp⟩

section

omit [Entropy]

theorem within_beside_linkGatewaysForArtifact (artifact : ArtifactRef) :
    Within Beside (linkGatewaysForArtifact artifact) := by
  refine within_beside_confined (A := gatewayFile) ?_ fun p hp => ?_
  · refine .bind (confined_boundedListing ..) fun _ => .each _ fun gateway _ => .ite (.pure _) ?_
    exact confined_linkActiveGatewayJob gateway _ _ _ _ (fun _ _ => trivial) fun _ _ => trivial
  · cases p <;> first | exact hp.elim | exact ⟨id, id, by simp⟩

/-- **An artifact is indexed.** -/
theorem wp_indexArtifact (hidx : (s.read (.jobIndex saved.jobId)).isSome) :
    wp (indexArtifact saved n) (fun _ => True)
      (fun _ t _ => @Counted (.artifactByJob saved.jobId saved.artifactId)
        (.artifactOrder saved.jobId n) saved saved (fun c => (c.1, c.2.1 + 1, c.2.2)) saved.jobId s t)
      (fun _ _ _ => True) s v := by
  unfold indexArtifact
  refine wp_putWithin_then (fun _ => ⟨trivial, ?_⟩) fun _ => trivial
  rw [wp_bind]
  refine (within_beside_initializeArtifactUserOrder _).wp (fun _ _ => trivial)
    (fun _ s₂ w₂ h₂ => ?_) fun _ _ _ _ => trivial
  refine wp_putWithin_then (fun _ => ⟨trivial, ?_⟩) fun _ => trivial
  rw [wp_bind]
  refine (within_beside_linkGatewaysForArtifact _).wp (fun _ _ => trivial)
    (fun _ s₄ w₄ h₄ => ?_) fun _ _ _ _ => trivial
  have hthere : (s₄.read (.jobIndex saved.jobId)).isSome := by
    refine h₄.indexes _ ?_
    rw [read_write_ne _]
    refine h₂.indexes _ ?_
    rwa [read_write_ne _]
  obtain ⟨index, hread⟩ := Option.isSome_iff_exists.1 hthere
  unfold updateJobIndex
  rw [wp_bind, read_eq_look, wp_look, hread]
  refine wp_put.2 ⟨trivial, ?_⟩
  exact Counted.of_steps (fun index => { index with artifactCount := index.artifactCount + 1 })
    trivial trivial (by simp) h₂ h₄ hread fun _ => rfl

/-- **A progress record is indexed.** -/
theorem wp_indexProgress {saved : ProgressRecord} (hidx : (s.read (.jobIndex saved.jobId)).isSome) :
    wp (indexProgress saved n) (fun _ => True)
      (fun _ t _ => @Counted (.progressByJob saved.jobId saved.progressId)
        (.progressOrder saved.jobId n) saved saved (fun c => (c.1, c.2.1, c.2.2 + 1)) saved.jobId s t)
      (fun _ _ _ => True) s v := by
  unfold indexProgress
  refine wp_putWithin_then (fun _ => ⟨trivial, ?_⟩) fun _ => trivial
  refine wp_putWithin_then (fun _ => ⟨trivial, ?_⟩) fun _ => trivial
  obtain ⟨index, hread⟩ := Option.isSome_iff_exists.1 hidx
  have hthere : ((s.write (.progressByJob saved.jobId saved.progressId) saved).write
      (.progressOrder saved.jobId n) saved).read (.jobIndex saved.jobId) = some index := by
    rw [read_write_ne _, read_write_ne _, hread]
  unfold updateJobIndex
  rw [wp_bind, read_eq_look, wp_look, hthere]
  refine wp_put.2 ⟨trivial, ?_⟩
  exact Counted.of_steps (fun index => { index with
      progressCount := index.progressCount + 1
      latestProgressId := some saved.progressId })
    trivial trivial (by simp) (.refl _) (.refl _) hthere fun _ => rfl

end

section

omit [Platform] [Entropy]

/-- A family grows by a record with its canonical record. -/
theorem Kept.extend {α : Type} {K : JobFamily α} {canonical : DurableRecordId → Path} {r : α}
    (h : Kept K canonical s) (ht : Extended K r jobId s t)
    (hpos : K.position r = some (K.size s jobId + 1))
    (hfresh : K.copy s jobId (K.identity r) = none)
    (hnamed : ∀ id, (s.read (canonical id)).isSome → (t.read (canonical id)).isSome)
    (hown : (s.read (canonical (K.identity r))).isSome) : Kept K canonical t := by
  refine ⟨ht.agrees h.agrees hpos hfresh, fun job id hid => ?_⟩
  by_cases heq : job = jobId ∧ id = K.identity r
  · obtain ⟨-, rfl⟩ := heq
    exact hnamed _ hown
  · rw [ht.copy job id heq] at hid
    exact hnamed id (h.named job id hid)

/-- A record that is not there has no copy. -/
theorem Kept.fresh {α : Type} {K : JobFamily α} {canonical : DurableRecordId → Path}
    {id : DurableRecordId} (h : Kept K canonical s) (jobId : DurableRecordId)
    (hfresh : s.read (canonical id) = none) : K.copy s jobId id = none := by
  rw [← Option.not_isSome_iff_eq_none]
  intro hcopy
  have hnamed := h.named jobId id hcopy
  rw [hfresh] at hnamed
  cases hnamed

theorem Counted.same {α : Type} {K : JobFamily α} {first : Content byName}
    {second : Content byPosition} (h : Counted first second bump jobId s t)
    (size : Nat × Nat × Nat → Nat) (hsize : ∀ s job, K.size s job = size (countsOf s job))
    (hbump : ∀ counts, size (bump counts) = size counts)
    (hcopy : ∀ job id, K.copy t job id = K.copy s job id)
    (hord : ∀ job n, K.ordered t job n = K.ordered s job n) : SameFamily K s t := by
  refine ⟨hcopy, hord, fun job => ?_⟩
  rw [hsize, hsize, h.counts]
  split
  · next heq => rw [heq, hbump]
  · rfl

/-- The listings after an artifact has been indexed. -/
theorem Listings.countArtifact {t : Store} {saved : ArtifactRef} (h : Listings s)
    (ht : @Counted (.artifactByJob saved.jobId saved.artifactId)
      (.artifactOrder saved.jobId (artifactFamily.size s saved.jobId + 1)) saved saved
      (fun c => (c.1, c.2.1 + 1, c.2.2)) saved.jobId s t)
    (hseq : saved.sequence = some (artifactFamily.size s saved.jobId + 1))
    (hfresh : s.read (.artifactByJob saved.jobId saved.artifactId) = none)
    (hown : (s.read (.artifact saved.artifactId)).isSome) : Listings t := by
  have hfile : ∀ p, listingFile p → (∀ job id, p ≠ .artifactByJob job id) →
      (∀ job n, p ≠ .artifactOrder job n) → t.read p = s.read p := fun p hp hne hne' =>
    ht.files p hp (hne _ _) (hne' _ _)
  have htasks : SameFamily taskFamily s t :=
    ht.same Prod.fst taskFamily_size (fun _ => rfl)
      (fun job id => hfile (.taskByJob job id) trivial (by simp) (by simp))
      fun job n => hfile (.taskOrder job n) trivial (by simp) (by simp)
  have hprog : SameFamily progressFamily s t :=
    ht.same (fun c => c.2.2) progressFamily_size (fun _ => rfl)
      (fun job id => hfile (.progressByJob job id) trivial (by simp) (by simp))
      fun job n => hfile (.progressOrder job n) trivial (by simp) (by simp)
  have harts : Extended artifactFamily saved saved.jobId s t := by
    refine ⟨fun job id hne => ht.files (.artifactByJob job id) trivial ?_ (by simp), ht.named,
      fun job n hne => ht.files (.artifactOrder job n) trivial (by simp) ?_, ht.placed,
      fun job hne => ?_, ?_⟩
    · rintro ⟨⟩
      exact hne ⟨rfl, rfl⟩
    · rintro ⟨⟩
      exact hne ⟨rfl, rfl⟩
    · rw [artifactFamily_size, artifactFamily_size, ht.counts, if_neg hne]
    · rw [artifactFamily_size, artifactFamily_size, ht.counts, if_pos rfl]
  exact h.rebuild (h.artifacts.extend harts hseq hfresh
      (fun id => ht.records (.artifact id) trivial) hown)
    (h.progress.frame hprog fun id => ht.records (.progress id) trivial) htasks
    (hfile .migrationState trivial (by simp) (by simp))
    (fun key => hfile (.intent key) trivial (by simp) (by simp))
    fun id => hfile (.task id) trivial (by simp) (by simp)

/-- The listings after a progress record has been indexed. -/
theorem Listings.countProgress {t : Store} {saved : ProgressRecord} (h : Listings s)
    (ht : @Counted (.progressByJob saved.jobId saved.progressId)
      (.progressOrder saved.jobId (progressFamily.size s saved.jobId + 1)) saved saved
      (fun c => (c.1, c.2.1, c.2.2 + 1)) saved.jobId s t)
    (hseq : saved.sequence = some (progressFamily.size s saved.jobId + 1))
    (hfresh : s.read (.progressByJob saved.jobId saved.progressId) = none)
    (hown : (s.read (.progress saved.progressId)).isSome) : Listings t := by
  have hfile : ∀ p, listingFile p → (∀ job id, p ≠ .progressByJob job id) →
      (∀ job n, p ≠ .progressOrder job n) → t.read p = s.read p := fun p hp hne hne' =>
    ht.files p hp (hne _ _) (hne' _ _)
  have htasks : SameFamily taskFamily s t :=
    ht.same Prod.fst taskFamily_size (fun _ => rfl)
      (fun job id => hfile (.taskByJob job id) trivial (by simp) (by simp))
      fun job n => hfile (.taskOrder job n) trivial (by simp) (by simp)
  have harts : SameFamily artifactFamily s t :=
    ht.same (fun c => c.2.1) artifactFamily_size (fun _ => rfl)
      (fun job id => hfile (.artifactByJob job id) trivial (by simp) (by simp))
      fun job n => hfile (.artifactOrder job n) trivial (by simp) (by simp)
  have hprog : Extended progressFamily saved saved.jobId s t := by
    refine ⟨fun job id hne => ht.files (.progressByJob job id) trivial ?_ (by simp), ht.named,
      fun job n hne => ht.files (.progressOrder job n) trivial (by simp) ?_, ht.placed,
      fun job hne => ?_, ?_⟩
    · rintro ⟨⟩
      exact hne ⟨rfl, rfl⟩
    · rintro ⟨⟩
      exact hne ⟨rfl, rfl⟩
    · rw [progressFamily_size, progressFamily_size, ht.counts, if_neg hne]
    · rw [progressFamily_size, progressFamily_size, ht.counts, if_pos rfl]
  exact h.rebuild (h.artifacts.frame harts fun id => ht.records (.artifact id) trivial)
    (h.progress.extend hprog hseq hfresh (fun id => ht.records (.progress id) trivial) hown)
    htasks (hfile .migrationState trivial (by simp) (by simp))
    (fun key => hfile (.intent key) trivial (by simp) (by simp))
    fun id => hfile (.task id) trivial (by simp) (by simp)

end

/-- **An artifact is appended**, by a process that does not stop while it is indexed. -/
theorem Listings.outside_artifact (h : Listings s)
    (hfresh : s.read (.artifact artifact.artifactId) = none) :
    ∀ t ∈ outside (saveArtifact artifact) (fun saved => indexArtifact saved.1 saved.2)
      (fun saved => announceArtifact artifact saved.1) s v, Listings t := by
  refine wp_outside h (wp_saveArtifact (fun t ht => h.beside ht) (fun _ _ => h) ?_)
  intro saved w hid _ _
  have hbeside : Beside s (s.write (.artifact saved.artifactId) saved) :=
    .record (p := .artifact saved.artifactId) trivial s saved
  have hsize : artifactFamily.size (s.write (.artifact saved.artifactId) saved) saved.jobId =
      artifactFamily.size s saved.jobId := hbeside.sameArtifacts.size _
  have hnone : (s.write (.artifact saved.artifactId) saved).read
      (.artifactByJob saved.jobId saved.artifactId) = none := by
    rw [read_write_ne _]
    exact h.artifacts.fresh _ (by rwa [hid])
  refine ⟨h.beside hbeside, wp_mono (wp_indexArtifact ?_) (fun _ h => h) (fun _ t w ht => ?_)
    fun _ _ _ h => h⟩
  · rwa [read_write_ne _]
  · have hcnt : Listings t := by
      refine @Listings.countArtifact _ t saved (h.beside hbeside) ?_ ?_ hnone ?_
      · rwa [hsize]
      · rwa [hsize]
      · rw [read_write_self]
        rfl
    refine ⟨hcnt, ?_⟩
    unfold announceArtifact
    rw [wp_bind]
    exact (within_beside_appendEventUnlocked _ _ _ _).wp (fun _ => hcnt.beside)
      (fun _ _ _ ht => (wp_pure _).2 (hcnt.beside ht)) fun _ _ _ => hcnt.beside

/-- **A progress record is appended**, by a process that does not stop while it is indexed. -/
theorem Listings.outside_progress (h : Listings s)
    (hfresh : s.read (.progress progress.progressId) = none) :
    ∀ t ∈ outside (saveProgress progress) (fun saved => indexProgress saved.1 saved.2)
      (fun saved => announceProgress progress saved.1) s v, Listings t := by
  refine wp_outside h (wp_saveProgress (fun t ht => h.beside ht) (fun _ _ => h) ?_)
  intro saved w hid _ _
  have hbeside : Beside s (s.write (.progress saved.progressId) saved) :=
    .record (p := .progress saved.progressId) trivial s saved
  have hsize : progressFamily.size (s.write (.progress saved.progressId) saved) saved.jobId =
      progressFamily.size s saved.jobId := hbeside.sameProgress.size _
  have hnone : (s.write (.progress saved.progressId) saved).read
      (.progressByJob saved.jobId saved.progressId) = none := by
    rw [read_write_ne _]
    exact h.progress.fresh _ (by rwa [hid])
  refine ⟨h.beside hbeside, wp_mono (wp_indexProgress ?_) (fun _ h => h) (fun _ t w ht => ?_)
    fun _ _ _ h => h⟩
  · rwa [read_write_ne _]
  · have hcnt : Listings t := by
      refine @Listings.countProgress _ t saved (h.beside hbeside) ?_ ?_ hnone ?_
      · rwa [hsize]
      · rwa [hsize]
      · rw [read_write_self]
        rfl
    refine ⟨hcnt, ?_⟩
    unfold announceProgress
    rw [wp_bind]
    exact (within_beside_appendEventUnlocked _ _ _ _).wp (fun _ => hcnt.beside)
      (fun _ _ _ ht => (wp_pure _).2 (hcnt.beside ht)) fun _ _ _ => hcnt.beside

end

end ClioQueue
