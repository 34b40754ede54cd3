/-
# The durable store of the queue

Every durable file of the queue below its storage root, one constructor of
`Path` a family, with the record each family holds (`Content`).  The directory
tree itself is not state: a missing directory reads as empty and a write makes
its parents.

`Op` is the type of queue programs: they read and write the store, and draw
clock readings and random identifiers (`Entropy`), whose number is the `Supply`.  The byte limit of a
record family (`write_bytes`) is a limit on the output of the JSON encoder, and
so a parameter (`Platform`); families whose records have a bounded encoding
(leases, references, journal entries) are written by `put` without it.
-/

import Mathlib.Data.Nat.Digits.Defs
import ClioQueue.Durable.Files
import ClioQueue.Records

namespace ClioQueue

open Durable Durable.Prog

/-! ### Paths -/

/-- The families that have a global order (`GLOBAL_ORDER_FAMILIES`). -/
inductive GlobalFamily where
  | endpoints
  | jobs
  | gatewaySessions
  | monitorRules
  deriving DecidableEq, Repr

/-- The reverse gateway indexes, `gateways_by_artifact` and `gateways_by_scheduler`. -/
inductive GatewayRelation where
  | artifact
  | scheduler
  deriving DecidableEq, Repr

/-- The file name of a transition intent: its kind and identity. -/
inductive IntentKey where
  | leaseIndexRepair
  | leaseAcquire (leaseId : DurableRecordId)
  | leaseSync (leaseId : DurableRecordId)
  | leaseDelete (leaseId : DurableRecordId)
  | staleLeaseRecovery (jobId : DurableRecordId) (updatedAt : Time)
      (leaseIds : List DurableRecordId)
  | jobSync (jobId : DurableRecordId)
  | taskSync (taskId : DurableRecordId)
  | gatewaySync (sessionId : DurableRecordId)
  deriving DecidableEq

/-- A durable file below the storage root. -/
inductive Path where
  | job (jobId : DurableRecordId)
  | jobActive (jobId : DurableRecordId)
  | jobQueued (jobId : DurableRecordId)
  | jobIndex (jobId : DurableRecordId)
  | jobTombstone (jobId : DurableRecordId)
  | event (jobId : DurableRecordId) (seq : Nat)
  | idempotency (key : String)
  | globalHead (family : GlobalFamily)
  | globalById (family : GlobalFamily) (recordId : DurableRecordId)
  | globalEntry (family : GlobalFamily) (sequence : Nat)
  | lease (leaseId : DurableRecordId)
  | leaseByJob (jobId leaseId : DurableRecordId)
  | leaseIndex (leaseToken : RefToken)
  | leaseIdentityRef (reference : RefToken × LeaseIdentityToken)
  | leaseEndpointRef (endpointToken : RefToken) (reference : RefToken × LeaseIdentityToken)
  | leaseEndpointGuard (endpointToken : RefToken) (reference : RefToken × LeaseIdentityToken)
  | leaseClusterKindRef (clusterToken : RefToken) (kind : JobKind)
      (reference : RefToken × LeaseIdentityToken)
  | leaseExpiryRef (token : LeaseIdentityToken)
  | capacityAggregate
  | capacityCheckpoint
  | intent (key : IntentKey)
  | migrationState
  | ownerActive (label : FilesystemKey)
  | ownerClosing (label : FilesystemKey)
  | ownerClosure (label : FilesystemKey) (generation : RefToken)
  | ownerLegacyClosure (label : FilesystemKey)
  | ownerSessionJob (owner : RefToken) (generation : Option RefToken) (job : RefToken)
  | schedulerRefs (jobId : DurableRecordId) (source : RefToken)
  | schedulerProtection (jobId : DurableRecordId) (source : RefToken)
  | schedulerJob (scheduler source : RefToken)
  | schedulerCancelPending (cluster : RefToken) (jobId : DurableRecordId)
  | schedulerCancelDisposition (cluster : RefToken) (jobId : DurableRecordId)
  | artifact (artifactId : DurableRecordId)
  | artifactByJob (jobId artifactId : DurableRecordId)
  | artifactOrder (jobId : DurableRecordId) (sequence : Nat)
  | progress (progressId : DurableRecordId)
  | progressByJob (jobId progressId : DurableRecordId)
  | progressOrder (jobId : DurableRecordId) (sequence : Nat)
  | usedArtifact (jobId artifactId : DurableRecordId)
  | artifactUser (artifactId : DurableRecordId) (consumer : DurableRecordId)
  | artifactUserHead (artifactId : DurableRecordId)
  | artifactUserByConsumer (artifactId consumer : DurableRecordId)
  | artifactUserEntry (artifactId : DurableRecordId) (sequence : Nat)
  | task (taskId : DurableRecordId)
  | taskByJob (jobId taskId : DurableRecordId)
  | taskOrder (jobId : DurableRecordId) (sequence : Nat)
  | activeTask (jobId taskId : DurableRecordId)
  | taskEvent (taskId : DurableRecordId) (seq : Nat)
  | taskEventHead (taskId : DurableRecordId)
  | gatewaySession (sessionId : DurableRecordId)
  | gatewaysBy (relation : GatewayRelation) (key : RefToken) (sessionId : DurableRecordId)
  | gatewayReverseRef (sessionId : DurableRecordId) (token : RefToken)
  | activeGatewayRefByJob (jobId : DurableRecordId) (token : RefToken)
  | activeGatewayRefBySession (sessionId : DurableRecordId) (token : RefToken)
  | cleanupMigration (cluster : FilesystemKey) (shard : Fin 256)
  | cleanupPending (cluster : FilesystemKey) (shard : Fin 256) (jobId taskId : DurableRecordId)
  deriving DecidableEq

/-! ### Index records -/

/-- `scheduler_refs_by_job`: the scheduler ids of one metadata source. -/
structure SchedulerSourceManifest where
  jobId : DurableRecordId
  sourceId : String
  schedulerIds : List String
  ambiguous : Bool
  deriving DecidableEq

/-- `scheduler_jobs`: one source that names a scheduler id. -/
structure SchedulerJobRef where
  schedulerId : String
  jobId : DurableRecordId
  sourceId : String
  deriving DecidableEq

/-- `relation_kind` of a gateway backlink. -/
inductive RelationKind where
  | direct
  | artifact
  | scheduler
  deriving DecidableEq, Repr

/-- `active_gateway_refs_by_job` and `active_gateway_refs_by_session`. -/
structure ActiveGatewayRef where
  sessionId : DurableRecordId
  jobId : DurableRecordId
  relationKind : RelationKind
  relationKey : String
  sourceId : Option String
  recordName : RefToken
  deriving DecidableEq

/-- `gateway_reverse_refs_by_session`. -/
structure GatewayReverseRef where
  sessionId : DurableRecordId
  relation : GatewayRelation
  relationKey : String
  deriving DecidableEq

/-- The record a path holds. -/
@[reducible]
def Content : Path → Type
  | .job _ | .jobActive _ | .jobQueued _ => RelayJob
  | .jobIndex _ => JobIndex
  | .jobTombstone _ => JobTombstone
  | .event .. => RelayEvent
  | .idempotency _ => IdempotencyRecord
  | .globalHead _ => Nat
  | .globalById .. | .globalEntry .. => GlobalOrderRecord
  | .lease _ | .leaseByJob .. => Lease
  | .leaseIndex _ => LeaseIndexIdentity
  | .leaseIdentityRef _ | .leaseEndpointRef .. | .leaseEndpointGuard ..
  | .leaseClusterKindRef .. | .leaseExpiryRef _ => Unit
  | .capacityAggregate => LeaseCapacityAggregate
  | .capacityCheckpoint => LeaseCapacityCheckpoint
  | .intent _ => TransitionIntent
  | .migrationState => IndexMigrationState
  | .ownerActive _ => OwnerSessionActive
  | .ownerClosing _ => OwnerSessionClosing
  | .ownerClosure .. | .ownerLegacyClosure _ => OwnerSessionClosure
  | .ownerSessionJob .. => OwnerSessionJobMembership
  | .schedulerRefs .. => SchedulerSourceManifest
  | .schedulerProtection .. => Unit
  | .schedulerJob .. => SchedulerJobRef
  | .schedulerCancelPending .. | .schedulerCancelDisposition .. => SchedulerCancelPending
  | .artifact _ | .artifactByJob .. | .artifactOrder .. => ArtifactRef
  | .progress _ | .progressByJob .. | .progressOrder .. => ProgressRecord
  | .usedArtifact .. | .artifactUser .. => UsedArtifactRef
  | .artifactUserHead _ => Nat
  | .artifactUserByConsumer .. | .artifactUserEntry .. => UsedArtifactRef
  | .task _ | .taskByJob .. | .taskOrder .. | .activeTask .. => RelayTask
  | .taskEvent .. => TaskTimelineEvent
  | .taskEventHead _ => Nat
  | .gatewaySession _ | .gatewaysBy .. => GatewaySession
  | .gatewayReverseRef .. => GatewayReverseRef
  | .activeGatewayRefByJob .. | .activeGatewayRefBySession .. => ActiveGatewayRef
  | .cleanupMigration .. => Time
  | .cleanupPending .. => RelayTask

/-- The files of the queue. -/
abbrev Store : Type := Files Content

/-! ### Programs -/

/-- What a call does not choose: its clock readings and random identifiers, in the
order in which it draws them. -/
class Entropy where
  clock : Nat → Time
  uuids : Nat → Uuid

/-- How many clock readings and random identifiers have been drawn. -/
structure Supply where
  ticks : Nat
  drawn : Nat

/-- What is said of an answer and of what it leaves behind. -/
abbrev Post (α : Type) : Type := α → Store → Supply → Prop

/-- A queue program. -/
abbrev Op (α : Type) : Type := Prog Store Supply RelayError α

/-- What the queue takes from its platform: whether the encoding of a record is
within the byte limit of its family (`RECORD_FAMILY_MAX_BYTES`, checked by
`write_bytes`), the values of the digests that name shards and executions, the
text forms of a time (`isoformat`, and the one of JSON documents, which is read
back as it was written), the offset that `datetime.fromisoformat` reads in a text,
if it reads it and the time is not naive, and the excerpt that `bounded_error_detail` keeps of a
diagnostic. -/
class Platform where
  jobFits : RelayJob → Bool
  eventFits : RelayEvent → Bool
  idempotencyFits : IdempotencyRecord → Bool
  leaseIndexFits : LeaseIndexIdentity → Bool
  schedulerManifestFits : SchedulerSourceManifest → Bool
  schedulerJobRefFits : SchedulerJobRef → Bool
  usedArtifactFits : UsedArtifactRef → Bool
  artifactFits : ArtifactRef → Bool
  progressFits : ProgressRecord → Bool
  taskFits : RelayTask → Bool
  taskEventFits : TaskTimelineEvent → Bool
  gatewayFits : GatewaySession → Bool
  gatewayRefFits : ActiveGatewayRef → Bool
  gatewayReverseRefFits : GatewayReverseRef → Bool
  ownerClosureFits : OwnerSessionClosure → Bool
  schedulerCancelFits : SchedulerCancelPending → Bool
  executionCleanupShard : DurableRecordId → Fin 256
  deterministicJarvisExecutionId : String → String → DurableRecordId → String
  deterministicInputArtifactId : DurableRecordId → DurableRecordId
  isoformat : Time → String
  fromisoformat : String → Option Time
  isoOffset : String → Option (Option Int)
  dumpDatetime : Time → String
  parseDatetime : String → Option Time
  parse_dumpDatetime : ∀ time, parseDatetime (dumpDatetime time) = some time
  boundedErrorDetail : String → String

/-- Read a file. -/
def read (p : Path) : Op (Option (Content p)) := look fun s => s.read p

/-- Replace a file whose records have a bounded encoding. -/
def put (p : Path) (c : Content p) : Op Unit := Prog.durably fun s => s.write p c

/-- Replace a file after the check of its byte limit. -/
def putWithin (fits : Bool) (p : Path) (c : Content p) : Op Unit :=
  require fits (.conflict "record exceeds its byte limit") >>= fun _ => put p c

/-- `unlink_durable_path` with `missing_ok`. -/
def unlink (p : Path) : Op Unit := Prog.durably fun s => s.unlink p

/-- Whether a file exists. -/
def present (p : Path) : Op Bool := look fun s => (s.read p).isSome

/-- What a directory scan finds. -/
def listing {γ : Type} (f : (p : Path) → Content p → Option γ) : Op (List γ) :=
  look fun s => s.collect f

/-- `utc_now`. -/
def utcNow [Entropy] : Op Time :=
  Prog.draw fun v => (Entropy.clock v.ticks, { v with ticks := v.ticks + 1 })

/-- `uuid4().hex`. -/
def uuid4 [Entropy] : Op Uuid :=
  Prog.draw fun v => (Entropy.uuids v.drawn, { v with drawn := v.drawn + 1 })

/-- `new_id`. -/
def newId [Entropy] (tag : String) : Op DurableRecordId :=
  uuid4 >>= fun uuid => ofExcept (validateDurableRecordId s!"{tag}_{uuid.hex}")

/-! ### A sample platform -/

/-- A text form of a time: its sign and its digits. -/
def sampleDatetimeText (time : Int) : String :=
  String.ofList ((if time < 0 then '-' else '+') :: (Nat.digits 1000 time.natAbs).map Char.ofNat)

/-- The time of a text. -/
def sampleDatetimeOf (text : String) : Option Int :=
  match text.toList with
  | [] => none
  | sign :: digits =>
    let size : Nat := Nat.ofDigits 1000 (digits.map Char.toNat)
    some (if sign = '-' then -(size : Int) else size)

theorem sampleDatetimeOf_text (time : Int) :
    sampleDatetimeOf (sampleDatetimeText time) = some time := by
  have hchar : ∀ n ∈ Nat.digits 1000 time.natAbs, (Char.ofNat n).toNat = n := by
    intro n hn
    have hlt : n < 1000 := Nat.digits_lt_base (by decide) hn
    have hval : n.isValidChar := .inl (by omega)
    rw [Char.ofNat, dif_pos hval]
    rfl
  have hdigs : ((Nat.digits 1000 time.natAbs).map Char.ofNat).map Char.toNat =
      Nat.digits 1000 time.natAbs := by
    rw [List.map_map]
    exact (List.map_congr_left hchar).trans (List.map_id _)
  rw [sampleDatetimeOf, sampleDatetimeText, String.toList_ofList]
  simp only [hdigs, Nat.ofDigits_digits]
  by_cases hneg : time < 0
  · rw [if_pos hneg, if_pos rfl]
    congr 1
    omega
  · rw [if_neg hneg, if_neg (by decide)]
    congr 1
    omega

/-- A platform on which every record fits. -/
@[reducible]
def samplePlatform : Platform where
  jobFits _ := true
  eventFits _ := true
  idempotencyFits _ := true
  leaseIndexFits _ := true
  schedulerManifestFits _ := true
  schedulerJobRefFits _ := true
  usedArtifactFits _ := true
  artifactFits _ := true
  progressFits _ := true
  taskFits _ := true
  taskEventFits _ := true
  gatewayFits _ := true
  gatewayRefFits _ := true
  gatewayReverseRefFits _ := true
  ownerClosureFits _ := true
  schedulerCancelFits _ := true
  executionCleanupShard _ := 0
  deterministicJarvisExecutionId cluster key _ := s!"jarvis_{cluster}_{key}"
  deterministicInputArtifactId jobId := jobId
  isoformat time := toString time
  fromisoformat text := text.toInt?
  isoOffset _ := some (some 0)
  dumpDatetime := sampleDatetimeText
  parseDatetime := sampleDatetimeOf
  parse_dumpDatetime := sampleDatetimeOf_text
  boundedErrorDetail text := text

/-- A clock that counts seconds, and one identifier. -/
@[reducible]
def sampleEntropy : Entropy where
  clock n := n * 1000000
  uuids _ := ⟨"00000000000000000000000000000000", by decide⟩

/-- Nothing drawn yet. -/
def sampleSupply : Supply where
  ticks := 0
  drawn := 0

/-! ### Rules for the primitives -/

/-- The result of a computation that can fail, taken apart. -/
theorem except_bind_ok {α β : Type} {x : Except RelayError α} {f : α → Except RelayError β} {b : β}
    (h : x >>= f = .ok b) : ∃ a, x = .ok a ∧ f a = .ok b := by
  rcases x with e | a
  · cases h
  · exact ⟨a, rfl, h⟩

section Rules

variable {C : Store → Prop} {E : Post RelayError} {s : Store} {v : Supply}

/-- Stated without `wp`, whose result type would have to be matched before the path. -/
@[simp]
theorem read_eq_look (p : Path) : read p = look fun s => s.read p := rfl

@[simp]
theorem wp_present {p : Path} {Q : Post Bool} :
    wp (present p) C Q E s v ↔ Q (s.read p).isSome s v :=
  wp_look _

@[simp]
theorem wp_listing {γ : Type} {f : (p : Path) → Content p → Option γ} {Q : Post (List γ)} :
    wp (listing f) C Q E s v ↔ Q (s.collect f) s v :=
  wp_look _

@[simp]
theorem wp_put {p : Path} {c : Content p} {Q : Post Unit} :
    wp (put p c) C Q E s v ↔ C (s.write p c) ∧ Q () (s.write p c) v :=
  wp_durably _

@[simp]
theorem wp_unlink {p : Path} {Q : Post Unit} :
    wp (unlink p) C Q E s v ↔ C (s.unlink p) ∧ Q () (s.unlink p) v :=
  wp_durably _

@[simp]
theorem wp_putWithin {fits : Bool} {p : Path} {c : Content p} {Q : Post Unit} :
    wp (putWithin fits p c) C Q E s v ↔
      (fits = true → C (s.write p c) ∧ Q () (s.write p c) v) ∧
        (fits = false → E (.conflict "record exceeds its byte limit") s v) := by
  simp only [putWithin, wp_bind, wp_require, wp_put]

/-- The next program runs from the store with the record, unless the record is too large. -/
theorem wp_putWithin_then {α : Type} {fits : Bool} {p : Path} {c : Content p} {f : Unit → Op α}
    {Q : Post α}
    (h : fits = true → C (s.write p c) ∧ wp (f ()) C Q E (s.write p c) v)
    (hE : fits = false → E (.conflict "record exceeds its byte limit") s v) :
    wp (putWithin fits p c >>= f) C Q E s v := by
  rw [wp_bind, wp_putWithin]
  exact ⟨h, hE⟩

@[simp]
theorem wp_utcNow [Entropy] {Q : Post Time} :
    wp utcNow C Q E s v ↔ Q (Entropy.clock v.ticks) s { v with ticks := v.ticks + 1 } :=
  wp_draw _

@[simp]
theorem wp_uuid4 [Entropy] {Q : Post Uuid} :
    wp uuid4 C Q E s v ↔ Q (Entropy.uuids v.drawn) s { v with drawn := v.drawn + 1 } :=
  wp_draw _

theorem readOnly_read (p : Path) : ReadOnly (read p) := .look _

theorem readOnly_present (p : Path) : ReadOnly (present p) := .look _

theorem readOnly_listing {γ : Type} (f : (p : Path) → Content p → Option γ) :
    ReadOnly (listing f) := .look _

theorem readOnly_utcNow [Entropy] : ReadOnly utcNow := .draw _

theorem readOnly_newId [Entropy] (tag : String) : ReadOnly (newId tag) :=
  .bind (.draw _) fun _ => .ofExcept _

variable {A : Path → Prop}

theorem confined_read (p : Path) : Confined A (read p) := Confined.look _

theorem confined_present (p : Path) : Confined A (present p) := Confined.look _

theorem confined_listing {γ : Type} (f : (p : Path) → Content p → Option γ) :
    Confined A (listing f) := Confined.look _

theorem confined_put {p : Path} (c : Content p) (hp : A p) : Confined A (put p c) :=
  Confined.write hp c

theorem confined_putWithin {p : Path} (fits : Bool) (c : Content p)
    (hp : A p) : Confined A (putWithin fits p c) :=
  Confined.bind (Confined.require _ _) fun _ => confined_put c hp

theorem confined_unlink {p : Path} (hp : A p) : Confined A (unlink p) :=
  Confined.unlink hp

theorem confined_utcNow [Entropy] : Confined A utcNow := Confined.draw _

end Rules

end ClioQueue
