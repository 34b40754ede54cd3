/-
# The artifacts of an execution, as the runner reads them

`jarvis_artifact_documents.py`: a query for the artifacts of an execution asks for one page of
them, and `validatedJarvisArtifactPage` accepts the page that is an answer to it: the artifacts of
this execution, at most as many as were asked for, each once, and each satisfying the filters.
-/

import ClioQueue.Jarvis.RunnerAcceptance
import ClioQueue.Jarvis.WorkerDocuments

namespace ClioQueue.Jarvis

open Durable Wire

variable {φ : Type}

/-! ### The vocabulary -/

/-- `MCP_JARVIS_EXECUTION_ARTIFACTS_SCHEMA`. -/
def artifactPageSchema : String := "jarvis.execution.artifacts.v1"

/-- `MCP_JARVIS_ARTIFACT_SCHEMA`. -/
def artifactSchema : String := "jarvis.artifact.v1"

/-- `_JARVIS_ARTIFACT_ROLES`. -/
def artifactRoles : List String :=
  ["intermediate", "output", "log", "checkpoint", "provenance", "validation"]

/-- `_JARVIS_ARTIFACT_STATES`. -/
def artifactStates : List String := ["producing", "available", "finalized", "incomplete", "failed"]

/-- `_JARVIS_ARTIFACT_STRUCTURES`. -/
def artifactStructures : List String := ["file", "directory", "collection", "stream"]

/-- `_JARVIS_ARTIFACT_OWNERSHIP`. -/
def artifactOwnership : List String := ["execution", "external", "shared"]

/-- `_JARVIS_ARTIFACT_REQUIRED_FIELDS`. -/
def artifactRequired : List String :=
  ["schema_version", "package_name", "package_id", "execution_id", "artifact_id", "logical_name",
    "kind", "role", "structure", "ownership", "state", "revision", "sequence", "observed_at_epoch",
    "metadata"]

/-- `_JARVIS_ARTIFACT_OPTIONAL_FIELDS`. -/
def artifactOptional : List String :=
  ["location", "media_type", "format", "size_bytes", "checksum", "message", "content",
    "content_error", "content_truncated", "content_bytes_read"]

/-- The fields of a page. -/
def pageFields : List String :=
  ["producer_schema_version", "pipeline_id", "execution_id", "execution_state", "terminal",
    "artifacts", "matching_artifact_count", "returned_artifact_count", "next_cursor"]

/-- The filters of a query. -/
def filterNames : List String :=
  ["package_id", "role", "state", "artifact_id", "page_size", "cursor", "content_max_bytes"]

/-- `[A-Za-z0-9_-]`. -/
def isUrlSafe (c : Char) : Bool := c.isAlphanum || c = '_' || c = '-'

/-- `_JARVIS_ARTIFACT_ID`: `art_` and 22 to 86 characters. -/
def isArtifactId (s : String) : Bool :=
  "art_".toList.isPrefixOf s.toList && 26 ≤ s.length && s.length ≤ 90 &&
    (s.toList.drop 4).all isUrlSafe

/-- `_JARVIS_ARTIFACT_CURSOR`, of at most 1024 characters. -/
def isCursor (s : String) : Bool := s ≠ "" && s.length ≤ 1024 && s.toList.all isUrlSafe

/-- The text before the first occurrence of a character, and the text after it. -/
def cutAt (c : Char) (text : List Char) : Option (List Char × List Char) :=
  match text.dropWhile (· ≠ c) with
  | [] => none
  | _ :: after => some (text.takeWhile (· ≠ c), after)

/-- A character of one kind and then characters of another. -/
def startsAs (first rest : Char → Bool) : List Char → Bool
  | [] => false
  | c :: text => first c && text.all rest

/-- `_JARVIS_ARTIFACT_CHECKSUM`. -/
def isChecksum (s : String) : Bool :=
  match cutAt ':' s.toList with
  | none => false
  | some (algorithm, digest) =>
    startsAs (fun c => c.isLower || c.isDigit)
        (fun c => c.isLower || c.isDigit || c = '_' || c = '-') algorithm &&
      16 ≤ digest.length && digest.length ≤ 256 &&
      digest.all fun c => c.isDigit || ('a' ≤ c && c ≤ 'f') || ('A' ≤ c && c ≤ 'F')

/-- A part of a media type. -/
def isMediaName (text : List Char) : Bool :=
  startsAs Char.isAlphanum (fun c => c.isAlphanum || "!#$&^_.+-".toList.contains c) text

/-- `_JARVIS_ARTIFACT_MEDIA_TYPE`. -/
def isMediaType (s : String) : Bool :=
  match cutAt '/' s.toList with
  | none => false
  | some (kind, subtype) => isMediaName kind && isMediaName subtype

/-! ### Locations -/

/-- What is read of a `SplitResult`. -/
structure SplitUrl where
  scheme : String
  hasNetloc : Bool
  hasUserInfo : Bool

/-- `urllib.parse.urlsplit`, which may raise a `ValueError`. -/
class UrlSplit where
  urlsplit : String → Option SplitUrl

/-- The root of a `PurePosixPath`. -/
def posixRoot : List Char → List Char
  | ['/', '/'] => ['/', '/']
  | '/' :: '/' :: '/' :: _ => ['/']
  | '/' :: '/' :: _ => ['/', '/']
  | '/' :: _ => ['/']
  | _ => []

/-- The parts of a `PurePosixPath` after its root. -/
def posixNames (text : List Char) : List (List Char) :=
  (text.splitOn '/').filter fun name => name ≠ [] && name ≠ ['.']

/-- `path.as_posix()`. -/
def asPosix (text : List Char) : List Char :=
  match posixRoot text ++ List.intercalate ['/'] (posixNames text) with
  | [] => ['.']
  | rendered => rendered

/-- A path that is not written as `PurePosixPath` writes it, or that leaves its directory. -/
def isIrregular (text : List Char) : Bool :=
  text.contains '\\' || text.getLast? = some '/' || (text.zip text.tail).contains ('/', '/') ||
    (posixNames text).any (· = ['.', '.']) || asPosix text ≠ text

/-- A path below the directory of the execution. -/
def isExecutionPath (s : String) : Bool :=
  !isIrregular s.toList && posixRoot s.toList = [] &&
    !((posixNames s.toList).head?.any fun name => name.contains ':')

/-- A path of the cluster. -/
def isClusterPath (s : String) : Bool :=
  !isIrregular s.toList && posixRoot s.toList ≠ [] && s ≠ "/"

/-- `_JARVIS_ARTIFACT_UNSAFE_URI_SCHEMES`. -/
def unsafeSchemes : List String := ["data", "file", "javascript"]

/-- The schemes whose URIs have a host. -/
def hostedSchemes : List String := ["gs", "http", "https", "s3"]

/-- The URI of something outside the cluster. -/
def isExternalUri [UrlSplit] (s : String) : Bool :=
  match UrlSplit.urlsplit s with
  | none => false
  | some url =>
    startsAs Char.isLower
        (fun c => c.isLower || c.isDigit || c = '+' || c = '.' || c = '-') url.scheme.toList &&
      url.scheme.length ≠ 1 && !(unsafeSchemes.contains url.scheme) &&
      !url.hasUserInfo && (!(hostedSchemes.contains url.scheme) || url.hasNetloc)

namespace Runner

/-! ### The query -/

/-- What a query asks for. -/
structure ArtifactQuery where
  packageId : Option String
  role : Option String
  state : Option String
  artifactId : Option String
  pageSize : Nat
  cursor : Option String

/-- The query, as it is attested. -/
def ArtifactQuery.fields (query : ArtifactQuery) : Fields (Number φ) :=
  [("package_id", optionalText query.packageId), ("role", optionalText query.role),
    ("state", optionalText query.state), ("artifact_id", optionalText query.artifactId),
    ("page_size", .num (.int query.pageSize)), ("cursor", optionalText query.cursor)]

/-- `_jarvis_artifact_text`. -/
def artifactText (value : Value (Number φ)) (field : String) (maximum : Nat) :
    Except RunnerFailure String :=
  match value with
  | .str s =>
    if Worker.strip s ≠ "" && s.length ≤ maximum && s.toList.all (fun c => 32 ≤ c.toNat) then .ok s
    else .error (.protocol s!"MCP JARVIS artifact {field} was invalid")
  | _ => .error (.protocol s!"MCP JARVIS artifact {field} was invalid")

/-- A filter that may be `None`. -/
def optional {α : Type} (read : Value (Number φ) → Except RunnerFailure α)
    (value : Value (Number φ)) : Except RunnerFailure (Option α) :=
  match value with
  | .null => .ok none
  | value => (read value).map some

/-- A text that satisfies a condition. -/
def textWith (accepts : String → Bool) (message : String) (value : Value (Number φ)) :
    Except RunnerFailure String :=
  match value with
  | .str s => if accepts s then .ok s else .error (.protocol message)
  | _ => .error (.protocol message)

/-- `page_size`, with its default. -/
def pageSizeOf (typed : Fields (Number φ)) : Except RunnerFailure Nat := do
  let size ← asNatural ((typed.lookup "page_size").getD (.num (.int 50)))
    "MCP JARVIS artifact page_size was invalid"
  ensure (1 ≤ size && size ≤ 100) "MCP JARVIS artifact page_size was invalid"
  pure size

/-- `_validated_jarvis_artifact_query`. -/
def validatedJarvisArtifactQuery (value : Value (Number φ)) :
    Except RunnerFailure (Option ArtifactQuery) :=
  match value with
  | .null => .ok none
  | .dict typed => do
    ensure (Fields.onlyHas typed filterNames) "MCP JARVIS artifact query contained unknown filters"
    let packageId ← optional (artifactText · "package_id" 256) (Fields.get typed "package_id")
    let artifactId ← optional (artifactText · "artifact_id" 90) (Fields.get typed "artifact_id")
    ensure (artifactId.all isArtifactId) "MCP JARVIS artifact_id filter was invalid"
    let role ← optional (memberOf id artifactRoles · "MCP JARVIS artifact role filter was invalid")
      (Fields.get typed "role")
    let state ←
      optional (memberOf id artifactStates · "MCP JARVIS artifact state filter was invalid")
        (Fields.get typed "state")
    let pageSize ← pageSizeOf typed
    let cursor ← optional (textWith isCursor "MCP JARVIS artifact cursor was invalid")
      (Fields.get typed "cursor")
    pure (some ⟨packageId, role, state, artifactId, pageSize, cursor⟩)
  | _ => .error (.protocol "MCP JARVIS artifacts query must be an object or null")

/-! ### One artifact -/

/-- `_validate_jarvis_artifact_location`. -/
def validateLocation [UrlSplit] (value : Fields (Number φ)) (state ownership : String) :
    Except RunnerFailure Unit :=
  match value.get "location" with
  | .null =>
    ensure (state ≠ "available" && state ≠ "finalized")
      "MCP JARVIS available artifact omitted its location"
  | .dict location => do
    ensure (Fields.hasExactly location ["kind", "value"]) "MCP JARVIS artifact location was invalid"
    let kind ← memberOf id ["execution_path", "cluster_path", "external_uri"]
      (Fields.get location "kind") "MCP JARVIS artifact location kind was invalid"
    let rendered ← artifactText (Fields.get location "value") "location" 4096
    if kind = "execution_path" then
      ensure (isExecutionPath rendered) "MCP JARVIS execution artifact path was invalid"
    else if kind = "cluster_path" then
      ensure (isClusterPath rendered) "MCP JARVIS cluster artifact path was invalid"
    else
      ensure (isExternalUri rendered) "MCP JARVIS external artifact URI was invalid"
    ensure ((kind == "execution_path") == (ownership == "execution"))
      "MCP JARVIS artifact location ownership was invalid"
  | _ => .error (.protocol "MCP JARVIS artifact location was invalid")

/-- `_validate_jarvis_artifact_optional_fields`. -/
def validateOptionalFields (value : Fields (Number φ)) : Except RunnerFailure Unit := do
  [("format", 256), ("message", 4096)].forM fun entry => do
    if value.has entry.1 then
      let _ ← artifactText (value.get entry.1) entry.1 entry.2
  let _ ← optional (textWith isMediaType "MCP JARVIS artifact media_type was invalid")
    (value.get "media_type")
  if value.has "size_bytes" then
    let _ ← asNatural (value.get "size_bytes") "MCP JARVIS artifact size_bytes was invalid"
  let _ ← optional (textWith isChecksum "MCP JARVIS artifact checksum was invalid")
    (value.get "checksum")

/-- A filter is satisfied: it is `None`, or the artifact's field. -/
def validateFilter (typed : Fields (Number φ)) (field : String) (expected : Option String) :
    Except RunnerFailure Unit :=
  ensure (expected.all fun text => (typed.get field).isStr text)
    s!"MCP JARVIS artifact did not satisfy the {field} filter"

/-- A field with one of some names. -/
def artifactMember (typed : Fields (Number φ)) (field : String) (allowed : List String) :
    Except RunnerFailure String :=
  memberOf id allowed (typed.get field) s!"MCP JARVIS artifact {field} was invalid"

variable [PyFloat φ]

/-- The part of `_validated_jarvis_artifact_event` after the identity of the artifact. -/
def validateArtifact [UrlSplit] (query : ArtifactQuery) (typed : Fields (Number φ)) :
    Except RunnerFailure Unit := do
  let _ ← artifactMember typed "role" artifactRoles
  let state ← artifactMember typed "state" artifactStates
  let _ ← artifactMember typed "structure" artifactStructures
  let ownership ← artifactMember typed "ownership" artifactOwnership
  ["revision", "sequence"].forM fun field => do
    let item ← asNatural (typed.get field) s!"MCP JARVIS artifact {field} was invalid"
    ensure (1 ≤ item) s!"MCP JARVIS artifact {field} was invalid"
  let observed ← finiteProgressNumber (typed.get "observed_at_epoch")
  ensure (observed.any fun x => 0 ≤ PyFloat.value x)
    "MCP JARVIS artifact observation time was invalid"
  let metadata ← asDict (typed.get "metadata") "MCP JARVIS artifact metadata was invalid"
  boundedFiniteJson metadata "JARVIS artifact metadata" 65536
  validateLocation typed state ownership
  validateOptionalFields typed
  boundedFiniteJson typed "JARVIS artifact entry" 262144
  validateFilter typed "package_id" query.packageId
  validateFilter typed "role" query.role
  validateFilter typed "state" query.state
  validateFilter typed "artifact_id" query.artifactId

/-- `_validated_jarvis_artifact_event`, after artifacts with the identities of `seen`. -/
def validatedJarvisArtifactEvent [UrlSplit] (executionId : String) (query : ArtifactQuery)
    (seen : List String) (value : Value (Number φ)) : Except RunnerFailure String := do
  let typed ← asDict value "MCP JARVIS artifact entry must be an object"
  ensure (typed.hasAll artifactRequired && typed.onlyHas (artifactRequired ++ artifactOptional) &&
      (typed.get "schema_version").isStr artifactSchema &&
      (typed.get "execution_id").isStr executionId)
    "MCP JARVIS artifact entry schema or identity was invalid"
  ["package_name", "package_id", "logical_name", "kind"].forM fun field => do
    let _ ← artifactText (typed.get field) field 256
  let artifactId ← textWith (fun s => isArtifactId s && !seen.contains s)
    "MCP JARVIS artifact identity was invalid" (typed.get "artifact_id")
  validateArtifact query typed
  pure artifactId

/-- The artifacts of a page. -/
def validatedJarvisArtifactEvents [UrlSplit] (executionId : String) (query : ArtifactQuery)
    (seen : List String) : List (Value (Number φ)) → Except RunnerFailure (List String)
  | [] => .ok []
  | item :: items => do
    let artifactId ← validatedJarvisArtifactEvent executionId query seen item
    let artifactIds ← validatedJarvisArtifactEvents executionId query (artifactId :: seen) items
    pure (artifactId :: artifactIds)

/-! ### One page -/

/-- What is read of a page. -/
structure ArtifactPage where
  artifactIds : List String
  nextCursor : Option String

/-- `_validated_jarvis_artifact_page`. -/
def validatedJarvisArtifactPage [UrlSplit] (value : Value (Number φ)) (query : ArtifactQuery)
    (pipelineId executionId : String) (executionState : ExecutionState) (terminal : Bool) :
    Except RunnerFailure ArtifactPage := do
  let typed ← asDict value "MCP JARVIS artifact_page must be an object"
  ensure (typed.hasExactly pageFields &&
      (typed.get "producer_schema_version").isStr artifactPageSchema)
    "MCP JARVIS artifact page schema was invalid"
  ensure ((typed.get "pipeline_id").isStr pipelineId && (typed.get "execution_id").isStr executionId)
    "MCP JARVIS artifact page identity did not match"
  ensure ((typed.get "execution_state").isStr executionState.text &&
      (typed.get "terminal").isBool terminal)
    "MCP JARVIS artifact page lifecycle did not match"
  match typed.get "artifacts" with
  | .list items =>
    ensure (items.length ≤ query.pageSize)
      "MCP JARVIS artifact page exceeded the requested page_size"
    let artifactIds ← validatedJarvisArtifactEvents executionId query [] items
    let returned ← asNatural (typed.get "returned_artifact_count")
      "MCP JARVIS artifact page counts did not match"
    let matching ← asNatural (typed.get "matching_artifact_count")
      "MCP JARVIS artifact page counts did not match"
    ensure (returned = items.length && returned ≤ matching)
      "MCP JARVIS artifact page counts did not match"
    ensure (query.artifactId.isNone || matching ≤ 1 && returned ≤ 1)
      "MCP JARVIS exact artifact filter returned multiple matches"
    let nextCursor ← optional
      (textWith (fun s => !items.isEmpty && isCursor s)
        "MCP JARVIS artifact next_cursor was invalid") (typed.get "next_cursor")
    ensure (query.artifactId.isNone || nextCursor.isNone)
      "MCP JARVIS exact artifact filter unexpectedly paginated"
    pure ⟨artifactIds, nextCursor⟩
  | _ => .error (.protocol "MCP JARVIS artifact page entries must be an array")

/-! ### What is accepted -/

variable [UrlSplit] {executionId artifactId : String} {query : ArtifactQuery} {seen : List String}

end Runner

end ClioQueue.Jarvis
