/-
The records and documents of a checkpoint (`evaluation/v5_checkpoint_storage.py`): checkpoint inputs, chunks, the manifest
and the observation, with the checks of their models; the environment binding and the resource gates are those of
`evaluation/v5_kaggle_protocol.py`.

A model's instance is a structure, `check` is what validating it checks, `tree` is `model_dump(mode="json")`, and
`modelValidate` reads it from a JSON document. What the interpreter and pydantic do with a JSON value beyond that is the
parameter `Platform`: the order of numbers, `datetime.fromisoformat`, and the conversions of `int` and `float` fields.
-/
import Apar.Core.Framing
import Apar.Core.JsonDocuments

namespace Apar

namespace Checkpoint

open Exec JsonTree

/-- what the storage raises -/
inductive CheckpointError where
  /-- `ValueError(message)` -/
  | value (message : String)
  | fileExists (message : String)
  | fileNotFound
  /-- `pydantic.ValidationError` -/
  | validation
  /-- `zlib.error` -/
  | zlib
  /-- `V5KaggleIndependentVerificationError(message)` -/
  | verification (message : String)
  /-- `TypeError`, of an operator -/
  | type
  /-- a loop that has not ended -/
  | endless
deriving DecidableEq, Repr

/-! ## The platform -/

/-- Python's operators on JSON values, its reading of timestamps, and pydantic's conversions -/
class Platform (F : Type) extends FloatRead F where
  /-- `a == b` -/
  eq : JsonTree F → JsonTree F → Bool
  /-- `a < b`; `none` is `TypeError` -/
  lt : JsonTree F → JsonTree F → Option Bool
  /-- `a <= b` -/
  le : JsonTree F → JsonTree F → Option Bool
  /-- `str(x)` -/
  str : JsonTree F → String
  /-- `max(xs)` -/
  max : List (JsonTree F) → Option (JsonTree F)
  /-- `datetime.fromisoformat(text).tzinfo == UTC`; `none` is `ValueError` -/
  fromisoformat : String → Option Bool
  /-- the value of an `int` field -/
  intField : JsonTree F → Option ℤ
  /-- the value of a `float` field -/
  floatField : JsonTree F → Option F

/-- the platform on integers, texts and finite floats -/
class LawfulPlatform (F : Type) [Platform F] : Prop extends JsonText.LawfulFloatRead F where
  eq_int : ∀ m n : ℤ, Platform.eq (.int m : JsonTree F) (.int n) = decide (m = n)
  eq_text : ∀ s t : String, Platform.eq (textValue s : JsonTree F) (textValue t) = decide (s = t)
  lt_int : ∀ m n : ℤ, Platform.lt (.int m : JsonTree F) (.int n) = some (decide (m < n))
  le_int : ∀ m n : ℤ, Platform.le (.int m : JsonTree F) (.int n) = some (decide (m ≤ n))
  str_text : ∀ s : String, Platform.str (textValue s : JsonTree F) = s
  le_float : ∀ (x : F) (n : ℤ), FloatText.isFinite x = true → ∃ b, Platform.lt (.int n) (.float x) = some b ∧
    Platform.le (.float x) (.int n) = some !b
  max_int : ∀ (n : ℤ) (ns : List ℤ), Platform.max ((n :: ns).map (.int : ℤ → JsonTree F)) = some (.int (ns.foldl Max.max n))
  intField_int : ∀ n : ℤ, Platform.intField (.int n : JsonTree F) = some n
  floatField_float : ∀ x : F, Platform.floatField (.float x : JsonTree F) = some x

/-! ## Digests -/

section Digests

variable {F : Type} [FloatText F]

/-- `_canonical_bytes` -/
def canonicalBytes (t : JsonTree F) : Except CheckpointError (List UInt8) :=
  match t.canonicalBytes with
  | some raw => .ok raw
  | none => .error (.value "Out of range float values are not JSON compliant")

theorem canonicalBytes_eq_ok {t : JsonTree F} {raw : List UInt8} :
    canonicalBytes t = .ok raw ↔ t.canonicalBytes = some raw := by
  unfold canonicalBytes
  cases t.canonicalBytes <;> simp

/-- `_digest` -/
def digest [Sha256] (t : JsonTree F) : Except CheckpointError String := (canonicalBytes t).map Sha256.hexdigestBytes

end Digests

/-! ## Resource gates -/

/-- `V5KaggleResourceGates` -/
structure V5KaggleResourceGates where
  maxPeakRssBytes : ℕ
  maxStageSeconds : ℕ
  maxStageOutputBytes : ℕ
  maxCheckpointChunkBytes : ℕ
  maxCheckpointChunks : ℕ
  chunk_pos : 0 < maxCheckpointChunkBytes

/-- the gates of the protocol, but for the size of a chunk -/
def V5KaggleResourceGates.frozen (chunkBytes : ℕ) (h : 0 < chunkBytes) : V5KaggleResourceGates where
  maxPeakRssBytes := 19327352832
  maxStageSeconds := 21600
  maxStageOutputBytes := 10000000000
  maxCheckpointChunkBytes := chunkBytes
  maxCheckpointChunks := 160
  chunk_pos := h

/-! ## Stages -/

/-- `V5KaggleStage`, in order -/
inductive V5KaggleStage where
  | authorize
  | corpus
  | features
  | arms
  | labelShuffle
  | identityRename
  | futureCausality
  | equalTimeIsolation
  | featureLeakage
  | singleClassControls
  | metrics
  | finalize
deriving DecidableEq, Repr

namespace V5KaggleStage

def value : V5KaggleStage → String
  | authorize => "00_authorize"
  | corpus => "10_corpus"
  | features => "20_features"
  | arms => "30_arms"
  | labelShuffle => "40_label_shuffle"
  | identityRename => "50_identity_rename"
  | futureCausality => "51_future_causality"
  | equalTimeIsolation => "52_equal_time_isolation"
  | featureLeakage => "53_feature_leakage"
  | singleClassControls => "60_single_class_controls"
  | metrics => "70_metrics"
  | finalize => "80_finalize"

def all : List V5KaggleStage :=
  [authorize, corpus, features, arms, labelShuffle, identityRename, futureCausality, equalTimeIsolation, featureLeakage,
    singleClassControls, metrics, finalize]

/-- `resolve_next_v5_kaggle_stage` -/
def next : V5KaggleStage → Option V5KaggleStage
  | authorize => some corpus
  | corpus => some features
  | features => some arms
  | arms => some labelShuffle
  | labelShuffle => some identityRename
  | identityRename => some futureCausality
  | futureCausality => some equalTimeIsolation
  | equalTimeIsolation => some featureLeakage
  | featureLeakage => some singleClassControls
  | singleClassControls => some metrics
  | metrics => some finalize
  | finalize => none

def ofValue (s : String) : Option V5KaggleStage := all.find? fun stage => stage.value = s

@[simp] theorem ofValue_value (stage : V5KaggleStage) : ofValue stage.value = some stage := by
  cases stage <;> decide

end V5KaggleStage

/-! ## Checkpoint inputs -/

inductive Layer where
  | deterministic
  | observational
deriving DecidableEq, Repr

def Layer.name : Layer → String
  | deterministic => "deterministic"
  | observational => "observational"

/-- the pattern of a kind, `^[a-z][a-z0-9_]{0,63}$` -/
def isKind (s : String) : Bool :=
  match s.toList with
  | [] => false
  | c :: cs => c.isLower && cs.length ≤ 63 && cs.all fun c => c.isLower || c.isDigit || c = '_'

/-- the pattern of a key, `^[A-Za-z0-9][A-Za-z0-9_.:@-]{0,511}$` -/
def isKey (s : String) : Bool :=
  match s.toList with
  | [] => false
  | c :: cs => c.isAlphanum && cs.length ≤ 511 && cs.all fun c => c.isAlphanum || c ∈ ['_', '.', ':', '@', '-']

/-- `_MAX_RECORD_BYTES` -/
def maxRecordBytes : ℕ := 536870912

/-- `V5CheckpointInput` -/
structure V5CheckpointInput where
  kind : String
  key : String
  canonicalBytes : List UInt8
  layer : Layer
  kind_ok : isKind kind = true
  key_ok : isKey key = true
  nonempty : 0 < canonicalBytes.length
  bounded : canonicalBytes.length ≤ maxRecordBytes

namespace V5CheckpointInput

/-- `V5CheckpointInput(...)` -/
def make (kind key : String) (canonicalBytes : List UInt8) (layer : Layer) : Except CheckpointError V5CheckpointInput :=
  if h : isKind kind = true ∧ isKey key = true ∧ 0 < canonicalBytes.length ∧ canonicalBytes.length ≤ maxRecordBytes then
    .ok ⟨kind, key, canonicalBytes, layer, h.1, h.2.1, h.2.2.1, h.2.2.2⟩
  else .error .validation

theorem make_self (r : V5CheckpointInput) : make r.kind r.key r.canonicalBytes r.layer = .ok r := by
  rw [make, dif_pos ⟨r.kind_ok, r.key_ok, r.nonempty, r.bounded⟩]

theorem make_eq_ok {kind key : String} {content : List UInt8} {layer : Layer} {r : V5CheckpointInput}
    (h : make kind key content layer = .ok r) :
    r.kind = kind ∧ r.key = key ∧ r.canonicalBytes = content ∧ r.layer = layer := by
  unfold make at h
  split_ifs at h
  cases h
  exact ⟨rfl, rfl, rfl, rfl⟩

end V5CheckpointInput

/-! ## Record headers -/

/-- the header of a record, as JSON -/
def headerTree {F : Type} (kind key : String) (size : ℕ) : JsonTree F :=
  object [("bytes", .int size), ("key", textValue key), ("kind", textValue kind)]

/-- the header of a record in bytes -/
def headerBytes (kind key : String) (size : ℕ) : List UInt8 := JsonText.utf8 (headerTree kind key size : JsonTree Empty).plainText

namespace V5CheckpointInput

/-- `framed` -/
def framed (r : V5CheckpointInput) : List UInt8 :=
  Framing.frame (headerBytes r.kind r.key r.canonicalBytes.length) r.canonicalBytes

end V5CheckpointInput

/-- the stream of these records -/
def recordStream (rs : List V5CheckpointInput) : List UInt8 :=
  Framing.stream (fun r : V5CheckpointInput => headerBytes r.kind r.key r.canonicalBytes.length)
    V5CheckpointInput.canonicalBytes rs

/-! ## The environment binding -/

/-- `^3\.12\.[0-9]+$` -/
def isPythonVersion (s : String) : Bool :=
  "3.12.".toList.isPrefixOf s.toList && s.toList.drop 5 ≠ [] && (s.toList.drop 5).all Char.isDigit

/-- `V5KaggleEnvironmentBinding`, but for the fields that have one value -/
structure V5KaggleEnvironmentBinding where
  image : String
  imageSha256 : String
  pythonVersion : String
  cpuCount : ℕ
  dependencyManifestSha256 : String
  sourceArchiveSha256 : String
  notebookSha256 : String
  environmentSha256 : String
deriving DecidableEq

namespace V5KaggleEnvironmentBinding

variable {F : Type}

/-- the fields that the digest covers -/
def fields (e : V5KaggleEnvironmentBinding) : List (String × JsonTree F) :=
  [("schema_version", textValue "apar-sentinel-v5-kaggle-environment/1"),
    ("provider", textValue "kaggle"),
    ("image", textValue e.image),
    ("image_sha256", textValue e.imageSha256),
    ("python_version", textValue e.pythonVersion),
    ("architecture", textValue "x86_64"),
    ("cpu_count", .int e.cpuCount),
    ("dependency_manifest_sha256", textValue e.dependencyManifestSha256),
    ("source_archive_sha256", textValue e.sourceArchiveSha256),
    ("notebook_sha256", textValue e.notebookSha256),
    ("internet_enabled", .bool false),
    ("accelerator", textValue "none"),
    ("file_fsync_supported", .bool true),
    ("directory_fsync_supported", .bool true),
    ("hardlink_no_replace_supported", .bool true)]

def tree (e : V5KaggleEnvironmentBinding) : JsonTree F :=
  object (e.fields ++ [("environment_sha256", textValue e.environmentSha256)])

def fieldNames : List String :=
  ["schema_version", "provider", "image", "image_sha256", "python_version", "architecture", "cpu_count",
    "dependency_manifest_sha256", "source_archive_sha256", "notebook_sha256", "internet_enabled", "accelerator",
    "file_fsync_supported", "directory_fsync_supported", "hardlink_no_replace_supported", "environment_sha256"]

/-- the constraints of the fields and `digest_matches` -/
def check (F : Type) [FloatText F] [Sha256] (e : V5KaggleEnvironmentBinding) : Except CheckpointError Unit := do
  Exec.check (1 ≤ e.image.length && e.image.length ≤ 256) .validation
  Exec.check (isDigestText e.imageSha256 && isPythonVersion e.pythonVersion) .validation
  Exec.check (0 < e.cpuCount && e.cpuCount ≤ 256) .validation
  Exec.check (isDigestText e.dependencyManifestSha256 && isDigestText e.sourceArchiveSha256 &&
    isDigestText e.notebookSha256 && isDigestText e.environmentSha256) .validation
  let expected ← digest (object e.fields : JsonTree F)
  Exec.check (e.environmentSha256 = expected) .validation

end V5KaggleEnvironmentBinding

/-! ## The observation -/

/-- `V5CheckpointObservation` -/
structure V5CheckpointObservation (F : Type) where
  startedAtUtc : String
  completedAtUtc : String
  wallSeconds : F
  rssSamplesBytes : List ℤ
  hostAvailableSamplesBytes : List ℤ
  peakRssBytes : ℤ
  environment : V5KaggleEnvironmentBinding
  checkpointOutputBytes : ℤ
  preManifestPublicationSeconds : F
  observationSha256 : String

namespace V5CheckpointObservation

variable {F : Type}

/-- the fields that the digest covers -/
def fields (o : V5CheckpointObservation F) : List (String × JsonTree F) :=
  [("schema_version", textValue "apar-sentinel-v5-kaggle-observation/1"),
    ("started_at_utc", textValue o.startedAtUtc),
    ("completed_at_utc", textValue o.completedAtUtc),
    ("wall_seconds", .float o.wallSeconds),
    ("rss_samples_bytes", .list (o.rssSamplesBytes.map .int)),
    ("host_available_samples_bytes", .list (o.hostAvailableSamplesBytes.map .int)),
    ("peak_rss_bytes", .int o.peakRssBytes),
    ("environment", o.environment.tree),
    ("checkpoint_output_bytes", .int o.checkpointOutputBytes),
    ("pre_manifest_publication_seconds", .float o.preManifestPublicationSeconds)]

def tree (o : V5CheckpointObservation F) : JsonTree F :=
  object (o.fields ++ [("observation_sha256", textValue o.observationSha256)])

def fieldNames : List String :=
  ["schema_version", "started_at_utc", "completed_at_utc", "wall_seconds", "rss_samples_bytes",
    "host_available_samples_bytes", "peak_rss_bytes", "environment", "checkpoint_output_bytes",
    "pre_manifest_publication_seconds", "observation_sha256"]

variable [Platform F] [Sha256]

/-- `a > b`, of numbers -/
def exceeds (a b : JsonTree F) : Bool := Platform.lt b a = some true

/-- `value.replace("Z", "+00:00")` -/
def replaceZ (value : String) : String :=
  String.ofList (value.toList.flatMap fun c => if c = 'Z' then "+00:00".toList else [c])

/-- a timestamp of the observation -/
def checkTimestamp (value : String) : Except CheckpointError Unit :=
  Exec.check (Platform.fromisoformat (F := F) (replaceZ value) = some true && value.toList.getLast? = some 'Z') .validation

/-- the constraints of the fields, `samples_are_positive` and `observation_reconciles` -/
def check (o : V5CheckpointObservation F) : Except CheckpointError Unit := do
  o.environment.check F
  Exec.check (exceeds (.float o.wallSeconds) (.int 0 : JsonTree F)) .validation
  Exec.check (o.rssSamplesBytes ≠ [] && o.hostAvailableSamplesBytes ≠ []) .validation
  Exec.check (o.rssSamplesBytes.all (0 < ·) && o.hostAvailableSamplesBytes.all (0 < ·)) .validation
  Exec.check (0 < o.peakRssBytes && 0 ≤ o.checkpointOutputBytes) .validation
  Exec.check (Platform.le (.int 0) (.float o.preManifestPublicationSeconds : JsonTree F) = some true) .validation
  Exec.check (o.observationSha256 = "" || isDigestText o.observationSha256) .validation
  checkTimestamp (F := F) o.startedAtUtc
  checkTimestamp (F := F) o.completedAtUtc
  Exec.check (o.rssSamplesBytes.max? = some o.peakRssBytes) .validation
  Exec.check (o.rssSamplesBytes.length = o.hostAvailableSamplesBytes.length) .validation
  if o.observationSha256 ≠ "" then do
    let expected ← digest (object o.fields : JsonTree F)
    Exec.check (o.observationSha256 = expected) .validation

end V5CheckpointObservation

/-! ## Chunks -/

/-- `f"part-{index:04d}.bin"` -/
def partName (index : ℕ) : String := String.ofList ("part-".toList ++ Calendar.padded 4 index ++ ".bin".toList)

/-- `^part-[0-9]{4}\.bin$` -/
def isPartName (s : String) : Bool :=
  let cs := s.toList
  cs.length = 13 && cs.take 5 = "part-".toList && ((cs.drop 5).take 4).all Char.isDigit && cs.drop 9 = ".bin".toList

/-- `V5CheckpointChunk` -/
structure V5CheckpointChunk where
  index : ℕ
  filename : String
  bytes : ℕ
  sha256 : String
deriving DecidableEq

namespace V5CheckpointChunk

def fields {F : Type} (c : V5CheckpointChunk) : List (String × JsonTree F) :=
  [("index", .int c.index), ("filename", textValue c.filename), ("bytes", .int c.bytes), ("sha256", textValue c.sha256)]

def tree {F : Type} (c : V5CheckpointChunk) : JsonTree F := object c.fields

def fieldNames : List String := ["index", "filename", "bytes", "sha256"]

def check (c : V5CheckpointChunk) : Except CheckpointError Unit :=
  Exec.check (isPartName c.filename && 0 < c.bytes && isDigestText c.sha256) .validation

end V5CheckpointChunk

/-! ## The manifest -/

/-- `V5CheckpointManifest`, but for the fields that have one value -/
structure V5CheckpointManifest where
  stage : V5KaggleStage
  runBindingSha256 : String
  attemptReceiptSha256 : String
  predecessorStage : Option V5KaggleStage
  predecessorManifestSha256 : Option String
  predecessorDeterministicSha256 : Option String
  recordCount : ℕ
  uncompressedRecordBytes : ℕ
  recordStreamSha256 : String
  deterministicSha256 : String
  observationalRecordCount : ℕ
  observationalUncompressedRecordBytes : ℕ
  observationalRecordStreamSha256 : String
  observationSha256 : String
  environmentSha256 : String
  maxStageOutputBytes : ℕ
  maxCheckpointChunkBytes : ℕ
  maxCheckpointChunks : ℕ
  chunks : List V5CheckpointChunk
  observationalChunks : List V5CheckpointChunk
  manifestSha256 : String

namespace V5CheckpointManifest

variable {F : Type}

/-- the fields that the digest covers -/
def fields (m : V5CheckpointManifest) : List (String × JsonTree F) :=
  [("schema_version", textValue "apar-sentinel-v5-kaggle-checkpoint-manifest/1"),
    ("record_stream_schema_version", textValue "apar-sentinel-v5-kaggle-record-stream/1"),
    ("compression", textValue "gzip-zlib-level-9"),
    ("publication", textValue "chunks_observation_then_atomic_exclusive_manifest"),
    ("stage", textValue m.stage.value),
    ("run_binding_sha256", textValue m.runBindingSha256),
    ("attempt_receipt_sha256", textValue m.attemptReceiptSha256),
    ("predecessor_stage", optional (fun stage : V5KaggleStage => textValue stage.value) m.predecessorStage),
    ("predecessor_manifest_sha256", optional textValue m.predecessorManifestSha256),
    ("predecessor_deterministic_sha256", optional textValue m.predecessorDeterministicSha256),
    ("record_count", .int m.recordCount),
    ("uncompressed_record_bytes", .int m.uncompressedRecordBytes),
    ("record_stream_sha256", textValue m.recordStreamSha256),
    ("deterministic_sha256", textValue m.deterministicSha256),
    ("observational_record_count", .int m.observationalRecordCount),
    ("observational_uncompressed_record_bytes", .int m.observationalUncompressedRecordBytes),
    ("observational_record_stream_sha256", textValue m.observationalRecordStreamSha256),
    ("observation_sha256", textValue m.observationSha256),
    ("environment_sha256", textValue m.environmentSha256),
    ("max_stage_output_bytes", .int m.maxStageOutputBytes),
    ("max_checkpoint_chunk_bytes", .int m.maxCheckpointChunkBytes),
    ("max_checkpoint_chunks", .int m.maxCheckpointChunks),
    ("chunks", .list (m.chunks.map V5CheckpointChunk.tree)),
    ("observational_chunks", .list (m.observationalChunks.map V5CheckpointChunk.tree))]

def tree (m : V5CheckpointManifest) : JsonTree F :=
  object (m.fields ++ [("manifest_sha256", textValue m.manifestSha256)])

def fieldNames : List String :=
  ["schema_version", "record_stream_schema_version", "compression", "publication", "stage", "run_binding_sha256",
    "attempt_receipt_sha256", "predecessor_stage", "predecessor_manifest_sha256", "predecessor_deterministic_sha256",
    "record_count", "uncompressed_record_bytes", "record_stream_sha256", "deterministic_sha256",
    "observational_record_count", "observational_uncompressed_record_bytes", "observational_record_stream_sha256",
    "observation_sha256", "environment_sha256", "max_stage_output_bytes", "max_checkpoint_chunk_bytes",
    "max_checkpoint_chunks", "chunks", "observational_chunks", "manifest_sha256"]

/-- `deterministic_document` -/
def deterministicDocument (m : V5CheckpointManifest) : JsonTree F :=
  object [("schema_version", textValue "apar-sentinel-v5-kaggle-deterministic-stage/1"),
    ("stage", textValue m.stage.value),
    ("run_binding_sha256", textValue m.runBindingSha256),
    ("predecessor_deterministic_sha256", optional textValue m.predecessorDeterministicSha256),
    ("record_count", .int m.recordCount),
    ("uncompressed_record_bytes", .int m.uncompressedRecordBytes),
    ("record_stream_sha256", textValue m.recordStreamSha256)]

/-- a field of at least one character pattern `^[0-9a-f]{64}$`, where there is one -/
def digestOrNone (s : Option String) : Bool := s.all isDigestText

/-- the constraints of the fields -/
def checkFields (m : V5CheckpointManifest) : Except CheckpointError Unit := do
  m.chunks.forM V5CheckpointChunk.check
  m.observationalChunks.forM V5CheckpointChunk.check
  Exec.check ([m.runBindingSha256, m.attemptReceiptSha256, m.recordStreamSha256, m.deterministicSha256,
    m.observationalRecordStreamSha256, m.observationSha256, m.environmentSha256, m.manifestSha256].all isDigestText)
    .validation
  Exec.check (digestOrNone m.predecessorManifestSha256 && digestOrNone m.predecessorDeterministicSha256) .validation
  Exec.check (0 < m.recordCount && 0 < m.uncompressedRecordBytes) .validation
  Exec.check (0 < m.maxStageOutputBytes && 0 < m.maxCheckpointChunkBytes && 0 < m.maxCheckpointChunks) .validation
  Exec.check (m.chunks ≠ []) .validation

/-- `_validate_chunks` -/
def validateChunks (m : V5CheckpointManifest) (chunks : List V5CheckpointChunk) : Except CheckpointError Unit := do
  Exec.check (chunks ≠ []) .validation
  Exec.check (chunks.map (·.index) = List.range chunks.length) .validation
  Exec.check (chunks.map (·.filename) = (List.range chunks.length).map partName) .validation
  Exec.check (chunks.dropLast.all (fun c => c.bytes = m.maxCheckpointChunkBytes) &&
    chunks.getLast?.all (fun c => c.bytes ≤ m.maxCheckpointChunkBytes)) .validation

/-- the predecessor that a stage must have -/
def predecessorFits (m : V5CheckpointManifest) : Bool :=
  if m.stage = .authorize then
    m.predecessorStage = none && m.predecessorManifestSha256 = none && m.predecessorDeterministicSha256 = none
  else
    m.predecessorManifestSha256.isSome && m.predecessorDeterministicSha256.isSome &&
      m.predecessorStage.any fun stage => stage.next = some m.stage

/-- what `manifest_reconciles` checks of the observational layer -/
def checkObservational [Sha256] (m : V5CheckpointManifest) : Except CheckpointError Unit :=
  if m.observationalRecordCount = 0 then
    Exec.check (m.observationalUncompressedRecordBytes = 0 &&
      m.observationalRecordStreamSha256 = Sha256.hexdigestBytes [] && m.observationalChunks = []) .validation
  else do
    Exec.check (0 < m.observationalUncompressedRecordBytes) .validation
    m.validateChunks m.observationalChunks

/-- `manifest_reconciles` -/
def reconciles (F : Type) [FloatText F] [Sha256] (m : V5CheckpointManifest) : Except CheckpointError Unit := do
  Exec.check m.predecessorFits .validation
  Exec.check (m.chunks.length ≤ m.maxCheckpointChunks) .validation
  m.validateChunks m.chunks
  Exec.check (m.observationalChunks.length ≤ m.maxCheckpointChunks) .validation
  m.checkObservational
  Exec.check ((m.chunks.map (·.bytes)).sum + (m.observationalChunks.map (·.bytes)).sum ≤ m.maxStageOutputBytes) .validation
  let deterministic ← digest (m.deterministicDocument : JsonTree F)
  Exec.check (m.deterministicSha256 = deterministic) .validation
  let expected ← digest (object m.fields : JsonTree F)
  Exec.check (m.manifestSha256 = expected) .validation

def check (F : Type) [FloatText F] [Sha256] (m : V5CheckpointManifest) : Except CheckpointError Unit := do
  m.checkFields
  m.reconciles F

end V5CheckpointManifest

/-! ## Models read from documents -/

section Reading

variable {F : Type} [Platform F]

/-- a field of type `str` -/
def textField (t : Option (JsonTree F)) : Except CheckpointError String :=
  match t with
  | some (.str p) => p.toString?.elim (.error .validation) .ok
  | _ => .error .validation

/-- a field with one value -/
def literalField (t : Option (JsonTree F)) (s : String) : Except CheckpointError Unit := Exec.check (isText t s) .validation

/-- a field of type `Literal[True]` or `Literal[False]` -/
def flagField (t : Option (JsonTree F)) (b : Bool) : Except CheckpointError Unit :=
  match t with
  | some (.bool b') => Exec.check (b = b') .validation
  | _ => .error .validation

/-- a field of type `int` -/
def intField (t : Option (JsonTree F)) : Except CheckpointError ℤ :=
  (t.bind Platform.intField).elim (.error .validation) .ok

/-- a field of type `int` that is not negative -/
def natField (t : Option (JsonTree F)) : Except CheckpointError ℕ := do
  let n ← intField t
  Exec.check (0 ≤ n) .validation
  return n.toNat

def floatField (t : Option (JsonTree F)) : Except CheckpointError F :=
  (t.bind Platform.floatField).elim (.error .validation) .ok

/-- a field of type `tuple` -/
def listField {α : Type} (item : JsonTree F → Except CheckpointError α) (t : Option (JsonTree F)) :
    Except CheckpointError (List α) :=
  match t with
  | some (.list xs) => xs.mapM item
  | _ => .error .validation

/-- a field that may be `None` -/
def optionalField {α : Type} (item : Option (JsonTree F) → Except CheckpointError α) (t : Option (JsonTree F)) :
    Except CheckpointError (Option α) :=
  match t with
  | some .null => .ok none
  | t => (item t).map some

/-- the default of a field that is not there -/
def withDefault (t : Option (JsonTree F)) (default : JsonTree F) : Option (JsonTree F) := some (t.getD default)

def stageField (t : Option (JsonTree F)) : Except CheckpointError V5KaggleStage := do
  let s ← textField t
  (V5KaggleStage.ofValue s).elim (.error .validation) .ok

/-- a document with no other field than these -/
def documentField (t : Option (JsonTree F)) (names : List String) : Except CheckpointError (JsonTree F) :=
  match t with
  | some (.dict items) => if (JsonTree.dict items).within names then .ok (.dict items) else .error .validation
  | _ => .error .validation

variable [Sha256]

namespace V5KaggleEnvironmentBinding

def modelValidate (t : JsonTree F) : Except CheckpointError V5KaggleEnvironmentBinding := do
  let d ← documentField (some t) fieldNames
  literalField (d.get? "schema_version") "apar-sentinel-v5-kaggle-environment/1"
  literalField (d.get? "provider") "kaggle"
  let image ← textField (d.get? "image")
  let imageSha256 ← textField (d.get? "image_sha256")
  let pythonVersion ← textField (d.get? "python_version")
  literalField (d.get? "architecture") "x86_64"
  let cpuCount ← natField (d.get? "cpu_count")
  let dependencyManifestSha256 ← textField (d.get? "dependency_manifest_sha256")
  let sourceArchiveSha256 ← textField (d.get? "source_archive_sha256")
  let notebookSha256 ← textField (d.get? "notebook_sha256")
  flagField (d.get? "internet_enabled") false
  literalField (d.get? "accelerator") "none"
  flagField (d.get? "file_fsync_supported") true
  flagField (d.get? "directory_fsync_supported") true
  flagField (d.get? "hardlink_no_replace_supported") true
  let environmentSha256 ← textField (d.get? "environment_sha256")
  let e : V5KaggleEnvironmentBinding := ⟨image, imageSha256, pythonVersion, cpuCount, dependencyManifestSha256,
    sourceArchiveSha256, notebookSha256, environmentSha256⟩
  e.check F
  return e

end V5KaggleEnvironmentBinding

namespace V5CheckpointObservation

def modelValidate (t : JsonTree F) : Except CheckpointError (V5CheckpointObservation F) := do
  let d ← documentField (some t) fieldNames
  literalField (d.get? "schema_version") "apar-sentinel-v5-kaggle-observation/1"
  let startedAtUtc ← textField (d.get? "started_at_utc")
  let completedAtUtc ← textField (d.get? "completed_at_utc")
  let wallSeconds ← floatField (d.get? "wall_seconds")
  let rssSamplesBytes ← listField (fun x => intField (some x)) (d.get? "rss_samples_bytes")
  let hostAvailableSamplesBytes ← listField (fun x => intField (some x)) (d.get? "host_available_samples_bytes")
  let peakRssBytes ← intField (d.get? "peak_rss_bytes")
  let environment ← V5KaggleEnvironmentBinding.modelValidate ((d.get? "environment").getD .null)
  let checkpointOutputBytes ← intField (withDefault (d.get? "checkpoint_output_bytes") (.int 0))
  let preManifestPublicationSeconds ← floatField (withDefault (d.get? "pre_manifest_publication_seconds") (.int 0))
  let observationSha256 ← textField (withDefault (d.get? "observation_sha256") (textValue ""))
  let o : V5CheckpointObservation F := ⟨startedAtUtc, completedAtUtc, wallSeconds, rssSamplesBytes,
    hostAvailableSamplesBytes, peakRssBytes, environment, checkpointOutputBytes, preManifestPublicationSeconds,
    observationSha256⟩
  o.check
  return o

end V5CheckpointObservation

namespace V5CheckpointChunk

def modelValidate (t : JsonTree F) : Except CheckpointError V5CheckpointChunk := do
  let d ← documentField (some t) fieldNames
  let index ← natField (d.get? "index")
  let filename ← textField (d.get? "filename")
  let bytes ← natField (d.get? "bytes")
  let sha256 ← textField (d.get? "sha256")
  let c : V5CheckpointChunk := ⟨index, filename, bytes, sha256⟩
  c.check
  return c

end V5CheckpointChunk

namespace V5CheckpointManifest

def modelValidate (t : JsonTree F) : Except CheckpointError V5CheckpointManifest := do
  let d ← documentField (some t) fieldNames
  literalField (d.get? "schema_version") "apar-sentinel-v5-kaggle-checkpoint-manifest/1"
  literalField (d.get? "record_stream_schema_version") "apar-sentinel-v5-kaggle-record-stream/1"
  literalField (d.get? "compression") "gzip-zlib-level-9"
  literalField (d.get? "publication") "chunks_observation_then_atomic_exclusive_manifest"
  let stage ← stageField (d.get? "stage")
  let runBindingSha256 ← textField (d.get? "run_binding_sha256")
  let attemptReceiptSha256 ← textField (d.get? "attempt_receipt_sha256")
  let predecessorStage ← optionalField stageField (d.get? "predecessor_stage")
  let predecessorManifestSha256 ← optionalField textField (withDefault (d.get? "predecessor_manifest_sha256") .null)
  let predecessorDeterministicSha256 ←
    optionalField textField (withDefault (d.get? "predecessor_deterministic_sha256") .null)
  let recordCount ← natField (d.get? "record_count")
  let uncompressedRecordBytes ← natField (d.get? "uncompressed_record_bytes")
  let recordStreamSha256 ← textField (d.get? "record_stream_sha256")
  let deterministicSha256 ← textField (d.get? "deterministic_sha256")
  let observationalRecordCount ← natField (d.get? "observational_record_count")
  let observationalUncompressedRecordBytes ← natField (d.get? "observational_uncompressed_record_bytes")
  let observationalRecordStreamSha256 ← textField (d.get? "observational_record_stream_sha256")
  let observationSha256 ← textField (d.get? "observation_sha256")
  let environmentSha256 ← textField (d.get? "environment_sha256")
  let maxStageOutputBytes ← natField (d.get? "max_stage_output_bytes")
  let maxCheckpointChunkBytes ← natField (d.get? "max_checkpoint_chunk_bytes")
  let maxCheckpointChunks ← natField (d.get? "max_checkpoint_chunks")
  let chunks ← listField V5CheckpointChunk.modelValidate (d.get? "chunks")
  let observationalChunks ←
    listField V5CheckpointChunk.modelValidate (withDefault (d.get? "observational_chunks") (.list []))
  let manifestSha256 ← textField (d.get? "manifest_sha256")
  let m : V5CheckpointManifest := ⟨stage, runBindingSha256, attemptReceiptSha256, predecessorStage,
    predecessorManifestSha256, predecessorDeterministicSha256, recordCount, uncompressedRecordBytes, recordStreamSha256,
    deterministicSha256, observationalRecordCount, observationalUncompressedRecordBytes, observationalRecordStreamSha256,
    observationSha256, environmentSha256, maxStageOutputBytes, maxCheckpointChunkBytes, maxCheckpointChunks, chunks,
    observationalChunks, manifestSha256⟩
  m.check F
  return m

end V5CheckpointManifest

end Reading

end Checkpoint

end Apar
