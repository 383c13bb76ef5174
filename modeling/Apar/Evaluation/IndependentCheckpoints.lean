/-
The independent verifier's own reader of checkpoints (`v5_kaggle_independent_verifier.py`): the stream of a layer, whose
records are pulled out of the blocks as they are needed, and the checks of a checkpoint.

The verifier works on the documents as they were read; Python's operators on them are the `Platform`'s. A file is read in
blocks, and a block is decompressed at once, without a limit on what it expands to. The records of a layer are returned
when its stream has come to its end; what the verifier retains of them depends on the stage.
-/
import Apar.Evaluation.CheckpointStorage

namespace Apar

namespace Independent

open Exec JsonTree Checkpoint

/-- `_fail` -/
def fail {α : Type} (message : String) : Except CheckpointError α := .error (.verification message)

/-- `if not c: _fail(message)` -/
def require (c : Bool) (message : String) : Except CheckpointError Unit := check c (.verification message)

/-- `_MAX_RECORD_BYTES` -/
def maxRecordBytes : ℕ := 1073741824

/-- `_READ_BLOCK_BYTES` -/
def readBlockBytes : ℕ := 1048576

section Documents

variable {F : Type} [Platform F]

/-- `a == b` -/
def equal (a b : JsonTree F) : Bool := Platform.eq a b

/-- `a < b`, or a `TypeError` -/
def less (a b : JsonTree F) : Except CheckpointError Bool := (Platform.lt a b).elim (.error .type) .ok

/-- `a <= b`, or a `TypeError` -/
def atMost (a b : JsonTree F) : Except CheckpointError Bool := (Platform.le a b).elim (.error .type) .ok

/-- `_mapping` -/
def mapping (t : JsonTree F) (label : String) : Except CheckpointError (JsonTree F) :=
  match t with
  | .dict items => .ok (.dict items)
  | _ => fail (label ++ " must be an object")

/-- `_sequence` -/
def sequence (t : JsonTree F) (label : String) : Except CheckpointError (List (JsonTree F)) :=
  match t with
  | .list xs => .ok xs
  | _ => fail (label ++ " must be an array")

/-- `_exact` -/
def exactFields (t : JsonTree F) (fields : List String) (label : String) : Except CheckpointError Unit :=
  require (t.exactly fields) (label ++ " schema differs")

/-- `document[name]`, of a document with that field -/
def field (t : JsonTree F) (name : String) : JsonTree F := (t.get? name).getD .null

/-- `{key: value for key, value in document.items() if key != name}` -/
def without (t : JsonTree F) (name : String) : JsonTree F :=
  match t with
  | .dict items => .dict (items.filter fun i => i.1 ≠ PyStr.ofString name)
  | t => t

/-- `_read_canonical_file` -/
def readCanonicalFile (entry : Option Entry) (limit : ℕ) (label : String) : Except CheckpointError (JsonTree F) :=
  match entry with
  | none => fail (label ++ " is missing")
  | some .other => fail (label ++ " topology or size differs")
  | some (.file raw) => do
    require (0 < raw.length && raw.length ≤ limit) (label ++ " topology or size differs")
    let document ← (JsonText.loadsBytes raw).elim (fail (label ++ " is not JSON")) fun t => mapping t label
    let canonical ← canonicalBytes document
    require (raw = canonical) (label ++ " is not canonical JSON")
    return document

end Documents

/-! ## The blocks of a layer -/

/-- `while block := handle.read(size)` -/
def readBlocks (size : ℕ) : ℕ → List UInt8 → List (List UInt8)
  | 0, _ => []
  | n + 1, content => if content = [] then [] else content.take size :: readBlocks size n (content.drop size)

section Blocks

variable {F : Type} [Platform F] [Sha256] {C D : Type} (z : Codec C D)

/-- a block of a file goes to the decompressor -/
def decompressBlock (layer : Layer) (d : D) (block : List UInt8) : Gen CheckpointError (List UInt8) D :=
  match z.decompress d block 0 with
  | none => Gen.raise (.verification (layer.name ++ " compressed stream is invalid"))
  | some (expanded, d) => do
    Gen.emitIf (expanded ≠ []) expanded
    return d

/-- the blocks of a file go to the decompressor -/
def decompressBlocks (layer : Layer) : D → List (List UInt8) → Gen CheckpointError (List UInt8) D
  | d, [] => pure d
  | d, block :: blocks => do
    let d ← decompressBlock z layer d block
    decompressBlocks layer d blocks

/-- the file of a chunk, after its checks -/
def chunkFile (directory : List (String × Entry)) (layer : Layer) (maxChunkBytes : JsonTree F) (expectedIndex : ℕ)
    (descriptor : JsonTree F) : Except CheckpointError (List UInt8) := do
  let chunk ← mapping descriptor (layer.name ++ " chunk descriptor")
  exactFields chunk ["index", "filename", "bytes", "sha256"] "chunk descriptor"
  let filename := partName expectedIndex
  require (equal (field chunk "index") (.int expectedIndex) && equal (field chunk "filename") (textValue filename))
    (layer.name ++ " chunk order differs")
  match Assoc.get? filename directory with
  | none => .error .fileNotFound
  | some .other => fail (layer.name ++ " chunk topology or size differs")
  | some (.file content) => do
    require (equal (.int content.length) (field chunk "bytes")) (layer.name ++ " chunk topology or size differs")
    let bounded ← atMost (.int content.length) maxChunkBytes
    require (0 < content.length && bounded) (layer.name ++ " chunk topology or size differs")
    return content

/-- the loop over the chunks -/
def decompressChunks (directory : List (String × Entry)) (layer : Layer) (maxChunkBytes : JsonTree F) :
    ℕ → D → List (JsonTree F) → Gen CheckpointError (List UInt8) D
  | _, d, [] => pure d
  | expectedIndex, d, descriptor :: descriptors => do
    let content ← Gen.lift (chunkFile directory layer maxChunkBytes expectedIndex descriptor)
    let d ← decompressBlocks z layer d (readBlocks readBlockBytes content.length content)
    Gen.lift (require (equal (textValue (Sha256.hexdigestBytes content)) (field descriptor "sha256"))
      (layer.name ++ " chunk digest differs"))
    decompressChunks directory layer maxChunkBytes (expectedIndex + 1) d descriptors

/-- the names that the directory of a layer must have -/
def expectedNames (layer : Layer) (chunks : List (JsonTree F)) : List String :=
  if layer = .observational ∧ chunks = [] then [emptyLayerMarker]
  else chunks.map fun item => (item.get? "filename").elim "None" Platform.str

/-- the checks of a layer's directory; an entry without `get` is an `AttributeError` -/
def layerDirectory (directory : Option (List (String × Entry))) (layer : Layer) (chunks : List (JsonTree F))
    (maxChunks : JsonTree F) : Except CheckpointError (List (String × Entry)) := do
  let entries ← directory.elim (fail (layer.name ++ " chunk directory topology differs")) .ok
  let exceeds ← less maxChunks (.int chunks.length)
  require (!exceeds) (layer.name ++ " chunk count exceeds bound")
  check (chunks.all fun item => match item with | .dict _ => true | _ => false) .type
  require (sameNames (entries.map Prod.fst) (expectedNames layer chunks)) (layer.name ++ " chunk set differs")
  return entries

/-- the marker of a layer without chunks -/
def checkMarker (layer : Layer) (entries : List (String × Entry)) : Except CheckpointError Unit :=
  match Assoc.get? emptyLayerMarker entries with
  | none => fail "empty observational checkpoint marker is missing"
  | some .other => fail "empty observational checkpoint marker differs"
  | some (.file content) =>
    require (layer = .observational && content = emptyObservationalLayerBytes) "empty observational checkpoint marker differs"

/-- `_decompressed_blocks` -/
def decompressedBlocks (directory : Option (List (String × Entry))) (layer : Layer) (chunks : List (JsonTree F))
    (maxChunks maxChunkBytes : JsonTree F) : Gen CheckpointError (List UInt8) Unit := do
  let entries ← Gen.lift (layerDirectory directory layer chunks maxChunks)
  if chunks = [] then Gen.lift (checkMarker layer entries)
  else do
    let d ← decompressChunks z entries layer maxChunkBytes 0 z.decompressobj chunks
    match z.flush d with
    | none => Gen.raise .zlib
    | some (tail, d) => do
      Gen.emitIf (tail ≠ []) tail
      Gen.lift (require (z.eof d && z.unusedData d = [] && z.unconsumedTail d = [])
        (layer.name ++ " compressed stream is incomplete or has trailing bytes"))

end Blocks

/-! ## Records -/

/-- `_Record` -/
structure Record where
  layer : Layer
  kind : String
  key : String
  payload : List UInt8
deriving DecidableEq

/-- the buffer, and the blocks that are still to come -/
structure Intake where
  buffer : List UInt8
  blocks : List (List UInt8)

/-- `fill` -/
def fill (ending : Except CheckpointError Unit) (size : ℕ) :
    List UInt8 → List (List UInt8) → Except CheckpointError (Bool × Intake)
  | buffer, [] => if size ≤ buffer.length then .ok (true, ⟨buffer, []⟩) else ending.map fun _ => (false, ⟨buffer, []⟩)
  | buffer, block :: blocks =>
    if size ≤ buffer.length then .ok (true, ⟨buffer, block :: blocks⟩) else fill ending size (buffer ++ block) blocks

section Records

variable (F : Type) [Platform F] [Sha256]

/-- the header of a record: its kind, its key and the size of its payload -/
def readHeader (layer : Layer) (raw : List UInt8) : Except CheckpointError (JsonTree F × JsonTree F × ℕ) := do
  let header ← (JsonText.loadsBytes raw : Option (JsonTree F)).elim (fail (layer.name ++ " record header is invalid"))
    fun t => mapping t "record header"
  let canonical ← canonicalBytes header
  require (raw = canonical && header.exactly ["bytes", "key", "kind"]) (layer.name ++ " record header schema differs")
  let size ← ((header.get? "bytes").bind fun t => payloadSize t maxRecordBytes).elim
    (fail (layer.name ++ " record size differs")) .ok
  return (field header "kind", field header "key", size)

variable {F}

/-- `kind` and `key` are texts -/
def readIdentity (layer : Layer) (kind key : JsonTree F) : Except CheckpointError (String × String) :=
  match kind, key with
  | .str kind, .str key =>
    match kind.toString?, key.toString? with
    | some kind, some key => .ok (kind, key)
    | _, _ => fail (layer.name ++ " record identity differs")
  | _, _ => fail (layer.name ++ " record identity differs")

/-- what the loop over the records has counted -/
structure Tally where
  records : List Record
  hashed : List UInt8
  count : ℕ
  total : ℕ

variable (F) in
/-- a record, when the eight bytes of its header's size are there -/
def readRecord (ending : Except CheckpointError Unit) (layer : Layer) (s : Intake) :
    Except CheckpointError (Record × List UInt8 × Intake) := do
  let headerSizeBytes := s.buffer.take 8
  let headerSize := BigEndian.value headerSizeBytes
  require (1 ≤ headerSize && headerSize ≤ maxRecordHeaderBytes) (layer.name ++ " record header is truncated or oversized")
  let (enough, s) ← fill ending headerSize (s.buffer.drop 8) s.blocks
  require enough (layer.name ++ " record header is truncated or oversized")
  let headerBytes := s.buffer.take headerSize
  let (kind, key, payloadSize) ← readHeader F layer headerBytes
  let (enough, s) ← fill ending payloadSize (s.buffer.drop headerSize) s.blocks
  require enough (layer.name ++ " record payload is truncated")
  let payload := s.buffer.take payloadSize
  let (kind, key) ← readIdentity layer kind key
  return (⟨layer, kind, key, payload⟩, headerSizeBytes ++ headerBytes ++ payload, ⟨s.buffer.drop payloadSize, s.blocks⟩)

variable (F) in
/-- the loop over the records; every record takes a byte -/
def readRecords (ending : Except CheckpointError Unit) (layer : Layer) : ℕ → Intake → Tally → Except CheckpointError Tally
  | 0, _, _ => .error .endless
  | n + 1, s, t => do
    let (enough, s) ← fill ending 8 s.buffer s.blocks
    if enough then do
      let (record, frame, s) ← readRecord F ending layer s
      readRecords ending layer n s ⟨t.records ++ [record], t.hashed ++ frame, t.count + 1, t.total + frame.length⟩
    else do
      require (s.buffer ++ s.blocks.flatten = []) (layer.name ++ " record stream has trailing bytes")
      return t

variable (F) in
/-- `_RecordStream.__iter__`, to its end -/
def iterate (layer : Layer) (blocks : Gen CheckpointError (List UInt8) Unit) : Except CheckpointError Tally :=
  readRecords F blocks.result layer (blocks.items.flatten.length + 1) ⟨[], blocks.items⟩ ⟨[], [], 0, 0⟩

end Records

/-! ## Checkpoints -/

/-- the kinds that the verifier retains of a stage -/
def retainedKinds : V5KaggleStage → List String
  | .authorize => ["authorization"]
  | .corpus => ["corpus_header", "partition_header", "decision_row", "execution_manifest"]
  | .features => ["feature_header", "prepared_partition", "feature_matrix", "labels", "amounts", "trust_failures",
      "feature_batch", "training_evidence"]
  | .arms => ["arm_header", "arm_result_meta", "arm_execution_artifacts", "arm_result_rows", "arm_latency_meta",
      "arm_latency_samples"]
  | .labelShuffle => ["control_group", "control_observation"]
  | .identityRename => ["control_group", "control_observation"]
  | .futureCausality => ["control_group", "control_observation"]
  | .equalTimeIsolation => ["control_group", "control_observation"]
  | .featureLeakage => ["control_group", "control_observation"]
  | .singleClassControls => ["control_group", "control_observation"]
  | .metrics => ["metric_evidence", "metric_observation"]
  | .finalize => ["final_core", "final_payload"]

/-- the kinds that the staged pipeline writes for a stage (`evaluation/v5_staged_evidence.py`) -/
def pipelineKinds : V5KaggleStage → List String
  -- `execute_v5_authorization_stage`
  | .authorize => ["authorization"]
  -- `_iter_v5_corpus_records`
  | .corpus => ["corpus_header", "partition_header", "decision_row", "execution_manifest"]
  -- `execute_v5_feature_stage` and `_iter_prepared_partition_records`
  | .features => ["feature_header", "prepared_partition", "feature_matrix", "labels", "amounts", "trust_failures",
      "feature_batch", "training_evidence"]
  -- `execute_v5_arm_stage` and `_iter_arm_result_checkpoint_records`
  | .arms => ["arm_header", "arm_result_meta", "arm_execution_artifacts", "arm_result_rows", "arm_latency_meta",
      "arm_latency_samples"]
  -- `execute_v5_control_stage`
  | .labelShuffle | .identityRename | .futureCausality | .equalTimeIsolation | .featureLeakage | .singleClassControls =>
    ["control_group", "control_observation"]
  -- `execute_v5_metric_stage`
  | .metrics => ["metric_evidence", "metric_observation"]
  -- `execute_v5_finalize_stage`
  | .finalize => ["final_core", "final_payload"]

/-- `_VerifiedCheckpoint` -/
structure VerifiedCheckpoint (F : Type) where
  manifest : JsonTree F
  observation : JsonTree F
  deterministicRecords : List Record
  observationalRecords : List Record

section Checkpoints

variable {F : Type} [Platform F] [Sha256] {C D : Type} (z : Codec C D)

/-- the checks of the manifest before its streams are read -/
def checkManifest (manifest : JsonTree F) : Except CheckpointError Unit := do
  exactFields manifest V5CheckpointManifest.fieldNames "checkpoint manifest"
  require (equal (field manifest "schema_version") (textValue "apar-sentinel-v5-kaggle-checkpoint-manifest/1") &&
    equal (field manifest "record_stream_schema_version") (textValue "apar-sentinel-v5-kaggle-record-stream/1") &&
    equal (field manifest "compression") (textValue "gzip-zlib-level-9") &&
    equal (field manifest "publication") (textValue "chunks_observation_then_atomic_exclusive_manifest"))
    "checkpoint manifest frozen schema differs"
  let expected ← digest (without manifest "manifest_sha256")
  require (equal (field manifest "manifest_sha256") (textValue expected)) "checkpoint manifest digest differs"
  require (equal (field manifest "max_stage_output_bytes") (.int 10000000000) &&
    equal (field manifest "max_checkpoint_chunk_bytes") (.int 67108864) &&
    equal (field manifest "max_checkpoint_chunks") (.int 160)) "checkpoint resource limits differ"

/-- a stream, against what the manifest says of it -/
def readStream (manifest : JsonTree F) (layer : Layer) (directory : Option (List (String × Entry)))
    (chunks : List (JsonTree F)) : Except CheckpointError (List Record) := do
  let t ← iterate F layer (decompressedBlocks z directory layer chunks (field manifest "max_checkpoint_chunks")
    (field manifest "max_checkpoint_chunk_bytes"))
  let start := match layer with
    | .deterministic => ""
    | .observational => "observational_"
  require (equal (.int t.count) (field manifest (start ++ "record_count")) &&
    equal (.int t.total) (field manifest (start ++ "uncompressed_record_bytes")) &&
    equal (textValue (Sha256.hexdigestBytes t.hashed)) (field manifest (start ++ "record_stream_sha256")))
    (layer.name ++ " record stream binding differs")
  return t.records

/-- the document of the deterministic digest -/
def deterministicValues (manifest : JsonTree F) : JsonTree F :=
  object [("schema_version", textValue "apar-sentinel-v5-kaggle-deterministic-stage/1"),
    ("stage", field manifest "stage"),
    ("run_binding_sha256", field manifest "run_binding_sha256"),
    ("predecessor_deterministic_sha256", field manifest "predecessor_deterministic_sha256"),
    ("record_count", field manifest "record_count"),
    ("uncompressed_record_bytes", field manifest "uncompressed_record_bytes"),
    ("record_stream_sha256", field manifest "record_stream_sha256")]

/-- the resources that were observed -/
def checkResources (observation : JsonTree F) : Except CheckpointError Unit := do
  let rss ← sequence (field observation "rss_samples_bytes") "RSS samples"
  let available ← sequence (field observation "host_available_samples_bytes") "available-memory samples"
  require (rss ≠ [] && rss.length = available.length) "checkpoint resource observation differs or exceeds gate"
  let peak ← (Platform.max rss).elim (.error .type) .ok
  require (equal (field observation "peak_rss_bytes") peak) "checkpoint resource observation differs or exceeds gate"
  let exceeds ← atMost (.int 19327352832) (field observation "peak_rss_bytes")
  require (!exceeds) "checkpoint resource observation differs or exceeds gate"
  let positive ← less (.int 0) (field observation "wall_seconds")
  require positive "checkpoint resource observation differs or exceeds gate"
  let bounded ← atMost (field observation "wall_seconds") (.int 21600)
  require bounded "checkpoint resource observation differs or exceeds gate"

/-- the checks of the observation -/
def checkObservation (observation : JsonTree F) : Except CheckpointError (JsonTree F) := do
  exactFields observation V5CheckpointObservation.fieldNames "checkpoint observation"
  let environment ← mapping (field observation "environment") "checkpoint environment"
  exactFields environment V5KaggleEnvironmentBinding.fieldNames "checkpoint environment"
  let environmentSha256 ← digest (without environment "environment_sha256")
  require (equal (field environment "environment_sha256") (textValue environmentSha256))
    "checkpoint environment digest differs"
  let observationSha256 ← digest (without observation "observation_sha256")
  require (equal (field observation "observation_sha256") (textValue observationSha256))
    "checkpoint observation digest differs"
  checkResources observation
  return environment

/-- `_read_checkpoint` -/
def readCheckpoint (root : CheckpointDirectory) : Except CheckpointError (VerifiedCheckpoint F) := do
  require root.real "checkpoint root topology differs"
  let manifest : JsonTree F ← readCanonicalFile root.manifest maxManifestBytes "checkpoint manifest"
  checkManifest manifest
  let stage ← (V5KaggleStage.ofValue (Platform.str (field manifest "stage"))).elim (fail "checkpoint stage is unknown") .ok
  let chunks ← sequence (field manifest "chunks") "deterministic chunks"
  let observationalChunks ← sequence (field manifest "observational_chunks") "observational chunks"
  let deterministic ← readStream z manifest .deterministic root.chunks chunks
  let observational ← readStream z manifest .observational root.observationalChunks observationalChunks
  let deterministicSha256 ← digest (deterministicValues manifest)
  require (equal (field manifest "deterministic_sha256") (textValue deterministicSha256))
    "checkpoint deterministic stage digest differs"
  let observation ← readCanonicalFile root.observation maxObservationBytes "checkpoint observation"
  let environment ← checkObservation observation
  require (equal (field manifest "observation_sha256") (field observation "observation_sha256") &&
    equal (field manifest "environment_sha256") (field environment "environment_sha256"))
    "checkpoint observation/environment manifest binding differs"
  return ⟨manifest, observation, deterministic.filter fun r => r.kind ∈ retainedKinds stage,
    observational.filter fun r => r.kind ∈ retainedKinds stage⟩

end Checkpoints

end Independent

end Apar
