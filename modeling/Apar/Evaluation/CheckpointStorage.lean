/-
The checkpoint storage (`evaluation/v5_checkpoint_storage.py`): publishing a sequence of checkpoint inputs, reading the
manifest back, and streaming the records of a layer.

A checkpoint directory is its two documents and its two directories of chunks; an entry that is not a regular file with
one link is `Entry.other`. Files are written whole and read as they were written, in a directory of the publisher's own.
The compressor and the decompressor are a `Codec`. The loop that hands a chunk to the decompressor may run forever on a
decompressor that makes no progress; it has fuel here.
-/
import Apar.Core.Codec
import Apar.Core.Generators
import Apar.Evaluation.CheckpointRecords

namespace Apar

namespace Checkpoint

open Exec JsonTree

/-- `_MAX_MANIFEST_BYTES` -/
def maxManifestBytes : ℕ := 1048576

/-- `_MAX_OBSERVATION_BYTES` -/
def maxObservationBytes : ℕ := 4194304

/-- `_MAX_RECORD_HEADER_BYTES` -/
def maxRecordHeaderBytes : ℕ := 65536

/-- `_DECOMPRESS_BLOCK_BYTES` -/
def decompressBlockBytes : ℕ := 1048576

/-- `_EMPTY_LAYER_MARKER` -/
def emptyLayerMarker : String := "empty-layer.json"

/-! ## Directories -/

inductive Entry where
  /-- a regular file with one link -/
  | file (content : List UInt8)
  | other

structure CheckpointDirectory where
  /-- the root itself is a directory, not a link to one -/
  real : Bool
  manifest : Option Entry
  observation : Option Entry
  /-- `none` is not a real directory -/
  chunks : Option (List (String × Entry))
  observationalChunks : Option (List (String × Entry))

/-- `_empty_observational_layer_bytes` -/
def emptyObservationalLayerBytes [Sha256] : List UInt8 :=
  JsonText.utf8 (object [("schema_version", textValue "apar-sentinel-v5-kaggle-empty-checkpoint-layer/1"),
    ("layer", textValue "observational"), ("record_count", .int 0),
    ("record_stream_sha256", textValue (Sha256.hexdigestBytes []))] : JsonTree Empty).plainText

/-! ## Writing chunks -/

/-- `_ChunkWriter`, with the files it has written -/
structure ChunkWriter where
  buffer : List UInt8
  chunks : List V5CheckpointChunk
  files : List (String × Entry)

namespace ChunkWriter

def empty : ChunkWriter := ⟨[], [], []⟩

variable [Sha256] (limits : V5KaggleResourceGates)

/-- `_flush_chunk` -/
def flushChunk (w : ChunkWriter) : Except CheckpointError ChunkWriter := do
  check (w.chunks.length < limits.maxCheckpointChunks) (.value "checkpoint exceeds maximum chunk count")
  let filename := partName w.chunks.length
  let chunk : V5CheckpointChunk := ⟨w.chunks.length, filename, w.buffer.length, Sha256.hexdigestBytes w.buffer⟩
  chunk.check
  return ⟨[], w.chunks ++ [chunk], w.files ++ [(filename, .file w.buffer)]⟩

/-- `if p: self._flush_chunk()` -/
def flushIf (p : Prop) [Decidable p] (w : ChunkWriter) : Except CheckpointError ChunkWriter :=
  if p then flushChunk limits w else .ok w

/-- `write` of so many bytes at most -/
def writeSome : ℕ → ChunkWriter → List UInt8 → Except CheckpointError ChunkWriter
  | 0, w, _ => .ok w
  | n + 1, w, view =>
    if view = [] then .ok w
    else do
      let consumed := min (limits.maxCheckpointChunkBytes - w.buffer.length) view.length
      let w := { w with buffer := w.buffer ++ view.take consumed }
      let w ← flushIf limits (w.buffer.length = limits.maxCheckpointChunkBytes) w
      writeSome n w (view.drop consumed)

/-- `write` -/
def write (w : ChunkWriter) (content : List UInt8) : Except CheckpointError ChunkWriter :=
  writeSome limits content.length w content

/-- `finish` -/
def finish (w : ChunkWriter) (allowEmpty : Bool) : Except CheckpointError ChunkWriter := do
  let w ← flushIf limits (w.buffer ≠ []) w
  check (w.chunks ≠ [] || allowEmpty) (.value "checkpoint compressed stream is empty")
  return w

end ChunkWriter

/-! ## Publishing -/

/-- one of the two layers being written -/
structure LayerWriter (C : Type) where
  writer : ChunkWriter
  compressor : C
  /-- what the digest has been given -/
  hashed : List UInt8
  bytes : ℕ
  count : ℕ

/-- where the observation comes from -/
inductive ObservationSource (F : Type) where
  | given (observation : V5CheckpointObservation F)
  | made (result : Except CheckpointError (V5CheckpointObservation F))

/-- the observation, taken when the chunks are written -/
def ObservationSource.take {F : Type} : ObservationSource F → Except CheckpointError (V5CheckpointObservation F)
  | given observation => .ok observation
  | made result => result

/-- the arguments of `publish_v5_checkpoint`, but for the records, and what it measures -/
structure Publication (F : Type) where
  outputExists : Bool
  stage : V5KaggleStage
  runBindingSha256 : String
  attemptReceiptSha256 : String
  predecessor : Option V5CheckpointManifest
  environment : V5KaggleEnvironmentBinding
  observation : ObservationSource F
  limits : V5KaggleResourceGates
  /-- the seconds between the start of the publication and the end of the chunks -/
  elapsed : F

section Publishing

variable {F : Type} [Platform F] [Sha256]

/-- `_validate_observation` -/
def validateObservation (observation : V5CheckpointObservation F) (environment : V5KaggleEnvironmentBinding)
    (limits : V5KaggleResourceGates) : Except CheckpointError Unit := do
  check (observation.environment = environment) (.value "checkpoint observation environment differs")
  check (!V5CheckpointObservation.exceeds (.float observation.wallSeconds) (.int limits.maxStageSeconds : JsonTree F) &&
    observation.peakRssBytes < limits.maxPeakRssBytes) (.value "checkpoint resource gate exceeded")

/-- `len(digest) == 64` and `int(digest, 16)`; the manifest's own pattern is stricter -/
def checkBinding (digest : String) : Except CheckpointError Unit :=
  check (digest.length = 64) (.value "checkpoint run or attempt digest is malformed")

/-- `_validate_publication_inputs` -/
def validatePublicationInputs (p : Publication F) : Except CheckpointError Unit := do
  check (!p.outputExists) (.fileExists "checkpoint output root already exists")
  checkBinding p.runBindingSha256
  checkBinding p.attemptReceiptSha256
  match p.stage, p.predecessor with
  | .authorize, predecessor =>
    check (predecessor.isNone) (.value "authorization checkpoint cannot have a predecessor")
  | _, none => .error (.value "checkpoint predecessor lineage differs")
  | stage, some predecessor =>
    check (predecessor.runBindingSha256 = p.runBindingSha256 && predecessor.attemptReceiptSha256 = p.attemptReceiptSha256 &&
      predecessor.stage.next = some stage) (.value "checkpoint predecessor lineage differs")
  match p.observation with
  | .given observation => validateObservation observation p.environment p.limits
  | .made _ => .ok ()

variable {C D : Type} (z : Codec C D)

def LayerWriter.start : LayerWriter C := ⟨.empty, z.compressobj, [], 0, 0⟩

/-- a framed record goes to its layer -/
def LayerWriter.add (limits : V5KaggleResourceGates) (l : LayerWriter C) (framed : List UInt8) :
    Except CheckpointError (LayerWriter C) := do
  let (out, compressor) := z.compress l.compressor framed
  let writer ← l.writer.write limits out
  return ⟨writer, compressor, l.hashed ++ framed, l.bytes + framed.length, l.count + 1⟩

/-- the state of the loop over the records -/
structure PublishState (C : Type) where
  deterministic : LayerWriter C
  observational : LayerWriter C
  seen : List (Layer × String × String)

/-- the loop over the records, one of them -/
def publishRecord (limits : V5KaggleResourceGates) (s : PublishState C) (record : V5CheckpointInput) :
    Except CheckpointError (PublishState C) := do
  let identity := (record.layer, record.kind, record.key)
  check (identity ∉ s.seen) (.value "checkpoint record identity is duplicated")
  let seen := s.seen ++ [identity]
  match record.layer with
  | .deterministic => do
    let deterministic ← s.deterministic.add z limits record.framed
    return ⟨deterministic, s.observational, seen⟩
  | .observational => do
    let observational ← s.observational.add z limits record.framed
    return ⟨s.deterministic, observational, seen⟩

/-- `if count: writer.write(compressor.flush())` -/
def LayerWriter.close (limits : V5KaggleResourceGates) (l : LayerWriter C) : Except CheckpointError ChunkWriter :=
  if l.count ≠ 0 then l.writer.write limits (z.finish l.compressor) else .ok l.writer

/-- the two layers, closed -/
def finishLayers (limits : V5KaggleResourceGates) (s : PublishState C) :
    Except CheckpointError (ChunkWriter × ChunkWriter) := do
  check (s.deterministic.count ≠ 0) (.value "checkpoint record stream is empty")
  let deterministic ← s.deterministic.writer.write limits (z.finish s.deterministic.compressor)
  let deterministic ← deterministic.finish limits false
  let observational ← s.observational.close z limits
  let observational ← observational.finish limits true
  return (deterministic, observational)

/-- the observation that is published -/
def durableObservation (p : Publication F) (compressedBytes : ℕ) : Except CheckpointError (V5CheckpointObservation F) := do
  let source ← p.observation.take
  validateObservation source p.environment p.limits
  let values := { source with checkpointOutputBytes := compressedBytes, preManifestPublicationSeconds := p.elapsed }
  let observationSha256 ← digest (object values.fields : JsonTree F)
  let durable := { values with observationSha256 := observationSha256 }
  durable.check
  return durable

/-- the bytes of the chunks of a layer -/
def compressedBytes (w : ChunkWriter) : ℕ := (w.chunks.map (·.bytes)).sum

/-- the manifest that is published -/
def buildManifest (p : Publication F) (s : PublishState C) (deterministic observational : ChunkWriter)
    (durable : V5CheckpointObservation F) : Except CheckpointError V5CheckpointManifest := do
  let values : V5CheckpointManifest :=
    { stage := p.stage
      runBindingSha256 := p.runBindingSha256
      attemptReceiptSha256 := p.attemptReceiptSha256
      predecessorStage := p.predecessor.map (·.stage)
      predecessorManifestSha256 := p.predecessor.map (·.manifestSha256)
      predecessorDeterministicSha256 := p.predecessor.map (·.deterministicSha256)
      recordCount := s.deterministic.count
      uncompressedRecordBytes := s.deterministic.bytes
      recordStreamSha256 := Sha256.hexdigestBytes s.deterministic.hashed
      deterministicSha256 := ""
      observationalRecordCount := s.observational.count
      observationalUncompressedRecordBytes := s.observational.bytes
      observationalRecordStreamSha256 := Sha256.hexdigestBytes s.observational.hashed
      observationSha256 := durable.observationSha256
      environmentSha256 := p.environment.environmentSha256
      maxStageOutputBytes := p.limits.maxStageOutputBytes
      maxCheckpointChunkBytes := p.limits.maxCheckpointChunkBytes
      maxCheckpointChunks := p.limits.maxCheckpointChunks
      chunks := deterministic.chunks
      observationalChunks := observational.chunks
      manifestSha256 := "" }
  let deterministicSha256 ← digest (values.deterministicDocument : JsonTree F)
  let values := { values with deterministicSha256 := deterministicSha256 }
  let manifestSha256 ← digest (object values.fields : JsonTree F)
  let manifest := { values with manifestSha256 := manifestSha256 }
  manifest.check F
  return manifest

/-- `publish_v5_checkpoint`: the manifest, and the directory it leaves -/
def publishV5Checkpoint (p : Publication F) (records : List V5CheckpointInput) :
    Except CheckpointError (V5CheckpointManifest × CheckpointDirectory) := do
  validatePublicationInputs p
  let s ← records.foldlM (publishRecord z p.limits) ⟨.start z, .start z, []⟩
  let (deterministic, observational) ← finishLayers z p.limits s
  let observationalFiles :=
    if s.observational.count = 0 then [(emptyLayerMarker, Entry.file emptyObservationalLayerBytes)] else observational.files
  let durable ← durableObservation p (compressedBytes deterministic + compressedBytes observational)
  let observationBytes ← canonicalBytes durable.tree
  check (observationBytes.length ≤ maxObservationBytes) (.value "checkpoint observation exceeds byte bound")
  let manifest ← buildManifest p s deterministic observational durable
  let manifestBytes ← canonicalBytes (manifest.tree : JsonTree F)
  check (compressedBytes deterministic + compressedBytes observational + observationBytes.length + manifestBytes.length ≤
    p.limits.maxStageOutputBytes) (.value "checkpoint resource gate exceeded: output bytes")
  return (manifest, ⟨true, some (.file manifestBytes), some (.file observationBytes), some deterministic.files,
    some observationalFiles⟩)

end Publishing

/-! ## Reading the manifest -/

section Reading

variable {F : Type} [Platform F]

/-- `_regular_single_link` and `read_bytes` -/
def readFile (entry : Option Entry) (label : String) : Except CheckpointError (List UInt8) :=
  match entry with
  | some (.file content) => .ok content
  | some .other => .error (.value (label ++ " must be a single-link regular file"))
  | none => .error .fileNotFound

/-- `_read_canonical_object` -/
def readCanonicalObject (entry : Option Entry) (label : String) (maxBytes : ℕ) : Except CheckpointError (JsonTree F) := do
  let raw ← readFile entry label
  check (raw.length ≤ maxBytes) (.value (label ++ " exceeds byte bound"))
  match JsonText.loadsBytes raw with
  | none => .error (.value (label ++ " is not JSON"))
  | some (.dict items) => do
    let canonical ← canonicalBytes (.dict items : JsonTree F)
    check (raw = canonical) (.value (label ++ " is not canonical JSON"))
    return .dict items
  | some _ => .error (.value (label ++ " is not canonical JSON"))

/-- the two sets are one -/
def sameNames (xs ys : List String) : Bool := xs.all (· ∈ ys) && ys.all (· ∈ xs)

variable [Sha256]

/-- an empty observational layer has its marker -/
def checkEmptyMarker (manifest : V5CheckpointManifest) (entries : List (String × Entry)) : Except CheckpointError Unit :=
  if manifest.observationalRecordCount = 0 then do
    let marker ← readFile (Assoc.get? emptyLayerMarker entries) "empty observational checkpoint marker"
    check (marker = emptyObservationalLayerBytes) (.value "empty observational checkpoint marker differs")
  else .ok ()

/-- `_validate_storage_topology` -/
def validateStorageTopology (root : CheckpointDirectory) (manifest : V5CheckpointManifest) (limits : V5KaggleResourceGates) :
    Except CheckpointError (V5CheckpointObservation F) := do
  check (manifest.maxStageOutputBytes = limits.maxStageOutputBytes &&
    manifest.maxCheckpointChunkBytes = limits.maxCheckpointChunkBytes &&
    manifest.maxCheckpointChunks = limits.maxCheckpointChunks) (.value "checkpoint storage limits differ")
  check root.real (.value "checkpoint root is not a real directory")
  let chunks ← root.chunks.elim (.error (.value "checkpoint chunk root is not a real directory")) .ok
  check (sameNames (chunks.map Prod.fst) (manifest.chunks.map (·.filename))) (.value "checkpoint chunk set differs")
  let observationalChunks ←
    root.observationalChunks.elim (.error (.value "observational checkpoint chunk root is not a real directory")) .ok
  check (sameNames (observationalChunks.map Prod.fst)
    (if manifest.observationalRecordCount = 0 then [emptyLayerMarker]
      else manifest.observationalChunks.map (·.filename))) (.value "observational checkpoint chunk set differs")
  checkEmptyMarker manifest observationalChunks
  let document ← readCanonicalObject root.observation "checkpoint observation" maxObservationBytes
  let observation ← V5CheckpointObservation.modelValidate (F := F) document
  check (observation.observationSha256 ≠ "") (.value "checkpoint observation digest is absent")
  check (observation.observationSha256 = manifest.observationSha256) (.value "checkpoint observation binding differs")
  check (observation.environment.environmentSha256 = manifest.environmentSha256)
    (.value "checkpoint environment binding differs")
  check (!V5CheckpointObservation.exceeds (.float observation.wallSeconds) (.int limits.maxStageSeconds : JsonTree F) &&
    observation.peakRssBytes < limits.maxPeakRssBytes) (.value "checkpoint resource gate exceeded")
  return observation

variable (F) in
/-- `read_v5_checkpoint_manifest` -/
def readV5CheckpointManifest (root : CheckpointDirectory) (limits : V5KaggleResourceGates) :
    Except CheckpointError V5CheckpointManifest := do
  let document : JsonTree F ← readCanonicalObject root.manifest "checkpoint manifest" maxManifestBytes
  let manifest ← V5CheckpointManifest.modelValidate document
  let _ ← validateStorageTopology (F := F) root manifest limits
  return manifest

/-! ## Streaming records -/

/-- `_iter_compressed_payload` -/
def iterCompressedPayload (directory : List (String × Entry)) (label : String) :
    List V5CheckpointChunk → Gen CheckpointError (List UInt8) Unit
  | [] => pure ()
  | chunk :: chunks => do
    let content ← Gen.lift (readFile (Assoc.get? chunk.filename directory) (label ++ " checkpoint chunk"))
    Gen.lift (check (content.length = chunk.bytes) (.value (label ++ " checkpoint chunk size differs")))
    Gen.lift (check (Sha256.hexdigestBytes content = chunk.sha256) (.value (label ++ " checkpoint chunk digest differs")))
    Gen.emit content
    iterCompressedPayload directory label chunks

variable {C D : Type} (z : Codec C D)

/-- one chunk goes to the decompressor, which gives out blocks -/
def decompressChunk : ℕ → D → List UInt8 → Gen CheckpointError (List UInt8) D
  | 0, _, _ => Gen.raise .endless
  | fuel + 1, d, pending =>
    if pending = [] then pure d
    else
      match z.decompress d pending decompressBlockBytes with
      | none => Gen.raise .zlib
      | some (block, d) => do
        Gen.emitIf (block ≠ []) block
        decompressChunk fuel d (z.unconsumedTail d)

/-- `_iter_decompressed_payload` -/
def iterDecompressedPayload (fuel : ℕ) (directory : List (String × Entry)) (label : String)
    (chunks : List V5CheckpointChunk) : Gen CheckpointError (List UInt8) Unit := do
  let d ← (iterCompressedPayload directory label chunks).each (decompressChunk z fuel) z.decompressobj
  match z.flush d with
  | none => Gen.raise .zlib
  | some (tail, d) => do
    Gen.emitIf (tail ≠ []) tail
    Gen.lift (check (z.eof d && z.unusedData d = [])
      (.value (label ++ " checkpoint compressed stream is incomplete or has trailing data")))

/-- a header that was read -/
structure RecordHeader where
  kind : String
  key : String
  payloadBytes : ℕ
deriving DecidableEq

/-- a number of bytes that a record may have -/
def payloadSize (t : JsonTree F) (maxBytes : ℕ) : Option ℕ :=
  match t with
  | .int n => if 0 < n ∧ n ≤ maxBytes then some n.toNat else none
  | _ => none

variable (F) in
/-- the header of a record is parsed and checked -/
def parseHeader (rawHeader : List UInt8) : Except CheckpointError RecordHeader :=
  match (JsonText.loadsBytes rawHeader : Option (JsonTree F)) with
  | none => .error (.value "checkpoint record header is not JSON")
  | some (.dict items) => do
    let canonical ← canonicalBytes (.dict items : JsonTree F)
    check (rawHeader = canonical && (JsonTree.dict items).exactly ["bytes", "key", "kind"])
      (.value "checkpoint record header differs")
    let size ← (((JsonTree.dict items).get? "bytes").bind fun t => payloadSize t maxRecordBytes).elim
      (.error (.value "checkpoint record payload length differs")) .ok
    match (JsonTree.dict items).get? "kind", (JsonTree.dict items).get? "key" with
    | some (.str kind), some (.str key) =>
      match kind.toString?, key.toString? with
      | some kind, some key => return ⟨kind, key, size⟩
      -- a lone surrogate is not in canonical bytes
      | _, _ => .error (.value "checkpoint record header differs")
    | _, _ => .error (.value "checkpoint record identity types differ")
  | some _ => .error (.value "checkpoint record header differs")

/-- the variables of the loop over the blocks -/
structure ParseState where
  buffer : List UInt8
  hashed : List UInt8
  streamBytes : ℕ
  count : ℕ
  current : Option RecordHeader
  seen : List (String × String)

/-- the payload of a header that was read, once it is there -/
def takePayload (layer : Layer) (s : ParseState) (header : RecordHeader) :
    Except CheckpointError (Option (V5CheckpointInput × ParseState)) :=
  if s.buffer.length < header.payloadBytes then .ok none
  else do
    let record ← V5CheckpointInput.make header.kind header.key (s.buffer.take header.payloadBytes) layer
    check ((record.kind, record.key) ∉ s.seen) (.value "checkpoint record identity is duplicated")
    return some (record, { s with
      buffer := s.buffer.drop header.payloadBytes
      count := s.count + 1
      current := none
      seen := s.seen ++ [(record.kind, record.key)] })

/-- a pass of the loop over the buffer: what it yields, and whether there is another -/
inductive Pass where
  | waits (s : ParseState)
  | yields (record : V5CheckpointInput) (s : ParseState)

/-- the payload, or the wait for it -/
def passPayload (layer : Layer) (s : ParseState) (header : RecordHeader) : Except CheckpointError Pass := do
  let s := { s with current := some header }
  match ← takePayload layer s header with
  | none => return .waits s
  | some (record, s) => return .yields record s

variable (F) in
/-- one pass of the loop over the buffer -/
def pass (layer : Layer) (s : ParseState) : Except CheckpointError Pass :=
  match s.current with
  | some header => passPayload layer s header
  | none =>
    if s.buffer.length < 8 then .ok (.waits s)
    else do
      let headerBytes := BigEndian.value (s.buffer.take 8)
      check (0 < headerBytes && headerBytes ≤ maxRecordHeaderBytes) (.value "checkpoint record header length differs")
      if s.buffer.length < 8 + headerBytes then return .waits s
      else do
        let header ← parseHeader F ((s.buffer.drop 8).take headerBytes)
        passPayload layer { s with buffer := (s.buffer.drop 8).drop headerBytes } header

variable (F) in
/-- the loop over the buffer; every record takes a byte of it -/
def drain (layer : Layer) : ℕ → ParseState → Gen CheckpointError V5CheckpointInput ParseState
  | 0, _ => Gen.raise .endless
  | n + 1, s => do
    match ← Gen.lift (pass F layer s) with
    | .waits s => pure s
    | .yields record s => do
      Gen.emit record
      drain layer n s

variable (F) in
/-- a block of the stream -/
def parseBlock (layer : Layer) (expectedBytes : ℕ) (s : ParseState) (block : List UInt8) :
    Gen CheckpointError V5CheckpointInput ParseState := do
  let s := { s with hashed := s.hashed ++ block, streamBytes := s.streamBytes + block.length }
  Gen.lift (check (s.streamBytes ≤ expectedBytes)
    (.value (layer.name ++ " checkpoint record stream exceeds declared bytes")))
  let s := { s with buffer := s.buffer ++ block }
  drain F layer (s.buffer.length + 1) s

/-- what the manifest declares of a layer -/
structure LayerBinding where
  directory : List (String × Entry)
  chunks : List V5CheckpointChunk
  expectedCount : ℕ
  expectedBytes : ℕ
  expectedDigest : String

/-- the layer's part of the manifest -/
def layerBinding (root : CheckpointDirectory) (m : V5CheckpointManifest) : Layer → LayerBinding
  | .deterministic => ⟨root.chunks.getD [], m.chunks, m.recordCount, m.uncompressedRecordBytes, m.recordStreamSha256⟩
  | .observational => ⟨root.observationalChunks.getD [], m.observationalChunks, m.observationalRecordCount,
      m.observationalUncompressedRecordBytes, m.observationalRecordStreamSha256⟩

variable (F) in
/-- `_iter_v5_checkpoint_record_layer` -/
def iterV5CheckpointRecordLayer (fuel : ℕ) (root : CheckpointDirectory) (limits : V5KaggleResourceGates) (layer : Layer) :
    Gen CheckpointError V5CheckpointInput Unit := do
  let m ← Gen.lift (readV5CheckpointManifest F root limits)
  let b := layerBinding root m layer
  if b.expectedCount = 0 then
    Gen.lift (check (b.chunks = [] && b.expectedBytes = 0 && b.expectedDigest = Sha256.hexdigestBytes [])
      (.value (layer.name ++ " checkpoint empty stream differs")))
  else do
    let s ← (iterDecompressedPayload z fuel b.directory layer.name b.chunks).each (parseBlock F layer b.expectedBytes)
      ⟨[], [], 0, 0, none, []⟩
    Gen.lift (check (s.buffer = [] && s.current = none) (.value "checkpoint record stream ends mid-record"))
    Gen.lift (check (s.count = b.expectedCount && s.streamBytes = b.expectedBytes &&
      Sha256.hexdigestBytes s.hashed = b.expectedDigest)
      (.value (layer.name ++ " checkpoint record stream digest or support differs")))

end Reading

end Checkpoint

end Apar
