/-
The round trip of checkpoints (`evaluation/v5_checkpoint_storage.py`): what a publication leaves is read, and what is read
to its end is the whole stream that the manifest declares.

- `published_read`: the manifest of a publication is accepted, with its directory and its observation.
- `published_iterates`: the iteration over a layer yields the layer's records.
- `iterated_decoded`: an iteration that ends without an error has decoded the declared stream.
- `checkpoints_roundTrip` is the three together.
-/
import Apar.Evaluation.CheckpointWriting
import Apar.Evaluation.CheckpointDocuments

namespace Apar

namespace Checkpoint

open Exec JsonTree

section RoundTrip

variable {F : Type} [Platform F] [Sha256]

/-! ## What a publication leaves -/

variable {p : Publication F} {m : V5CheckpointManifest} {root : CheckpointDirectory} {rs : List V5CheckpointInput}

theorem durableObservation_eq_ok {bytes : ℕ} {o : V5CheckpointObservation F} (h : durableObservation p bytes = .ok o) :
    o.check = .ok () ∧ validateObservation o p.environment p.limits = .ok () := by
  obtain ⟨source, -, h⟩ := except_bind_eq_ok.1 h
  obtain ⟨_, hvalid, h⟩ := except_bind_eq_ok.1 h
  obtain ⟨digest, -, h⟩ := except_bind_eq_ok.1 h
  obtain ⟨_, hcheck, h⟩ := except_bind_eq_ok.1 h
  cases h
  exact ⟨hcheck, hvalid⟩

/-- what the manifest of a publication says -/
structure Declared (p : Publication F) {C : Type} (s : PublishState C) (d o : ChunkWriter)
    (durable : V5CheckpointObservation F) (m : V5CheckpointManifest) : Prop where
  checked : m.check F = .ok ()
  stage : m.stage = p.stage
  recordCount : m.recordCount = s.deterministic.count
  recordBytes : m.uncompressedRecordBytes = s.deterministic.bytes
  recordDigest : m.recordStreamSha256 = Sha256.hexdigestBytes s.deterministic.hashed
  observationalCount : m.observationalRecordCount = s.observational.count
  observationalBytes : m.observationalUncompressedRecordBytes = s.observational.bytes
  observationalDigest : m.observationalRecordStreamSha256 = Sha256.hexdigestBytes s.observational.hashed
  observation : m.observationSha256 = durable.observationSha256
  environment : m.environmentSha256 = p.environment.environmentSha256
  outputBytes : m.maxStageOutputBytes = p.limits.maxStageOutputBytes
  chunkBytes : m.maxCheckpointChunkBytes = p.limits.maxCheckpointChunkBytes
  chunkCount : m.maxCheckpointChunks = p.limits.maxCheckpointChunks
  chunks : m.chunks = d.chunks
  observationalChunks : m.observationalChunks = o.chunks

theorem buildManifest_eq_ok {C : Type} {s : PublishState C} {d o : ChunkWriter} {durable : V5CheckpointObservation F}
    (h : buildManifest p s d o durable = .ok m) : Declared p s d o durable m := by
  obtain ⟨deterministic, -, h⟩ := except_bind_eq_ok.1 h
  obtain ⟨digest, -, h⟩ := except_bind_eq_ok.1 h
  obtain ⟨_, hcheck, h⟩ := except_bind_eq_ok.1 h
  cases h
  exact ⟨hcheck, rfl, rfl, rfl, rfl, rfl, rfl, rfl, rfl, rfl, rfl, rfl, rfl, rfl, rfl⟩

variable {C D : Type} {z : Codec C D}

/-- the steps of a publication -/
structure Published (z : Codec C D) (p : Publication F) (rs : List V5CheckpointInput) (m : V5CheckpointManifest)
    (root : CheckpointDirectory) : Prop where
  steps : ∃ (s : PublishState C) (d o : ChunkWriter) (durable : V5CheckpointObservation F)
    (observationBytes manifestBytes : List UInt8),
    Publishing z p.limits rs s ∧ finishLayers z p.limits s = .ok (d, o) ∧ Declared p s d o durable m ∧
    (durable.check = .ok () ∧ validateObservation durable p.environment p.limits = .ok ()) ∧
    (durable.tree.canonicalBytes = some observationBytes ∧ observationBytes.length ≤ maxObservationBytes) ∧
    (m.tree : JsonTree F).canonicalBytes = some manifestBytes ∧
    root = ⟨true, some (.file manifestBytes), some (.file observationBytes), some d.files,
      some (if s.observational.count = 0 then [(emptyLayerMarker, Entry.file emptyObservationalLayerBytes)] else o.files)⟩

theorem published_of_publish (h : publishV5Checkpoint z p rs = .ok (m, root)) : Published z p rs m root := by
  unfold publishV5Checkpoint at h
  obtain ⟨_, -, h⟩ := except_bind_eq_ok.1 h
  obtain ⟨s, hfold, h⟩ := except_bind_eq_ok.1 h
  obtain ⟨⟨d, o⟩, hfinish, h⟩ := except_bind_eq_ok.1 h
  obtain ⟨durable, hdurable, h⟩ := except_bind_eq_ok.1 h
  obtain ⟨observationBytes, hobservation, h⟩ := except_bind_eq_ok.1 h
  obtain ⟨_, hsize, h⟩ := except_bind_eq_ok.1 h
  obtain ⟨manifest, hmanifest, h⟩ := except_bind_eq_ok.1 h
  obtain ⟨manifestBytes, hbytes, h⟩ := except_bind_eq_ok.1 h
  obtain ⟨_, -, h⟩ := except_bind_eq_ok.1 h
  cases h
  rw [canonicalBytes_eq_ok] at hobservation hbytes
  rw [check_eq_ok, decide_eq_true_eq] at hsize
  exact ⟨s, d, o, durable, observationBytes, manifestBytes, publishing_of_fold hfold, hfinish,
    buildManifest_eq_ok hmanifest, durableObservation_eq_ok hdurable, ⟨hobservation, hsize⟩, hbytes, rfl⟩

/-! ## Reading it -/

omit [Sha256] [Platform F] in
theorem sameNames_self (xs : List String) : sameNames xs xs = true := by simp [sameNames]

variable [LawfulPlatform F] {contents : List UInt8 → Option (List UInt8)}

/-- **The manifest of a publication is accepted.** -/
theorem published_read (hz : z.Lossless contents) {chunkBytes : ℕ} {hpos : 0 < chunkBytes}
    (hlimits : p.limits = .frozen chunkBytes hpos) (h : Published z p rs m root) :
    readV5CheckpointManifest F root p.limits = .ok m := by
  obtain ⟨s, d, o, durable, observationBytes, manifestBytes, hs, hlayers, hm, ⟨hdurable, hobserved⟩,
    ⟨hobservation, hobservationSize⟩, hmanifest, rfl⟩ := h.steps
  obtain ⟨-, ⟨pieces, hd⟩, pieces', ho⟩ := closed_of_finishLayers hz hs hlayers
  have hsize : manifestBytes.length ≤ maxManifestBytes := by
    refine manifest_bounded hm.checked hmanifest ?_ ?_
    · rw [hm.chunkCount, hlimits]
      exact le_rfl
    · rw [hm.outputBytes, hlimits]
      exact le_rfl
  obtain ⟨_, henvironment, hgates⟩ := except_bind_eq_ok.1 hobserved
  rw [check_eq_ok, decide_eq_true_eq] at henvironment
  rw [check_eq_ok] at hgates
  have hdigest : m.observationSha256 ≠ "" := by
    intro hempty
    have := (digests_of_check hm.checked).1 m.observationSha256 (by simp)
    rw [hempty] at this
    exact absurd this (by decide)
  refine except_bind_eq_ok.2 ⟨_, readCanonicalObject_object m.distinctKeys_tree (canonicalBytes_eq_ok.2 hmanifest) hsize, ?_⟩
  refine except_bind_eq_ok.2 ⟨m, V5CheckpointManifest.modelValidate_tree hm.checked, ?_⟩
  refine except_bind_eq_ok.2 ⟨durable, ?_, rfl⟩
  refine except_bind_eq_ok.2 ⟨(), check_eq_ok.2 ?_, ?_⟩
  · simp [hm.outputBytes, hm.chunkBytes, hm.chunkCount]
  refine except_bind_eq_ok.2 ⟨(), rfl, ?_⟩
  refine except_bind_eq_ok.2 ⟨d.files, rfl, ?_⟩
  refine except_bind_eq_ok.2 ⟨(), check_eq_ok.2 ?_, ?_⟩
  · rw [hd.finished.cut.names, hm.chunks]
    exact sameNames_self _
  refine except_bind_eq_ok.2 ⟨_, rfl, ?_⟩
  refine except_bind_eq_ok.2 ⟨(), check_eq_ok.2 ?_, ?_⟩
  · rw [hm.observationalCount]
    split_ifs with hcount
    · rfl
    · rw [ho.finished.cut.names, hm.observationalChunks]
      exact sameNames_self _
  refine except_bind_eq_ok.2 ⟨(), ?_, ?_⟩
  · unfold checkEmptyMarker
    rw [hm.observationalCount]
    split_ifs with hcount
    · exact except_bind_eq_ok.2 ⟨emptyObservationalLayerBytes, readFile_eq_ok.2 (by simp [Assoc.get?]), by simp [check]⟩
    · rfl
  refine except_bind_eq_ok.2 ⟨_, readCanonicalObject_object durable.distinctKeys_tree (canonicalBytes_eq_ok.2 hobservation)
    hobservationSize, ?_⟩
  refine except_bind_eq_ok.2 ⟨durable, V5CheckpointObservation.modelValidate_tree hdurable, ?_⟩
  refine except_bind_eq_ok.2 ⟨(), check_eq_ok.2 ?_, ?_⟩
  · rw [← hm.observation]
    exact decide_eq_true hdigest
  refine except_bind_eq_ok.2 ⟨(), check_eq_ok.2 (decide_eq_true hm.observation.symm), ?_⟩
  refine except_bind_eq_ok.2 ⟨(), check_eq_ok.2 (decide_eq_true ?_), ?_⟩
  · rw [henvironment, hm.environment]
  exact except_bind_eq_ok.2 ⟨(), check_eq_ok.2 hgates, rfl⟩

/-! ## Layers -/

/-- the files of a layer are the compressed stream of these records, as the manifest declares them -/
structure Holds (contents : List UInt8 → Option (List UInt8)) (root : CheckpointDirectory) (m : V5CheckpointManifest)
    (layer : Layer) (rs : List V5CheckpointInput) : Prop where
  count : (layerBinding root m layer).expectedCount = rs.length
  bytes : (layerBinding root m layer).expectedBytes = (recordStream rs).length
  digest : (layerBinding root m layer).expectedDigest = Sha256.hexdigestBytes (recordStream rs)
  layers : ∀ r ∈ rs, r.layer = layer
  distinct : (rs.map V5CheckpointInput.identity).Nodup
  idle : rs = [] → (layerBinding root m layer).chunks = []
  stream : rs ≠ [] → ∃ pieces,
    List.Forall₂ (Stored (layerBinding root m layer).directory) (layerBinding root m layer).chunks pieces ∧
      contents pieces.flatten = some (recordStream rs)

omit [LawfulPlatform F] in
/-- **The layers of a publication** hold its records. -/
theorem published_holds (hz : z.Lossless contents) (h : Published z p rs m root) (layer : Layer) :
    Holds contents root m layer (layerRecords layer rs) := by
  obtain ⟨s, d, o, durable, observationBytes, manifestBytes, hs, hlayers, hm, -, -, -, rfl⟩ := h.steps
  obtain ⟨-, ⟨pieces, hd⟩, pieces', ho⟩ := closed_of_finishLayers hz hs hlayers
  have hmem : ∀ r ∈ layerRecords layer rs, r.layer = layer := fun r hr => of_decide_eq_true (List.mem_filter.1 hr).2
  have hdistinct : ((layerRecords layer rs).map V5CheckpointInput.identity).Nodup := by
    have hall := hs.distinct
    rw [hs.seen] at hall
    refine List.Nodup.map_on ?_ (List.Nodup.filter _ (List.Nodup.of_map _ hall))
    intro r hr r' hr' hid
    refine List.inj_on_of_nodup_map hall (List.mem_of_mem_filter hr) (List.mem_of_mem_filter hr') ?_
    rw [V5CheckpointInput.layerIdentity, V5CheckpointInput.layerIdentity, hmem r hr, hmem r' hr']
    exact congrArg (Prod.mk layer) hid
  cases layer with
  | deterministic =>
    refine ⟨hm.recordCount.trans hs.deterministic.count, hm.recordBytes.trans hs.deterministic.bytes, ?_, hmem, hdistinct,
      ?_, ?_⟩
    · rw [← hs.deterministic.hashed]
      exact hm.recordDigest
    · intro hnil
      show m.chunks = []
      rw [hm.chunks, hd.finished.cut.chunks, hd.idle hnil]
      rfl
    · intro hne
      refine ⟨pieces, ?_, hd.contents hne⟩
      show List.Forall₂ (Stored d.files) m.chunks pieces
      rw [hm.chunks]
      exact hd.finished.cut.stored
  | observational =>
    refine ⟨hm.observationalCount.trans hs.observational.count, hm.observationalBytes.trans hs.observational.bytes, ?_, hmem,
      hdistinct, ?_, ?_⟩
    · rw [← hs.observational.hashed]
      exact hm.observationalDigest
    · intro hnil
      show m.observationalChunks = []
      rw [hm.observationalChunks, ho.finished.cut.chunks, ho.idle hnil]
      rfl
    · intro hne
      have hcount : s.observational.count ≠ 0 := by
        rw [hs.observational.count]
        exact fun hzero => hne (List.length_eq_zero_iff.1 hzero)
      refine ⟨pieces', ?_, ho.contents hne⟩
      show List.Forall₂ (Stored (if s.observational.count = 0 then _ else o.files)) m.observationalChunks pieces'
      rw [if_neg hcount, hm.observationalChunks]
      exact ho.finished.cut.stored

/-- **A layer that holds records is iterated over**, with enough fuel. -/
theorem iterates_of_holds (hz : z.Lossless contents) {limits : V5KaggleResourceGates} {layer : Layer}
    (hread : readV5CheckpointManifest F root limits = .ok m) (h : Holds contents root m layer rs) :
    ∃ n, ∀ fuel, n ≤ fuel → iterV5CheckpointRecordLayer F z fuel root limits layer = ⟨rs, .ok ()⟩ := by
  by_cases hnil : rs = []
  · refine ⟨0, fun fuel _ => Gen.lift_bind_eq_ok.2 ⟨m, hread, ?_⟩⟩
    subst hnil
    have hzero : (layerBinding root m layer).expectedCount = 0 := h.count
    dsimp only
    rw [if_pos hzero, Gen.lift_eq_ok, check_eq_ok, h.idle rfl, h.bytes, h.digest]
    exact ⟨rfl, by simp [recordStream]⟩
  · obtain ⟨pieces, hstored, hcontents⟩ := h.stream hnil
    refine ⟨pieces.flatten.length + (recordStream rs).length + 1, fun fuel hfuel => Gen.lift_bind_eq_ok.2 ⟨m, hread, ?_⟩⟩
    have hless : pieces.flatten.length + (recordStream rs).length < fuel := by omega
    obtain ⟨blocks, hblocks, hflatten⟩ := payload_total hz hstored hcontents hless
    obtain ⟨s, heach, hparsed, hpending, hhashed⟩ := records_total (F := F)
      (g := iterDecompressedPayload z fuel (layerBinding root m layer).directory layer.name (layerBinding root m layer).chunks)
      (by rw [hblocks]) (by rw [hblocks]; exact hflatten) h.layers h.distinct
    obtain ⟨hbuffer, hcurrent⟩ := ParseState.pending_eq_nil hpending
    dsimp only
    rw [if_neg (by rw [h.count]; exact fun hzero => hnil (List.length_eq_zero_iff.1 hzero))]
    refine Gen.bind_eq_ok.2 ⟨rs, s, [], ?_, ?_, (List.append_nil rs).symm⟩
    · rw [h.bytes]
      exact heach
    refine Gen.lift_bind_eq_ok.2 ⟨(), by simp [check, hbuffer, hcurrent], ?_⟩
    rw [Gen.lift_eq_ok, check_eq_ok, hparsed.count, hparsed.bytes, hhashed, h.count, h.bytes, h.digest]
    exact ⟨rfl, by simp⟩

/-- **An iteration that ends without an error has decoded the declared stream.** -/
theorem holds_of_iterates (hz : z.Lossless contents) {limits : V5KaggleResourceGates} {layer : Layer} {fuel : ℕ}
    (h : iterV5CheckpointRecordLayer F z fuel root limits layer = ⟨rs, .ok ()⟩) :
    ∃ m, readV5CheckpointManifest F root limits = .ok m ∧ Holds contents root m layer rs := by
  obtain ⟨m, hread, h⟩ := Gen.lift_bind_eq_ok.1 h
  refine ⟨m, hread, ?_⟩
  dsimp only at h
  split_ifs at h with hcount
  · obtain ⟨rfl, hempty⟩ := Gen.lift_eq_ok.1 h
    rw [check_eq_ok, Bool.and_eq_true, Bool.and_eq_true, decide_eq_true_eq, decide_eq_true_eq, decide_eq_true_eq] at hempty
    exact ⟨hcount, hempty.1.2, hempty.2, fun _ hr => absurd hr List.not_mem_nil, List.nodup_nil, fun _ => hempty.1.1,
      fun hne => absurd rfl hne⟩
  · obtain ⟨out, s, rest, heach, hend, rfl⟩ := Gen.bind_eq_ok.1 h
    obtain ⟨_, hended, hend⟩ := Gen.lift_bind_eq_ok.1 hend
    obtain ⟨rfl, hdeclared⟩ := Gen.lift_eq_ok.1 hend
    rw [check_eq_ok, Bool.and_eq_true, decide_eq_true_eq, decide_eq_true_eq] at hended
    rw [check_eq_ok, Bool.and_eq_true, Bool.and_eq_true, decide_eq_true_eq, decide_eq_true_eq, decide_eq_true_eq] at hdeclared
    obtain ⟨hresult, hparsed, hhashed⟩ := records_sound heach
    have hstream : recordStream out = s.hashed := by
      have := hparsed.stream
      rwa [ParseState.pending, hended.1, hended.2, Option.elim_none, List.append_nil, List.append_nil] at this
    have hpayload : iterDecompressedPayload z fuel (layerBinding root m layer).directory layer.name
        (layerBinding root m layer).chunks = ⟨(iterDecompressedPayload z fuel (layerBinding root m layer).directory layer.name
          (layerBinding root m layer).chunks).items, .ok ()⟩ := by rw [← hresult]
    obtain ⟨pieces, hstored, hcontents⟩ := payload_sound hz hpayload
    have hdistinct := hparsed.distinct
    rw [hparsed.seen] at hdistinct
    rw [List.append_nil]
    refine ⟨?_, ?_, ?_, hparsed.layers, hdistinct, ?_, ?_⟩
    · rw [← hdeclared.1.1, hparsed.count]
    · rw [← hdeclared.1.2, hparsed.bytes, hstream]
    · rw [← hdeclared.2, hstream]
    · rintro rfl
      exact absurd (hdeclared.1.1.symm.trans hparsed.count) hcount
    · intro _
      exact ⟨pieces, hstored, by rw [hcontents, hstream, hhashed]⟩

/-- **Checkpoint streams round-trip.** What a publication of any sequence of records leaves is accepted, in chunks of any size
and for every decompressor, and the iteration over a layer yields the layer's records in their order and ends without an error;
an iteration that ends without an error has decoded the whole stream that the manifest declares, and the records that it yields
are framed to the bytes hashed. -/
theorem checkpoints_roundTrip (hz : z.Lossless contents) :
    (∀ (p : Publication F) (chunkBytes : ℕ) (hpos : 0 < chunkBytes) (rs : List V5CheckpointInput) (m : V5CheckpointManifest)
      (root : CheckpointDirectory), p.limits = .frozen chunkBytes hpos → publishV5Checkpoint z p rs = .ok (m, root) →
        readV5CheckpointManifest F root p.limits = .ok m ∧
        ∀ layer, ∃ n, ∀ fuel, n ≤ fuel →
          iterV5CheckpointRecordLayer F z fuel root p.limits layer = ⟨layerRecords layer rs, .ok ()⟩) ∧
    ∀ (root : CheckpointDirectory) (limits : V5KaggleResourceGates) (layer : Layer) (fuel : ℕ) (rs : List V5CheckpointInput),
      iterV5CheckpointRecordLayer F z fuel root limits layer = ⟨rs, .ok ()⟩ →
        ∃ m, readV5CheckpointManifest F root limits = .ok m ∧ Holds contents root m layer rs := by
  refine ⟨?_, fun root limits layer fuel rs h => holds_of_iterates hz h⟩
  intro p chunkBytes hpos rs m root hlimits hp
  have hpublished := published_of_publish hp
  have hread := published_read hz hlimits hpublished
  exact ⟨hread, fun layer => iterates_of_holds hz hread (published_holds hz hpublished layer)⟩

end RoundTrip

/-! ## Publications of two records -/

namespace Sample

/-- the float 0.5 -/
inductive Half where
  | half
deriving DecidableEq

open Half

instance : Platform Half where
  isFinite := fun _ => true
  repr := fun _ => ['0', '.', '5']
  parse := fun _ => half
  eq := fun
    | .int m, .int n => m = n
    | .str s, .str t => s = t
    | _, _ => false
  lt := fun
    | .int m, .int n => some (m < n)
    | .int m, .float _ => some (m ≤ 0)
    | .float _, .int n => some (1 ≤ n)
    | .float _, .float _ => some false
    | _, _ => none
  le := fun
    | .int m, .int n => some (m ≤ n)
    | .int m, .float _ => some (m ≤ 0)
    | .float _, .int n => some (1 ≤ n)
    | .float _, .float _ => some true
    | _, _ => none
  str := fun
    | .str s => s.toString?.getD ""
    | _ => ""
  max := fun
    | .int n :: rest => some (.int (rest.foldl (fun m x => match x with | .int k => Max.max m k | _ => m) n))
    | _ => none
  fromisoformat := fun s => if s = "2026-01-01T00:00:00+00:00" then some true else none
  intField := fun
    | .int n => some n
    | _ => none
  floatField := fun
    | .float x => some x
    | _ => none

instance : LawfulPlatform Half where
  repr_number := fun _ _ => ⟨false, 0, ['.', '5'], [], rfl, .inr ⟨['5'], by decide, by decide, rfl⟩, .inl rfl, by decide⟩
  parse_repr := fun x _ => by cases x; rfl
  eq_int := fun _ _ => rfl
  eq_text := fun s t => by simp [Platform.eq, textValue, PyStr.ofString_inj]
  lt_int := fun _ _ => rfl
  le_int := fun _ _ => rfl
  str_text := fun s => by simp [Platform.str, textValue]
  le_float := by
    intro x n _
    refine ⟨decide (n ≤ 0), rfl, congrArg some ?_⟩
    show decide (1 ≤ n) = !decide (n ≤ 0)
    rw [← decide_not]
    exact decide_eq_decide.2 (by omega)
  max_int := by
    intro n ns
    show some (JsonTree.int _) = _
    rw [List.foldl_map]
  intField_int := fun _ => rfl
  floatField_float := fun _ => rfl

def zeros : String := "0000000000000000000000000000000000000000000000000000000000000000"

instance : Sha256 := ⟨fun _ => zeros, fun _ => zeros⟩

theorem key_ok : isKey "k" = true := by decide

theorem byte_nonempty : 0 < ([120] : List UInt8).length := by decide

theorem byte_bounded : ([120] : List UInt8).length ≤ maxRecordBytes := by decide

theorem marker_ne : (99 : UInt8) ≠ 0 := by decide

/-- a record of one byte -/
def record (layer : Layer) : V5CheckpointInput := ⟨"a", "k", [120], layer, by decide, key_ok, byte_nonempty, byte_bounded⟩

/-- what `zlib` writes for the stream of one such record, and nothing shorter -/
def code : PrefixCode := .tabled [31, 139, 8, 0, 0, 0, 0, 0, 2, 3] (record .deterministic).framed 99 marker_ne
  [96, 0, 3, 133, 106, 165, 164, 202, 146, 212, 98, 37, 43, 67, 29, 165, 236, 212, 74, 37, 43, 165, 108, 37, 32, 43, 51, 47, 5,
    200, 76, 84, 170, 173, 0, 0, 204, 108, 159, 201, 41, 0, 0, 0]

def environment : V5KaggleEnvironmentBinding := ⟨"image", zeros, "3.12.0", 4, zeros, zeros, zeros, zeros⟩

def observation (bytes : ℤ) (sha256 : String) : V5CheckpointObservation Half :=
  ⟨"2026-01-01T00:00:00Z", "2026-01-01T00:00:00Z", half, [1], [1], 1, environment, bytes, half, sha256⟩

def publication : Publication Half :=
  ⟨false, .authorize, zeros, zeros, none, environment, .given (observation 0 ""), .frozen 67108864 (by decide), half⟩

def records : List V5CheckpointInput := [record .observational, record .deterministic]

/-- the entry of the one chunk of a layer -/
def chunk (bytes : ℕ) : V5CheckpointChunk := ⟨0, "part-0000.bin", bytes, zeros⟩

/-- the manifest of a publication of one record in each layer -/
def manifest (size bytes : ℕ) : V5CheckpointManifest :=
  ⟨.authorize, zeros, zeros, none, none, none, 1, size, zeros, zeros, 1, size, zeros, zeros, zeros, 10000000000, 67108864, 160,
    [chunk bytes], [chunk bytes], zeros⟩

theorem isDigestText_zeros : isDigestText zeros = true := by decide

theorem digest_of_writable {t : JsonTree Half} (h : t.writable = true) : digest t = .ok zeros := by
  rw [digest, canonicalBytes_eq_ok.2 (canonicalBytes_of_writable h)]
  rfl

/-- the layers of a publication of these records -/
def layersRun (code : PrefixCode) (records : List V5CheckpointInput) :
    Except CheckpointError (PublishState (Option (List UInt8)) × ChunkWriter × ChunkWriter) := do
  let s ← records.foldlM (publishRecord code.codec publication.limits) ⟨.start code.codec, .start code.codec, []⟩
  let layers ← finishLayers code.codec publication.limits s
  return (s, layers)

/-- one record has gone into each layer, in one chunk -/
def LayersFit (size bytes : ℕ) (x : PublishState (Option (List UInt8)) × ChunkWriter × ChunkWriter) : Prop :=
  x.1.deterministic.count = 1 ∧ x.1.deterministic.bytes = size ∧ x.1.observational.count = 1 ∧
    x.1.observational.bytes = size ∧ x.2.1.chunks = [chunk bytes] ∧ x.2.2.chunks = [chunk bytes]

instance (size bytes : ℕ) : DecidablePred (LayersFit size bytes) := fun _ => inferInstanceAs (Decidable (_ ∧ _))

theorem layers_ok {code : PrefixCode} {records : List V5CheckpointInput} {size bytes : ℕ}
    (h : ((layersRun code records).toOption.any fun x => decide (LayersFit size bytes x)) = true) :
    ∃ s d o, records.foldlM (publishRecord code.codec publication.limits) ⟨.start code.codec, .start code.codec, []⟩ = .ok s ∧
      finishLayers code.codec publication.limits s = .ok (d, o) ∧ LayersFit size bytes (s, d, o) := by
  obtain ⟨⟨s, d, o⟩, hx, hp⟩ := (Option.any_eq_true _ _).1 h
  have hrun : layersRun code records = .ok (s, d, o) := by
    cases hr : layersRun code records with
    | error e =>
      rw [hr] at hx
      cases hx
    | ok x =>
      rw [hr] at hx
      rw [Option.some.inj hx]
  obtain ⟨s', hs, hrest⟩ := except_bind_eq_ok.1 hrun
  obtain ⟨layers, hlayers, hpure⟩ := except_bind_eq_ok.1 hrest
  cases hpure
  exact ⟨s, d, o, hs, hlayers, of_decide_eq_true hp⟩

/-- a document and its digest can be written -/
theorem writable_concat {fields : List (String × JsonTree Half)} (h : ∀ i ∈ fields, i.2.writable = true) (name sha256 : String) :
    (JsonTree.object (fields ++ [(name, textValue sha256)])).writable = true := by
  refine writable_object fun i hi => ?_
  rcases List.mem_append.1 hi with hi | hi
  · exact h i hi
  · rw [List.mem_singleton.1 hi]
    exact writable_textValue sha256

theorem environment_writable : ∀ i ∈ (environment.fields : List (String × JsonTree Half)), i.2.writable = true := by
  simp only [V5KaggleEnvironmentBinding.fields, List.forall_mem_cons, writable_textValue, writable_bool, true_and]
  exact ⟨writable_int (by decide), List.forall_mem_nil _⟩

theorem environment_ok : environment.check Half = .ok () := by
  refine except_bind_eq_ok.2 ⟨(), rfl, except_bind_eq_ok.2 ⟨(), check_eq_ok.2 ?_, except_bind_eq_ok.2 ⟨(), rfl,
    except_bind_eq_ok.2 ⟨(), check_eq_ok.2 ?_, except_bind_eq_ok.2
      ⟨zeros, digest_of_writable (writable_object environment_writable), check_eq_ok.2 (decide_eq_true rfl)⟩⟩⟩⟩⟩
  · show (isDigestText zeros && isPythonVersion "3.12.0") = true
    rw [isDigestText_zeros]
    decide
  · show (isDigestText zeros && isDigestText zeros && isDigestText zeros && isDigestText zeros) = true
    rw [isDigestText_zeros]
    rfl

theorem observation_writable {bytes : ℤ} (h : digitsFit maxDigits bytes = true) (sha256 : String) :
    ∀ i ∈ (observation bytes sha256).fields, i.2.writable = true := by
  have hsamples : (JsonTree.list [.int 1] : JsonTree Half).writable = true :=
    writable_list fun x hx => List.mem_singleton.1 hx ▸ writable_int (by decide)
  simp only [V5CheckpointObservation.fields, List.forall_mem_cons, writable_textValue, true_and]
  exact ⟨writable_float rfl, hsamples, hsamples, writable_int (by decide : digitsFit maxDigits 1 = true),
    writable_concat environment_writable _ _, writable_int h, writable_float rfl, List.forall_mem_nil _⟩

theorem timestamp_ok : V5CheckpointObservation.checkTimestamp (F := Half) "2026-01-01T00:00:00Z" = .ok () :=
  check_eq_ok.2 (by decide +kernel)

theorem observation_ok {bytes : ℤ} (h : digitsFit maxDigits bytes = true) (hpos : 0 ≤ bytes) :
    (observation bytes zeros).check = .ok () := by
  refine except_bind_eq_ok.2 ⟨(), environment_ok, except_bind_eq_ok.2 ⟨(), rfl, except_bind_eq_ok.2 ⟨(), rfl,
    except_bind_eq_ok.2 ⟨(), rfl, except_bind_eq_ok.2 ⟨(), check_eq_ok.2 ?_, except_bind_eq_ok.2 ⟨(), rfl,
      except_bind_eq_ok.2 ⟨(), check_eq_ok.2 ?_, except_bind_eq_ok.2 ⟨(), ?_, except_bind_eq_ok.2 ⟨(), ?_,
        except_bind_eq_ok.2 ⟨(), rfl, except_bind_eq_ok.2 ⟨(), rfl, ?_⟩⟩⟩⟩⟩⟩⟩⟩⟩⟩⟩
  · simp [observation, hpos]
  · show (decide (zeros = "") || isDigestText zeros) = true
    rw [isDigestText_zeros, Bool.or_true]
  · exact timestamp_ok
  · exact timestamp_ok
  · show (if zeros ≠ "" then _ else _) = _
    rw [if_pos (by decide)]
    exact except_bind_eq_ok.2 ⟨zeros, digest_of_writable (writable_object (observation_writable h _)),
      check_eq_ok.2 (decide_eq_true rfl)⟩

theorem durable_ok {bytes : ℕ} (h : digitsFit maxDigits bytes = true) :
    durableObservation publication bytes = .ok (observation bytes zeros) := by
  have hgates : validateObservation (observation 0 "") environment publication.limits = .ok () :=
    except_bind_eq_ok.2 ⟨(), check_eq_ok.2 (decide_eq_true rfl), check_eq_ok.2 (by decide +kernel)⟩
  exact except_bind_eq_ok.2 ⟨observation 0 "", rfl, except_bind_eq_ok.2 ⟨(), hgates, except_bind_eq_ok.2
    ⟨zeros, digest_of_writable (writable_object (observation_writable h _)), except_bind_eq_ok.2
      ⟨(), observation_ok h (Int.natCast_nonneg bytes), rfl⟩⟩⟩⟩

section Sizes

variable {size bytes : ℕ} (hsize : digitsFit maxDigits size = true) (hbytes : digitsFit maxDigits bytes = true)

include hsize hbytes

theorem manifest_writable : ∀ i ∈ ((manifest size bytes).fields : List (String × JsonTree Half)), i.2.writable = true := by
  have hint : ∀ n : ℕ, digitsFit maxDigits n = true → (JsonTree.int n : JsonTree Half).writable = true := fun _ => writable_int
  have hchunk : ((chunk bytes).tree : JsonTree Half).writable = true := by
    refine writable_object ?_
    simp only [V5CheckpointChunk.fields, List.forall_mem_cons, writable_textValue, true_and]
    exact ⟨hint 0 (by decide), hint _ hbytes, List.forall_mem_nil _⟩
  have hchunks : (JsonTree.list [(chunk bytes).tree] : JsonTree Half).writable = true :=
    writable_list fun x hx => List.mem_singleton.1 hx ▸ hchunk
  simp only [V5CheckpointManifest.fields, List.forall_mem_cons, writable_textValue, true_and]
  exact ⟨writable_optional (fun _ => writable_textValue _) _, writable_optional writable_textValue _,
    writable_optional writable_textValue _, hint 1 (by decide), hint _ hsize, hint 1 (by decide), hint _ hsize,
    hint 10000000000 (by decide), hint 67108864 (by decide), hint 160 (by decide), hchunks, hchunks, List.forall_mem_nil _⟩

omit hbytes in
theorem deterministic_writable : ((manifest size bytes).deterministicDocument : JsonTree Half).writable = true := by
  refine writable_object ?_
  simp only [List.forall_mem_cons, writable_textValue, true_and]
  exact ⟨writable_optional writable_textValue _, writable_int (by decide : digitsFit maxDigits 1 = true), writable_int hsize,
    nofun⟩

theorem manifest_ok (hpos : 0 < size) (hpos' : 0 < bytes) (hmax : bytes ≤ 67108864) :
    (manifest size bytes).check Half = .ok () := by
  have hchunk : (chunk bytes).check = .ok () := by
    refine check_eq_ok.2 ?_
    show (isPartName "part-0000.bin" && decide (0 < bytes) && isDigestText zeros) = true
    rw [isDigestText_zeros, decide_eq_true hpos']
    decide
  have hchunks : (manifest size bytes).chunks.forM V5CheckpointChunk.check = .ok () :=
    except_bind_eq_ok.2 ⟨(), hchunk, rfl⟩
  have hvalid : (manifest size bytes).validateChunks [chunk bytes] = .ok () :=
    except_bind_eq_ok.2 ⟨(), rfl, except_bind_eq_ok.2 ⟨(), rfl, except_bind_eq_ok.2
      ⟨(), check_eq_ok.2 (by decide +kernel : (decide (["part-0000.bin"] = [partName 0])) = true),
        check_eq_ok.2 (decide_eq_true hmax)⟩⟩⟩
  have hdigests : ([zeros, zeros, zeros, zeros, zeros, zeros, zeros, zeros].all isDigestText) = true := by
    simp [isDigestText_zeros]
  have hstreams : (decide (0 < 1) && decide (0 < size)) = true := by simp [hpos]
  have htotal : bytes + 0 + (bytes + 0) ≤ 10000000000 := by omega
  refine except_bind_eq_ok.2 ⟨(), except_bind_eq_ok.2 ⟨(), hchunks, except_bind_eq_ok.2 ⟨(), hchunks, except_bind_eq_ok.2
    ⟨(), check_eq_ok.2 hdigests, except_bind_eq_ok.2 ⟨(), rfl, except_bind_eq_ok.2 ⟨(), check_eq_ok.2 hstreams, rfl⟩⟩⟩⟩⟩, ?_⟩
  exact except_bind_eq_ok.2 ⟨(), rfl, except_bind_eq_ok.2 ⟨(), rfl, except_bind_eq_ok.2 ⟨(), hvalid, except_bind_eq_ok.2
    ⟨(), rfl, except_bind_eq_ok.2 ⟨(), except_bind_eq_ok.2 ⟨(), check_eq_ok.2 (decide_eq_true hpos), hvalid⟩,
      except_bind_eq_ok.2 ⟨(), check_eq_ok.2 (decide_eq_true htotal), except_bind_eq_ok.2
        ⟨zeros, digest_of_writable (deterministic_writable hsize), except_bind_eq_ok.2 ⟨(), check_eq_ok.2 (decide_eq_true rfl),
          except_bind_eq_ok.2 ⟨zeros, digest_of_writable (writable_object (manifest_writable hsize hbytes)),
            check_eq_ok.2 (decide_eq_true rfl)⟩⟩⟩⟩⟩⟩⟩⟩⟩

end Sizes

/-- **The two records are published.** -/
theorem published_of_layers {code : PrefixCode} {records : List V5CheckpointInput} {size bytes : ℕ}
    (h : ((layersRun code records).toOption.any fun x => decide (LayersFit size bytes x)) = true)
    (hsize : digitsFit maxDigits size = true) (hbytes : digitsFit maxDigits bytes = true)
    (htotal : digitsFit maxDigits (bytes + bytes : ℕ) = true) (hpos : 0 < size) (hpos' : 0 < bytes) (hmax : bytes ≤ 67108864)
    (hweight : (observation (bytes + bytes : ℕ) zeros).tree.weight ≤ 10000) :
    ∃ root, publishV5Checkpoint code.codec publication records = .ok (manifest size bytes, root) := by
  obtain ⟨s, d, o, hfold, hfinish, hcount, hsizes, hcount', hsizes', hd, ho⟩ := layers_ok h
  dsimp only at hcount hsizes hcount' hsizes' hd ho
  have htotals : compressedBytes d + compressedBytes o = bytes + bytes := by
    rw [compressedBytes, compressedBytes, hd, ho]
    rfl
  have hbuild : buildManifest publication s d o (observation (bytes + bytes : ℕ) zeros) = .ok (manifest size bytes) := by
    unfold buildManifest
    rw [hcount, hsizes, hcount', hsizes', hd, ho]
    have hdeterministic : ((manifest size bytes).deterministicDocument : JsonTree Half).writable = true :=
      deterministic_writable hsize
    exact except_bind_eq_ok.2 ⟨zeros, digest_of_writable hdeterministic, except_bind_eq_ok.2
      ⟨zeros, digest_of_writable (writable_object (manifest_writable hsize hbytes)), except_bind_eq_ok.2
        ⟨(), manifest_ok hsize hbytes hpos hpos' hmax, rfl⟩⟩⟩
  have hobservation := canonicalBytes_of_writable
    (writable_concat (observation_writable htotal zeros) "observation_sha256" zeros)
  have hmanifest := canonicalBytes_of_writable (writable_concat (manifest_writable hsize hbytes) "manifest_sha256" zeros)
  have hshort := canonicalBytes_length hobservation
  have hlong := manifest_bounded (manifest_ok hsize hbytes hpos hpos' hmax) hmanifest le_rfl le_rfl
  refine ⟨⟨true, some (.file (JsonText.utf8 ((manifest size bytes).tree : JsonTree Half).plainText)),
    some (.file (JsonText.utf8 (observation (bytes + bytes : ℕ) zeros).tree.plainText)), some d.files,
    some (if s.observational.count = 0 then [(emptyLayerMarker, Entry.file emptyObservationalLayerBytes)] else o.files)⟩,
    except_bind_eq_ok.2 ⟨(), rfl, except_bind_eq_ok.2 ⟨s, hfold, except_bind_eq_ok.2 ⟨(d, o), hfinish, ?_⟩⟩⟩⟩
  dsimp only
  rw [htotals]
  refine except_bind_eq_ok.2 ⟨_, durable_ok htotal, except_bind_eq_ok.2 ⟨_, canonicalBytes_eq_ok.2 hobservation,
    except_bind_eq_ok.2 ⟨(), check_eq_ok.2 (decide_eq_true ?_), except_bind_eq_ok.2 ⟨_, hbuild, except_bind_eq_ok.2
      ⟨_, canonicalBytes_eq_ok.2 hmanifest, except_bind_eq_ok.2 ⟨(), check_eq_ok.2 (decide_eq_true ?_), rfl⟩⟩⟩⟩⟩⟩
  · exact (hshort.trans hweight).trans (by norm_num [maxObservationBytes])
  · have : (observation (bytes + bytes : ℕ) zeros).tree.weight = (object ((observation (bytes + bytes : ℕ) zeros).fields ++
      [("observation_sha256", textValue zeros)])).weight := rfl
    show bytes + bytes + _ + _ ≤ 10000000000
    unfold maxManifestBytes at hlong
    omega

theorem published : ∃ root, publishV5Checkpoint code.codec publication records = .ok (manifest 41 55, root) :=
  published_of_layers (by decide +kernel) (by decide) (by decide) (by decide) (by decide) (by decide) (by decide)
    (by decide +kernel)

/-- **The round trip of two records** -/
theorem roundTrip_of_two : ∃ root, publishV5Checkpoint code.codec publication records = .ok (manifest 41 55, root) ∧
    readV5CheckpointManifest Half root publication.limits = .ok (manifest 41 55) ∧
    ∀ layer, ∃ n, ∀ fuel, n ≤ fuel →
      iterV5CheckpointRecordLayer Half code.codec fuel root publication.limits layer = ⟨[record layer], .ok ()⟩ := by
  obtain ⟨root, h⟩ := published
  obtain ⟨hread, hiterates⟩ := (checkpoints_roundTrip (F := Half) (PrefixCode.lossless (p := code) rfl)).1 publication 67108864
    (by decide) records (manifest 41 55) root rfl h
  refine ⟨root, h, hread, fun layer => ?_⟩
  have hlayer : layerRecords layer records = [record layer] := by cases layer <;> rfl
  rw [← hlayer]
  exact hiterates layer

end Sample

end Checkpoint

end Apar
