/-
The two readers of a checkpoint (`evaluation/v5_checkpoint_storage.py`, `v5_kaggle_independent_verifier.py`).

- `readCheckpoint_published`: the verifier accepts what a publication leaves, and returns of each layer the records whose kinds
  it retains of the stage.
- `readCheckpoint_iterates`: so it does of every checkpoint that both accept and whose layers are iterated over to their ends.
- `readers_agree` is the two together; of a record of another kind it is not (`Sample.record_escapes`).
-/
import Apar.Evaluation.IndependentAgreement

namespace Apar

namespace Independent

open Exec JsonTree Checkpoint

/-! ## Digests of documents -/

section Digests

variable {F : Type}

/-- a document without its last field is the document of the others -/
theorem sorted_without {fields : List (String × JsonTree F)} {name : String} {v : JsonTree F}
    (hn : ((fields ++ [(name, v)]).map Prod.fst).Nodup) :
    (without (object (fields ++ [(name, v)])).sorted name).sorted = (object fields).sorted := by
  have hfields : (fields.map Prod.fst).Nodup := by
    rw [List.map_append] at hn
    exact (List.nodup_append.1 hn).1
  have hname : name ∉ fields.map Prod.fst := by
    rw [List.map_append] at hn
    exact fun h => (List.nodup_append.1 hn).2.2 name h name (by simp) rfl
  obtain ⟨items, hitems⟩ : ∃ items, (object (fields ++ [(name, v)])).sorted = .dict items := ⟨_, by rw [object, sorted_dict]⟩
  have hget := get?_document hn
  have hkeys := (keys_sorted_perm (object (fields ++ [(name, v)])))
  rw [hitems, keys_object] at hkeys
  rw [hitems] at hget ⊢
  have hnodup : (items.map Prod.fst).Nodup :=
    hkeys.nodup_iff.2 (List.Nodup.map (fun a b hab => PyStr.ofString_inj.1 hab) hn)
  have hget' : ∀ name', name' ≠ name → (JsonTree.dict (items.filter fun i => i.1 ≠ PyStr.ofString name)).get? name' =
      (JsonTree.dict items).get? name' := by
    intro name' hne
    show Assoc.get? _ _ = Assoc.get? _ _
    have := Assoc.get?_erase (PyStr.ofString name) (PyStr.ofString name') items
    rw [if_neg (fun h => hne (PyStr.ofString_inj.1 h))] at this
    exact this
  refine sorted_eq_object (hnodup.sublist (List.filter_sublist.map _)) hfields ?_ ?_
  · rw [within, List.all_eq_true]
    intro k hk
    obtain ⟨i, hi, rfl⟩ := List.mem_map.1 hk
    obtain ⟨hi, hne⟩ := List.mem_filter.1 hi
    have hmem := hkeys.mem_iff.1 (List.mem_map_of_mem hi)
    rw [List.map_append, List.map_append, List.mem_append] at hmem
    rcases hmem with hmem | hmem
    · exact decide_eq_true hmem
    · simp only [List.map_cons, List.map_nil, List.mem_singleton] at hmem
      exact absurd hmem (of_decide_eq_true hne)
  · intro f hf
    have hne : f.1 ≠ name := fun h => hname (List.mem_map.2 ⟨f, hf, h⟩)
    rw [hget' _ hne, hget, Assoc.get?_of_mem hn (List.mem_append_left _ hf)]
    exact ⟨f.2.sorted, rfl, sorted_sorted _⟩

variable [FloatText F] [Sha256]

theorem digest_congr {a b : JsonTree F} (h : a.sorted = b.sorted) : digest a = digest b := by
  rw [digest, digest, Checkpoint.canonicalBytes, Checkpoint.canonicalBytes, ← canonicalBytes_sorted a, h, canonicalBytes_sorted]

/-- the digest that the verifier computes of a document -/
theorem digest_without {fields : List (String × JsonTree F)} {name : String} {v : JsonTree F}
    (hn : ((fields ++ [(name, v)]).map Prod.fst).Nodup) :
    digest (without (object (fields ++ [(name, v)])).sorted name) = digest (object fields) :=
  digest_congr (sorted_without hn)

end Digests

/-! ## Documents -/

section Documents

variable {F : Type} [Platform F] [LawfulPlatform F] [Sha256]

omit [Sha256] in
/-- a document is read from its canonical bytes -/
theorem readCanonicalFile_object {fields : List (String × JsonTree F)} {raw : List UInt8} {label : String} {limit : ℕ}
    (hn : (object fields).distinctKeys = true) (hraw : (object fields).canonicalBytes = some raw)
    (hsize : raw.length ≤ limit) : readCanonicalFile (some (.file raw)) limit label = .ok (object fields).sorted := by
  have hload := JsonText.loadsBytes_canonicalBytes hn hraw
  have hpos : 0 < raw.length := by
    obtain ⟨-, -, -, rfl⟩ := canonicalBytes_eq_some.1 hraw
    obtain ⟨items, hitems⟩ : ∃ items, (object fields).sorted = .dict items := ⟨_, by rw [object, sorted_dict]⟩
    rw [plainText, hitems, List.length_pos_iff]
    cases items with
    | nil =>
      rw [dumpWith]
      decide
    | cons i items =>
      rw [dumpWith]
      simp [JsonText.utf8_cons, String.utf8EncodeChar]
  rw [← canonicalBytes_sorted] at hraw
  refine except_bind_eq_ok.2 ⟨(), check_eq_ok.2 (by simp [hpos, hsize]), ?_⟩
  rw [hload, Option.elim_some]
  refine except_bind_eq_ok.2 ⟨_, mapping_document _ _, except_bind_eq_ok.2 ⟨raw, canonicalBytes_eq_ok.2 hraw,
    except_bind_eq_ok.2 ⟨(), check_eq_ok.2 (decide_eq_true rfl), rfl⟩⟩⟩

omit [LawfulPlatform F] in
theorem digest_of_check {m : V5CheckpointManifest} (h : m.check F = .ok ()) :
    digest (m.deterministicDocument : JsonTree F) = .ok m.deterministicSha256 ∧
      digest (object m.fields : JsonTree F) = .ok m.manifestSha256 := by
  obtain ⟨_, -, h⟩ := except_bind_eq_ok.1 h
  obtain ⟨_, -, h⟩ := except_bind_eq_ok.1 h
  obtain ⟨_, -, h⟩ := except_bind_eq_ok.1 h
  obtain ⟨_, -, h⟩ := except_bind_eq_ok.1 h
  obtain ⟨_, -, h⟩ := except_bind_eq_ok.1 h
  obtain ⟨_, -, h⟩ := except_bind_eq_ok.1 h
  obtain ⟨_, -, h⟩ := except_bind_eq_ok.1 h
  obtain ⟨deterministic, hdeterministic, h⟩ := except_bind_eq_ok.1 h
  obtain ⟨_, heq, h⟩ := except_bind_eq_ok.1 h
  obtain ⟨expected, hexpected, h⟩ := except_bind_eq_ok.1 h
  rw [check_eq_ok, decide_eq_true_eq] at heq h
  exact ⟨by rw [hdeterministic, heq], by rw [hexpected, h]⟩

omit [Platform F] [LawfulPlatform F] [Sha256] in
theorem field_manifest (m : V5CheckpointManifest) (name : String) : field (m.tree : JsonTree F).sorted name =
    ((Assoc.get? name (m.fields ++ [("manifest_sha256", textValue m.manifestSha256)])).map sorted).getD .null :=
  field_document (by exact (by decide : V5CheckpointManifest.fieldNames.Nodup)) name

variable {o : V5CheckpointObservation F}

omit [LawfulPlatform F] in
/-- what the publication knows of its observation -/
theorem observed_of_check (h : o.check = .ok ()) (hdigest : o.observationSha256 ≠ "") :
    o.environment.check F = .ok () ∧ Platform.lt (.int 0) (.float o.wallSeconds : JsonTree F) = some true ∧
      o.rssSamplesBytes.max? = some o.peakRssBytes ∧ o.rssSamplesBytes.length = o.hostAvailableSamplesBytes.length ∧
      digest (object o.fields) = .ok o.observationSha256 := by
  obtain ⟨_, henvironment, h⟩ := except_bind_eq_ok.1 h
  obtain ⟨_, hwall, h⟩ := except_bind_eq_ok.1 h
  obtain ⟨_, -, h⟩ := except_bind_eq_ok.1 h
  obtain ⟨_, -, h⟩ := except_bind_eq_ok.1 h
  obtain ⟨_, -, h⟩ := except_bind_eq_ok.1 h
  obtain ⟨_, -, h⟩ := except_bind_eq_ok.1 h
  obtain ⟨_, -, h⟩ := except_bind_eq_ok.1 h
  obtain ⟨_, -, h⟩ := except_bind_eq_ok.1 h
  obtain ⟨_, -, h⟩ := except_bind_eq_ok.1 h
  obtain ⟨_, hmax, h⟩ := except_bind_eq_ok.1 h
  obtain ⟨_, hlen, h⟩ := except_bind_eq_ok.1 h
  rw [check_eq_ok, V5CheckpointObservation.exceeds, decide_eq_true_eq] at hwall
  rw [check_eq_ok, decide_eq_true_eq] at hmax hlen
  rw [if_pos hdigest] at h
  obtain ⟨expected, hexpected, h⟩ := except_bind_eq_ok.1 h
  rw [check_eq_ok, decide_eq_true_eq] at h
  exact ⟨henvironment, hwall, hmax, hlen, by rw [hexpected, h]⟩

/-- the verifier's checks of the manifest of a publication -/
theorem checkManifest_published {m : V5CheckpointManifest} (h : m.check F = .ok ())
    (houtput : m.maxStageOutputBytes = 10000000000) (hbytes : m.maxCheckpointChunkBytes = 67108864)
    (hchunks : m.maxCheckpointChunks = 160) : checkManifest (m.tree : JsonTree F).sorted = .ok () := by
  have hnodup : ((m.fields ++ [("manifest_sha256", textValue m.manifestSha256)] : List (String × JsonTree F)).map
      Prod.fst).Nodup := (by decide : V5CheckpointManifest.fieldNames.Nodup)
  have hfield := field_manifest (F := F) m
  refine except_bind_eq_ok.2 ⟨(), exactFields_document rfl _, except_bind_eq_ok.2 ⟨(), check_eq_ok.2 ?_,
    except_bind_eq_ok.2 ⟨m.manifestSha256, ?_, except_bind_eq_ok.2 ⟨(), check_eq_ok.2 ?_, check_eq_ok.2 ?_⟩⟩⟩⟩
  · simp only [hfield]
    simp [V5CheckpointManifest.fields, Assoc.get?, equal, LawfulPlatform.eq_text]
  · rw [V5CheckpointManifest.tree, digest_without hnodup]
    exact (digest_of_check h).2
  · rw [hfield]
    simp [V5CheckpointManifest.fields, Assoc.get?, equal, LawfulPlatform.eq_text]
  · simp only [hfield]
    simp [V5CheckpointManifest.fields, Assoc.get?, houtput, hbytes, hchunks, equal, LawfulPlatform.eq_int]

omit [Platform F] [LawfulPlatform F] [Sha256] in
theorem field_observation (o : V5CheckpointObservation F) (name : String) : field o.tree.sorted name =
    ((Assoc.get? name (o.fields ++ [("observation_sha256", textValue o.observationSha256)])).map sorted).getD .null :=
  field_document (by exact (by decide : V5CheckpointObservation.fieldNames.Nodup)) name

omit [Sha256] in
/-- the verifier's checks of the resources -/
theorem checkResources_published {limits : V5KaggleResourceGates}
    (hwall : Platform.lt (.int 0) (.float o.wallSeconds : JsonTree F) = some true)
    (hmax : o.rssSamplesBytes.max? = some o.peakRssBytes)
    (hlen : o.rssSamplesBytes.length = o.hostAvailableSamplesBytes.length)
    (hgates : validateObservation o o.environment limits = .ok ()) (hseconds : limits.maxStageSeconds = 21600)
    (hrss : limits.maxPeakRssBytes = 19327352832) (hfinite : FloatText.isFinite o.wallSeconds = true) :
    checkResources o.tree.sorted = .ok () := by
  have hfield := field_observation o
  obtain ⟨_, -, hgates⟩ := except_bind_eq_ok.1 hgates
  rw [check_eq_ok, Bool.and_eq_true, V5CheckpointObservation.exceeds, hseconds, hrss, decide_eq_true_eq, Bool.not_eq_true',
    decide_eq_false_iff_not] at hgates
  obtain ⟨b, hlt, hle⟩ := LawfulPlatform.le_float o.wallSeconds 21600 hfinite
  have hb : b = false := by
    have := hgates.1
    rw [show ((21600 : ℕ) : ℤ) = 21600 from rfl, hlt] at this
    simpa using this
  obtain ⟨n, ns, hns⟩ : ∃ n ns, o.rssSamplesBytes = n :: ns := by
    cases h : o.rssSamplesBytes with
    | nil =>
      rw [h] at hmax
      cases hmax
    | cons n ns => exact ⟨n, ns, rfl⟩
  have hpeak : ns.foldl Max.max n = o.peakRssBytes := by
    rw [hns, List.max?_cons'] at hmax
    exact Option.some.inj hmax
  have hrssField : field o.tree.sorted "rss_samples_bytes" = .list (o.rssSamplesBytes.map .int) := by
    rw [hfield]
    simp [V5CheckpointObservation.fields, Assoc.get?, Function.comp_def]
  have havailable : field o.tree.sorted "host_available_samples_bytes" = .list (o.hostAvailableSamplesBytes.map .int) := by
    rw [hfield]
    simp [V5CheckpointObservation.fields, Assoc.get?, Function.comp_def]
  have hpeakField : field o.tree.sorted "peak_rss_bytes" = .int o.peakRssBytes := by
    rw [hfield]
    simp [V5CheckpointObservation.fields, Assoc.get?]
  have hwallField : field o.tree.sorted "wall_seconds" = .float o.wallSeconds := by
    rw [hfield]
    simp [V5CheckpointObservation.fields, Assoc.get?]
  unfold checkResources
  rw [hrssField, havailable, hpeakField, hwallField]
  refine except_bind_eq_ok.2 ⟨_, rfl, except_bind_eq_ok.2 ⟨_, rfl, except_bind_eq_ok.2 ⟨(), check_eq_ok.2 ?_,
    except_bind_eq_ok.2 ⟨.int o.peakRssBytes, ?_, except_bind_eq_ok.2 ⟨(), check_eq_ok.2 ?_, except_bind_eq_ok.2 ⟨false, ?_,
      except_bind_eq_ok.2 ⟨(), rfl, except_bind_eq_ok.2 ⟨true, ?_, except_bind_eq_ok.2 ⟨(), rfl, except_bind_eq_ok.2
        ⟨true, ?_, rfl⟩⟩⟩⟩⟩⟩⟩⟩⟩⟩
  · rw [List.length_map, List.length_map, ← hlen, hns]
    simp
  · rw [hns, LawfulPlatform.max_int, hpeak]
    rfl
  · simp [equal, LawfulPlatform.eq_int]
  · rw [atMost, LawfulPlatform.le_int]
    exact congrArg Except.ok (decide_eq_false (by have := hgates.2; push_cast at this; omega))
  · rw [less, hwall]
    rfl
  · rw [atMost, hle, hb]
    rfl

/-- the verifier's checks of the observation -/
theorem checkObservation_published {limits : V5KaggleResourceGates} (h : o.check = .ok ())
    (hdigest : o.observationSha256 ≠ "") (hgates : validateObservation o o.environment limits = .ok ())
    (hseconds : limits.maxStageSeconds = 21600) (hrss : limits.maxPeakRssBytes = 19327352832)
    (hfinite : FloatText.isFinite o.wallSeconds = true) :
    checkObservation o.tree.sorted = .ok (o.environment.tree : JsonTree F).sorted := by
  obtain ⟨henvironment, hwall, hmax, hlen, hsha⟩ := observed_of_check h hdigest
  have hnodup : ((o.environment.fields ++ [("environment_sha256", textValue o.environment.environmentSha256)] :
      List (String × JsonTree F)).map Prod.fst).Nodup := (by decide : V5KaggleEnvironmentBinding.fieldNames.Nodup)
  have hnodup' : ((o.fields ++ [("observation_sha256", textValue o.observationSha256)]).map Prod.fst).Nodup :=
    (by decide : V5CheckpointObservation.fieldNames.Nodup)
  have hfield : field o.tree.sorted "environment" = (o.environment.tree : JsonTree F).sorted := by
    rw [field_observation]
    simp [V5CheckpointObservation.fields, Assoc.get?]
  have hsha' : digest (object o.environment.fields : JsonTree F) = .ok o.environment.environmentSha256 := by
    obtain ⟨_, -, hrest⟩ := except_bind_eq_ok.1 henvironment
    obtain ⟨_, -, hrest⟩ := except_bind_eq_ok.1 hrest
    obtain ⟨_, -, hrest⟩ := except_bind_eq_ok.1 hrest
    obtain ⟨_, -, hrest⟩ := except_bind_eq_ok.1 hrest
    obtain ⟨expected, hexpected, hrest⟩ := except_bind_eq_ok.1 hrest
    rw [check_eq_ok, decide_eq_true_eq] at hrest
    rw [hexpected, hrest]
  refine except_bind_eq_ok.2 ⟨(), exactFields_document rfl _, except_bind_eq_ok.2 ⟨(o.environment.tree : JsonTree F).sorted,
    ?_, except_bind_eq_ok.2 ⟨(), exactFields_document rfl _, except_bind_eq_ok.2 ⟨o.environment.environmentSha256, ?_,
      except_bind_eq_ok.2 ⟨(), check_eq_ok.2 ?_, except_bind_eq_ok.2 ⟨o.observationSha256, ?_, except_bind_eq_ok.2
        ⟨(), check_eq_ok.2 ?_, except_bind_eq_ok.2 ⟨(), checkResources_published hwall hmax hlen hgates hseconds hrss hfinite,
          rfl⟩⟩⟩⟩⟩⟩⟩⟩
  · rw [hfield]
    exact mapping_document _ _
  · rw [V5KaggleEnvironmentBinding.tree, digest_without hnodup]
    exact hsha'
  · rw [V5KaggleEnvironmentBinding.tree, field_document hnodup]
    simp [V5KaggleEnvironmentBinding.fields, Assoc.get?, equal, LawfulPlatform.eq_text]
  · rw [V5CheckpointObservation.tree, digest_without hnodup']
    exact hsha
  · rw [field_observation]
    simp [V5CheckpointObservation.fields, Assoc.get?, equal, LawfulPlatform.eq_text]

end Documents

/-! ## Layers -/

section Layers

variable {F : Type} [Platform F] [LawfulPlatform F] [Sha256] {C D : Type} {z : Codec C D}
  {contents : List UInt8 → Option (List UInt8)}

/-- what the names of a layer's fields begin with -/
def layerPrefix : Layer → String
  | .deterministic => ""
  | .observational => "observational_"

variable {chunks : List (JsonTree F)} {manifest t : JsonTree F} {rs : List V5CheckpointInput}
  {pieces : List (List UInt8)} {m : V5CheckpointManifest} {root : CheckpointDirectory}

/-- a stream whose blocks are the records' is what the manifest says of it -/
theorem readStream_total {layer : Layer} {directory : Option (List (String × Entry))} {out : List (List UInt8)}
    (hblocks : decompressedBlocks z directory layer chunks (field manifest "max_checkpoint_chunks")
      (field manifest "max_checkpoint_chunk_bytes") = ⟨out, .ok ()⟩) (hout : out.flatten = recordStream rs)
    (hlayers : ∀ r ∈ rs, r.layer = layer)
    (hcount : field manifest (layerPrefix layer ++ "record_count") = .int rs.length)
    (hbytes : field manifest (layerPrefix layer ++ "uncompressed_record_bytes") = .int (recordStream rs).length)
    (hdigest : field manifest (layerPrefix layer ++ "record_stream_sha256") =
      textValue (Sha256.hexdigestBytes (recordStream rs))) :
    readStream z manifest layer directory chunks = .ok (rs.map ofInput) := by
  have hiterate := iterate_total (F := F) (g := ⟨out, .ok ()⟩) rfl hout hlayers
  refine except_bind_eq_ok.2 ⟨_, by rw [hblocks]; exact hiterate, except_bind_eq_ok.2 ⟨(), check_eq_ok.2 ?_, rfl⟩⟩
  cases layer with
  | deterministic =>
    dsimp only [layerPrefix] at hcount hbytes hdigest ⊢
    rw [hcount, hbytes, hdigest]
    simp [equal, LawfulPlatform.eq_int, LawfulPlatform.eq_text]
  | observational =>
    dsimp only [layerPrefix] at hcount hbytes hdigest ⊢
    rw [hcount, hbytes, hdigest]
    simp [equal, LawfulPlatform.eq_int, LawfulPlatform.eq_text]

omit [LawfulPlatform F] in
/-- a layer that the writer has cut -/
theorem laid_of_finished {layer : Layer} {limits : V5KaggleResourceGates} {w : ChunkWriter}
    {entries : List (String × Entry)} (h : Finished limits w pieces)
    (hentries : entries = if layer = .observational ∧ w.chunks = [] then [(emptyLayerMarker, .file emptyObservationalLayerBytes)]
      else w.files) : Laid layer entries w.chunks pieces limits.maxCheckpointChunks limits.maxCheckpointChunkBytes := by
  refine ⟨h.cut.chunks, ?_, ?_, h.cut.few, fun piece hpiece => ⟨h.cut.nonempty hpiece, h.last piece hpiece⟩⟩
  · rw [hentries]
    split_ifs
    · rfl
    · exact h.cut.names
  · intro i hi
    have hsome : ¬ (layer = .observational ∧ w.chunks = []) := by
      rintro ⟨-, hnil⟩
      rw [h.cut.chunks, List.mapIdx_eq_nil_iff] at hnil
      rw [hnil] at hi
      exact Nat.not_lt_zero _ hi
    rw [hentries, if_neg hsome, h.cut.files, Nat.zero_add]
    exact Assoc.get?_of_mem (nodup_names pieces) (List.mem_mapIdx.2 ⟨i, hi, rfl⟩)

omit [LawfulPlatform F] in
theorem validChunks_of_check (h : m.check F = .ok ()) :
    m.validateChunks m.chunks = .ok () ∧ m.checkObservational = .ok () := by
  obtain ⟨_, -, h⟩ := except_bind_eq_ok.1 h
  obtain ⟨_, -, h⟩ := except_bind_eq_ok.1 h
  obtain ⟨_, -, h⟩ := except_bind_eq_ok.1 h
  obtain ⟨_, hvalid, h⟩ := except_bind_eq_ok.1 h
  obtain ⟨_, -, h⟩ := except_bind_eq_ok.1 h
  obtain ⟨_, hobservational, -⟩ := except_bind_eq_ok.1 h
  exact ⟨hvalid, hobservational⟩

omit [LawfulPlatform F] in
theorem observationalChunks_eq_nil (h : m.check F = .ok ()) :
    m.observationalChunks = [] ↔ m.observationalRecordCount = 0 := by
  refine ⟨fun hnil => by_contra fun hne => (chunksFit_of_check h).2.2 hne hnil, fun hzero => ?_⟩
  have hobservational := (validChunks_of_check h).2
  rw [V5CheckpointManifest.checkObservational, if_pos hzero, check_eq_ok, Bool.and_eq_true, decide_eq_true_eq] at hobservational
  exact hobservational.2

/-- the blocks of a layer of a publication are its records' -/
theorem decompressedBlocks_laid (hz : z.Lossless contents) {layer : Layer} {entries : List (String × Entry)}
    {cs : List V5CheckpointChunk} {maxChunks maxChunkBytes : ℕ}
    (h : Laid layer entries cs pieces maxChunks maxChunkBytes)
    (hdata : rs ≠ [] → contents pieces.flatten = some (recordStream rs))
    (hnil : cs = [] → rs = [] ∧ layer = .observational ∧ entries = [(emptyLayerMarker, .file emptyObservationalLayerBytes)])
    (hidle : rs = [] → cs = []) :
    ∃ out, decompressedBlocks z (some entries) layer (cs.map fun c => (c.tree.sorted : JsonTree F)) (.int maxChunks)
      (.int maxChunkBytes) = ⟨out, .ok ()⟩ ∧ out.flatten = recordStream rs := by
  by_cases hcs : cs = []
  · obtain ⟨rfl, rfl, hmarker⟩ := hnil hcs
    have hpieces : pieces = [] := by
      have := h.chunks
      rwa [hcs, eq_comm, List.mapIdx_eq_nil_iff] at this
    subst hcs hpieces
    exact ⟨[], decompressedBlocks_empty h hmarker, rfl⟩
  · exact decompressedBlocks_total hz h hcs (hdata fun hrs => hcs (hidle hrs))

/-- the records that the verifier returns of a layer -/
def VerifiedCheckpoint.records (v : VerifiedCheckpoint F) : Layer → List Record
  | .deterministic => v.deterministicRecords
  | .observational => v.observationalRecords

/-- the records of the kinds that the verifier retains of a stage -/
def retained (stage : V5KaggleStage) (rs : List V5CheckpointInput) : List V5CheckpointInput :=
  rs.filter fun r => r.kind ∈ retainedKinds stage

omit [Platform F] [LawfulPlatform F] [Sha256] in
theorem filter_ofInput (stage : V5KaggleStage) (rs : List V5CheckpointInput) :
    (rs.map ofInput).filter (fun r => r.kind ∈ retainedKinds stage) = (retained stage rs).map ofInput := List.filter_map

/-- **The verifier accepts what a publication leaves**, and returns of each layer the records whose kinds it retains. -/
theorem readCheckpoint_published (hz : z.Lossless contents) {p : Publication F} {hpos : 0 < 67108864}
    (hlimits : p.limits = .frozen 67108864 hpos) (h : Published z p rs m root) :
    ∃ v : VerifiedCheckpoint F, readCheckpoint z root = .ok v ∧
      ∀ layer, v.records layer = (retained p.stage (layerRecords layer rs)).map ofInput := by
  obtain ⟨s, d, o, durable, observationBytes, manifestBytes, hs, hlayers, hm, ⟨hdurable, hobserved⟩,
    ⟨hobservation, hobservationSize⟩, hmanifest, rfl⟩ := h.steps
  obtain ⟨hsome, ⟨pieces, hd⟩, pieces', ho⟩ := closed_of_finishLayers hz hs hlayers
  have hmem : ∀ layer, ∀ r ∈ layerRecords layer rs, r.layer = layer := fun _ r hr => of_decide_eq_true (List.mem_filter.1 hr).2
  have hsize : manifestBytes.length ≤ maxManifestBytes := by
    refine manifest_bounded hm.checked hmanifest ?_ ?_
    · rw [hm.chunkCount, hlimits]
      exact le_rfl
    · rw [hm.outputBytes, hlimits]
      exact le_rfl
  have houtput : m.maxStageOutputBytes = 10000000000 := by rw [hm.outputBytes, hlimits]; rfl
  have hbytes : m.maxCheckpointChunkBytes = 67108864 := by rw [hm.chunkBytes, hlimits]; rfl
  have hfew : m.maxCheckpointChunks = 160 := by rw [hm.chunkCount, hlimits]; rfl
  have hdigest : durable.observationSha256 ≠ "" := by
    intro hempty
    have := (digests_of_check hm.checked).1 m.observationSha256 (by simp)
    rw [hm.observation, hempty] at this
    exact absurd this (by decide)
  have henvironment : durable.environment = p.environment := by
    obtain ⟨_, henvironment, -⟩ := except_bind_eq_ok.1 hobserved
    rwa [check_eq_ok, decide_eq_true_eq] at henvironment
  have hfinite : FloatText.isFinite durable.wallSeconds = true := by
    have := floats_field (canonicalBytes_eq_some.1 hobservation).1 ("wall_seconds", .float durable.wallSeconds)
      (by simp [V5CheckpointObservation.fields])
    rwa [floats, all_float] at this
  have hfield := field_manifest (F := F) m
  have hchunks : field (m.tree : JsonTree F).sorted "chunks" = .list (d.chunks.map fun c => c.tree.sorted) := by
    rw [hfield]
    simp [V5CheckpointManifest.fields, Assoc.get?, hm.chunks, Function.comp_def]
  have hchunks' : field (m.tree : JsonTree F).sorted "observational_chunks" = .list (o.chunks.map fun c => c.tree.sorted) := by
    rw [hfield]
    simp [V5CheckpointManifest.fields, Assoc.get?, hm.observationalChunks, Function.comp_def]
  -- the layers
  have hlaid : Laid .deterministic d.files d.chunks _ _ _ := laid_of_finished hd.finished (by simp)
  have hempty : o.chunks = [] ↔ s.observational.count = 0 := by
    rw [← hm.observationalChunks, ← hm.observationalCount]
    exact observationalChunks_eq_nil hm.checked
  have hlaid' : Laid .observational
      (if s.observational.count = 0 then [(emptyLayerMarker, .file emptyObservationalLayerBytes)] else o.files)
      o.chunks _ _ _ := laid_of_finished ho.finished (by simp [hempty])
  rw [show p.limits.maxCheckpointChunks = 160 by rw [hlimits]; rfl,
    show p.limits.maxCheckpointChunkBytes = 67108864 by rw [hlimits]; rfl] at hlaid hlaid'
  have hmaxChunks : field (m.tree : JsonTree F).sorted "max_checkpoint_chunks" = .int (160 : ℕ) := by
    rw [hfield]
    simp [V5CheckpointManifest.fields, Assoc.get?, hfew]
  have hmaxBytes : field (m.tree : JsonTree F).sorted "max_checkpoint_chunk_bytes" = .int (67108864 : ℕ) := by
    rw [hfield]
    simp [V5CheckpointManifest.fields, Assoc.get?, hbytes]
  have hne : d.chunks ≠ [] := hm.chunks ▸ (index_of_validateChunks (validChunks_of_check hm.checked).1).1
  obtain ⟨out, hblocks, hout⟩ := decompressedBlocks_laid (F := F) hz hlaid hd.contents (fun hnil => absurd hnil hne)
    (fun hnil => absurd hnil hsome)
  obtain ⟨out', hblocks', hout'⟩ := decompressedBlocks_laid (F := F) hz hlaid' ho.contents
    (fun hnil => ⟨List.length_eq_zero_iff.1 (hs.observational.count ▸ hempty.1 hnil), rfl, if_pos (hempty.1 hnil)⟩)
    (fun hnil => hempty.2 (by rw [hs.observational.count, hnil]; rfl))
  rw [← hmaxChunks, ← hmaxBytes] at hblocks hblocks'
  have hread := readStream_total hblocks hout (hmem .deterministic)
    (by rw [hfield]; simp [layerPrefix, V5CheckpointManifest.fields, Assoc.get?, hm.recordCount, hs.deterministic.count])
    (by rw [hfield]; simp [layerPrefix, V5CheckpointManifest.fields, Assoc.get?, hm.recordBytes, hs.deterministic.bytes])
    (by rw [hfield]; simp [layerPrefix, V5CheckpointManifest.fields, Assoc.get?, hm.recordDigest, hs.deterministic.hashed])
  have hread' := readStream_total hblocks' hout' (hmem .observational)
    (by rw [hfield]; simp [layerPrefix, V5CheckpointManifest.fields, Assoc.get?, hm.observationalCount, hs.observational.count])
    (by rw [hfield]; simp [layerPrefix, V5CheckpointManifest.fields, Assoc.get?, hm.observationalBytes, hs.observational.bytes])
    (by rw [hfield]; simp [layerPrefix, V5CheckpointManifest.fields, Assoc.get?, hm.observationalDigest,
      hs.observational.hashed])
  have hobserved' : validateObservation durable durable.environment p.limits = .ok () := by
    rw [henvironment]
    exact hobserved
  refine ⟨⟨_, _, _, _⟩, except_bind_eq_ok.2 ⟨(), rfl, except_bind_eq_ok.2 ⟨_, readCanonicalFile_object m.distinctKeys_tree
    hmanifest hsize, except_bind_eq_ok.2 ⟨(), checkManifest_published hm.checked houtput hbytes hfew, except_bind_eq_ok.2
      ⟨p.stage, ?_, except_bind_eq_ok.2 ⟨_, by rw [← V5CheckpointManifest.tree, hchunks]; rfl, except_bind_eq_ok.2
        ⟨_, by rw [← V5CheckpointManifest.tree, hchunks']; rfl, except_bind_eq_ok.2 ⟨_, hread, except_bind_eq_ok.2
          ⟨_, hread', except_bind_eq_ok.2 ⟨m.deterministicSha256, ?_, except_bind_eq_ok.2 ⟨(), check_eq_ok.2 ?_,
            except_bind_eq_ok.2 ⟨_, readCanonicalFile_object durable.distinctKeys_tree hobservation hobservationSize,
              except_bind_eq_ok.2 ⟨_, checkObservation_published hdurable hdigest hobserved' ?_ ?_ hfinite,
                except_bind_eq_ok.2 ⟨(), check_eq_ok.2 ?_, rfl⟩⟩⟩⟩⟩⟩⟩⟩⟩⟩⟩⟩⟩, fun layer => ?_⟩
  · rw [← V5CheckpointManifest.tree, hfield]
    simp [V5CheckpointManifest.fields, Assoc.get?, LawfulPlatform.str_text, hm.stage]
  · rw [← V5CheckpointManifest.tree, ← (digest_of_check hm.checked).1, deterministicValues,
      V5CheckpointManifest.deterministicDocument]
    simp only [hfield]
    simp [V5CheckpointManifest.fields, Assoc.get?]
  · rw [← V5CheckpointManifest.tree, hfield]
    simp [V5CheckpointManifest.fields, Assoc.get?, equal, LawfulPlatform.eq_text]
  · rw [hlimits]
    rfl
  · rw [hlimits]
    rfl
  · have hobservationField : field durable.tree.sorted "observation_sha256" = textValue durable.observationSha256 := by
      rw [field_observation]
      simp [V5CheckpointObservation.fields, Assoc.get?]
    have henvironmentField : field (durable.environment.tree : JsonTree F).sorted "environment_sha256" =
        textValue durable.environment.environmentSha256 := by
      rw [V5KaggleEnvironmentBinding.tree,
        field_document (by exact (by decide : V5KaggleEnvironmentBinding.fieldNames.Nodup))]
      simp [V5KaggleEnvironmentBinding.fields, Assoc.get?]
    rw [← V5CheckpointManifest.tree, ← V5CheckpointObservation.tree, hobservationField, henvironmentField, hfield, hfield,
      henvironment]
    simp [V5CheckpointManifest.fields, Assoc.get?, equal, LawfulPlatform.eq_text, hm.observation, hm.environment]
  · cases layer <;> exact filter_ofInput p.stage _

/-! ## Agreement -/

omit [LawfulPlatform F] in
/-- what a validated manifest says of its document -/
theorem accepted_of_modelValidate (h : V5CheckpointManifest.modelValidate t = .ok m) :
    m.check F = .ok () ∧ stageField (t.get? "stage") = .ok m.stage ∧
      listField V5CheckpointChunk.modelValidate (t.get? "chunks") = .ok m.chunks ∧
      listField V5CheckpointChunk.modelValidate (withDefault (t.get? "observational_chunks") (.list [])) =
        .ok m.observationalChunks := by
  obtain ⟨d, hd, hfields⟩ := except_bind_eq_ok.1 h
  have hdt : d = t := by
    unfold documentField at hd
    split at hd
    · rename_i heq
      split_ifs at hd
      cases hd
      exact (Option.some.inj heq).symm
    · cases hd
  rw [hdt] at hfields
  obtain ⟨_, -, hfields⟩ := except_bind_eq_ok.1 hfields
  obtain ⟨_, -, hfields⟩ := except_bind_eq_ok.1 hfields
  obtain ⟨_, -, hfields⟩ := except_bind_eq_ok.1 hfields
  obtain ⟨_, -, hfields⟩ := except_bind_eq_ok.1 hfields
  obtain ⟨_, hstage, hfields⟩ := except_bind_eq_ok.1 hfields
  obtain ⟨_, -, hfields⟩ := except_bind_eq_ok.1 hfields
  obtain ⟨_, -, hfields⟩ := except_bind_eq_ok.1 hfields
  obtain ⟨_, -, hfields⟩ := except_bind_eq_ok.1 hfields
  obtain ⟨_, -, hfields⟩ := except_bind_eq_ok.1 hfields
  obtain ⟨_, -, hfields⟩ := except_bind_eq_ok.1 hfields
  obtain ⟨_, -, hfields⟩ := except_bind_eq_ok.1 hfields
  obtain ⟨_, -, hfields⟩ := except_bind_eq_ok.1 hfields
  obtain ⟨_, -, hfields⟩ := except_bind_eq_ok.1 hfields
  obtain ⟨_, -, hfields⟩ := except_bind_eq_ok.1 hfields
  obtain ⟨_, -, hfields⟩ := except_bind_eq_ok.1 hfields
  obtain ⟨_, -, hfields⟩ := except_bind_eq_ok.1 hfields
  obtain ⟨_, -, hfields⟩ := except_bind_eq_ok.1 hfields
  obtain ⟨_, -, hfields⟩ := except_bind_eq_ok.1 hfields
  obtain ⟨_, -, hfields⟩ := except_bind_eq_ok.1 hfields
  obtain ⟨_, -, hfields⟩ := except_bind_eq_ok.1 hfields
  obtain ⟨_, -, hfields⟩ := except_bind_eq_ok.1 hfields
  obtain ⟨_, -, hfields⟩ := except_bind_eq_ok.1 hfields
  obtain ⟨_, hchunks, hfields⟩ := except_bind_eq_ok.1 hfields
  obtain ⟨_, hchunks', hfields⟩ := except_bind_eq_ok.1 hfields
  obtain ⟨_, -, hfields⟩ := except_bind_eq_ok.1 hfields
  obtain ⟨_, hcheck, hfields⟩ := except_bind_eq_ok.1 hfields
  cases hfields
  exact ⟨hcheck, hstage, hchunks, hchunks'⟩

omit [Platform F] [LawfulPlatform F] in
/-- the files that the other reader has read -/
theorem filesFrom_of_stored {directory : List (String × Entry)} {chunks : List V5CheckpointChunk}
    (h : List.Forall₂ (Stored directory) chunks pieces)
    (hnames : chunks.map (·.filename) = (List.range chunks.length).map partName) : FilesFrom directory 0 pieces := by
  obtain ⟨hlen, hget⟩ := List.forall₂_iff_get.1 h
  intro i hi
  have hi' : i < chunks.length := hlen ▸ hi
  have hname : chunks[i].filename = partName i := by
    have := congrArg (·[i]?) hnames
    simpa [hi'] using this
  have := (hget i hi' hi).file
  rw [Nat.zero_add, ← hname]
  exact this

/-- the verifier's records of a layer, where the other reader's hold -/
theorem records_of_holds (hz : z.Lossless contents) {layer : Layer} {entries : Option (List (String × Entry))}
    {records : List Record} (h : Holds contents root m layer rs)
    (hentries : entries.getD [] = (layerBinding root m layer).directory)
    (hlength : chunks.length = (layerBinding root m layer).chunks.length)
    (hvalid : rs ≠ [] → m.validateChunks (layerBinding root m layer).chunks = .ok ())
    (hread : readStream z manifest layer entries chunks = .ok records) : records = rs.map ofInput := by
  obtain ⟨t, hiterate, hrest⟩ := except_bind_eq_ok.1 hread
  obtain ⟨_, -, hrest⟩ := except_bind_eq_ok.1 hrest
  cases hrest
  have hresult := ending_of_readRecords hiterate
  obtain ⟨out, hblocks⟩ : ∃ out, decompressedBlocks z entries layer chunks (field manifest "max_checkpoint_chunks")
      (field manifest "max_checkpoint_chunk_bytes") = ⟨out, .ok ()⟩ := ⟨_, by rw [← hresult]⟩
  have hflatten : out.flatten = recordStream rs := by
    by_cases hrs : rs = []
    · have hchunks : chunks = [] := List.length_eq_zero_iff.1 (by rw [hlength, h.idle hrs]; rfl)
      rcases decompressedBlocks_sound hz hblocks with ⟨-, rfl⟩ | ⟨hne, -⟩
      · rw [hrs]
        rfl
      · exact absurd hchunks hne
    · obtain ⟨pieces, hstored, hcontents⟩ := h.stream hrs
      obtain ⟨_, hne, hnames⟩ := except_bind_eq_ok.1 (hvalid hrs)
      obtain ⟨_, -, hnames⟩ := except_bind_eq_ok.1 hnames
      obtain ⟨_, hnames, -⟩ := except_bind_eq_ok.1 hnames
      rw [check_eq_ok, decide_eq_true_eq] at hne hnames
      rcases decompressedBlocks_sound hz hblocks with ⟨hnil, -⟩ | ⟨-, pieces', hlen, hfiles, hcontents'⟩
      · rw [hnil] at hlength
        exact absurd (List.length_eq_zero_iff.1 hlength.symm) hne
      · have hpieces : pieces' = pieces := by
          refine hfiles.eq ?_ (by rw [hlen, hlength, hstored.length_eq])
          rw [hentries]
          exact filesFrom_of_stored hstored hnames
        rw [hpieces, hcontents] at hcontents'
        exact (Option.some.inj hcontents').symm
  have := iterate_total (F := F) (g := ⟨out, .ok ()⟩) rfl hflatten h.layers
  rw [hblocks, this] at hiterate
  cases hiterate
  rfl

omit [LawfulPlatform F] [Sha256] in
theorem document_of_readCanonicalFile {entry : Option Entry} {limit : ℕ} {label : String}
    (h : readCanonicalFile entry limit label = .ok t) :
    ∃ raw, entry = some (.file raw) ∧ JsonText.loadsBytes raw = some t := by
  unfold readCanonicalFile at h
  split at h
  · cases h
  · cases h
  · rename_i raw
    obtain ⟨_, -, h⟩ := except_bind_eq_ok.1 h
    obtain ⟨document, hload, h⟩ := except_bind_eq_ok.1 h
    obtain ⟨_, -, h⟩ := except_bind_eq_ok.1 h
    obtain ⟨_, -, h⟩ := except_bind_eq_ok.1 h
    cases h
    refine ⟨raw, rfl, ?_⟩
    cases hraw : (JsonText.loadsBytes raw : Option (JsonTree F)) with
    | none =>
      rw [hraw] at hload
      cases hload
    | some t' =>
      rw [hraw, Option.elim_some] at hload
      unfold mapping at hload
      split at hload <;> cases hload
      rfl

omit [LawfulPlatform F] [Sha256] in
theorem document_of_readCanonicalObject {entry : Option Entry} {label : String} {maxBytes : ℕ}
    (h : readCanonicalObject entry label maxBytes = .ok t) :
    ∃ raw, entry = some (.file raw) ∧ JsonText.loadsBytes raw = some t := by
  obtain ⟨raw, hraw, h⟩ := except_bind_eq_ok.1 h
  obtain ⟨_, -, h⟩ := except_bind_eq_ok.1 h
  refine ⟨raw, readFile_eq_ok.1 hraw, ?_⟩
  split at h
  · cases h
  · rename_i items hload
    obtain ⟨_, -, h⟩ := except_bind_eq_ok.1 h
    obtain ⟨_, -, h⟩ := except_bind_eq_ok.1 h
    cases h
    exact hload
  · cases h

omit [Sha256] in
/-- the stage of the verifier is the other reader's -/
theorem stage_of_stageField {stage stage' : V5KaggleStage} (h : stageField (t.get? "stage") = .ok stage)
    (h' : (V5KaggleStage.ofValue (Platform.str (field t "stage"))).elim (fail "checkpoint stage is unknown") .ok =
      (.ok stage' : Except CheckpointError V5KaggleStage)) : stage' = stage := by
  obtain ⟨s, hs, h⟩ := except_bind_eq_ok.1 h
  have hfield : field t "stage" = textValue s := by
    unfold textField at hs
    split at hs
    · rename_i p hget
      rw [field, hget, Option.getD_some]
      cases hp : p.toString? with
      | none =>
        rw [hp] at hs
        cases hs
      | some s' =>
        rw [hp] at hs
        cases hs
        rw [textValue, PyStr.ofString_toString? hp]
    · cases hs
  rw [hfield, LawfulPlatform.str_text] at h'
  cases hv : V5KaggleStage.ofValue s with
  | none =>
    rw [hv] at h
    cases h
  | some stage₀ =>
    rw [hv] at h h'
    cases h
    cases h'
    rfl

omit [LawfulPlatform F] [Sha256] in
theorem length_of_listField {t t' : Option (JsonTree F)} {cs : List V5CheckpointChunk} {label : String}
    (ht : ∀ x, t = some x → t' = some x) (h : listField V5CheckpointChunk.modelValidate t' = .ok cs)
    (h' : sequence (t.getD .null) label = .ok chunks) : chunks.length = cs.length := by
  cases t with
  | none => cases h'
  | some t =>
    rw [Option.getD_some] at h'
    rw [ht t rfl] at h
    unfold sequence at h'
    split at h'
    · cases h'
      exact (mapM_eq_ok.1 h).length_eq
    · cases h'

/-- **Of a checkpoint that both read to its end, the verifier returns the other reader's records of the kinds it retains.** -/
theorem readCheckpoint_iterates (hz : z.Lossless contents) {limits : V5KaggleResourceGates} {v : VerifiedCheckpoint F}
    {fuel : Layer → ℕ} {rs : Layer → List V5CheckpointInput} (hv : readCheckpoint z root = .ok v)
    (hrs : ∀ layer, iterV5CheckpointRecordLayer F z (fuel layer) root limits layer = ⟨rs layer, .ok ()⟩) :
    ∃ m, readV5CheckpointManifest F root limits = .ok m ∧
      ∀ layer, v.records layer = (retained m.stage (rs layer)).map ofInput := by
  obtain ⟨m, hread, hdeterministic⟩ := holds_of_iterates hz (hrs .deterministic)
  obtain ⟨m', hread', hobservational⟩ := holds_of_iterates hz (hrs .observational)
  cases hread.symm.trans hread'
  refine ⟨m, hread, ?_⟩
  obtain ⟨document, hdocument, hrest⟩ := except_bind_eq_ok.1 hread
  obtain ⟨_, hmodel, hrest⟩ := except_bind_eq_ok.1 hrest
  obtain ⟨_, -, hrest⟩ := except_bind_eq_ok.1 hrest
  cases hrest
  obtain ⟨hcheck, hstage, hchunks, hchunks'⟩ := accepted_of_modelValidate hmodel
  obtain ⟨_, -, hv⟩ := except_bind_eq_ok.1 hv
  obtain ⟨manifest, hmanifest, hv⟩ := except_bind_eq_ok.1 hv
  obtain ⟨_, -, hv⟩ := except_bind_eq_ok.1 hv
  obtain ⟨stage, hstage', hv⟩ := except_bind_eq_ok.1 hv
  obtain ⟨chunks, hsequence, hv⟩ := except_bind_eq_ok.1 hv
  obtain ⟨chunks', hsequence', hv⟩ := except_bind_eq_ok.1 hv
  obtain ⟨records, hrecords, hv⟩ := except_bind_eq_ok.1 hv
  obtain ⟨records', hrecords', hv⟩ := except_bind_eq_ok.1 hv
  obtain ⟨_, -, hv⟩ := except_bind_eq_ok.1 hv
  obtain ⟨_, -, hv⟩ := except_bind_eq_ok.1 hv
  obtain ⟨_, -, hv⟩ := except_bind_eq_ok.1 hv
  obtain ⟨_, -, hv⟩ := except_bind_eq_ok.1 hv
  obtain ⟨_, -, hv⟩ := except_bind_eq_ok.1 hv
  cases hv
  obtain ⟨raw, hraw, hload⟩ := document_of_readCanonicalObject hdocument
  obtain ⟨raw', hraw', hload'⟩ := document_of_readCanonicalFile hmanifest
  cases hraw.symm.trans hraw'
  cases hload.symm.trans hload'
  cases stage_of_stageField hstage hstage'
  obtain ⟨hvalid, hvalid'⟩ := validChunks_of_check hcheck
  have h := records_of_holds hz hdeterministic rfl (length_of_listField (fun _ h => h) hchunks hsequence) (fun _ => hvalid)
    hrecords
  have h' := records_of_holds hz hobservational rfl
    (length_of_listField (fun x hx => by rw [hx, withDefault_some]) hchunks' hsequence') (fun hne => ?_) hrecords'
  · rw [h, h']
    intro layer
    cases layer <;> exact filter_ofInput m.stage _
  · have hcount : m.observationalRecordCount ≠ 0 := by
      rw [show m.observationalRecordCount = (rs .observational).length from hobservational.count]
      exact fun hzero => hne (List.length_eq_zero_iff.1 hzero)
    rw [V5CheckpointManifest.checkObservational, if_neg hcount] at hvalid'
    exact (except_bind_eq_ok.1 hvalid').choose_spec.2

omit [Platform F] [LawfulPlatform F] [Sha256] in
theorem map_retained_eq {stage : V5KaggleStage} :
    (retained stage rs).map ofInput = rs.map ofInput ↔ ∀ r ∈ rs, r.kind ∈ retainedKinds stage := by
  have hall : (∀ r ∈ rs, decide (r.kind ∈ retainedKinds stage) = true) ↔ ∀ r ∈ rs, r.kind ∈ retainedKinds stage :=
    forall₂_congr fun _ _ => decide_eq_true_iff
  rw [← hall]
  constructor
  · intro h
    have hlen := congrArg List.length h
    rwa [List.length_map, List.length_map, retained, List.length_filter_eq_length_iff] at hlen
  · intro h
    rw [retained, List.filter_eq_self.2 h]

omit [Platform F] [LawfulPlatform F] [Sha256] in
theorem pipelineKinds_subset (stage : V5KaggleStage) : pipelineKinds stage ⊆ retainedKinds stage := by
  cases stage <;> decide

/-- **The two readers of a checkpoint.** What a publication under the frozen limits leaves is accepted by the verifier, which
returns of each layer the published records in their order when their kinds are those that the pipeline writes for the stage;
and of every checkpoint that it accepts and that the other reader reads to its end, it returns the other reader's records of
the kinds that it retains of the stage: all of them exactly when every kind is retained. -/
theorem readers_agree (hz : z.Lossless contents) :
    (∀ (p : Publication F) (hpos : 0 < 67108864) (rs : List V5CheckpointInput) (m : V5CheckpointManifest)
      (root : CheckpointDirectory), p.limits = .frozen 67108864 hpos → (∀ r ∈ rs, r.kind ∈ pipelineKinds p.stage) →
        publishV5Checkpoint z p rs = .ok (m, root) →
          ∃ v : VerifiedCheckpoint F, readCheckpoint z root = .ok v ∧ ∀ layer, v.records layer = (layerRecords layer rs).map ofInput) ∧
    ∀ (root : CheckpointDirectory) (limits : V5KaggleResourceGates) (v : VerifiedCheckpoint F) (fuel : Layer → ℕ)
      (rs : Layer → List V5CheckpointInput), readCheckpoint z root = .ok v →
        (∀ layer, iterV5CheckpointRecordLayer F z (fuel layer) root limits layer = ⟨rs layer, .ok ()⟩) →
          ∃ m, readV5CheckpointManifest F root limits = .ok m ∧ ∀ layer,
            v.records layer = (retained m.stage (rs layer)).map ofInput ∧
            (v.records layer = (rs layer).map ofInput ↔ ∀ r ∈ rs layer, r.kind ∈ retainedKinds m.stage) := by
  constructor
  · intro p hpos rs m root hlimits hkinds hp
    obtain ⟨v, hv, hrecords⟩ := readCheckpoint_published hz hlimits (published_of_publish hp)
    refine ⟨v, hv, fun layer => ?_⟩
    rw [hrecords]
    exact map_retained_eq.2 fun r hr => pipelineKinds_subset _ (hkinds r (List.mem_of_mem_filter hr))
  · intro root limits v fuel rs hv hrs
    obtain ⟨m, hread, hrecords⟩ := readCheckpoint_iterates hz hv hrs
    exact ⟨m, hread, fun layer => ⟨hrecords layer, by rw [hrecords layer]; exact map_retained_eq⟩⟩

end Layers

/-! ## Two publications -/

namespace Sample

open Checkpoint.Sample

/-- a record of the kind that the pipeline writes -/
def authorization (layer : Layer) : V5CheckpointInput :=
  ⟨"authorization", "k", [120], layer, by decide, key_ok, byte_nonempty, byte_bounded⟩

/-- what `zlib` writes for the stream of one such record, and nothing shorter -/
def code : PrefixCode := .tabled [31, 139, 8, 0, 0, 0, 0, 0, 2, 3] (authorization .deterministic).framed 99 marker_ne
  [96, 0, 3, 157, 106, 165, 164, 202, 146, 212, 98, 37, 43, 67, 29, 165, 236, 212, 74, 37, 43, 165, 108, 37, 32, 43, 51, 47, 5,
    200, 76, 44, 45, 201, 200, 47, 202, 172, 74, 44, 201, 204, 207, 83, 170, 173, 0, 0, 113, 67, 54, 147, 53, 0, 0, 0]

def authorizations : List V5CheckpointInput := [authorization .observational, authorization .deterministic]

theorem authorizations_published :
    ∃ root, publishV5Checkpoint code.codec publication authorizations = .ok (manifest 53 67, root) :=
  published_of_layers (by decide +kernel) (by decide) (by decide) (by decide) (by decide) (by decide) (by decide)
    (by decide +kernel)

/-- what both readers return of the published authorizations -/
theorem readers_of_authorizations : ∃ root v,
    publishV5Checkpoint code.codec publication authorizations = .ok (manifest 53 67, root) ∧
    readCheckpoint (F := Half) code.codec root = .ok v ∧
    (∀ layer, v.records layer = [ofInput (authorization layer)]) ∧
    ∃ m, readV5CheckpointManifest Half root publication.limits = .ok m ∧
      authorization .deterministic ∈ retained m.stage [authorization .deterministic] := by
  obtain ⟨root, h⟩ := authorizations_published
  have hz := PrefixCode.lossless (p := code) rfl
  have hlayer : ∀ layer, layerRecords layer authorizations = [authorization layer] := fun layer => by cases layer <;> rfl
  obtain ⟨v, hv, hrecords⟩ := (readers_agree (F := Half) hz).1 publication (by decide) authorizations _ root rfl (by decide) h
  have hauthorizations : ∀ layer, v.records layer = [ofInput (authorization layer)] := by
    intro layer
    rw [hrecords, hlayer]
    rfl
  have hpublished := published_of_publish h
  have hread := published_read (F := Half) hz rfl hpublished
  have hiterates := fun layer => iterates_of_holds hz hread (published_holds hz hpublished layer)
  obtain ⟨m, hm, hretained⟩ := (readers_agree (F := Half) hz).2 root publication.limits v
    (fun layer => (hiterates layer).choose) (fun layer => layerRecords layer authorizations) hv
    (fun layer => (hiterates layer).choose_spec _ le_rfl)
  have hkinds := (hretained .deterministic).2.1 (hrecords .deterministic)
  refine ⟨root, v, h, hv, hauthorizations, m, hm, List.mem_filter.2 ⟨List.mem_singleton.2 rfl, ?_⟩⟩
  exact decide_eq_true (hkinds _ (by rw [hlayer]; exact List.mem_singleton.2 rfl))

/-- **A published record of another kind escapes the verifier.** -/
theorem record_escapes : ∃ root v, readCheckpoint (F := Half) Checkpoint.Sample.code.codec root = .ok v ∧
    (∀ layer, ∃ fuel, iterV5CheckpointRecordLayer Half Checkpoint.Sample.code.codec fuel root publication.limits layer =
      ⟨[record layer], .ok ()⟩) ∧
    ∀ layer, v.records layer = [] := by
  obtain ⟨root, h⟩ := published
  have hz := PrefixCode.lossless (p := Checkpoint.Sample.code) rfl
  have hlayer : ∀ layer, layerRecords layer records = [record layer] := fun layer => by cases layer <;> rfl
  have hpublished := published_of_publish h
  have hread := published_read (F := Half) hz rfl hpublished
  obtain ⟨v, hv, hrecords⟩ := readCheckpoint_published (F := Half) hz rfl hpublished
  refine ⟨root, v, hv, fun layer => ?_, fun layer => ?_⟩
  · obtain ⟨n, hn⟩ := iterates_of_holds hz hread (published_holds hz hpublished layer)
    exact ⟨n, by rw [hn n le_rfl, hlayer]⟩
  · rw [hrecords, hlayer]
    rfl

end Sample

end Independent

end Apar
