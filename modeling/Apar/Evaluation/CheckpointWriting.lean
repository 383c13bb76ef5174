/-
What a publication has written (`evaluation/v5_checkpoint_storage.py`): the chunks of a layer and the manifest's entries
of them, and the two layers of a sequence of records.

- `Cut` is the invariant of a chunk writer: its files are the pieces it has cut, and its entries describe them.
- `write_writing`, `finish_cut`: what was written, whatever the pieces it came in, is the pieces and the buffer.
- `publishRecord_published`: every layer holds its records, in order, in the stream that its compressor is writing.
-/
import Apar.Evaluation.CheckpointStreams

namespace Apar

namespace Checkpoint

open Exec

/-! ## Names of chunks -/

theorem ofList_middle_inj {start end_ xs ys : List Char}
    (h : String.ofList (start ++ xs ++ end_) = String.ofList (start ++ ys ++ end_)) : xs = ys := by
  have hcs := congrArg String.toList h
  rw [String.toList_ofList, String.toList_ofList] at hcs
  exact List.append_cancel_left (List.append_cancel_right hcs)

theorem partName_inj {i j : ℕ} (h : partName i = partName j) : i = j :=
  Calendar.padded_inj (ofList_middle_inj h)

theorem map_mapIdx {α β γ : Type} {f : ℕ → α → β} {g : β → γ} {h : ℕ → γ} (hf : ∀ i x, g (f i x) = h i) (xs : List α) :
    (xs.mapIdx f).map g = (List.range xs.length).map h := by
  refine List.ext_getElem (by simp) ?_
  intro i _ _
  simp [hf]

/-! ## Chunks -/

section Chunks

variable [Sha256] {limits : V5KaggleResourceGates}

/-- the manifest's entry of a piece -/
def chunkAt (index : ℕ) (piece : List UInt8) : V5CheckpointChunk :=
  ⟨index, partName index, piece.length, Sha256.hexdigestBytes piece⟩

/-- the file of a piece -/
def fileAt (index : ℕ) (piece : List UInt8) : String × Entry := (partName index, .file piece)

/-- the writer has cut these pieces -/
structure Cut (limits : V5KaggleResourceGates) (w : ChunkWriter) (pieces : List (List UInt8)) : Prop where
  chunks : w.chunks = pieces.mapIdx chunkAt
  files : w.files = pieces.mapIdx fileAt
  few : pieces.length ≤ limits.maxCheckpointChunks
  checked : ∀ chunk ∈ w.chunks, chunk.check = .ok ()

variable {pieces : List (List UInt8)} {w w' : ChunkWriter} {content view : List UInt8}

theorem Cut.length_chunks (h : Cut limits w pieces) : w.chunks.length = pieces.length := by
  rw [h.chunks, List.length_mapIdx]

theorem Cut.nonempty (h : Cut limits w pieces) {piece : List UInt8} (hpiece : piece ∈ pieces) : piece ≠ [] := by
  obtain ⟨i, hi, rfl⟩ := List.getElem_of_mem hpiece
  have hmem : chunkAt i pieces[i] ∈ w.chunks := by
    rw [h.chunks]
    exact List.mem_mapIdx.2 ⟨i, hi, rfl⟩
  have hcheck := h.checked _ hmem
  rw [V5CheckpointChunk.check, check_eq_ok, Bool.and_eq_true, Bool.and_eq_true, decide_eq_true_eq] at hcheck
  exact List.length_pos_iff.1 hcheck.1.2

omit [Sha256] in
theorem nodup_names (pieces : List (List UInt8)) : ((pieces.mapIdx fileAt).map Prod.fst).Nodup := by
  rw [map_mapIdx (f := fileAt) (h := partName) (fun _ _ => rfl)]
  exact List.nodup_range.map fun _ _ h => partName_inj h

theorem Cut.names (h : Cut limits w pieces) : w.files.map Prod.fst = w.chunks.map (·.filename) := by
  rw [h.chunks, h.files, map_mapIdx (f := fileAt) (h := partName) (fun _ _ => rfl),
    map_mapIdx (f := chunkAt) (h := partName) (fun _ _ => rfl)]

/-- **The files of a layer are what its entries say.** -/
theorem Cut.stored (h : Cut limits w pieces) : List.Forall₂ (Stored w.files) w.chunks pieces := by
  rw [h.chunks, h.files, List.forall₂_iff_get]
  refine ⟨by simp, fun i hi hi' => ?_⟩
  simp only [List.get_eq_getElem, List.getElem_mapIdx]
  refine ⟨Assoc.get?_of_mem (nodup_names pieces) ?_, rfl, rfl⟩
  exact List.mem_mapIdx.2 ⟨i, hi', rfl⟩

/-- a chunk is cut off -/
theorem Cut.flush (h : Cut limits w pieces) (hf : w.flushChunk limits = .ok w') :
    Cut limits w' (pieces ++ [w.buffer]) ∧ w'.buffer = [] := by
  unfold ChunkWriter.flushChunk at hf
  obtain ⟨_, hfew, hf⟩ := except_bind_eq_ok.1 hf
  obtain ⟨_, hcheck, hf⟩ := except_bind_eq_ok.1 hf
  rw [check_eq_ok, decide_eq_true_eq, h.length_chunks] at hfew
  cases hf
  refine ⟨⟨?_, ?_, ?_, ?_⟩, rfl⟩
  · simp [h.chunks, chunkAt]
  · simp [h.files, h.chunks, fileAt]
  · rw [List.length_append, List.length_singleton]
    exact hfew
  · intro chunk hchunk
    rcases List.mem_append.1 hchunk with hchunk | hchunk
    · exact h.checked chunk hchunk
    · rw [List.mem_singleton.1 hchunk]
      exact hcheck

/-- the writer has been given this content: full pieces and a buffer that is not full -/
def Writing (limits : V5KaggleResourceGates) (w : ChunkWriter) (content : List UInt8) : Prop :=
  ∃ pieces, Cut limits w pieces ∧ pieces.flatten ++ w.buffer = content ∧
    (∀ piece ∈ pieces, piece.length = limits.maxCheckpointChunkBytes) ∧ w.buffer.length < limits.maxCheckpointChunkBytes

theorem Writing.empty : Writing limits .empty [] :=
  ⟨[], ⟨rfl, rfl, Nat.zero_le _, fun _ h => absurd h List.not_mem_nil⟩, rfl, fun _ h => absurd h List.not_mem_nil,
    limits.chunk_pos⟩

theorem writeSome_writing {n : ℕ} (h : Writing limits w content) (hn : view.length ≤ n)
    (hw : w.writeSome limits n view = .ok w') : Writing limits w' (content ++ view) := by
  induction n generalizing w content view with
  | zero =>
    rw [List.length_eq_zero_iff.1 (Nat.le_zero.1 hn), List.append_nil]
    cases hw
    exact h
  | succ n ih =>
    rw [ChunkWriter.writeSome] at hw
    dsimp only at hw
    split_ifs at hw with hempty
    · cases hw
      rwa [hempty, List.append_nil]
    · obtain ⟨pieces, hcut, hcontent, hfull, hroom⟩ := h
      have hview := List.length_pos_iff.2 hempty
      obtain ⟨w₁, hflush, hrest⟩ := except_bind_eq_ok.1 hw
      have hsplit : content ++ view = (content ++ view.take (min (limits.maxCheckpointChunkBytes - w.buffer.length) view.length)) ++
          view.drop (min (limits.maxCheckpointChunkBytes - w.buffer.length) view.length) := by
        rw [List.append_assoc, List.take_append_drop]
      rw [hsplit]
      refine ih ?_ (by rw [List.length_drop]; omega) hrest
      have hcut' : ∀ buffer, Cut limits { w with buffer := buffer } pieces :=
        fun _ => ⟨hcut.chunks, hcut.files, hcut.few, hcut.checked⟩
      unfold ChunkWriter.flushIf at hflush
      split_ifs at hflush with hend
      · obtain ⟨hcut₁, hbuffer⟩ := (hcut' _).flush hflush
        refine ⟨_, hcut₁, ?_, ?_, ?_⟩
        · rw [hbuffer, ← hcontent]
          simp
        · intro piece hpiece
          rcases List.mem_append.1 hpiece with hpiece | hpiece
          · exact hfull piece hpiece
          · rw [List.mem_singleton.1 hpiece]
            exact hend
        · rw [hbuffer]
          exact limits.chunk_pos
      · cases hflush
        refine ⟨pieces, hcut' _, ?_, hfull, ?_⟩
        · rw [← hcontent, List.append_assoc]
        · dsimp only
          rw [List.length_append, List.length_take] at hend ⊢
          omega

theorem write_writing (h : Writing limits w content) (hw : w.write limits view = .ok w') :
    Writing limits w' (content ++ view) :=
  writeSome_writing h le_rfl hw

/-- the content of a layer is cut in pieces: all but the last are full -/
structure Finished (limits : V5KaggleResourceGates) (w : ChunkWriter) (pieces : List (List UInt8)) : Prop where
  cut : Cut limits w pieces
  full : ∀ piece ∈ pieces.dropLast, piece.length = limits.maxCheckpointChunkBytes
  last : ∀ piece ∈ pieces, piece.length ≤ limits.maxCheckpointChunkBytes

/-- **A finished writer has cut its content.** -/
theorem finish_cut {allowEmpty : Bool} (h : Writing limits w content) (hf : w.finish limits allowEmpty = .ok w') :
    ∃ pieces, Finished limits w' pieces ∧ pieces.flatten = content ∧ (allowEmpty = false → pieces ≠ []) := by
  obtain ⟨pieces, hcut, hcontent, hfull, hroom⟩ := h
  unfold ChunkWriter.finish ChunkWriter.flushIf at hf
  obtain ⟨w₁, hflush, hf⟩ := except_bind_eq_ok.1 hf
  obtain ⟨_, hsome, hf⟩ := except_bind_eq_ok.1 hf
  cases hf
  rw [check_eq_ok, Bool.or_eq_true, decide_eq_true_eq] at hsome
  have hne : ∀ ps : List (List UInt8), Cut limits w' ps → allowEmpty = false → ps ≠ [] := by
    intro ps hps hallow hnil
    rw [hallow] at hsome
    rcases hsome with hsome | hsome
    · exact hsome (by rw [hps.chunks, hnil]; rfl)
    · cases hsome
  split_ifs at hflush with hbuffer
  · obtain ⟨hcut', -⟩ := hcut.flush hflush
    refine ⟨_, ⟨hcut', ?_, ?_⟩, by rw [← hcontent]; simp, hne _ hcut'⟩
    · rw [List.dropLast_concat]
      exact hfull
    · intro piece hpiece
      rcases List.mem_append.1 hpiece with hpiece | hpiece
      · exact (hfull piece hpiece).le
      · rw [List.mem_singleton.1 hpiece]
        exact hroom.le
  · cases hflush
    rw [not_not.1 hbuffer, List.append_nil] at hcontent
    exact ⟨pieces, ⟨hcut, fun piece hpiece => hfull piece (List.mem_of_mem_dropLast hpiece),
      fun piece hpiece => (hfull piece hpiece).le⟩, hcontent, hne _ hcut⟩

end Chunks

/-! ## Layers -/

/-- the records of a layer -/
def layerRecords (layer : Layer) (rs : List V5CheckpointInput) : List V5CheckpointInput := rs.filter (·.layer = layer)

theorem layerRecords_concat (layer : Layer) (rs : List V5CheckpointInput) (r : V5CheckpointInput) :
    layerRecords layer (rs ++ [r]) = layerRecords layer rs ++ if r.layer = layer then [r] else [] := by
  rw [layerRecords, List.filter_append, List.filter_singleton]
  by_cases h : r.layer = layer <;> simp [h, layerRecords]

section Layers

variable [Sha256] {C D : Type} {z : Codec C D} {limits : V5KaggleResourceGates}

/-- the layer being written holds these records -/
structure LayerWriting (z : Codec C D) (limits : V5KaggleResourceGates) (l : LayerWriter C) (rs : List V5CheckpointInput) :
    Prop where
  written : ∃ out, Writing limits l.writer out ∧ ∀ more,
    z.stream z.compressobj (rs.map V5CheckpointInput.framed ++ more) = out ++ z.stream l.compressor more
  hashed : l.hashed = recordStream rs
  bytes : l.bytes = (recordStream rs).length
  count : l.count = rs.length
  idle : rs = [] → l = .start z

theorem LayerWriting.start : LayerWriting z limits (.start z) [] :=
  ⟨⟨[], .empty, fun _ => rfl⟩, rfl, rfl, rfl, fun _ => rfl⟩

variable {rs : List V5CheckpointInput}

theorem LayerWriting.add {l l' : LayerWriter C} {r : V5CheckpointInput} (h : LayerWriting z limits l rs)
    (ha : l.add z limits r.framed = .ok l') : LayerWriting z limits l' (rs ++ [r]) := by
  obtain ⟨out, hwriting, hstream⟩ := h.written
  obtain ⟨writer, hwrite, ha⟩ := except_bind_eq_ok.1 ha
  cases ha
  refine ⟨⟨_, write_writing hwriting hwrite, fun more => ?_⟩, ?_, ?_, ?_, fun hnil => absurd hnil (by simp)⟩
  · have := hstream (r.framed :: more)
    rw [Codec.stream] at this
    rw [List.map_append, List.append_assoc, List.append_assoc]
    exact this
  · rw [recordStream_concat, ← h.hashed]
  · rw [recordStream_concat, List.length_append, ← h.bytes]
  · rw [List.length_append, List.length_singleton, ← h.count]

/-- the layer that was written: its pieces are the compressed stream of these records -/
structure LayerClosed (contents : List UInt8 → Option (List UInt8)) (limits : V5KaggleResourceGates) (w : ChunkWriter)
    (rs : List V5CheckpointInput) (pieces : List (List UInt8)) : Prop where
  finished : Finished limits w pieces
  contents : rs ≠ [] → contents pieces.flatten = some (recordStream rs)
  idle : rs = [] → pieces = []

theorem LayerWriting.contents {contents : List UInt8 → Option (List UInt8)} (hz : z.Lossless contents)
    {l : LayerWriter C} {rs : List V5CheckpointInput} {w : ChunkWriter} (h : LayerWriting z limits l rs)
    (hw : l.writer.write limits (z.finish l.compressor) = .ok w) :
    ∃ content, Writing limits w content ∧ contents content = some (recordStream rs) := by
  obtain ⟨out, hwriting, hstream⟩ := h.written
  refine ⟨_, write_writing hwriting hw, ?_⟩
  have hall := hstream []
  rw [List.append_nil, Codec.stream] at hall
  rw [← hall, hz.stream, recordStream, Framing.stream, List.flatMap_def]
  rfl

/-- **A closed layer** is the compressed stream of its records, cut in pieces. -/
theorem LayerWriting.closed {contents : List UInt8 → Option (List UInt8)} (hz : z.Lossless contents) {l : LayerWriter C}
    {w w' : ChunkWriter} {allowEmpty : Bool} (h : LayerWriting z limits l rs) (hc : l.close z limits = .ok w)
    (hf : w.finish limits allowEmpty = .ok w') : ∃ pieces, LayerClosed contents limits w' rs pieces := by
  unfold LayerWriter.close at hc
  split_ifs at hc with hcount
  · obtain ⟨content, hwriting, hcontents⟩ := h.contents hz hc
    obtain ⟨pieces, hfinished, rfl, -⟩ := finish_cut hwriting hf
    exact ⟨pieces, hfinished, fun _ => hcontents, fun hnil => absurd (h.count.trans (by rw [hnil]; rfl)) hcount⟩
  · cases hc
    have hnil : rs = [] := List.length_eq_zero_iff.1 (h.count.symm.trans (not_not.1 hcount))
    rw [h.idle hnil] at hf
    obtain ⟨pieces, hfinished, hflatten, -⟩ := finish_cut Writing.empty hf
    refine ⟨pieces, hfinished, fun hne => absurd hnil hne, fun _ => ?_⟩
    cases pieces with
    | nil => rfl
    | cons piece pieces =>
      rw [List.flatten_cons, List.append_eq_nil_iff] at hflatten
      exact absurd hflatten.1 (hfinished.cut.nonempty (by simp))

/-! ## The loop over the records -/

/-- the identity of a record in both layers -/
def V5CheckpointInput.layerIdentity (r : V5CheckpointInput) : Layer × String × String := (r.layer, r.kind, r.key)

/-- every layer holds its records -/
structure Publishing (z : Codec C D) (limits : V5KaggleResourceGates) (rs : List V5CheckpointInput) (s : PublishState C) :
    Prop where
  deterministic : LayerWriting z limits s.deterministic (layerRecords .deterministic rs)
  observational : LayerWriting z limits s.observational (layerRecords .observational rs)
  seen : s.seen = rs.map V5CheckpointInput.layerIdentity
  distinct : s.seen.Nodup

theorem Publishing.start : Publishing z limits [] ⟨.start z, .start z, []⟩ := ⟨.start, .start, rfl, List.nodup_nil⟩

/-- a record goes to its layer -/
theorem publishRecord_publishing {s s' : PublishState C} {r : V5CheckpointInput} (h : Publishing z limits rs s)
    (hp : publishRecord z limits s r = .ok s') : Publishing z limits (rs ++ [r]) s' := by
  unfold publishRecord at hp
  obtain ⟨_, hnew, hp⟩ := except_bind_eq_ok.1 hp
  rw [check_eq_ok, decide_eq_true_eq] at hnew
  have hseen : s.seen ++ [(r.layer, r.kind, r.key)] = (rs ++ [r]).map V5CheckpointInput.layerIdentity := by
    rw [List.map_append, h.seen]
    rfl
  have hdistinct := (List.nodup_concat _ _).2 ⟨hnew, h.distinct⟩
  rw [List.concat_eq_append] at hdistinct
  cases hlayer : r.layer with
  | deterministic =>
    rw [hlayer] at hp hseen hdistinct
    obtain ⟨l, hadd, hp⟩ := except_bind_eq_ok.1 hp
    cases hp
    refine ⟨?_, ?_, hseen, hdistinct⟩
    · rw [layerRecords_concat, if_pos hlayer]
      exact h.deterministic.add hadd
    · rw [layerRecords_concat, if_neg (by simp [hlayer]), List.append_nil]
      exact h.observational
  | observational =>
    rw [hlayer] at hp hseen hdistinct
    obtain ⟨l, hadd, hp⟩ := except_bind_eq_ok.1 hp
    cases hp
    refine ⟨?_, ?_, hseen, hdistinct⟩
    · rw [layerRecords_concat, if_neg (by simp [hlayer]), List.append_nil]
      exact h.deterministic
    · rw [layerRecords_concat, if_pos hlayer]
      exact h.observational.add hadd

/-- **The loop over the records** puts every record in its layer. -/
theorem publishing_of_fold {s : PublishState C}
    (h : rs.foldlM (publishRecord z limits) ⟨.start z, .start z, []⟩ = .ok s) : Publishing z limits rs s := by
  simpa using foldlM_invariant (I := fun done s => Publishing z limits done s)
    (fun _ _ _ _ hI hstep => publishRecord_publishing hI hstep) Publishing.start h

/-- the two layers of a publication, closed -/
theorem closed_of_finishLayers {contents : List UInt8 → Option (List UInt8)} (hz : z.Lossless contents)
    {s : PublishState C} {w w' : ChunkWriter} (h : Publishing z limits rs s)
    (hf : finishLayers z limits s = .ok (w, w')) :
    layerRecords .deterministic rs ≠ [] ∧ (∃ pieces, LayerClosed contents limits w (layerRecords .deterministic rs) pieces) ∧
      ∃ pieces, LayerClosed contents limits w' (layerRecords .observational rs) pieces := by
  unfold finishLayers at hf
  obtain ⟨_, hcount, hf⟩ := except_bind_eq_ok.1 hf
  obtain ⟨d, hwrite, hf⟩ := except_bind_eq_ok.1 hf
  obtain ⟨d', hfinish, hf⟩ := except_bind_eq_ok.1 hf
  obtain ⟨o, hclose, hf⟩ := except_bind_eq_ok.1 hf
  obtain ⟨o', hfinish', hf⟩ := except_bind_eq_ok.1 hf
  cases hf
  rw [check_eq_ok, decide_eq_true_eq] at hcount
  have hclose' : s.deterministic.close z limits = .ok d := by
    rw [LayerWriter.close, if_pos hcount]
    exact hwrite
  refine ⟨?_, h.deterministic.closed hz hclose' hfinish, h.observational.closed hz hclose hfinish'⟩
  intro hnil
  exact hcount (h.deterministic.count.trans (by rw [hnil]; rfl))

end Layers

end Checkpoint

end Apar
