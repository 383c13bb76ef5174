/-
The independent verifier's loops over a layer of a checkpoint (`v5_kaggle_independent_verifier.py`), on what was written.

- `iterate_total`: the loop over the records decodes a stream of records, in whatever blocks it comes.
- `decompressedBlocks_sound`, `decompressedBlocks_total`: the blocks are the contents of the compressed stream.
-/
import Apar.Evaluation.CheckpointRoundTrip
import Apar.Evaluation.IndependentCheckpoints

namespace Apar

namespace Independent

open Exec JsonTree Checkpoint

/-! ## The loop over the records -/

/-- what the blocks have is taken as it is needed -/
theorem fill_total (size : ℕ) (buffer : List UInt8) (blocks : List (List UInt8)) :
    ∃ s, fill (.ok ()) size buffer blocks = .ok (decide (size ≤ (buffer ++ blocks.flatten).length), s) ∧
      s.buffer ++ s.blocks.flatten = buffer ++ blocks.flatten ∧
      (size ≤ (buffer ++ blocks.flatten).length → size ≤ s.buffer.length) := by
  induction blocks generalizing buffer with
  | nil =>
    rw [fill, List.flatten_nil, List.append_nil]
    by_cases h : size ≤ buffer.length
    · exact ⟨⟨buffer, []⟩, by rw [if_pos h, decide_eq_true h], by simp, fun _ => h⟩
    · exact ⟨⟨buffer, []⟩, by rw [if_neg h, decide_eq_false h]; rfl, by simp, fun h' => absurd h' h⟩
  | cons block blocks ih =>
    rw [fill]
    by_cases h : size ≤ buffer.length
    · have hall : size ≤ (buffer ++ (block :: blocks).flatten).length := by
        rw [List.length_append]
        omega
      exact ⟨⟨buffer, block :: blocks⟩, by rw [if_pos h, decide_eq_true hall], rfl, fun _ => h⟩
    · rw [if_neg h]
      obtain ⟨s, hs, hflatten, hlong⟩ := ih (buffer ++ block)
      rw [List.append_assoc, ← List.flatten_cons] at hs hflatten hlong
      exact ⟨s, hs, hflatten, hlong⟩

theorem ending_of_fill {ending : Except CheckpointError Unit} {size : ℕ} {buffer : List UInt8} {blocks : List (List UInt8)}
    {s : Intake} (h : fill ending size buffer blocks = .ok (false, s)) : ending = .ok () := by
  induction blocks generalizing buffer with
  | nil =>
    rw [fill] at h
    split_ifs at h
    · cases h
    · cases ending with
      | ok u => rfl
      | error e => cases h
  | cons block blocks ih =>
    rw [fill] at h
    split_ifs at h
    · cases h
    · exact ih h

/-- the record of the verifier -/
def ofInput (r : V5CheckpointInput) : Record := ⟨r.layer, r.kind, r.key, r.canonicalBytes⟩

section Records

variable {F : Type} [Platform F] [LawfulPlatform F]

theorem readHeader_header (layer : Layer) (r : V5CheckpointInput) :
    readHeader F layer r.header.bytes = .ok (textValue r.kind, textValue r.key, r.canonicalBytes.length) := by
  obtain ⟨items, -, hload, hcanonical, hexact, hbytes, hkey, hkind⟩ := headerDocument (F := F) r.kind r.key r.bounded
  have hsize : payloadSize (JsonTree.int r.canonicalBytes.length : JsonTree F) maxRecordBytes =
      some r.canonicalBytes.length :=
    payloadSize_eq_some.2 ⟨rfl, r.nonempty, r.bounded.trans (by norm_num [Checkpoint.maxRecordBytes, maxRecordBytes])⟩
  show readHeader F layer (headerBytes r.kind r.key r.canonicalBytes.length) = _
  simp only [readHeader, hload, Option.elim_some, mapping, canonicalBytes_eq_ok.2 hcanonical, hexact, hbytes, hkey, hkind, field,
    Option.bind_some, hsize, require, check, decide_true, Bool.and_true, if_true, Option.getD_some, except_ok_bind]
  rfl

omit [Platform F] [LawfulPlatform F] in
theorem readIdentity_textValue (layer : Layer) (kind key : String) :
    readIdentity layer (textValue kind : JsonTree F) (textValue key) = .ok (kind, key) := by
  simp [readIdentity, textValue]

theorem take_first {xs ys front back : List UInt8} (h : xs ++ ys = front ++ back) (hlen : front.length ≤ xs.length) :
    xs.take front.length = front ∧ xs.drop front.length ++ ys = back := by
  have htake := congrArg (List.take front.length) h
  have hdrop := congrArg (List.drop front.length) h
  rw [List.take_append_of_le_length hlen, List.take_left' rfl] at htake
  rw [List.drop_append_of_le_length hlen, List.drop_left' rfl] at hdrop
  exact ⟨htake, hdrop⟩

/-- a record is taken out of the blocks -/
theorem readRecord_total {layer : Layer} {r : V5CheckpointInput} (hlayer : r.layer = layer) {s : Intake} {more : List UInt8}
    (hs : s.buffer ++ s.blocks.flatten = r.framed ++ more) (h8 : 8 ≤ s.buffer.length) :
    ∃ s', readRecord F (.ok ()) layer s = .ok (ofInput r, r.framed, s') ∧ s'.buffer ++ s'.blocks.flatten = more := by
  have hframed : r.framed ++ more =
      BigEndian.bytes 8 r.header.bytes.length ++ (r.header.bytes ++ (r.canonicalBytes ++ more)) := by
    rw [r.framed_eq]
    simp
  have hsize8 : (BigEndian.bytes 8 r.header.bytes.length).length = 8 := BigEndian.length_bytes _ _
  obtain ⟨htake8, hdrop8⟩ := take_first (hs.trans hframed) (by rwa [hsize8])
  rw [hsize8] at htake8 hdrop8
  have hvalue : BigEndian.value (s.buffer.take 8) = r.header.bytes.length := by
    rw [htake8]
    exact BigEndian.value_bytes (length_header_lt (length_header_le r))
  -- the header
  obtain ⟨s₁, hfill₁, hrest₁, hlong₁⟩ := fill_total r.header.bytes.length (s.buffer.drop 8) s.blocks
  have hthere₁ : r.header.bytes.length ≤ (s.buffer.drop 8 ++ s.blocks.flatten).length := by
    rw [hdrop8, List.length_append]
    omega
  obtain ⟨htake₁, hdrop₁⟩ := take_first (hrest₁.trans hdrop8) (hlong₁ hthere₁)
  -- the payload
  obtain ⟨s₂, hfill₂, hrest₂, hlong₂⟩ := fill_total r.canonicalBytes.length (s₁.buffer.drop r.header.bytes.length) s₁.blocks
  have hthere₂ : r.canonicalBytes.length ≤ (s₁.buffer.drop r.header.bytes.length ++ s₁.blocks.flatten).length := by
    rw [hdrop₁, List.length_append]
    omega
  obtain ⟨htake₂, hdrop₂⟩ := take_first (hrest₂.trans hdrop₁) (hlong₂ hthere₂)
  have hbounded : (1 ≤ r.header.bytes.length && r.header.bytes.length ≤ maxRecordHeaderBytes) = true := by
    rw [Bool.and_eq_true, decide_eq_true_eq, decide_eq_true_eq]
    exact ⟨length_header_pos _, length_header_le r⟩
  rw [decide_eq_true hthere₁] at hfill₁
  rw [decide_eq_true hthere₂] at hfill₂
  refine ⟨⟨s₂.buffer.drop r.canonicalBytes.length, s₂.blocks⟩, ?_, hdrop₂⟩
  unfold readRecord
  dsimp only
  rw [hvalue]
  refine except_bind_eq_ok.2 ⟨(), check_eq_ok.2 hbounded, except_bind_eq_ok.2 ⟨_, hfill₁, ?_⟩⟩
  dsimp only
  refine except_bind_eq_ok.2 ⟨(), rfl, ?_⟩
  rw [htake₁]
  refine except_bind_eq_ok.2 ⟨_, readHeader_header layer r, ?_⟩
  dsimp only
  refine except_bind_eq_ok.2 ⟨_, hfill₂, ?_⟩
  dsimp only
  refine except_bind_eq_ok.2 ⟨(), rfl, except_bind_eq_ok.2 ⟨_, readIdentity_textValue layer r.kind r.key, ?_⟩⟩
  rw [htake₂, htake8, except_pure_eq_ok, r.framed_eq, ofInput, hlayer]

variable {rs : List V5CheckpointInput}

theorem recordStream_nil_iff : (recordStream rs).length < 8 ↔ rs = [] := by
  cases rs with
  | nil => simp [recordStream]
  | cons r rs =>
    rw [recordStream_cons, List.length_append, r.framed_eq, List.length_append, List.length_append, BigEndian.length_bytes]
    simp only [reduceCtorEq, iff_false]
    omega

/-- **The verifier's loop decodes a stream of records**, in whatever blocks it comes. -/
theorem readRecords_total {layer : Layer} (hlayers : ∀ r ∈ rs, r.layer = layer) {n : ℕ} {s : Intake}
    (hs : s.buffer ++ s.blocks.flatten = recordStream rs) (hn : rs.length < n) (t : Tally) :
    readRecords F (.ok ()) layer n s t = .ok ⟨t.records ++ rs.map ofInput, t.hashed ++ recordStream rs, t.count + rs.length,
      t.total + (recordStream rs).length⟩ := by
  induction n generalizing rs s t with
  | zero => omega
  | succ n ih =>
    obtain ⟨s₁, hfill, hrest, hlong⟩ := fill_total 8 s.buffer s.blocks
    rw [hs] at hfill hrest hlong
    rw [readRecords, hfill, except_ok_bind]
    cases rs with
    | nil =>
      have hnone : ¬ 8 ≤ (recordStream []).length := not_le.2 (recordStream_nil_iff.2 rfl)
      dsimp only
      rw [decide_eq_false hnone, if_neg Bool.false_ne_true, hrest]
      simp [recordStream, require, check]
    | cons r rs =>
      have hsome : 8 ≤ (recordStream (r :: rs)).length := not_lt.1 fun h => List.cons_ne_nil r rs (recordStream_nil_iff.1 h)
      rw [recordStream_cons] at hrest
      obtain ⟨s₂, hread, hmore⟩ := readRecord_total (F := F) (hlayers r (by simp)) hrest (hlong hsome)
      dsimp only
      rw [decide_eq_true hsome, if_pos rfl, hread, except_ok_bind]
      dsimp only
      rw [ih (fun r' hr' => hlayers r' (by simp [hr'])) hmore (by rw [List.length_cons] at hn; omega)]
      simp only [recordStream_cons, List.map_cons, List.length_cons, List.length_append, List.append_assoc,
        List.singleton_append, Except.ok.injEq, Tally.mk.injEq, true_and]
      omega

theorem length_le_recordStream (rs : List V5CheckpointInput) : rs.length ≤ (recordStream rs).length := by
  induction rs with
  | nil => exact Nat.zero_le _
  | cons r rs ih =>
    rw [recordStream_cons, List.length_append, List.length_cons, r.framed_eq, List.length_append, List.length_append,
      BigEndian.length_bytes]
    omega

theorem iterate_total {layer : Layer} {g : Gen CheckpointError (List UInt8) Unit} (hg : g.result = .ok ())
    (hstream : g.items.flatten = recordStream rs) (hlayers : ∀ r ∈ rs, r.layer = layer) :
    iterate F layer g = .ok ⟨rs.map ofInput, recordStream rs, rs.length, (recordStream rs).length⟩ := by
  have hn := length_le_recordStream rs
  rw [iterate, hg, readRecords_total (s := ⟨[], g.items⟩) hlayers hstream (by rw [hstream]; omega)]
  simp

omit [LawfulPlatform F] in
theorem ending_of_readRecords {ending : Except CheckpointError Unit} {layer : Layer} {n : ℕ} {s : Intake} {t t' : Tally}
    (h : readRecords F ending layer n s t = .ok t') : ending = .ok () := by
  induction n generalizing s t with
  | zero => cases h
  | succ n ih =>
    rw [readRecords] at h
    obtain ⟨⟨enough, s₁⟩, hfill, h⟩ := except_bind_eq_ok.1 h
    dsimp only at h
    cases enough with
    | false => exact ending_of_fill hfill
    | true =>
      obtain ⟨⟨record, frame, s₂⟩, -, hrest⟩ := except_bind_eq_ok.1 h
      exact ih hrest

end Records

/-! ## Documents -/

section Documents

variable {F : Type}

theorem field_document {fields : List (String × JsonTree F)} (hn : (fields.map Prod.fst).Nodup) (name : String) :
    field (object fields).sorted name = ((Assoc.get? name fields).map sorted).getD .null := by
  rw [field, get?_document hn]

theorem mapping_document (fields : List (String × JsonTree F)) (label : String) :
    mapping (object fields).sorted label = .ok (object fields).sorted := by
  rw [object, sorted_dict]
  rfl

theorem exactFields_document {fields : List (String × JsonTree F)} {names : List String} (h : fields.map Prod.fst = names)
    (label : String) : exactFields (object fields).sorted names label = .ok () := by
  refine check_eq_ok.2 ?_
  rw [exactly_sorted, exactly, within, keys_object, h, Bool.and_eq_true, List.all_eq_true, List.all_eq_true]
  refine ⟨fun k hk => decide_eq_true hk, fun n hn => decide_eq_true (List.mem_map.2 ⟨n, hn, rfl⟩)⟩

end Documents

/-! ## The blocks -/

theorem flatten_readBlocks {size n : ℕ} (hsize : 0 < size) {content : List UInt8} (hn : content.length ≤ n) :
    (readBlocks size n content).flatten = content := by
  induction n generalizing content with
  | zero =>
    rw [List.length_eq_zero_iff.1 (Nat.le_zero.1 hn)]
    rfl
  | succ n ih =>
    rw [readBlocks]
    split_ifs with hempty
    · rw [hempty]
      rfl
    · have := List.length_pos_iff.2 hempty
      rw [List.flatten_cons, ih (by rw [List.length_drop]; omega), List.take_append_drop]

section Blocks

variable {F : Type} [Platform F] [Sha256] {C D : Type} {z : Codec C D} {contents : List UInt8 → Option (List UInt8)}
  {layer : Layer}

variable {fed given block c data piece : List UInt8} {out blocks pieces : List (List UInt8)}
  {directory : List (String × Entry)} {start index : ℕ}

omit [Sha256] in
theorem decompressBlock_sound (hz : z.Lossless contents) {d d' : D} (h : z.Reaches d fed given)
    (hd : decompressBlock z layer d block = ⟨out, .ok d'⟩) :
    z.Reaches d' (fed ++ block) (given ++ out.flatten) ∧ z.unconsumedTail d' = [] := by
  unfold decompressBlock at hd
  split at hd
  · exact (Gen.raise_eq_ok.1 hd).elim
  · rename_i expanded d₁ hcall
    obtain ⟨xs, _, ys, hemit, hpure, rfl⟩ := Gen.bind_eq_ok.1 hd
    obtain ⟨rfl, rfl⟩ := Gen.pure_eq_ok.1 hpure
    have htail := hz.unlimited d fed given block expanded d₁ h hcall
    rw [List.append_nil, flatten_emitted (Gen.emitIf_eq_ok.1 hemit)]
    exact ⟨h.whole hcall htail, htail⟩

omit [Sha256] in
theorem decompressBlock_total (hz : z.Lossless contents) (hc : contents c = some data) {d : D}
    (h : z.Reaches d fed given) (hpre : fed ++ block <+: c) :
    ∃ out d', decompressBlock z layer d block = ⟨out, .ok d'⟩ := by
  obtain ⟨⟨expanded, d'⟩, hcall⟩ := hz.accepts c data d fed given block 0 hc h hpre
  unfold decompressBlock
  rw [hcall]
  exact ⟨_, d', Gen.bind_eq_ok.2 ⟨_, (), [], Gen.emitIf_eq_ok.2 rfl, rfl, rfl⟩⟩

omit [Sha256] in
theorem decompressBlocks_sound (hz : z.Lossless contents) {d d' : D} (h : z.Reaches d fed given)
    (htail : z.unconsumedTail d = []) (hd : decompressBlocks z layer d blocks = ⟨out, .ok d'⟩) :
    z.Reaches d' (fed ++ blocks.flatten) (given ++ out.flatten) ∧ z.unconsumedTail d' = [] := by
  induction blocks generalizing d fed given out with
  | nil =>
    obtain ⟨rfl, rfl⟩ := Gen.pure_eq_ok.1 hd
    rw [List.flatten_nil, List.append_nil, List.append_nil]
    exact ⟨h, htail⟩
  | cons block blocks ih =>
    obtain ⟨xs, d₁, ys, hblock, hrest, rfl⟩ := Gen.bind_eq_ok.1 hd
    obtain ⟨h₁, htail₁⟩ := decompressBlock_sound hz h hblock
    have := ih h₁ htail₁ hrest
    rwa [List.append_assoc, ← List.flatten_cons, List.append_assoc, ← List.flatten_append] at this

omit [Sha256] in
theorem decompressBlocks_total (hz : z.Lossless contents) (hc : contents c = some data) {d : D}
    (h : z.Reaches d fed given) (hpre : fed ++ blocks.flatten <+: c) :
    ∃ out d', decompressBlocks z layer d blocks = ⟨out, .ok d'⟩ := by
  induction blocks generalizing d fed given with
  | nil => exact ⟨[], d, rfl⟩
  | cons block blocks ih =>
    rw [List.flatten_cons, ← List.append_assoc] at hpre
    obtain ⟨xs, d₁, hblock⟩ := decompressBlock_total hz hc h ((List.prefix_append _ _).trans hpre)
    obtain ⟨ys, d', hrest⟩ := ih (decompressBlock_sound hz h hblock).1 hpre
    exact ⟨xs ++ ys, d', Gen.bind_eq_ok.2 ⟨xs, d₁, ys, hblock, hrest, rfl⟩⟩

/-- the files of the chunks from an index on -/
def FilesFrom (directory : List (String × Entry)) (start : ℕ) (pieces : List (List UInt8)) : Prop :=
  ∀ i (h : i < pieces.length), Assoc.get? (partName (start + i)) directory = some (.file pieces[i])

omit [Sha256] in
theorem filesFrom_cons :
    FilesFrom directory start (piece :: pieces) ↔
      Assoc.get? (partName start) directory = some (.file piece) ∧ FilesFrom directory (start + 1) pieces := by
  constructor
  · intro h
    refine ⟨h 0 (by simp), fun i hi => ?_⟩
    have := h (i + 1) (by simpa using hi)
    rwa [show start + (i + 1) = start + 1 + i by omega] at this
  · rintro ⟨hfirst, hrest⟩ i hi
    cases i with
    | zero => exact hfirst
    | succ i =>
      have := hrest i (by simpa using hi)
      rwa [show start + 1 + i = start + (i + 1) by omega] at this

omit [Sha256] in
theorem FilesFrom.eq {pieces' : List (List UInt8)} (h : FilesFrom directory start pieces)
    (h' : FilesFrom directory start pieces') (hlen : pieces.length = pieces'.length) : pieces = pieces' := by
  refine List.ext_getElem hlen fun i hi hi' => ?_
  have := (h i hi).symm.trans (h' i hi')
  simpa using this

omit [Sha256] in
theorem file_of_chunkFile {maxChunkBytes descriptor : JsonTree F} {content : List UInt8}
    (h : chunkFile directory layer maxChunkBytes index descriptor = .ok content) :
    Assoc.get? (partName index) directory = some (.file content) := by
  unfold chunkFile at h
  obtain ⟨chunk, -, h⟩ := except_bind_eq_ok.1 h
  obtain ⟨_, -, h⟩ := except_bind_eq_ok.1 h
  obtain ⟨_, -, h⟩ := except_bind_eq_ok.1 h
  split at h
  · cases h
  · cases h
  · rename_i content' hget
    obtain ⟨_, -, h⟩ := except_bind_eq_ok.1 h
    obtain ⟨_, -, h⟩ := except_bind_eq_ok.1 h
    obtain ⟨_, -, h⟩ := except_bind_eq_ok.1 h
    cases h
    exact hget

theorem decompressChunks_sound (hz : z.Lossless contents) {maxChunkBytes : JsonTree F} {d d' : D}
    {descriptors : List (JsonTree F)} (h : z.Reaches d fed given) (htail : z.unconsumedTail d = [])
    (hd : decompressChunks z directory layer maxChunkBytes start d descriptors = ⟨out, .ok d'⟩) :
    ∃ pieces, pieces.length = descriptors.length ∧ FilesFrom directory start pieces ∧
      z.Reaches d' (fed ++ pieces.flatten) (given ++ out.flatten) ∧ z.unconsumedTail d' = [] := by
  induction descriptors generalizing start d fed given out with
  | nil =>
    obtain ⟨rfl, rfl⟩ := Gen.pure_eq_ok.1 hd
    refine ⟨[], rfl, fun i hi => absurd hi (Nat.not_lt_zero i), ?_, htail⟩
    rwa [List.flatten_nil, List.append_nil, List.append_nil]
  | cons descriptor descriptors ih =>
    obtain ⟨content, hfile, hd⟩ := Gen.lift_bind_eq_ok.1 hd
    obtain ⟨xs, d₁, ys, hblocks, hdigest, rfl⟩ := Gen.bind_eq_ok.1 hd
    obtain ⟨_, -, hrest⟩ := Gen.lift_bind_eq_ok.1 hdigest
    obtain ⟨h₁, htail₁⟩ := decompressBlocks_sound hz h htail hblocks
    rw [flatten_readBlocks (by norm_num [readBlockBytes]) le_rfl] at h₁
    obtain ⟨pieces, hlen, hfiles, h', htail'⟩ := ih h₁ htail₁ hrest
    rw [List.append_assoc, ← List.flatten_cons, List.append_assoc, ← List.flatten_append] at h'
    exact ⟨content :: pieces, by simp [hlen], filesFrom_cons.2 ⟨file_of_chunkFile hfile, hfiles⟩, h', htail'⟩

/-- **The verifier's blocks are the contents of the chunks' stream.** -/
theorem decompressedBlocks_sound (hz : z.Lossless contents) {directory : Option (List (String × Entry))}
    {chunks : List (JsonTree F)} {maxChunks maxChunkBytes : JsonTree F}
    (h : decompressedBlocks z directory layer chunks maxChunks maxChunkBytes = ⟨out, .ok ()⟩) :
    (chunks = [] ∧ out = []) ∨ chunks ≠ [] ∧ ∃ pieces, pieces.length = chunks.length ∧
      FilesFrom (directory.getD []) 0 pieces ∧ contents pieces.flatten = some out.flatten := by
  obtain ⟨entries, hentries, h⟩ := Gen.lift_bind_eq_ok.1 h
  have hdirectory : directory = some entries := by
    obtain ⟨entries', hsome, hchecks⟩ := except_bind_eq_ok.1 hentries
    obtain ⟨_, -, hchecks⟩ := except_bind_eq_ok.1 hchecks
    obtain ⟨_, -, hchecks⟩ := except_bind_eq_ok.1 hchecks
    obtain ⟨_, -, hchecks⟩ := except_bind_eq_ok.1 hchecks
    obtain ⟨_, -, hchecks⟩ := except_bind_eq_ok.1 hchecks
    cases hchecks
    cases directory with
    | none => cases hsome
    | some entries' =>
      cases hsome
      rfl
  split_ifs at h with hempty
  · exact .inl ⟨hempty, (Gen.lift_eq_ok.1 h).1⟩
  · obtain ⟨xs, d, ys, hchunks, hend, rfl⟩ := Gen.bind_eq_ok.1 h
    obtain ⟨pieces, hlen, hfiles, hreaches, htail⟩ := decompressChunks_sound hz .start hz.fresh hchunks
    refine .inr ⟨hempty, pieces, hlen, by rwa [hdirectory], ?_⟩
    split at hend
    · exact (Gen.raise_eq_ok.1 hend).elim
    · rename_i tail d' hflush
      obtain ⟨zs, _, ws, hemit, hcheck, rfl⟩ := Gen.bind_eq_ok.1 hend
      obtain ⟨rfl, hended⟩ := Gen.lift_eq_ok.1 hcheck
      rw [require, check_eq_ok, Bool.and_eq_true, Bool.and_eq_true, decide_eq_true_eq] at hended
      rw [List.append_nil, List.flatten_append, flatten_emitted (Gen.emitIf_eq_ok.1 hemit)]
      exact hz.sound d _ _ tail d' hreaches htail hflush hended.1.1 hended.1.2

variable [LawfulPlatform F]

/-- the chunks from an index on, as the manifest describes them -/
def Described (start : ℕ) : List (JsonTree F) → List (List UInt8) → Prop
  | [], [] => True
  | descriptor :: descriptors, piece :: pieces =>
    descriptor = (chunkAt start piece).tree.sorted ∧ Described (start + 1) descriptors pieces
  | _, _ => False

omit [Platform F] [LawfulPlatform F] in
theorem described_mapIdx (pieces : List (List UInt8)) (start : ℕ) :
    Described (F := F) start (pieces.mapIdx fun i piece => (chunkAt (start + i) piece).tree.sorted) pieces := by
  induction pieces generalizing start with
  | nil => exact trivial
  | cons piece pieces ih =>
    rw [List.mapIdx_cons]
    refine ⟨rfl, ?_⟩
    have := ih (start + 1)
    rwa [show (fun i piece => ((chunkAt (start + 1 + i) piece).tree.sorted : JsonTree F)) =
      fun i piece => (chunkAt (start + (i + 1)) piece).tree.sorted by funext i piece; rw [Nat.add_assoc, Nat.add_comm 1 i]] at this

theorem chunkFile_total {maxChunkBytes : ℕ} (hfile : Assoc.get? (partName index) directory = some (.file piece))
    (hpos : piece ≠ []) (hmax : piece.length ≤ maxChunkBytes) :
    chunkFile directory layer (.int maxChunkBytes) index ((chunkAt index piece).tree.sorted : JsonTree F) = .ok piece := by
  have hnames : ((chunkAt index piece).fields : List (String × JsonTree F)).map Prod.fst =
    ["index", "filename", "bytes", "sha256"] := rfl
  have hfield := field_document (by rw [hnames]; decide)
  have hlength := List.length_pos_iff.2 hpos
  unfold chunkFile V5CheckpointChunk.tree
  refine except_bind_eq_ok.2 ⟨_, mapping_document _ _, except_bind_eq_ok.2 ⟨(), exactFields_document hnames _, ?_⟩⟩
  simp only [hfield, hfile]
  simp [V5CheckpointChunk.fields, chunkAt, Assoc.get?, equal, LawfulPlatform.eq_int, LawfulPlatform.eq_text, atMost, LawfulPlatform.le_int, require, check, except_ok_bind,
    hmax, hlength, pure, Except.pure]

theorem decompressChunks_total (hz : z.Lossless contents) (hc : contents c = some data) {maxChunkBytes : ℕ} {d : D}
    {descriptors : List (JsonTree F)} (h : z.Reaches d fed given) (htail : z.unconsumedTail d = [])
    (hdescribed : Described start descriptors pieces) (hfiles : FilesFrom directory start pieces)
    (hpieces : ∀ piece ∈ pieces, piece ≠ [] ∧ piece.length ≤ maxChunkBytes) (hpre : fed ++ pieces.flatten <+: c) :
    ∃ out d', decompressChunks z directory layer (.int maxChunkBytes) start d descriptors = ⟨out, .ok d'⟩ := by
  induction pieces generalizing start d fed given descriptors with
  | nil =>
    cases descriptors with
    | nil => exact ⟨[], d, rfl⟩
    | cons _ _ => exact hdescribed.elim
  | cons piece pieces ih =>
    cases descriptors with
    | nil => exact hdescribed.elim
    | cons descriptor descriptors =>
      obtain ⟨rfl, hdescribed⟩ := hdescribed
      obtain ⟨hfile, hfiles⟩ := filesFrom_cons.1 hfiles
      obtain ⟨hpos, hmax⟩ := hpieces piece (by simp)
      have hread : (readBlocks readBlockBytes piece.length piece).flatten = piece :=
        flatten_readBlocks (by norm_num [readBlockBytes]) le_rfl
      rw [List.flatten_cons, ← List.append_assoc] at hpre
      obtain ⟨xs, d₁, hblocks⟩ := decompressBlocks_total
        hz hc h (by rw [hread]; exact (List.prefix_append _ _).trans hpre)
      obtain ⟨h₁, htail₁⟩ := decompressBlocks_sound hz h htail hblocks
      rw [hread] at h₁
      obtain ⟨ys, d', hrest⟩ := ih h₁ htail₁ hdescribed hfiles (fun p hp => hpieces p (by simp [hp])) hpre
      have hnames : ((chunkAt start piece).fields : List (String × JsonTree F)).map Prod.fst =
        ["index", "filename", "bytes", "sha256"] := rfl
      have hfield := field_document (by rw [hnames]; decide)
      have hdigest : require (equal (textValue (Sha256.hexdigestBytes piece))
          (field ((chunkAt start piece).tree.sorted : JsonTree F) "sha256")) (layer.name ++ " chunk digest differs") = .ok () := by
        rw [V5CheckpointChunk.tree, hfield]
        simp [V5CheckpointChunk.fields, chunkAt, Assoc.get?, equal, LawfulPlatform.eq_text, require, check]
      exact ⟨xs ++ ys, d', Gen.lift_bind_eq_ok.2 ⟨piece, chunkFile_total hfile hpos hmax,
        Gen.bind_eq_ok.2 ⟨xs, d₁, ys, hblocks, Gen.lift_bind_eq_ok.2 ⟨(), hdigest, hrest⟩, rfl⟩⟩⟩

/-- a layer of a publication: its entries, its files and its pieces -/
structure Laid (layer : Layer) (entries : List (String × Entry)) (cs : List V5CheckpointChunk)
    (pieces : List (List UInt8)) (maxChunks maxChunkBytes : ℕ) : Prop where
  chunks : cs = pieces.mapIdx chunkAt
  names : entries.map Prod.fst = if layer = .observational ∧ cs = [] then [emptyLayerMarker] else cs.map (·.filename)
  files : FilesFrom entries 0 pieces
  few : pieces.length ≤ maxChunks
  fit : ∀ piece ∈ pieces, piece ≠ [] ∧ piece.length ≤ maxChunkBytes

variable {entries : List (String × Entry)} {cs : List V5CheckpointChunk} {pieces : List (List UInt8)} {maxChunks maxChunkBytes : ℕ}

theorem layerDirectory_total (h : Laid layer entries cs pieces maxChunks maxChunkBytes) :
    layerDirectory (some entries) layer (cs.map fun c => (c.tree.sorted : JsonTree F)) (.int maxChunks) = .ok entries := by
  have hnames : expectedNames layer (cs.map fun c => (c.tree.sorted : JsonTree F)) = entries.map Prod.fst := by
    rw [expectedNames, h.names, List.map_map]
    refine if_congr (and_congr_right' List.map_eq_nil_iff) rfl (List.map_congr_left fun c _ => ?_)
    have hfields : ((c.fields : List (String × JsonTree F)).map Prod.fst).Nodup :=
      (by decide : V5CheckpointChunk.fieldNames.Nodup)
    rw [Function.comp_apply, V5CheckpointChunk.tree, get?_document hfields]
    simp [V5CheckpointChunk.fields, Assoc.get?, LawfulPlatform.str_text]
  have hfew : cs.length ≤ maxChunks := by
    rw [h.chunks, List.length_mapIdx]
    exact h.few
  refine except_bind_eq_ok.2 ⟨entries, rfl, except_bind_eq_ok.2 ⟨false, ?_, except_bind_eq_ok.2 ⟨(), rfl,
    except_bind_eq_ok.2 ⟨(), check_eq_ok.2 ?_, except_bind_eq_ok.2 ⟨(), check_eq_ok.2 ?_, rfl⟩⟩⟩⟩⟩
  · rw [less, LawfulPlatform.lt_int, List.length_map, Option.elim_some]
    exact congrArg Except.ok (decide_eq_false (by omega))
  · rw [List.all_map, List.all_eq_true]
    intro c _
    rw [Function.comp_apply, V5CheckpointChunk.tree, object, sorted_dict]
  · rw [hnames]
    exact sameNames_self _

/-- **The blocks of a layer are the contents of its pieces.** -/
theorem decompressedBlocks_total (hz : z.Lossless contents) (h : Laid layer entries cs pieces maxChunks maxChunkBytes)
    (hne : cs ≠ []) (hc : contents pieces.flatten = some data) :
    ∃ out, decompressedBlocks z (some entries) layer (cs.map fun c => (c.tree.sorted : JsonTree F)) (.int maxChunks)
      (.int maxChunkBytes) = ⟨out, .ok ()⟩ ∧ out.flatten = data := by
  have hdescribed : Described 0 (cs.map fun c => (c.tree.sorted : JsonTree F)) pieces := by
    have hmap : (pieces.mapIdx chunkAt).map (fun c => (c.tree.sorted : JsonTree F)) =
        pieces.mapIdx fun i piece => (chunkAt (0 + i) piece).tree.sorted :=
      List.ext_getElem (by simp) fun i _ _ => by simp
    rw [h.chunks, hmap]
    exact described_mapIdx pieces 0
  obtain ⟨out, d, hchunks⟩ := decompressChunks_total hz hc .start hz.fresh hdescribed h.files h.fit
    (by rw [List.nil_append])
  obtain ⟨pieces', hlen, hfiles, hreaches, htail⟩ := decompressChunks_sound hz .start hz.fresh hchunks
  have hpieces : pieces' = pieces := by
    refine hfiles.eq h.files ?_
    rw [hlen, List.length_map, h.chunks, List.length_mapIdx]
  rw [List.nil_append, List.nil_append, hpieces] at hreaches
  obtain ⟨tail, d', hflush, heof, hunused, htail', hdata⟩ := hz.ends _ data d _ hc hreaches htail
  refine ⟨out ++ ((if tail ≠ [] then [tail] else []) ++ []), ?_, ?_⟩
  · refine Gen.lift_bind_eq_ok.2 ⟨entries, layerDirectory_total h, ?_⟩
    rw [if_neg (by rwa [List.map_eq_nil_iff])]
    refine Gen.bind_eq_ok.2 ⟨out, d, _, hchunks, ?_, rfl⟩
    simp only [hflush]
    refine Gen.bind_eq_ok.2 ⟨_, (), [], Gen.emitIf_eq_ok.2 rfl, Gen.lift_eq_ok.2 ⟨rfl, check_eq_ok.2 ?_⟩, rfl⟩
    simp [heof, hunused, htail']
  · rw [List.append_nil, List.flatten_append, flatten_emitted rfl, hdata]

theorem decompressedBlocks_empty (h : Laid .observational entries [] [] maxChunks maxChunkBytes)
    (hmarker : entries = [(emptyLayerMarker, .file emptyObservationalLayerBytes)]) :
    decompressedBlocks z (some entries) .observational ([] : List (JsonTree F)) (.int maxChunks) (.int maxChunkBytes) =
      ⟨[], .ok ()⟩ := by
  refine Gen.lift_bind_eq_ok.2 ⟨entries, layerDirectory_total h, ?_⟩
  rw [if_pos rfl, Gen.lift_eq_ok, hmarker]
  simp [checkMarker, Assoc.get?, require, check]

end Blocks

end Independent

end Apar
