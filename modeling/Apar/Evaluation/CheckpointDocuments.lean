/-
The documents of a checkpoint read back (`evaluation/v5_checkpoint_storage.py`): a model that was written is validated into
itself, from the document in canonical order, and the manifest of a publication is not longer than the reader takes.

- `get?_document`: the fields of a document that was read are those that were written, each in canonical order.
- `V5CheckpointManifest.modelValidate_tree` and the like: `modelValidate` of a document inverts `tree`.
- `manifest_bounded`: a manifest within the gates of the protocol is written in less than `maxManifestBytes`.
-/
import Apar.Evaluation.CheckpointStorage

namespace Apar

namespace Checkpoint

open Exec JsonTree

/-! ## Fields -/

section Fields

variable {F : Type}

theorem get?_document {fields : List (String × JsonTree F)} (hn : (fields.map Prod.fst).Nodup) (name : String) :
    (object fields).sorted.get? name = (Assoc.get? name fields).map sorted := by
  rw [object, get?_sorted (nodup_object hn), ← object, get?_object]

theorem documentField_object {fields : List (String × JsonTree F)} {names : List String}
    (h : fields.map Prod.fst ⊆ names) : documentField (some (object fields).sorted) names = .ok (object fields).sorted := by
  have hwithin : (object fields).sorted.within names = true := by
    rw [within_sorted, within, keys_object, List.all_eq_true]
    intro k hk
    obtain ⟨name, hname, rfl⟩ := List.mem_map.1 hk
    exact decide_eq_true (List.mem_map.2 ⟨name, h hname, rfl⟩)
  rw [object, sorted_dict] at hwithin ⊢
  rw [documentField, if_pos hwithin]

@[simp] theorem textField_textValue (s : String) : textField (some (textValue s : JsonTree F)) = .ok s := by
  simp [textField, textValue]

@[simp] theorem literalField_textValue (s : String) : literalField (some (textValue s : JsonTree F)) s = .ok () := by
  simp [literalField, textValue, isText, check]

@[simp] theorem flagField_bool (b : Bool) : flagField (some (.bool b : JsonTree F)) b = .ok () := by
  simp [flagField, check]

@[simp] theorem sorted_int (n : ℤ) : (JsonTree.int n : JsonTree F).sorted = .int n := by simp [sorted]

@[simp] theorem sorted_bool (b : Bool) : (JsonTree.bool b : JsonTree F).sorted = .bool b := by simp [sorted]

@[simp] theorem sorted_float (x : F) : (JsonTree.float x : JsonTree F).sorted = .float x := by simp [sorted]

@[simp] theorem sorted_optional {α : Type} (f : α → JsonTree F) (x : Option α) :
    (JsonTree.optional f x).sorted = JsonTree.optional (fun a => (f a).sorted) x := by
  cases x <;> simp [JsonTree.optional, sorted]

variable [Platform F] [LawfulPlatform F]

@[simp] theorem intField_int (n : ℤ) : intField (some (.int n : JsonTree F)) = .ok n := by
  simp [intField, LawfulPlatform.intField_int]

@[simp] theorem natField_int (n : ℕ) : natField (some (.int n : JsonTree F)) = .ok n := by
  simp [natField, check, except_ok_bind]

@[simp] theorem floatField_float (x : F) : floatField (some (.float x : JsonTree F)) = .ok x := by
  simp [floatField, LawfulPlatform.floatField_float]

omit [Platform F] [LawfulPlatform F] in
theorem listField_map {α : Type} {item : JsonTree F → Except CheckpointError α} {tree : α → JsonTree F}
    {xs : List α} (h : ∀ x ∈ xs, item (tree x).sorted = .ok x) :
    listField item (some (.list (xs.map (sorted ∘ tree)))) = .ok xs := mapM_map_self h

omit [Platform F] [LawfulPlatform F] in
@[simp] theorem stageField_value (stage : V5KaggleStage) :
    stageField (some (textValue stage.value : JsonTree F)) = .ok stage := by
  simp [stageField, except_ok_bind]

omit [Platform F] [LawfulPlatform F] in
theorem optionalField_optional {α : Type} {item : Option (JsonTree F) → Except CheckpointError α} {f : α → JsonTree F}
    (h : ∀ a, item (some (f a)) = .ok a) (hf : ∀ a, f a ≠ .null) (x : Option α) :
    optionalField item (some (JsonTree.optional f x)) = .ok x := by
  cases x with
  | none => rfl
  | some a =>
    have hne := hf a
    have ha := h a
    unfold optionalField JsonTree.optional
    simp only [Option.map_some, Option.getD_some]
    split
    · rename_i heq
      exact absurd (Option.some.inj heq) hne
    · rw [ha]
      rfl

omit [Platform F] [LawfulPlatform F] in
@[simp] theorem withDefault_some (t default : JsonTree F) : withDefault (some t) default = some t := rfl

end Fields

/-! ## Models -/

section Models

variable {F : Type} [Platform F] [LawfulPlatform F] [Sha256]

omit [Sha256] in
theorem V5CheckpointChunk.modelValidate_tree {c : V5CheckpointChunk} (h : c.check = .ok ()) :
    V5CheckpointChunk.modelValidate (c.tree : JsonTree F).sorted = .ok c := by
  have hnames : (c.fields : List (String × JsonTree F)).map Prod.fst = V5CheckpointChunk.fieldNames := rfl
  have hget := get?_document (by rw [hnames]; decide)
  unfold V5CheckpointChunk.modelValidate V5CheckpointChunk.tree
  rw [documentField_object (by rw [hnames]; exact List.Subset.refl _)]
  simp only [except_ok_bind, hget]
  simp [V5CheckpointChunk.fields, Assoc.get?, except_ok_bind, h, pure, Except.pure]

theorem V5KaggleEnvironmentBinding.modelValidate_tree {e : V5KaggleEnvironmentBinding} (h : e.check F = .ok ()) :
    V5KaggleEnvironmentBinding.modelValidate (e.tree : JsonTree F).sorted = .ok e := by
  have hnames : (e.fields ++ [("environment_sha256", textValue e.environmentSha256)] :
    List (String × JsonTree F)).map Prod.fst = V5KaggleEnvironmentBinding.fieldNames := rfl
  have hget := get?_document
    (by rw [hnames]; decide)
  unfold V5KaggleEnvironmentBinding.modelValidate V5KaggleEnvironmentBinding.tree
  rw [documentField_object (by rw [hnames]; exact List.Subset.refl _)]
  simp only [except_ok_bind, hget]
  simp [V5KaggleEnvironmentBinding.fields, Assoc.get?, except_ok_bind, h, pure, Except.pure]

theorem V5CheckpointObservation.modelValidate_tree {o : V5CheckpointObservation F} (h : o.check = .ok ()) :
    V5CheckpointObservation.modelValidate o.tree.sorted = .ok o := by
  have hnames : (o.fields ++ [("observation_sha256", textValue o.observationSha256)]).map Prod.fst =
    V5CheckpointObservation.fieldNames := rfl
  have hget := get?_document
    (by rw [hnames]; decide)
  have henvironment : o.environment.check F = .ok () := (except_bind_eq_ok.1 h).choose_spec.1
  have hlist : ∀ ns : List ℤ, listField (fun x => intField (some x)) (some (.list (ns.map (sorted ∘ .int)) : JsonTree F)) =
      .ok ns := fun ns => listField_map fun n _ => by rw [sorted_int, intField_int]
  unfold V5CheckpointObservation.modelValidate V5CheckpointObservation.tree
  rw [documentField_object (by rw [hnames]; exact List.Subset.refl _)]
  simp only [except_ok_bind, hget]
  simp [V5CheckpointObservation.fields, Assoc.get?, except_ok_bind, h, pure, Except.pure, hlist,
    V5KaggleEnvironmentBinding.modelValidate_tree henvironment]

theorem V5CheckpointManifest.modelValidate_tree {m : V5CheckpointManifest} (h : m.check F = .ok ()) :
    V5CheckpointManifest.modelValidate (m.tree : JsonTree F).sorted = .ok m := by
  have hnames : (m.fields ++ [("manifest_sha256", textValue m.manifestSha256)] : List (String × JsonTree F)).map Prod.fst =
    V5CheckpointManifest.fieldNames := rfl
  have hget := get?_document
    (by rw [hnames]; decide)
  obtain ⟨_, hfields, -⟩ := except_bind_eq_ok.1 h
  obtain ⟨_, hchunks, hfields⟩ := except_bind_eq_ok.1 hfields
  obtain ⟨_, hchunks', -⟩ := except_bind_eq_ok.1 hfields
  have hlist : ∀ cs : List V5CheckpointChunk, cs.forM V5CheckpointChunk.check = .ok () →
      listField V5CheckpointChunk.modelValidate (some (.list (cs.map (sorted ∘ V5CheckpointChunk.tree)) : JsonTree F)) =
        .ok cs := fun cs hcs => listField_map fun c hc => V5CheckpointChunk.modelValidate_tree (forM_mem hcs hc)
  have htext : ∀ x : Option String, optionalField textField (some (JsonTree.optional textValue x : JsonTree F)) = .ok x :=
    fun x => optionalField_optional (fun s => textField_textValue s) (fun s => by simp [textValue]) x
  have hstage : ∀ x : Option V5KaggleStage, optionalField stageField
      (some (JsonTree.optional (fun stage : V5KaggleStage => textValue stage.value) x : JsonTree F)) = .ok x :=
    fun x => optionalField_optional (fun stage => stageField_value stage) (fun stage => by simp [textValue]) x
  unfold V5CheckpointManifest.modelValidate V5CheckpointManifest.tree
  rw [documentField_object (by rw [hnames]; exact List.Subset.refl _)]
  simp only [except_ok_bind, hget]
  simp [V5CheckpointManifest.fields, Assoc.get?, except_ok_bind, h, pure, Except.pure, hlist _ hchunks,
    hlist _ hchunks', htext, hstage]

end Models

/-! ## What is written can be read -/

section Keys

variable {F : Type}

@[simp] theorem distinctKeys_textValue (s : String) : (textValue s : JsonTree F).distinctKeys = true := by
  simp [distinctKeys, textValue]

@[simp] theorem distinctKeys_int (n : ℤ) : (JsonTree.int n : JsonTree F).distinctKeys = true := by simp [distinctKeys]

@[simp] theorem distinctKeys_bool (b : Bool) : (JsonTree.bool b : JsonTree F).distinctKeys = true := by simp [distinctKeys]

@[simp] theorem distinctKeys_float (x : F) : (JsonTree.float x : JsonTree F).distinctKeys = true := by simp [distinctKeys]

@[simp] theorem distinctKeys_optional {α : Type} {f : α → JsonTree F} (h : ∀ a, (f a).distinctKeys = true) (x : Option α) :
    (JsonTree.optional f x).distinctKeys = true := by
  cases x with
  | none => simp [JsonTree.optional, distinctKeys]
  | some a => simpa [JsonTree.optional] using h a

@[simp] theorem distinctKeys_list {α : Type} {f : α → JsonTree F} (h : ∀ a, (f a).distinctKeys = true) (xs : List α) :
    (JsonTree.list (xs.map f)).distinctKeys = true := by
  unfold distinctKeys at h ⊢
  rw [all_list, Bool.true_and, List.all_map, List.all_eq_true]
  exact fun x _ => h x

theorem V5CheckpointChunk.distinctKeys_tree (c : V5CheckpointChunk) : (c.tree : JsonTree F).distinctKeys = true :=
  distinctKeys_object (by decide : V5CheckpointChunk.fieldNames.Nodup) (by simp [V5CheckpointChunk.fields])

theorem V5KaggleEnvironmentBinding.distinctKeys_tree (e : V5KaggleEnvironmentBinding) :
    (e.tree : JsonTree F).distinctKeys = true :=
  distinctKeys_object (by decide : V5KaggleEnvironmentBinding.fieldNames.Nodup) (by simp [V5KaggleEnvironmentBinding.fields])

theorem V5CheckpointObservation.distinctKeys_tree (o : V5CheckpointObservation F) : o.tree.distinctKeys = true :=
  distinctKeys_object (by decide : V5CheckpointObservation.fieldNames.Nodup)
    (by simp [V5CheckpointObservation.fields, V5KaggleEnvironmentBinding.distinctKeys_tree])

theorem V5CheckpointManifest.distinctKeys_tree (m : V5CheckpointManifest) : (m.tree : JsonTree F).distinctKeys = true :=
  distinctKeys_object (by decide : V5CheckpointManifest.fieldNames.Nodup)
    (by simp [V5CheckpointManifest.fields, V5CheckpointChunk.distinctKeys_tree])

end Keys

section Bytes

variable {F : Type} [Platform F] [LawfulPlatform F]

/-- **A document is read back** from its canonical bytes. -/
theorem readCanonicalObject_object {fields : List (String × JsonTree F)} {raw : List UInt8} {label : String} {maxBytes : ℕ}
    (hn : (object fields).distinctKeys = true) (hraw : canonicalBytes (object fields) = .ok raw)
    (hsize : raw.length ≤ maxBytes) :
    readCanonicalObject (some (.file raw)) label maxBytes = .ok (object fields).sorted := by
  rw [canonicalBytes_eq_ok] at hraw
  have hload := JsonText.loadsBytes_canonicalBytes hn hraw
  rw [← canonicalBytes_sorted, ← canonicalBytes_eq_ok] at hraw
  obtain ⟨items, hitems⟩ : ∃ items, (object fields).sorted = .dict items := ⟨_, by rw [object, sorted_dict]⟩
  rw [hitems] at hload hraw ⊢
  unfold readCanonicalObject
  simp only [readFile, except_ok_bind, check, decide_eq_true hsize, if_true, hload, hraw, decide_true]
  rfl

end Bytes

/-! ## The size of a manifest -/

section Size

variable {F : Type} [FloatText F]

/-- what a checked manifest says of its chunks -/
structure ChunksFit (m : V5CheckpointManifest) (chunks : List V5CheckpointChunk) : Prop where
  few : chunks.length ≤ m.maxCheckpointChunks
  checked : ∀ c ∈ chunks, c.check = .ok ()
  index : ∀ c ∈ chunks, c.index < chunks.length
  bytes : (chunks.map (·.bytes)).sum ≤ m.maxStageOutputBytes

variable {m : V5CheckpointManifest}

theorem index_of_validateChunks {chunks : List V5CheckpointChunk} {u : Unit} (h : m.validateChunks chunks = .ok u) :
    chunks ≠ [] ∧ ∀ c ∈ chunks, c.index < chunks.length := by
  obtain ⟨_, hne, h⟩ := except_bind_eq_ok.1 h
  obtain ⟨_, hindex, -⟩ := except_bind_eq_ok.1 h
  rw [check_eq_ok, decide_eq_true_eq] at hne hindex
  refine ⟨hne, fun c hc => ?_⟩
  have := List.mem_map_of_mem (f := (·.index)) hc
  rwa [hindex, List.mem_range] at this

variable [Sha256]

theorem chunksFit_of_check (h : m.check F = .ok ()) :
    ChunksFit m m.chunks ∧ ChunksFit m m.observationalChunks ∧ (m.observationalRecordCount ≠ 0 → m.observationalChunks ≠ []) := by
  obtain ⟨_, hfields, h⟩ := except_bind_eq_ok.1 h
  obtain ⟨_, hchunks, hfields⟩ := except_bind_eq_ok.1 hfields
  obtain ⟨_, hchunks', -⟩ := except_bind_eq_ok.1 hfields
  obtain ⟨_, -, h⟩ := except_bind_eq_ok.1 h
  obtain ⟨_, hfew, h⟩ := except_bind_eq_ok.1 h
  obtain ⟨_, hvalid, h⟩ := except_bind_eq_ok.1 h
  obtain ⟨_, hfew', h⟩ := except_bind_eq_ok.1 h
  obtain ⟨_, hobservational, h⟩ := except_bind_eq_ok.1 h
  obtain ⟨_, hsum, -⟩ := except_bind_eq_ok.1 h
  rw [check_eq_ok, decide_eq_true_eq] at hfew hfew' hsum
  refine ⟨⟨hfew, fun c hc => forM_mem hchunks hc, (index_of_validateChunks hvalid).2, by omega⟩, ?_⟩
  unfold V5CheckpointManifest.checkObservational at hobservational
  split_ifs at hobservational with hcount
  · rw [check_eq_ok, Bool.and_eq_true, decide_eq_true_eq] at hobservational
    rw [hobservational.2]
    exact ⟨⟨Nat.zero_le _, by simp, by simp, by simp⟩, fun hne => absurd hcount hne⟩
  · obtain ⟨_, -, hvalid'⟩ := except_bind_eq_ok.1 hobservational
    obtain ⟨hne, hindex⟩ := index_of_validateChunks hvalid'
    exact ⟨⟨hfew', fun c hc => forM_mem hchunks' hc, hindex, by omega⟩, fun _ => hne⟩

theorem digests_of_check (h : m.check F = .ok ()) :
    (∀ s ∈ [m.runBindingSha256, m.attemptReceiptSha256, m.recordStreamSha256, m.deterministicSha256,
      m.observationalRecordStreamSha256, m.observationSha256, m.environmentSha256, m.manifestSha256],
      isDigestText s = true) ∧
    V5CheckpointManifest.digestOrNone m.predecessorManifestSha256 = true ∧
    V5CheckpointManifest.digestOrNone m.predecessorDeterministicSha256 = true := by
  obtain ⟨_, hfields, -⟩ := except_bind_eq_ok.1 h
  obtain ⟨_, -, hfields⟩ := except_bind_eq_ok.1 hfields
  obtain ⟨_, -, hfields⟩ := except_bind_eq_ok.1 hfields
  obtain ⟨_, hdigests, hfields⟩ := except_bind_eq_ok.1 hfields
  obtain ⟨_, hoptional, -⟩ := except_bind_eq_ok.1 hfields
  rw [check_eq_ok, List.all_eq_true] at hdigests
  rw [check_eq_ok, Bool.and_eq_true] at hoptional
  exact ⟨hdigests, hoptional⟩

omit [Sha256] in
/-- an entry of a chunk is short -/
theorem V5CheckpointChunk.weight_tree {c : V5CheckpointChunk} (h : c.check = .ok ()) (hindex : c.index < 160)
    (hbytes : c.bytes ≤ 10000000000) : (c.tree : JsonTree F).weight ≤ 1754 := by
  rw [V5CheckpointChunk.check, check_eq_ok, Bool.and_eq_true, Bool.and_eq_true] at h
  have hname : c.filename.toList.length = 13 := by
    have := h.1.1
    unfold isPartName at this
    simp only [Bool.and_eq_true, decide_eq_true_eq] at this
    exact this.1.1.1
  have hsha := length_of_isDigestText h.2
  have hnames : ∀ name ∈ (c.fields : List (String × JsonTree F)).map Prod.fst, name.toList.length ≤ 8 := by
    show ∀ name ∈ V5CheckpointChunk.fieldNames, name.toList.length ≤ 8
    decide
  have hdigits : (Decimal.natText c.index).length ≤ 3 := Decimal.length_natText_le (by norm_num) (by omega)
  have hdigits' : (Decimal.natText c.bytes).length ≤ 11 := Decimal.length_natText_le (by norm_num) (by omega)
  have := weight_fields_le (w := 386) hnames (by
    simp only [V5CheckpointChunk.fields, List.mem_cons, List.not_mem_nil, or_false, forall_eq_or_imp, forall_eq,
      weight_textValue, weight_natCast]
    omega)
  rw [V5CheckpointChunk.tree, weight_object]
  simp only [V5CheckpointChunk.fields, List.length_cons, List.length_nil] at this ⊢
  omega

omit [Sha256] in
theorem V5KaggleStage.length_value (stage : V5KaggleStage) : stage.value.toList.length ≤ 24 := by cases stage <;> decide

/-- **The manifest of a publication within the gates can be read**: it is not longer than the reader takes. -/
theorem manifest_bounded {raw : List UInt8} (h : m.check F = .ok ())
    (hraw : (m.tree : JsonTree F).canonicalBytes = some raw) (hchunks : m.maxCheckpointChunks ≤ 160)
    (hout : m.maxStageOutputBytes ≤ 10000000000) : raw.length ≤ maxManifestBytes := by
  obtain ⟨hfit, hfit', -⟩ := chunksFit_of_check h
  have hlist : ∀ cs : List V5CheckpointChunk, ChunksFit m cs →
      (JsonTree.list (cs.map V5CheckpointChunk.tree) : JsonTree F).weight ≤ 280802 := by
    intro cs hcs
    have hfew := hcs.few
    have := weight_list_le (F := F) (f := V5CheckpointChunk.tree) (w := 1754) (by
      intro c hc
      have hindex := hcs.index c hc
      have hbytes := List.single_le_sum (fun _ _ => Nat.zero_le _) _ (List.mem_map_of_mem (f := (·.bytes)) hc)
      have hsum := hcs.bytes
      exact V5CheckpointChunk.weight_tree (hcs.checked c hc) (by omega) (by omega))
    nlinarith
  have hints := (canonicalBytes_eq_some.1 hraw).2.2.1
  obtain ⟨hdigests, hoptional⟩ := digests_of_check h
  have hdigest : ∀ s, isDigestText s = true → (textValue s : JsonTree F).weight ≤ 386 := by
    intro s hs
    rw [weight_textValue, length_of_isDigestText hs]
  have hnone : ∀ x : Option String, V5CheckpointManifest.digestOrNone x = true →
      (JsonTree.optional textValue x : JsonTree F).weight ≤ 386 := by
    intro x hx
    refine weight_optional_le (by norm_num) fun s hs => hdigest s ?_
    rw [Option.mem_def.1 hs] at hx
    exact hx
  have hint : ∀ (name : String) (n : ℕ), (name, JsonTree.int n) ∈ (m.fields : List (String × JsonTree F)) →
      (JsonTree.int n : JsonTree F).weight ≤ 4300 := by
    intro name n hmem
    have := intsFit_field hints (name, .int n) (List.mem_append_left _ hmem)
    rw [intsFit, all_int] at this
    rw [weight_natCast]
    exact of_decide_eq_true this
  have hscalars : ∀ i ∈ (m.fields : List (String × JsonTree F)).take 22, i.2.weight ≤ 4300 := by
    have hliteral : ∀ s ∈ ["apar-sentinel-v5-kaggle-checkpoint-manifest/1", "apar-sentinel-v5-kaggle-record-stream/1",
        "gzip-zlib-level-9", "chunks_observation_then_atomic_exclusive_manifest"], s.toList.length ≤ 64 := by decide
    have htext : ∀ s : String, s.toList.length ≤ 64 → (textValue s : JsonTree F).weight ≤ 4300 := by
      intro s hs
      rw [weight_textValue]
      omega
    have hsha : ∀ s ∈ [m.runBindingSha256, m.attemptReceiptSha256, m.recordStreamSha256, m.deterministicSha256,
        m.observationalRecordStreamSha256, m.observationSha256, m.environmentSha256, m.manifestSha256],
        (textValue s : JsonTree F).weight ≤ 4300 := fun s hs => htext s (length_of_isDigestText (hdigests s hs)).le
    have hpredecessor : (JsonTree.optional (fun stage : V5KaggleStage => textValue stage.value) m.predecessorStage :
        JsonTree F).weight ≤ 4300 :=
      weight_optional_le (by norm_num) fun stage _ => htext _ (stage.length_value.trans (by norm_num))
    have hstage := htext _ (m.stage.length_value.trans (by norm_num))
    have hfirst := (hnone _ hoptional.1).trans (by norm_num : 386 ≤ 4300)
    have hsecond := (hnone _ hoptional.2).trans (by norm_num : 386 ≤ 4300)
    rw [List.forall_mem_cons, List.forall_mem_cons, List.forall_mem_cons, List.forall_mem_singleton] at hliteral
    obtain ⟨hschema, hrecords, hcompression, hpublication⟩ := hliteral
    simp only [List.forall_mem_cons] at hsha
    obtain ⟨hrun, hattempt, hstream, hdeterministic, hobservational, hobservation, henvironment, -⟩ := hsha
    simp only [V5CheckpointManifest.fields, List.take_succ_cons, List.take_zero, List.forall_mem_cons]
    exact ⟨htext _ hschema, htext _ hrecords, htext _ hcompression, htext _ hpublication, hstage, hrun, hattempt,
      hpredecessor, hfirst, hsecond, hint "record_count" _ (by simp [V5CheckpointManifest.fields]),
      hint "uncompressed_record_bytes" _ (by simp [V5CheckpointManifest.fields]), hstream, hdeterministic,
      hint "observational_record_count" _ (by simp [V5CheckpointManifest.fields]),
      hint "observational_uncompressed_record_bytes" _ (by simp [V5CheckpointManifest.fields]), hobservational,
      hobservation, henvironment, hint "max_stage_output_bytes" _ (by simp [V5CheckpointManifest.fields]),
      hint "max_checkpoint_chunk_bytes" _ (by simp [V5CheckpointManifest.fields]),
      hint "max_checkpoint_chunks" _ (by simp [V5CheckpointManifest.fields]), List.forall_mem_nil _⟩
  have hrest : ∀ i ∈ (m.fields : List (String × JsonTree F)).drop 22 ++ [("manifest_sha256", textValue m.manifestSha256)],
      i.2.weight ≤ 280802 := by
    simp only [V5CheckpointManifest.fields, List.drop_succ_cons, List.drop_zero, List.cons_append, List.nil_append,
      List.mem_cons, List.not_mem_nil, or_false, forall_eq_or_imp, forall_eq]
    exact ⟨hlist _ hfit, hlist _ hfit', (hdigest _ (hdigests _ (by simp))).trans (by norm_num)⟩
  have hnames : ∀ name ∈ (m.fields ++ [("manifest_sha256", textValue m.manifestSha256)] : List (String × JsonTree F)).map
      Prod.fst, name.toList.length ≤ 64 := by
    show ∀ name ∈ V5CheckpointManifest.fieldNames, name.toList.length ≤ 64
    decide
  have hwhole := canonicalBytes_length hraw
  rw [V5CheckpointManifest.tree, weight_object] at hwhole
  rw [← List.take_append_drop 22 (m.fields : List (String × JsonTree F)), List.append_assoc, List.map_append] at hnames hwhole
  rw [List.sum_append] at hwhole
  have hleft := weight_fields_le (fun name hname => hnames name (List.mem_append_left _ hname)) hscalars
  have hright := weight_fields_le (fun name hname => hnames name (List.mem_append_right _ hname)) hrest
  have htake : ((m.fields : List (String × JsonTree F)).take 22).length = 22 := rfl
  have hdrop : ((m.fields : List (String × JsonTree F)).drop 22 ++ [("manifest_sha256", textValue m.manifestSha256)]).length = 3 :=
    rfl
  rw [htake] at hleft
  rw [hdrop] at hright
  show raw.length ≤ 1048576
  omega

end Size

end Checkpoint

end Apar
