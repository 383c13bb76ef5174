/-
The record streams of a checkpoint (`evaluation/v5_checkpoint_storage.py`): what a layer's iteration has decoded when it
ends, and which streams it decodes.

- `parseHeader_eq_ok`: a header is accepted exactly when it is the header of a record.
- `Parsed` is the invariant of the loop over the blocks: the records yielded and what waits in the buffer are the bytes
  hashed. `drain_sound` and `drain_total` carry it through one block, `records_sound` and `records_total` through a layer.
- `payload_sound`, `payload_total`: the blocks are the contents of the compressed stream, in any division.
-/
import Apar.Evaluation.CheckpointStorage

namespace Apar

namespace Checkpoint

open Exec JsonTree

/-! ## Headers -/

section Headers

variable {F : Type}

theorem headerTree_distinct (kind key : String) (size : ℕ) : (headerTree kind key size : JsonTree F).distinctKeys = true := by
  refine distinctKeys_object (by simp) ?_
  intro i hi
  simp only [List.mem_cons, List.not_mem_nil, or_false] at hi
  rcases hi with rfl | rfl | rfl <;> simp [distinctKeys, textValue]

theorem strings_textValue (s : String) : (textValue s : JsonTree F).strings PyStr.scalar = true := by
  rw [strings, textValue, all_str]
  exact PyStr.scalar_ofString s

theorem headerTree_strings (kind key : String) (size : ℕ) :
    (headerTree kind key size : JsonTree F).strings PyStr.scalar = true := by
  refine strings_object (fun i _ => PyStr.scalar_ofString i.1) ?_
  intro i hi
  simp only [List.mem_cons, List.not_mem_nil, or_false] at hi
  rcases hi with rfl | rfl | rfl
  · simp [strings]
  · exact strings_textValue key
  · exact strings_textValue kind

theorem headerTree_floats (kind key : String) (size : ℕ) (p : F → Bool) :
    (headerTree kind key size : JsonTree F).floats p = true := by
  refine floats_object ?_
  intro i hi
  simp only [List.mem_cons, List.not_mem_nil, or_false] at hi
  rcases hi with rfl | rfl | rfl <;> simp [floats, textValue]

/-- an integer of at most `k` digits fits -/
theorem intsFit_natCast {n k : ℕ} (hk : 0 < k) (hk' : k ≤ 4300) (h : n < 10 ^ k) :
    (JsonTree.int n : JsonTree F).intsFit maxDigits = true := by
  rw [intsFit, all_int]
  exact decide_eq_true ((Decimal.length_natText_le hk h).trans hk')

theorem headerTree_intsFit (kind key : String) {size : ℕ} (h : size ≤ maxRecordBytes) :
    (headerTree kind key size : JsonTree F).intsFit maxDigits = true := by
  refine intsFit_object ?_
  intro i hi
  simp only [List.mem_cons, List.not_mem_nil, or_false] at hi
  rcases hi with rfl | rfl | rfl
  · exact intsFit_natCast (k := 9) (by norm_num) (by norm_num) (h.trans_lt (by norm_num [maxRecordBytes]))
  · simp [intsFit, textValue]
  · simp [intsFit, textValue]

theorem headerTree_sorted (kind key : String) (size : ℕ) :
    (headerTree kind key size : JsonTree F).sorted = headerTree kind key size := by
  rw [headerTree, object, sorted_dict]
  congr 1
  refine (sortBy_of_sorted ?_).trans ?_
  · simp only [List.map_cons, List.map_nil, List.pairwise_cons, List.mem_cons, List.not_mem_nil, or_false,
      forall_eq_or_imp, forall_eq]
    exact ⟨⟨by decide +kernel, by decide +kernel⟩, by decide +kernel, fun _ h => h.elim, List.Pairwise.nil⟩
  · simp [sorted, textValue]

variable [FloatText F]

theorem plainText_headerTree (kind key : String) (size : ℕ) :
    (headerTree kind key size : JsonTree F).plainText = (headerTree kind key size : JsonTree Empty).plainText := by
  rw [plainText, plainText, headerTree_sorted, headerTree_sorted]
  simp only [headerTree, object, List.map_cons, List.map_nil, textValue, dumpWith, dumpItemsWith]

theorem canonicalBytes_headerTree (kind key : String) {size : ℕ} (h : size ≤ maxRecordBytes) :
    (headerTree kind key size : JsonTree F).canonicalBytes = some (headerBytes kind key size) := by
  refine canonicalBytes_eq_some.2 ⟨headerTree_floats kind key size _, headerTree_strings kind key size,
    headerTree_intsFit kind key h, ?_⟩
  rw [plainText_headerTree, headerBytes]

end Headers

section Parsing

variable {F : Type} [Platform F] [LawfulPlatform F]

omit [Platform F] [LawfulPlatform F] in
theorem payloadSize_eq_some {t : JsonTree F} {maxBytes n : ℕ} :
    payloadSize t maxBytes = some n ↔ t = .int n ∧ 0 < n ∧ n ≤ maxBytes := by
  cases t with
  | int m =>
    simp only [payloadSize, JsonTree.int.injEq]
    split_ifs with h
    · rw [Option.some.injEq]
      omega
    · simp only [false_iff]
      omega
  | _ => simp [payloadSize]

/-- the document that is read from a header -/
theorem headerDocument (kind key : String) {size : ℕ} (h : size ≤ maxRecordBytes) :
    ∃ items, (headerTree kind key size : JsonTree F) = .dict items ∧
      JsonText.loadsBytes (headerBytes kind key size) = some (.dict items : JsonTree F) ∧
      (JsonTree.dict items : JsonTree F).canonicalBytes = some (headerBytes kind key size) ∧
      (JsonTree.dict items : JsonTree F).exactly ["bytes", "key", "kind"] = true ∧
      (JsonTree.dict items).get? "bytes" = some (.int size) ∧ (JsonTree.dict items).get? "key" = some (textValue key) ∧
      (JsonTree.dict items).get? "kind" = some (textValue kind) := by
  have hcanonical := canonicalBytes_headerTree (F := F) kind key h
  have hload := JsonText.loadsBytes_canonicalBytes (headerTree_distinct (F := F) kind key size) hcanonical
  have hnames : (["bytes", "key", "kind"] : List String).Nodup := by decide
  have hexact : (headerTree kind key size : JsonTree F).exactly ["bytes", "key", "kind"] = true := by
    rw [exactly, within, headerTree, keys_object]
    simp
  obtain ⟨items, hitems⟩ : ∃ items, (headerTree kind key size : JsonTree F) = .dict items := ⟨_, rfl⟩
  have hget : ∀ (name : String) (v : JsonTree F), (name, v) ∈ [("bytes", JsonTree.int size), ("key", textValue key),
      ("kind", textValue kind)] → (JsonTree.dict items).get? name = some v := by
    intro name v hv
    rw [← hitems, headerTree, get?_object]
    exact Assoc.get?_of_mem hnames hv
  rw [headerTree_sorted, hitems] at hload
  rw [hitems] at hcanonical hexact
  exact ⟨items, hitems, hload, hcanonical, hexact, hget _ _ (by simp), hget _ _ (by simp), hget _ _ (by simp)⟩

/-- **A header is accepted exactly when it is a record's.** -/
theorem parseHeader_eq_ok {raw : List UInt8} {h : RecordHeader} :
    parseHeader F raw = .ok h ↔
      raw = headerBytes h.kind h.key h.payloadBytes ∧ 0 < h.payloadBytes ∧ h.payloadBytes ≤ maxRecordBytes := by
  constructor
  · intro hparse
    unfold parseHeader at hparse
    split at hparse
    · cases hparse
    · rename_i items hload
      have hn : (items.map Prod.fst).Nodup := by
        have := JsonText.distinctKeys_loadsBytes hload
        simp only [distinctKeys, all_dict, Bool.and_eq_true, decide_eq_true_eq] at this
        exact this.1
      obtain ⟨canonical, hcanonical, hchecks⟩ := except_bind_eq_ok.1 hparse
      obtain ⟨_, hshape, hsizes⟩ := except_bind_eq_ok.1 hchecks
      clear hparse hchecks
      rw [check_eq_ok, Bool.and_eq_true, decide_eq_true_eq] at hshape
      obtain ⟨rfl, hexact⟩ := hshape
      obtain ⟨size, hsize, hparse⟩ := except_bind_eq_ok.1 hsizes
      clear hsizes
      cases hbytes : ((JsonTree.dict items).get? "bytes").bind fun t => payloadSize t maxRecordBytes with
      | none =>
        rw [hbytes] at hsize
        cases hsize
      | some n =>
        rw [hbytes] at hsize
        cases hsize
        obtain ⟨t, ht, hpayload⟩ := Option.bind_eq_some_iff.1 hbytes
        obtain ⟨rfl, hpos, hle⟩ := payloadSize_eq_some.1 hpayload
        split at hparse
        · rename_i kind key hkind hkey
          split at hparse
          · rename_i kind' key' hkind' hkey'
            rw [except_pure_eq_ok] at hparse
            subst hparse
            refine ⟨?_, hpos, hle⟩
            have hsorted : (JsonTree.dict items : JsonTree F).sorted = (headerTree kind' key' size).sorted := by
              rw [headerTree]
              refine sorted_eq_object hn (by simp) ?_ ?_
              · rw [exactly, Bool.and_eq_true] at hexact
                exact hexact.1
              · intro f hf
                simp only [List.mem_cons, List.not_mem_nil, or_false] at hf
                rcases hf with rfl | rfl | rfl
                · exact ⟨_, ht, rfl⟩
                · exact ⟨_, hkey, by rw [textValue, PyStr.ofString_toString? hkey']⟩
                · exact ⟨_, hkind, by rw [textValue, PyStr.ofString_toString? hkind']⟩
            rw [canonicalBytes_eq_ok, ← canonicalBytes_sorted, hsorted, canonicalBytes_sorted,
              canonicalBytes_headerTree _ _ hle, Option.some.injEq] at hcanonical
            exact hcanonical.symm
          · cases hparse
        · cases hparse
    · cases hparse
  · rintro ⟨rfl, hpos, hle⟩
    obtain ⟨items, hitems, hload, hcanonical, hexact, hbytes, hkey, hkind⟩ := headerDocument (F := F) h.kind h.key hle
    have hsize : payloadSize (JsonTree.int h.payloadBytes : JsonTree F) maxRecordBytes = some h.payloadBytes :=
      payloadSize_eq_some.2 ⟨rfl, hpos, hle⟩
    simp only [parseHeader, hload, canonicalBytes_eq_ok.2 hcanonical, hbytes, hkey, hkind, hexact, Option.bind_some, hsize,
      Option.elim_some, textValue, PyStr.toString?_ofString, check]
    simp [bind, Except.bind, pure, Except.pure]

variable (F) in
include F in
theorem headerBytes_inj {h h' : RecordHeader} (hpos : 0 < h.payloadBytes) (hle : h.payloadBytes ≤ maxRecordBytes)
    (hpos' : 0 < h'.payloadBytes) (hle' : h'.payloadBytes ≤ maxRecordBytes)
    (heq : headerBytes h.kind h.key h.payloadBytes = headerBytes h'.kind h'.key h'.payloadBytes) : h = h' := by
  have hparse := parseHeader_eq_ok (F := F).2 ⟨rfl, hpos, hle⟩
  rw [heq, parseHeader_eq_ok (F := F).2 ⟨rfl, hpos', hle'⟩, Except.ok.injEq] at hparse
  exact hparse.symm

end Parsing

/-! ## Lengths of headers -/

theorem length_of_isKind {s : String} (h : isKind s = true) : s.toList.length ≤ 64 := by
  unfold isKind at h
  split at h
  · cases h
  · rename_i c cs hs
    simp only [Bool.and_eq_true, decide_eq_true_eq] at h
    rw [hs, List.length_cons]
    omega

theorem length_of_isKey {s : String} (h : isKey s = true) : s.toList.length ≤ 512 := by
  unfold isKey at h
  split at h
  · cases h
  · rename_i c cs hs
    simp only [Bool.and_eq_true, decide_eq_true_eq] at h
    rw [hs, List.length_cons]
    omega

namespace V5CheckpointInput

/-- the header of the record -/
def header (r : V5CheckpointInput) : RecordHeader := ⟨r.kind, r.key, r.canonicalBytes.length⟩

def identity (r : V5CheckpointInput) : String × String := (r.kind, r.key)

end V5CheckpointInput

/-- the bytes of a header -/
def RecordHeader.bytes (h : RecordHeader) : List UInt8 := headerBytes h.kind h.key h.payloadBytes

theorem V5CheckpointInput.framed_eq (r : V5CheckpointInput) :
    r.framed = BigEndian.bytes 8 r.header.bytes.length ++ r.header.bytes ++ r.canonicalBytes := rfl

theorem recordStream_cons (r : V5CheckpointInput) (rs : List V5CheckpointInput) :
    recordStream (r :: rs) = r.framed ++ recordStream rs := Framing.stream_cons ..

theorem recordStream_concat (rs : List V5CheckpointInput) (r : V5CheckpointInput) :
    recordStream (rs ++ [r]) = recordStream rs ++ r.framed := by
  rw [recordStream, Framing.stream_append, Framing.stream_singleton]
  rfl

theorem length_header_le (r : V5CheckpointInput) : r.header.bytes.length ≤ maxRecordHeaderBytes := by
  have hcanonical := canonicalBytes_headerTree (F := Empty) r.kind r.key r.bounded
  have hlen := canonicalBytes_length hcanonical
  have hdigits : (Decimal.intText r.canonicalBytes.length).length ≤ 9 := by
    rw [Decimal.length_intText_natCast]
    exact Decimal.length_natText_le (by norm_num) (r.bounded.trans_lt (by norm_num [maxRecordBytes]))
  have hkind := length_of_isKind r.kind_ok
  have hkey := length_of_isKey r.key_ok
  rw [headerTree, weight_object] at hlen
  simp only [List.map_cons, List.map_nil, List.sum_cons, List.sum_nil, textValue, weight, PyStr.ofString,
    List.length_map] at hlen
  have hnames : "bytes".toList.length = 5 ∧ "key".toList.length = 3 ∧ "kind".toList.length = 4 := by decide
  rw [hnames.1, hnames.2.1, hnames.2.2] at hlen
  show (headerBytes r.kind r.key r.canonicalBytes.length).length ≤ 65536
  omega

theorem length_header_pos (h : RecordHeader) : 0 < h.bytes.length := by
  show 0 < (JsonText.utf8 (headerTree h.kind h.key h.payloadBytes : JsonTree Empty).plainText).length
  rw [plainText, headerTree_sorted]
  simp only [headerTree, object, List.map_cons, dumpWith, List.cons_append]
  rw [length_utf8_cons (by decide)]
  omega

/-! ## The loop over the buffer -/

/-- what the loop has taken in and not yielded -/
def ParseState.pending (s : ParseState) : List UInt8 :=
  (s.current.elim [] fun h => BigEndian.bytes 8 h.bytes.length ++ h.bytes) ++ s.buffer

/-- the records yielded and what is pending are the bytes hashed -/
structure Parsed (layer : Layer) (rs : List V5CheckpointInput) (s : ParseState) : Prop where
  stream : recordStream rs ++ s.pending = s.hashed
  bytes : s.streamBytes = s.hashed.length
  count : s.count = rs.length
  seen : s.seen = rs.map V5CheckpointInput.identity
  distinct : s.seen.Nodup
  layers : ∀ r ∈ rs, r.layer = layer
  header : ∀ h, s.current = some h →
    0 < h.payloadBytes ∧ h.payloadBytes ≤ maxRecordBytes ∧ h.bytes.length ≤ maxRecordHeaderBytes

/-- what a pass does to the invariant -/
def Pass.Sound (layer : Layer) (rs : List V5CheckpointInput) (s : ParseState) : Pass → Prop
  | .waits s' => Parsed layer rs s' ∧ s'.hashed = s.hashed
  | .yields r s' => Parsed layer (rs ++ [r]) s' ∧ s'.hashed = s.hashed ∧ s'.buffer.length < s.buffer.length

theorem Parsed.start (layer : Layer) : Parsed layer [] ⟨[], [], 0, 0, none, []⟩ := by
  constructor <;> simp [ParseState.pending, recordStream]

theorem Parsed.feed {layer : Layer} {rs : List V5CheckpointInput} {s : ParseState} (h : Parsed layer rs s)
    (block : List UInt8) : Parsed layer rs { s with
      hashed := s.hashed ++ block, streamBytes := s.streamBytes + block.length, buffer := s.buffer ++ block } where
  stream := by
    rw [← h.stream]
    simp [ParseState.pending]
  bytes := by simp [h.bytes]
  count := h.count
  seen := h.seen
  distinct := h.distinct
  layers := h.layers
  header := h.header

theorem passPayload_sound {layer : Layer} {rs : List V5CheckpointInput} {s : ParseState} {header : RecordHeader} {p : Pass}
    (h : Parsed layer rs { s with current := some header }) (hp : passPayload layer s header = .ok p) :
    p.Sound layer rs s := by
  obtain ⟨hpos, -, -⟩ := h.header header rfl
  unfold passPayload takePayload at hp
  dsimp only at hp
  split_ifs at hp with hshort
  · cases hp
    exact ⟨h, rfl⟩
  · obtain ⟨found, hfound, hp⟩ := except_bind_eq_ok.1 hp
    obtain ⟨record, hmake, hfound⟩ := except_bind_eq_ok.1 hfound
    obtain ⟨_, hnew, hfound⟩ := except_bind_eq_ok.1 hfound
    cases hfound
    cases hp
    obtain ⟨hkind, hkey, hcontent, hlayer⟩ := V5CheckpointInput.make_eq_ok hmake
    have hlen : record.canonicalBytes.length = header.payloadBytes := by
      rw [hcontent, List.length_take]
      omega
    have hheader : record.header = header := by rw [V5CheckpointInput.header, hkind, hkey, hlen]
    rw [check_eq_ok, decide_eq_true_eq] at hnew
    have hdistinct := (List.nodup_concat _ _).2 ⟨hnew, h.distinct⟩
    rw [List.concat_eq_append] at hdistinct
    refine ⟨⟨?_, h.bytes, ?_, ?_, hdistinct, ?_, nofun⟩, rfl, ?_⟩
    · rw [← h.stream, recordStream_concat, record.framed_eq, hheader, hcontent, List.append_assoc]
      refine congrArg (recordStream rs ++ ·) ?_
      show _ ++ ([] ++ s.buffer.drop header.payloadBytes) = _ ++ s.buffer
      rw [List.nil_append, List.append_assoc, List.take_append_drop]
      rfl
    · have hcount : s.count = rs.length := h.count
      simp [hcount]
    · have hseen : s.seen = rs.map V5CheckpointInput.identity := h.seen
      rw [List.map_append, ← hseen]
      rfl
    · intro r hr
      rcases List.mem_append.1 hr with hr | hr
      · exact h.layers r hr
      · rw [List.mem_singleton.1 hr, hlayer]
    · show (s.buffer.drop header.payloadBytes).length < s.buffer.length
      rw [List.length_drop]
      omega

section Passes

variable {F : Type} [Platform F] [LawfulPlatform F]

variable {layer : Layer} {rs out todo : List V5CheckpointInput} {s s' : ParseState} {rest more block : List UInt8}
  {n expected : ℕ}

/-- the header at the start of a buffer is moved out of it -/
theorem Parsed.readHeader {header : RecordHeader} (h : Parsed layer rs s) (hnone : s.current = none)
    (hmax : BigEndian.value (s.buffer.take 8) ≤ maxRecordHeaderBytes)
    (hlen : 8 + BigEndian.value (s.buffer.take 8) ≤ s.buffer.length)
    (hparse : parseHeader F ((s.buffer.drop 8).take (BigEndian.value (s.buffer.take 8))) = .ok header) :
    Parsed layer rs { s with
      buffer := (s.buffer.drop 8).drop (BigEndian.value (s.buffer.take 8)), current := some header } := by
  obtain ⟨hraw, hpos, hle⟩ := parseHeader_eq_ok.1 hparse
  have hbytes : header.bytes.length = BigEndian.value (s.buffer.take 8) := by
    rw [RecordHeader.bytes, ← hraw, List.length_take, List.length_drop]
    omega
  have hpre : BigEndian.bytes 8 header.bytes.length = s.buffer.take 8 := by
    have h8 : (s.buffer.take 8).length = 8 := by
      rw [List.length_take]
      omega
    have := BigEndian.bytes_value (s.buffer.take 8)
    rwa [h8, ← hbytes] at this
  refine ⟨?_, h.bytes, h.count, h.seen, h.distinct, h.layers, ?_⟩
  · rw [← h.stream]
    congr 1
    rw [ParseState.pending, ParseState.pending, hnone]
    show BigEndian.bytes 8 header.bytes.length ++ header.bytes ++ (s.buffer.drop 8).drop _ = [] ++ s.buffer
    rw [hpre, RecordHeader.bytes, ← hraw, List.append_assoc, List.take_append_drop, List.take_append_drop,
      List.nil_append]
  · intro h' hh'
    cases hh'
    exact ⟨hpos, hle, hbytes ▸ hmax⟩

theorem pass_sound {p : Pass} (h : Parsed layer rs s) (hp : pass F layer s = .ok p) : p.Sound layer rs s := by
  unfold pass at hp
  split at hp
  · rename_i header hcurrent
    have hsame : { s with current := some header } = s := by rw [← hcurrent]
    exact passPayload_sound (hsame.symm ▸ h) hp
  · rename_i hnone
    split_ifs at hp with hshort
    · cases hp
      exact ⟨h, rfl⟩
    · obtain ⟨_, hsize, hp⟩ := except_bind_eq_ok.1 hp
      rw [check_eq_ok, Bool.and_eq_true, decide_eq_true_eq, decide_eq_true_eq] at hsize
      split_ifs at hp with hlong
      · cases hp
        exact ⟨h, rfl⟩
      · obtain ⟨header, hparse, hp⟩ := except_bind_eq_ok.1 hp
        have hread := h.readHeader hnone hsize.2 (not_lt.1 hlong) hparse
        have hsound := passPayload_sound hread hp
        cases p with
        | waits s' => exact hsound
        | yields r s' =>
          refine ⟨hsound.1, hsound.2.1, hsound.2.2.trans_le ?_⟩
          show ((s.buffer.drop 8).drop _).length ≤ s.buffer.length
          rw [List.length_drop, List.length_drop]
          omega

/-- the payload of the next record is yielded once it is there -/
theorem passPayload_next {r : V5CheckpointInput} (hs : s.buffer ++ rest = r.canonicalBytes ++ more)
    (hlayer : r.layer = layer) (hnew : r.identity ∉ s.seen) :
    (s.buffer.length < r.canonicalBytes.length →
      passPayload layer s r.header = .ok (.waits { s with current := some r.header })) ∧
    (r.canonicalBytes.length ≤ s.buffer.length → ∃ s', passPayload layer s r.header = .ok (.yields r s')) := by
  constructor
  · intro hshort
    have : s.buffer.length < r.header.payloadBytes := hshort
    simp only [passPayload, takePayload, if_pos this]
    rfl
  · intro hlong
    have : ¬ s.buffer.length < r.header.payloadBytes := not_lt.2 hlong
    have htake : s.buffer.take r.header.payloadBytes = r.canonicalBytes := by
      have := congrArg (List.take r.canonicalBytes.length) hs
      rw [List.take_append_of_le_length hlong, List.take_left' rfl] at this
      exact this
    have hmake : V5CheckpointInput.make r.header.kind r.header.key r.canonicalBytes layer = .ok r := by
      have := V5CheckpointInput.make_self r
      rwa [hlayer] at this
    have hid : (r.kind, r.key) ∉ s.seen := hnew
    simp only [passPayload, takePayload, if_neg this, htake, hmake]
    exact ⟨_, by simp [bind, Except.bind, check, hid]; rfl⟩

theorem length_header_lt (h : n ≤ maxRecordHeaderBytes) : n < 256 ^ 8 :=
  h.trans_lt (by norm_num [maxRecordHeaderBytes])

/-- **A pass yields the next record of the stream** once its bytes are there, and waits for them until then. -/
theorem pass_next {r : V5CheckpointInput} (h : Parsed layer rs s) (hs : s.pending ++ rest = r.framed ++ more)
    (hlayer : r.layer = layer) (hnew : r.identity ∉ s.seen) :
    (s.pending.length < r.framed.length → ∃ s', pass F layer s = .ok (.waits s')) ∧
    (r.framed.length ≤ s.pending.length → ∃ s', pass F layer s = .ok (.yields r s')) := by
  obtain ⟨-, hvalue, htake, hdrop⟩ := Framing.frame_prefix
    (length_header_lt (length_header_le r))
  have hframed : r.framed = Framing.frame r.header.bytes r.canonicalBytes := rfl
  have hlength : r.framed.length = 8 + r.header.bytes.length + r.canonicalBytes.length := Framing.length_frame ..
  rw [← hframed, ← hs] at hvalue htake hdrop
  unfold pass
  cases hcurrent : s.current with
  | some header =>
    obtain ⟨hpos, hle, hmax⟩ := h.header header hcurrent
    have hpending : s.pending = Framing.frame header.bytes s.buffer := by
      rw [ParseState.pending, hcurrent]
      rfl
    obtain ⟨-, hvalue', htake', hdrop'⟩ := Framing.frame_prefix
      (length_header_lt hmax)
    rw [← hpending] at hvalue' htake' hdrop'
    rw [hvalue'] at hvalue
    rw [← hvalue, htake'] at htake
    rw [← hvalue, hdrop'] at hdrop
    have hsame : header = r.header := headerBytes_inj F hpos hle r.nonempty r.bounded htake
    have hplen : s.pending.length = 8 + header.bytes.length + s.buffer.length := by rw [hpending, Framing.length_frame]
    obtain ⟨hwait, hyield⟩ := passPayload_next hdrop hlayer hnew
    rw [hsame]
    rw [hsame] at hplen
    exact ⟨fun hshort => ⟨_, hwait (by omega)⟩, fun hlong => hyield (by omega)⟩
  | none =>
    have hpending : s.pending = s.buffer := by
      rw [ParseState.pending, hcurrent]
      rfl
    rw [hpending] at hvalue htake hdrop ⊢
    dsimp only
    by_cases hshort : s.buffer.length < 8
    · rw [if_pos hshort]
      exact ⟨fun _ => ⟨s, rfl⟩, fun hlong => absurd hlong (by omega)⟩
    · rw [if_neg hshort]
      rw [List.take_append_of_le_length (by omega)] at hvalue
      rw [List.drop_append_of_le_length (by omega)] at htake hdrop
      have hsize : check (0 < BigEndian.value (s.buffer.take 8) && BigEndian.value (s.buffer.take 8) ≤ maxRecordHeaderBytes)
          (CheckpointError.value "checkpoint record header length differs") = .ok () := by
        rw [check_eq_ok, Bool.and_eq_true, decide_eq_true_eq, decide_eq_true_eq, hvalue]
        exact ⟨length_header_pos _, length_header_le r⟩
      simp only [hsize, except_ok_bind]
      rw [hvalue]
      by_cases hlong : s.buffer.length < 8 + r.header.bytes.length
      · rw [if_pos hlong]
        exact ⟨fun _ => ⟨s, rfl⟩, fun hall => absurd hall (by omega)⟩
      · have hparse : parseHeader F ((s.buffer.drop 8).take r.header.bytes.length) = .ok r.header := by
          rw [List.take_append_of_le_length (by rw [List.length_drop]; omega)] at htake
          rw [htake]
          exact parseHeader_eq_ok.2 ⟨rfl, r.nonempty, r.bounded⟩
        rw [List.drop_append_of_le_length (by rw [List.length_drop]; omega)] at hdrop
        obtain ⟨hwait, hyield⟩ := passPayload_next
          (s := { s with buffer := (s.buffer.drop 8).drop r.header.bytes.length }) hdrop hlayer hnew
        have hblen : ((s.buffer.drop 8).drop r.header.bytes.length).length = s.buffer.length - 8 - r.header.bytes.length := by
          rw [List.length_drop, List.length_drop]
        dsimp only at hwait hyield
        rw [hblen] at hwait hyield
        rw [if_neg hlong, hparse, except_ok_bind]
        exact ⟨fun hall => ⟨_, hwait (by omega)⟩, fun hall => hyield (by omega)⟩

omit [LawfulPlatform F] in
/-- an empty rest is waited out -/
theorem pass_waits (h : s.pending = []) : pass F layer s = .ok (.waits s) := by
  unfold ParseState.pending at h
  cases hcurrent : s.current with
  | some header =>
    rw [hcurrent] at h
    have := congrArg List.length h
    simp at this
  | none =>
    rw [hcurrent] at h
    have hbuffer : s.buffer = [] := h
    unfold pass
    rw [hcurrent, hbuffer]
    rfl

/-! ## A block -/

theorem drain_sound (h : Parsed layer rs s) (hd : drain F layer n s = ⟨out, .ok s'⟩) :
    Parsed layer (rs ++ out) s' ∧ s'.hashed = s.hashed := by
  induction n generalizing rs s out with
  | zero => exact absurd hd (by rw [drain]; simp)
  | succ n ih =>
    rw [drain] at hd
    obtain ⟨xs, p, ys, hlift, hd, rfl⟩ := Gen.bind_eq_ok.1 hd
    obtain ⟨rfl, hp⟩ := Gen.lift_eq_ok.1 hlift
    have hsound := pass_sound h hp
    cases p with
    | waits s₁ =>
      obtain ⟨rfl, rfl⟩ := Gen.pure_eq_ok.1 hd
      rw [List.append_nil, List.append_nil]
      exact hsound
    | yields r s₁ =>
      obtain ⟨zs, u, ws, hemit, hrest, rfl⟩ := Gen.bind_eq_ok.1 hd
      rw [Gen.emit_eq_ok.1 hemit]
      obtain ⟨hparsed, hhashed⟩ := ih hsound.1 hrest
      rw [List.append_assoc] at hparsed
      exact ⟨hparsed, hhashed.trans hsound.2.1⟩

/-- the rest of a stream, of which a state has everything but `rest` -/
structure Remaining (layer : Layer) (s : ParseState) (rest : List UInt8) (todo : List V5CheckpointInput) : Prop where
  stream : s.pending ++ rest = recordStream todo
  layers : ∀ r ∈ todo, r.layer = layer
  fresh : (todo.map V5CheckpointInput.identity).Nodup ∧ ∀ r ∈ todo, r.identity ∉ s.seen

/-- **The records that are there are yielded.** -/
theorem drain_total (h : Parsed layer rs s) (hr : Remaining layer s rest todo) (hn : s.buffer.length < n) :
    ∃ out s' left, drain F layer n s = ⟨out, .ok s'⟩ ∧ todo = out ++ left ∧ Parsed layer (rs ++ out) s' ∧
      s'.hashed = s.hashed ∧ Remaining layer s' rest left ∧ (rest = [] → left = []) := by
  induction n generalizing rs s todo with
  | zero => omega
  | succ n ih =>
    cases todo with
    | nil =>
      have hempty : s.pending = [] ∧ rest = [] := List.append_eq_nil_iff.1 hr.stream
      refine ⟨[], s, [], ?_, rfl, by simpa using h, rfl, hr, fun _ => rfl⟩
      rw [drain, pass_waits hempty.1]
      rfl
    | cons r todo =>
      have hstream := hr.stream
      rw [recordStream_cons] at hstream
      obtain ⟨hwait, hyield⟩ := pass_next (F := F) h hstream (hr.layers r (by simp)) (hr.fresh.2 r (by simp))
      by_cases hlong : r.framed.length ≤ s.pending.length
      · obtain ⟨s₁, hp⟩ := hyield hlong
        obtain ⟨hparsed, hhashed, hless⟩ := pass_sound h hp
        have hpending : s.pending = r.framed ++ s₁.pending := by
          have h₁ := hparsed.stream
          rw [hhashed, ← h.stream, recordStream_concat, List.append_assoc] at h₁
          exact (List.append_cancel_left h₁).symm
        have hnodup := hr.fresh.1
        rw [List.map_cons, List.nodup_cons] at hnodup
        have hr₁ : Remaining layer s₁ rest todo := by
          refine ⟨?_, fun r' hr' => hr.layers r' (by simp [hr']), hnodup.2, ?_⟩
          · rw [hpending, List.append_assoc] at hstream
            exact List.append_cancel_left hstream
          · intro r' hr' hseen
            rw [hparsed.seen, List.map_append, ← h.seen] at hseen
            rcases List.mem_append.1 hseen with hseen | hseen
            · exact hr.fresh.2 r' (by simp [hr']) hseen
            · rw [List.map_singleton, List.mem_singleton] at hseen
              exact hnodup.1 (List.mem_map.2 ⟨r', hr', hseen⟩)
        obtain ⟨out, s', left, hdrain, htodo, hparsed', hhashed', hleft, hend⟩ := ih hparsed hr₁ (by omega)
        refine ⟨r :: out, s', left, ?_, by rw [htodo, List.cons_append], by simpa using hparsed', hhashed'.trans hhashed, hleft,
          hend⟩
        rw [drain, hp]
        exact Gen.bind_eq_ok.2 ⟨[], .yields r s₁, r :: out, rfl, Gen.bind_eq_ok.2 ⟨[r], (), out, rfl, hdrain, rfl⟩, rfl⟩
      · obtain ⟨s₁, hp⟩ := hwait (by omega)
        obtain ⟨hparsed, hhashed⟩ := pass_sound h hp
        have hpending : s₁.pending = s.pending := by
          have h₁ := hparsed.stream
          rw [hhashed, ← h.stream] at h₁
          exact List.append_cancel_left h₁
        refine ⟨[], s₁, r :: todo, ?_, rfl, by simpa using hparsed, hhashed, ?_, ?_⟩
        · rw [drain, hp]
          rfl
        · exact ⟨by rw [hpending]; exact hr.stream, hr.layers, hr.fresh.1, by rw [hparsed.seen, ← h.seen]; exact hr.fresh.2⟩
        · rintro rfl
          have := congrArg List.length hstream
          simp only [List.append_nil, List.length_append] at this
          omega

theorem Remaining.feed (h : Remaining layer s (block ++ rest) todo) : Remaining layer { s with
      hashed := s.hashed ++ block, streamBytes := s.streamBytes + block.length, buffer := s.buffer ++ block } rest todo where
  stream := by
    rw [← h.stream]
    simp [ParseState.pending]
  layers := h.layers
  fresh := h.fresh

theorem parseBlock_sound (h : Parsed layer rs s) (hp : parseBlock F layer expected s block = ⟨out, .ok s'⟩) :
    Parsed layer (rs ++ out) s' ∧ s'.hashed = s.hashed ++ block := by
  obtain ⟨xs, u, ys, hcheck, hdrain, rfl⟩ := Gen.bind_eq_ok.1 hp
  rw [(Gen.lift_eq_ok.1 hcheck).1]
  exact drain_sound (h.feed block) hdrain

theorem parseBlock_total (h : Parsed layer rs s) (hr : Remaining layer s (block ++ rest) todo)
    (hsize : s.hashed.length + block.length ≤ expected) :
    ∃ out s' left, parseBlock F layer expected s block = ⟨out, .ok s'⟩ ∧ todo = out ++ left ∧ Parsed layer (rs ++ out) s' ∧
      s'.hashed = s.hashed ++ block ∧ Remaining layer s' rest left ∧ (rest = [] → left = []) := by
  obtain ⟨out, s', left, hdrain, hrest⟩ := drain_total (F := F) (h.feed block) hr.feed (Nat.lt_succ_self _)
  refine ⟨out, s', left, Gen.bind_eq_ok.2 ⟨[], (), out, Gen.lift_eq_ok.2 ⟨rfl, ?_⟩, hdrain, rfl⟩, hrest⟩
  rw [check_eq_ok, decide_eq_true_eq]
  show s.streamBytes + block.length ≤ expected
  rw [h.bytes]
  exact hsize

/-! ## A layer -/

variable {ε : Type}

/-- where the loop over the blocks starts -/
def ParseState.start : ParseState := ⟨[], [], 0, 0, none, []⟩

/-- the loop has nothing left to read -/
theorem ParseState.pending_eq_nil (h : s.pending = []) : s.buffer = [] ∧ s.current = none := by
  unfold ParseState.pending at h
  rw [List.append_eq_nil_iff] at h
  refine ⟨h.2, ?_⟩
  cases hcurrent : s.current with
  | none => rfl
  | some header =>
    rw [hcurrent] at h
    have := congrArg List.length h.1
    simp at this

/-- **What a loop over the blocks has decoded**: the records that it yielded, framed again, and what is pending are the
bytes hashed. -/
theorem records_sound {g : Gen CheckpointError (List UInt8) Unit}
    (h : g.each (parseBlock F layer expected) .start = ⟨out, .ok s'⟩) :
    g.result = .ok () ∧ Parsed layer out s' ∧ s'.hashed = g.items.flatten := by
  refine Gen.each_ok (I := fun blocks out s => Parsed layer out s ∧ s.hashed = blocks.flatten) ⟨.start layer, rfl⟩ ?_ h
  intro blocks rs s block out s' hI hblock
  obtain ⟨hparsed, hhashed⟩ := parseBlock_sound hI.1 hblock
  exact ⟨hparsed, by rw [hhashed, hI.2, List.flatten_append, List.flatten_singleton]⟩

/-- **A stream of records is decoded, in whatever blocks it comes.** -/
theorem records_total {g : Gen CheckpointError (List UInt8) Unit} (hg : g.result = .ok ())
    (hstream : g.items.flatten = recordStream rs) (hlayers : ∀ r ∈ rs, r.layer = layer)
    (hnodup : (rs.map V5CheckpointInput.identity).Nodup) :
    ∃ s', g.each (parseBlock F layer (recordStream rs).length) .start = ⟨rs, .ok s'⟩ ∧ Parsed layer rs s' ∧
      s'.pending = [] ∧ s'.hashed = recordStream rs := by
  have hstart : Remaining layer .start (recordStream rs) rs := ⟨rfl, hlayers, hnodup, fun _ _ => List.not_mem_nil⟩
  obtain ⟨out, s', heach, left, rest, hrs, hparsed, hhashed, hall, hrest, hend⟩ :=
    Gen.each_total (g := g) (s := .start)
      (I := fun blocks out s => ∃ left rest, rs = out ++ left ∧ Parsed layer out s ∧ s.hashed = blocks.flatten ∧
        blocks.flatten ++ rest = recordStream rs ∧ Remaining layer s rest left ∧ (rest = [] → left = []))
      ⟨rs, recordStream rs, rfl, .start layer, rfl, rfl, hstart, fun h => by
        cases rs with
        | nil => rfl
        | cons r rs =>
          have := congrArg List.length h
          rw [recordStream_cons, List.length_append, V5CheckpointInput.framed_eq] at this
          simp at this⟩
      (by
        rintro blocks block more done s hitems ⟨left, rest, hrs, hparsed, hhashed, hall, hrest, -⟩
        have hsplit : rest = block ++ more.flatten := by
          have h₁ := hstream
          rw [hitems, List.flatten_append, List.flatten_cons, ← hall] at h₁
          exact (List.append_cancel_left h₁).symm
        subst hsplit
        have hsize : s.hashed.length + block.length ≤ (recordStream rs).length := by
          rw [← hall, hhashed, List.length_append, List.length_append]
          omega
        obtain ⟨out, s', left', hblock, rfl, hparsed', hhashed', hrest', hend'⟩ :=
          parseBlock_total (F := F) hparsed hrest hsize
        refine ⟨out, s', hblock, left', more.flatten, by rw [hrs, List.append_assoc], hparsed', ?_, ?_, hrest', hend'⟩
        · rw [hhashed', hhashed, List.flatten_append, List.flatten_singleton]
        · rw [← hall, List.flatten_append, List.flatten_singleton, List.append_assoc])
      hg
  have hempty : rest = [] := by
    rw [hstream] at hall
    exact List.append_right_eq_self.1 hall
  obtain rfl := hend hempty
  rw [List.append_nil] at hrs
  subst hrs hempty
  have hpending : s'.pending = [] := by simpa [recordStream] using hrest.stream
  exact ⟨s', heach, hparsed, hpending, hhashed.trans hstream⟩

end Passes

/-! ## The compressed stream -/

section Payload

/-- the file of a chunk is what its entry says -/
structure Stored [Sha256] (directory : List (String × Entry)) (chunk : V5CheckpointChunk) (content : List UInt8) : Prop where
  file : Assoc.get? chunk.filename directory = some (.file content)
  bytes : content.length = chunk.bytes
  sha256 : Sha256.hexdigestBytes content = chunk.sha256

theorem readFile_eq_ok {entry : Option Entry} {label : String} {content : List UInt8} :
    readFile entry label = .ok content ↔ entry = some (.file content) := by
  unfold readFile
  split
  · rw [Except.ok.injEq, Option.some.injEq, Entry.file.injEq]
  · simp
  · simp

variable [Sha256] {directory : List (String × Entry)} {label : String}

variable {chunks : List V5CheckpointChunk} {pieces out : List (List UInt8)}

/-- the payload is read exactly when every file is there -/
theorem iterCompressedPayload_eq_ok :
    iterCompressedPayload directory label chunks = ⟨pieces, .ok ()⟩ ↔
      List.Forall₂ (Stored directory) chunks pieces := by
  induction chunks generalizing pieces with
  | nil =>
    rw [iterCompressedPayload, Gen.pure_eq_ok, List.forall₂_nil_left_iff]
    simp
  | cons chunk chunks ih =>
    rw [iterCompressedPayload, List.forall₂_cons_left_iff]
    simp only [Gen.lift_bind_eq_ok, Gen.emit_bind_eq_ok, check_eq_ok, decide_eq_true_eq, readFile_eq_ok, ih]
    constructor
    · rintro ⟨content, hfile, _, hbytes, _, hsha, rest, hrest, rfl⟩
      exact ⟨content, rest, ⟨hfile, hbytes, hsha⟩, hrest, rfl⟩
    · rintro ⟨content, rest, ⟨hfile, hbytes, hsha⟩, hrest, rfl⟩
      exact ⟨content, hfile, (), hbytes, (), hsha, rest, hrest, rfl⟩

variable {C D : Type} {z : Codec C D} {contents : List UInt8 → Option (List UInt8)}

omit [Sha256] in
/-- a block is yielded unless it is empty -/
theorem flatten_emitted {block : List UInt8} (h : out = if block ≠ [] then [block] else []) : out.flatten = block := by
  subst h
  split_ifs with hblock
  · exact List.flatten_singleton
  · exact (not_not.1 hblock).symm

variable {fed given pending data : List UInt8}

omit [Sha256] in
/-- **A chunk is taken in** by a loop that ends. -/
theorem decompressChunk_sound (hz : z.Lossless contents) {fuel : ℕ} {d d' : D} (h : z.Reaches d fed given)
    (hp : pending = [] → z.unconsumedTail d = []) (hd : decompressChunk z fuel d pending = ⟨out, .ok d'⟩) :
    z.Reaches d' (fed ++ pending) (given ++ out.flatten) ∧ z.unconsumedTail d' = [] := by
  induction fuel generalizing d fed given pending out with
  | zero =>
    rw [decompressChunk, Gen.raise_eq_ok] at hd
    exact hd.elim
  | succ fuel ih =>
    rw [decompressChunk] at hd
    split_ifs at hd with hempty
    · obtain ⟨rfl, rfl⟩ := Gen.pure_eq_ok.1 hd
      subst hempty
      rw [List.append_nil, List.flatten_nil, List.append_nil]
      exact ⟨h, hp rfl⟩
    · split at hd
      · exact (Gen.raise_eq_ok.1 hd).elim
      · rename_i block d₁ hcall
        obtain ⟨used, hused, h₁⟩ := h.divided hz hcall
        obtain ⟨xs, _, ys, hemit, hrest, rfl⟩ := Gen.bind_eq_ok.1 hd
        have hxs := flatten_emitted (Gen.emitIf_eq_ok.1 hemit)
        have := ih h₁ id hrest
        rwa [List.append_assoc, ← hused, List.append_assoc, ← hxs, ← List.flatten_append] at this

omit [Sha256] in
/-- **A loop over a part of a stream ends.** -/
theorem decompressChunk_total (hz : z.Lossless contents) {c : List UInt8} (hc : contents c = some data) {fuel : ℕ}
    {d : D} (h : z.Reaches d fed given) (hpre : fed ++ pending <+: c)
    (hfuel : pending.length + (data.length - given.length) < fuel) :
    ∃ out d', decompressChunk z fuel d pending = ⟨out, .ok d'⟩ := by
  induction fuel generalizing d fed given pending with
  | zero => omega
  | succ fuel ih =>
    rw [decompressChunk]
    split_ifs with hempty
    · exact ⟨[], d, rfl⟩
    · obtain ⟨⟨block, d₁⟩, hcall⟩ := hz.accepts c data d fed given pending decompressBlockBytes hc h hpre
      obtain ⟨used, hused, h₁⟩ := h.divided hz hcall
      obtain ⟨hless, -⟩ := hz.fuel hc h hempty hpre hcall
      have hrest : (fed ++ used) ++ z.unconsumedTail d₁ <+: c := by rwa [List.append_assoc, ← hused]
      obtain ⟨out, d', hout⟩ := ih h₁ hrest (by omega)
      simp only [hcall]
      exact ⟨_, d', Gen.bind_eq_ok.2 ⟨_, (), out, Gen.emitIf_eq_ok.2 rfl, hout, rfl⟩⟩

/-- **The blocks of a payload that ends are the contents of its chunks.** -/
theorem payload_sound (hz : z.Lossless contents) {fuel : ℕ} {blocks : List (List UInt8)}
    (h : iterDecompressedPayload z fuel directory label chunks = ⟨blocks, .ok ()⟩) :
    ∃ pieces, List.Forall₂ (Stored directory) chunks pieces ∧ contents pieces.flatten = some blocks.flatten := by
  obtain ⟨xs, d, ys, heach, hend, rfl⟩ := Gen.bind_eq_ok.1 h
  have hpieces : iterCompressedPayload directory label chunks =
      ⟨(iterCompressedPayload directory label chunks).items, (iterCompressedPayload directory label chunks).result⟩ := rfl
  obtain ⟨hresult, hreaches, htail⟩ := Gen.each_ok
    (I := fun pieces blocks d => z.Reaches d pieces.flatten blocks.flatten ∧ z.unconsumedTail d = [])
    ⟨.start, hz.fresh⟩ (by
      intro pieces blocks d piece out d' hI hchunk
      have := decompressChunk_sound hz hI.1 (fun _ => hI.2) hchunk
      rwa [List.flatten_append, List.flatten_singleton, List.flatten_append]) heach
  rw [hresult] at hpieces
  refine ⟨_, iterCompressedPayload_eq_ok.1 hpieces, ?_⟩
  split at hend
  · exact (Gen.raise_eq_ok.1 hend).elim
  · rename_i tail d' hflush
    obtain ⟨zs, _, ws, hemit, hcheck, rfl⟩ := Gen.bind_eq_ok.1 hend
    obtain ⟨rfl, hended⟩ := Gen.lift_eq_ok.1 hcheck
    rw [check_eq_ok, Bool.and_eq_true, decide_eq_true_eq] at hended
    have hzs := flatten_emitted (Gen.emitIf_eq_ok.1 hemit)
    rw [hz.sound d _ _ tail d' hreaches htail hflush hended.1 hended.2, List.flatten_append, List.flatten_append, hzs,
      List.flatten_nil, List.append_nil]

/-- **A complete stream in chunks is given out**, with enough fuel, in some blocks. -/
theorem payload_total (hz : z.Lossless contents) {fuel : ℕ} (hstored : List.Forall₂ (Stored directory) chunks pieces)
    (hc : contents pieces.flatten = some data) (hfuel : pieces.flatten.length + data.length < fuel) :
    ∃ blocks, iterDecompressedPayload z fuel directory label chunks = ⟨blocks, .ok ()⟩ ∧ blocks.flatten = data := by
  have hpieces : iterCompressedPayload directory label chunks = ⟨pieces, .ok ()⟩ := iterCompressedPayload_eq_ok.2 hstored
  obtain ⟨xs, d, heach, hreaches, htail⟩ := Gen.each_total
    (g := iterCompressedPayload directory label chunks) (s := z.decompressobj)
    (I := fun pieces blocks d => z.Reaches d pieces.flatten blocks.flatten ∧ z.unconsumedTail d = [])
    ⟨.start, hz.fresh⟩ (by
      intro done piece rest blocks d hitems hI
      rw [hpieces] at hitems
      have hpre : done.flatten ++ piece <+: pieces.flatten := by
        rw [show pieces = done ++ piece :: rest from hitems, List.flatten_append, List.flatten_cons, ← List.append_assoc]
        exact List.prefix_append _ _
      have hlen := hpre.length_le
      rw [List.length_append] at hlen
      have hless : piece.length + (data.length - blocks.flatten.length) < fuel := by omega
      obtain ⟨out, d', hchunk⟩ := decompressChunk_total hz hc hI.1 hpre hless
      have := decompressChunk_sound hz hI.1 (fun _ => hI.2) hchunk
      exact ⟨out, d', hchunk, by rwa [List.flatten_append, List.flatten_singleton, List.flatten_append]⟩)
    (by rw [hpieces])
  rw [hpieces] at hreaches
  obtain ⟨tail, d', hflush, heof, hunused, -, hdata⟩ := hz.ends _ data d _ hc hreaches htail
  have hcheck : Gen.lift (check (z.eof d' && z.unusedData d' = []) (CheckpointError.value
      (label ++ " checkpoint compressed stream is incomplete or has trailing data"))) = (⟨[], .ok ()⟩ : Gen _ (List UInt8) _) := by
    rw [heof, hunused]
    rfl
  refine ⟨xs ++ ((if tail ≠ [] then [tail] else []) ++ []), ?_, ?_⟩
  · refine Gen.bind_eq_ok.2 ⟨xs, d, _, heach, ?_, rfl⟩
    simp only [hflush]
    exact Gen.bind_eq_ok.2 ⟨_, (), [], Gen.emitIf_eq_ok.2 rfl, hcheck, rfl⟩
  · rw [List.append_nil, List.flatten_append, flatten_emitted rfl, hdata]

end Payload

end Checkpoint

end Apar
