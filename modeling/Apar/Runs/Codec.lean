/-
The JSON codec of the worker's wire (`runs/wire.py`): canonical bytes, and the strict reader that refuses whatever is
not canonical.

The writer escapes a string code point by code point, the reader merges an escaped surrogate pair into one code point.
So a Python string in which a high surrogate stands before a low one is written like the string it is merged into, and
is not read back; nor is an integer the interpreter refuses to print.

- `wire_json_inverts`: reading inverts writing exactly for the trees without surrogate pairs (whose integers the
  interpreter prints); writing inverts reading always; trees without surrogate pairs are equal when their bytes are.
- `surrogates_merge`: two code points written, one read.
-/
import Mathlib
import Apar.Core.JsonRoundTrip
import Apar.Redteam.Policies

namespace Apar

open Exec

/-! ## The codec -/

namespace Wire

/-- a `WireContractError` -/
def wireError (message : String) : PolicyError := .wire (PyStr.ofString message)

variable {F : Type} [FloatRead F]

/-- `text.encode("utf-8")` -/
def encodeUtf8 (cs : List Char) : ByteArray := (String.ofList cs).toByteArray

theorem decode_encodeUtf8 (cs : List Char) : (encodeUtf8 cs).utf8Decode? = some cs.toArray := by
  rw [encodeUtf8, String.toByteArray_ofList, List.utf8Decode?_utf8Encode]

/-- every number of the tree is finite -/
def finiteNumbers : JsonTree F → Bool :=
  JsonTree.all fun
    | .float x => FloatText.isFinite x
    | _ => true

/-- `_strict_tree`; the other values it refuses are not JSON trees at all -/
def strictTree (value : JsonTree F) (label : String) : Except PolicyError Unit :=
  check (finiteNumbers value) (wireError (label ++ " contains a non-finite number"))

/-- `canonical_json_bytes` -/
def canonicalJsonBytes (limit : Option ℕ) (value : JsonTree F) : Except PolicyError ByteArray := do
  strictTree value "wire document"
  check (value.intsFit limit) .digits
  pure (encodeUtf8 value.text)

/-- `pairs`: the items so far, and those still to add -/
def pairs (result : List (PyStr × JsonTree F)) :
    List (PyStr × JsonTree F) → Except PolicyError (List (PyStr × JsonTree F))
  | [] => .ok result
  | (key, value) :: rest =>
    if key ∈ result.map Prod.fst then .error (.wire (PyStr.ofString "duplicate wire key: " ++ key))
    else pairs (result ++ [(key, value)]) rest

def hooks (limit : Option ℕ) : JsonHooks F PolicyError where
  pairs := pairs []
  constant := fun value => .error (wireError ("non-finite wire value: " ++ value))
  digitLimit := limit
  tooManyDigits := .digits
  malformed := wireError "wire input is not strict UTF-8 JSON"

/-- `strict_json_loads` -/
def strictJsonLoads (limit : Option ℕ) (raw : ByteArray) : Except PolicyError (JsonTree F) :=
  match raw.utf8Decode? with
  | none => .error (wireError "wire input is not strict UTF-8 JSON")
  | some cs => do
    let value ← JsonText.loads (hooks limit) cs.toList
    strictTree value "wire document"
    let canonical ← canonicalJsonBytes limit value
    check (canonical = raw) (wireError "wire input is not canonical JSON")
    pure value

/-! ## What the codec does -/

omit [FloatRead F] in
theorem pairs_eq_ok {result items items' : List (PyStr × JsonTree F)} (h : pairs result items = .ok items') :
    items' = result ++ items := by
  induction items generalizing result with
  | nil =>
    cases h
    rw [List.append_nil]
  | cons i items ih =>
    rw [pairs] at h
    split_ifs at h
    rw [ih h, List.append_assoc]
    rfl

omit [FloatRead F] in
theorem pairs_of_nodup {result items : List (PyStr × JsonTree F)} (h : ((result ++ items).map Prod.fst).Nodup) :
    pairs result items = .ok (result ++ items) := by
  induction items generalizing result with
  | nil => rw [pairs, List.append_nil]
  | cons i items ih =>
    have hi : i.1 ∉ result.map Prod.fst := by
      rw [List.map_append, List.nodup_append] at h
      exact fun hmem => h.2.2 _ hmem i.1 (by simp) rfl
    rw [pairs, if_neg hi, ih (by simpa using h), List.append_assoc]
    rfl

variable {t : JsonTree F} {limit : Option ℕ}

theorem finiteNumbers_of_floatFree (h : t.floatFree = true) : finiteNumbers t = true := by
  unfold finiteNumbers
  unfold JsonTree.floatFree at h
  induction t using JsonTree.induct with
  | null | bool | int | str => simp
  | float x => simp at h
  | list xs ih =>
    simp only [JsonTree.all_list, Bool.true_and, List.all_eq_true] at h ⊢
    exact fun x hx => ih x hx (h x hx)
  | dict items ih =>
    simp only [JsonTree.all_dict, Bool.true_and, List.all_eq_true] at h ⊢
    exact fun i hi => ih i hi (h i hi)

theorem canonicalJsonBytes_eq_ok {raw : ByteArray} :
    canonicalJsonBytes limit t = .ok raw ↔
      finiteNumbers t = true ∧ t.intsFit limit = true ∧ encodeUtf8 t.text = raw := by
  simp only [canonicalJsonBytes, strictTree, except_bind_eq_ok, check_eq_ok, except_pure_eq_ok, exists_const]

theorem strictJsonLoads_eq_ok {raw : ByteArray} :
    strictJsonLoads limit raw = .ok t ↔
      ∃ cs, raw.utf8Decode? = some cs ∧ JsonText.loads (hooks limit) cs.toList = .ok t ∧
        canonicalJsonBytes limit t = .ok raw := by
  unfold strictJsonLoads
  cases raw.utf8Decode? with
  | none => simp
  | some cs =>
    simp only [Option.some.injEq, exists_eq_left', strictTree, except_bind_eq_ok, check_eq_ok, except_pure_eq_ok,
      exists_const, decide_eq_true_eq]
    constructor
    · rintro ⟨t', hloads, -, raw', hraw, rfl, rfl⟩
      exact ⟨hloads, hraw⟩
    · rintro ⟨hloads, hraw⟩
      exact ⟨t, hloads, (canonicalJsonBytes_eq_ok.1 hraw).1, raw, hraw, rfl, rfl⟩

theorem strictJsonLoads_canonicalJsonBytes (h : t.Readable limit) :
    canonicalJsonBytes limit t = .ok (encodeUtf8 t.text) ∧
      strictJsonLoads limit (encodeUtf8 t.text) = .ok t.sorted := by
  have hsorted := JsonTree.readable_sorted.2 h
  have htext : t.sorted.text = t.text := by rw [JsonTree.text, JsonTree.sorted_sorted, JsonTree.text]
  refine ⟨canonicalJsonBytes_eq_ok.2 ⟨finiteNumbers_of_floatFree h.2.1, h.2.2.2, rfl⟩, ?_⟩
  refine strictJsonLoads_eq_ok.2 ⟨t.text.toArray, decode_encodeUtf8 _, ?_, ?_⟩
  · exact JsonText.loads_text (h := hooks limit) (fun items hn => pairs_of_nodup hn) h
  · exact canonicalJsonBytes_eq_ok.2 ⟨finiteNumbers_of_floatFree hsorted.2.1, hsorted.2.2.2, by rw [htext]⟩

/-- what was read has no surrogate pair -/
theorem strictJsonLoads_pairFree {raw : ByteArray} (h : strictJsonLoads limit raw = .ok t) : t.pairFree = true := by
  obtain ⟨cs, -, hloads, -⟩ := strictJsonLoads_eq_ok.1 h
  refine JsonText.loads_pairFree (h := hooks limit) ?_ ?_ hloads
  · intro word t' hok
    cases hok
  · intro items items' hok
    exact pairs_eq_ok hok

/-- **The strict reader inverts the canonical writer** exactly on the trees without surrogate pairs whose integers the
interpreter prints; the writer inverts the reader; and equal bytes come from equal trees, surrogate pairs apart. -/
theorem wire_json_inverts (limit : Option ℕ) :
    (∀ v : JsonTree F, v.distinctKeys = true → v.floatFree = true →
      ((∃ raw w, canonicalJsonBytes limit v = .ok raw ∧ strictJsonLoads limit raw = .ok w ∧ w.Equal v) ↔
        v.pairFree = true ∧ v.intsFit limit = true)) ∧
    (∀ raw (v : JsonTree F), strictJsonLoads limit raw = .ok v → canonicalJsonBytes limit v = .ok raw) ∧
    (∀ v w : JsonTree F, v.distinctKeys = true → v.floatFree = true → v.pairFree = true →
      w.distinctKeys = true → w.floatFree = true → w.pairFree = true →
      ∀ raw, canonicalJsonBytes limit v = .ok raw → canonicalJsonBytes limit w = .ok raw → v.Equal w) := by
  refine ⟨?_, ?_, ?_⟩
  · intro v hkeys hfloat
    constructor
    · rintro ⟨raw, w, hv, hw, heq⟩
      exact ⟨heq.pairFree (strictJsonLoads_pairFree hw), (canonicalJsonBytes_eq_ok.1 hv).2.1⟩
    · rintro ⟨hpair, hint⟩
      obtain ⟨hbytes, hread⟩ := strictJsonLoads_canonicalJsonBytes ⟨hkeys, hfloat, hpair, hint⟩
      exact ⟨_, _, hbytes, hread, v.sorted_equal hkeys⟩
  · intro raw v h
    obtain ⟨cs, -, -, hbytes⟩ := strictJsonLoads_eq_ok.1 h
    exact hbytes
  · intro v w hvk hvf hvp hwk hwf hwp raw hv hw
    obtain ⟨-, hvi, hvraw⟩ := canonicalJsonBytes_eq_ok.1 hv
    obtain ⟨-, hwi, hwraw⟩ := canonicalJsonBytes_eq_ok.1 hw
    have hreadv := (strictJsonLoads_canonicalJsonBytes ⟨hvk, hvf, hvp, hvi⟩).2
    have hreadw := (strictJsonLoads_canonicalJsonBytes ⟨hwk, hwf, hwp, hwi⟩).2
    rw [hvraw] at hreadv
    rw [hwraw, hreadv] at hreadw
    have hsorted : v.sorted = w.sorted := Except.ok.inj hreadw
    exact (v.sorted_equal hvk).symm.trans (hsorted ▸ w.sorted_equal hwk)

/-- the text of floats where none occurs -/
@[reducible] def noFloats : FloatRead Unit where
  isFinite _ := true
  repr _ := []
  parse _ := ()

/-- an object whose items are out of order, with a lone surrogate in a value -/
def sampleTree : JsonTree Unit :=
  .dict [(PyStr.ofString "b", .list [.int (-1), .bool true, .null]), (PyStr.ofString "a", .str [0xD83D, 0x41])]

theorem wire_json_inverts_sample :
    let _ := noFloats
    ∃ raw w, canonicalJsonBytes (some 4300) sampleTree = .ok raw ∧ strictJsonLoads (some 4300) raw = .ok w ∧
      w.Equal sampleTree := by
  let _ := noFloats
  exact ((wire_json_inverts (some 4300)).1 sampleTree (by decide +kernel) rfl).2 ⟨by decide +kernel, by decide +kernel⟩

/-- two escapes, `U+D83D` and `U+DE00`, written and read back as one code point -/
theorem surrogates_merge :
    let _ := noFloats
    let v : JsonTree Unit := .str [0xD83D, 0xDE00]
    v.distinctKeys = true ∧ v.floatFree = true ∧
      ∃ raw w, canonicalJsonBytes (some 4300) v = .ok raw ∧ strictJsonLoads (some 4300) raw = .ok w ∧
        w = .str [0x1F600] ∧ canonicalJsonBytes (some 4300) w = .ok raw ∧ ¬ w.Equal v := by
  let _ := noFloats
  have hv : (JsonTree.str [0xD83D, 0xDE00] : JsonTree Unit).text = "\"\\ud83d\\ude00\"".toList := by decide +kernel
  have hw : (JsonTree.str [0x1F600] : JsonTree Unit).text = "\"\\ud83d\\ude00\"".toList := by decide +kernel
  have hbytes : canonicalJsonBytes (some 4300) (.str [0x1F600] : JsonTree Unit) =
      .ok (encodeUtf8 "\"\\ud83d\\ude00\"".toList) :=
    canonicalJsonBytes_eq_ok.2 ⟨rfl, rfl, by rw [hw]⟩
  refine ⟨rfl, rfl, encodeUtf8 "\"\\ud83d\\ude00\"".toList, .str [0x1F600], ?_, ?_, rfl, hbytes, ?_⟩
  · exact canonicalJsonBytes_eq_ok.2 ⟨rfl, rfl, by rw [hv]⟩
  · exact strictJsonLoads_eq_ok.2 ⟨_, decode_encodeUtf8 _, rfl, hbytes⟩
  · intro h
    cases h

end Wire

end Apar
