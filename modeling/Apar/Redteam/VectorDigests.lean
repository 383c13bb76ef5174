/-
What the digest of a vector tells (`redteam/policies.py`, `_canonical_bytes` and `_digest`).

The digest is taken of an ASCII text, in which a surrogate pair is spelled like the code point it stands for. So where no
two texts share a digest, the fingerprint tells the values of a vector up to the pairs in their texts, and no further.

- `joined_of_document`: vectors of one text have the same joined values.
- `document_of_joined`: vectors of the same joined values have one text.
- `digest_eq_iff`: the two put together, of vectors with the same names.
-/
import Apar.Core.JsonDocuments
import Apar.Core.JsonSpellings
import Apar.Redteam.Rebuilding

namespace Apar

open Exec

namespace PyStr

theorem joinPairs_of_pairFree {s : PyStr} (h : s.pairFree = true) : s.joinPairs = s :=
  utf16_inj (pairFree_joinPairs s) h (utf16_joinPairs s)

end PyStr

namespace Redteam

/-! ## Joined values -/

namespace AdaptiveValue

/-- the texts of a value -/
def texts : AdaptiveValue → List PyStr
  | .string s => [s]
  | .stringTuple items => items
  | _ => []

/-- the value with the surrogate pairs of its texts merged -/
def joined : AdaptiveValue → AdaptiveValue
  | .string s => .string s.joinPairs
  | .stringTuple items => .stringTuple (items.map PyStr.joinPairs)
  | value => value

theorem joined_of_pairFree {value : AdaptiveValue} (h : ∀ s ∈ value.texts, s.pairFree = true) : value.joined = value := by
  cases value with
  | decimal | integer => rfl
  | string s => rw [joined, PyStr.joinPairs_of_pairFree (h s (by simp [texts]))]
  | stringTuple items =>
    rw [joined]
    congr 1
    exact (List.map_congr_left fun s hs => PyStr.joinPairs_of_pairFree (h s hs)).trans (List.map_id _)

theorem pairFree_joined (value : AdaptiveValue) : ∀ s ∈ value.joined.texts, s.pairFree = true := by
  intro s hs
  cases value with
  | decimal | integer => cases hs
  | string t =>
    rw [joined, texts, List.mem_singleton] at hs
    rw [hs]
    exact PyStr.pairFree_joinPairs t
  | stringTuple items =>
    obtain ⟨t, -, rfl⟩ := List.mem_map.1 hs
    exact PyStr.pairFree_joinPairs t

theorem joined_joined (value : AdaptiveValue) : value.joined.joined = value.joined :=
  joined_of_pairFree (pairFree_joined value)

theorem adaptiveValue_joined (value : AdaptiveValue) : value.joined.adaptiveValue = value.adaptiveValue := by
  cases value with
  | decimal | integer | string => rfl
  | stringTuple items => cases items <;> rfl

end AdaptiveValue

/-! ## Texts of documents -/

section Texts

variable {F G : Type} [FloatText F] [FloatText G]

theorem dump_str (s : PyStr) : (JsonTree.str s : JsonTree F).dump = JsonText.quote s := by rw [JsonTree.dump]

theorem dump_pair (a b : String) (x y : JsonTree F) : (document [(a, x), (b, y)]).dump =
    '{' :: JsonText.quote (PyStr.ofString a) ++ ':' :: x.dump ++
      (',' :: JsonText.quote (PyStr.ofString b) ++ ':' :: y.dump ++ []) ++ ['}'] := by
  simp only [document, List.map_cons, List.map_nil, JsonTree.dump, JsonTree.dumpItems]

/-- lists of trees that are dumped alike are dumped alike -/
theorem dump_list {α β : Type} {f : α → JsonTree F} {g : β → JsonTree G} {xs : List α} {ys : List β}
    (h : List.Forall₂ (fun x y => (f x).dump = (g y).dump) xs ys) :
    (JsonTree.list (xs.map f)).dump = (JsonTree.list (ys.map g)).dump := by
  have helems : ∀ xs ys, List.Forall₂ (fun x y => (f x).dump = (g y).dump) xs ys →
      JsonTree.dumpElems (xs.map f) = JsonTree.dumpElems (ys.map g) := by
    intro xs ys h
    induction h with
    | nil => rw [List.map_nil, List.map_nil, JsonTree.dumpElems, JsonTree.dumpElems]
    | cons hxy _ ih => rw [List.map_cons, List.map_cons, JsonTree.dumpElems, JsonTree.dumpElems, hxy, ih]
  cases h with
  | nil => rw [List.map_nil, List.map_nil, JsonTree.dump, JsonTree.dump]
  | cons hxy hrest =>
    rw [List.map_cons, List.map_cons, JsonTree.dump, JsonTree.dump, hxy, helems _ _ hrest]

theorem dump_joined (value : AdaptiveValue) :
    (value.joined.taggedValue : JsonTree F).dump = (value.taggedValue : JsonTree G).dump := by
  cases value with
  | decimal d => simp only [AdaptiveValue.joined, AdaptiveValue.taggedValue, dump_pair, dump_str]
  | integer n => simp only [AdaptiveValue.joined, AdaptiveValue.taggedValue, dump_pair, JsonTree.dump]
  | string s =>
    simp only [AdaptiveValue.joined, AdaptiveValue.taggedValue, dump_pair, dump_str,
      JsonText.quote_congr (PyStr.utf16_joinPairs s)]
  | stringTuple items =>
    have hlist : (JsonTree.list ((items.map PyStr.joinPairs).map (JsonTree.str (F := F)))).dump =
        (JsonTree.list (items.map (JsonTree.str (F := G)))).dump := by
      refine dump_list ?_
      rw [List.forall₂_map_left_iff, List.forall₂_same]
      intro s _
      rw [dump_str, dump_str, JsonText.quote_congr (PyStr.utf16_joinPairs s)]
    simp only [AdaptiveValue.joined, AdaptiveValue.taggedValue, dump_pair, dump_str, hlist]

/-- a name and a value as far as the text of their document tells them -/
def joinedEntry (e : AdaptiveParameter) : PyStr × AdaptiveValue := (e.name.joinPairs, e.value.joined)

theorem dump_entry {e : AdaptiveParameter} {f : AdaptiveParameter} (h : joinedEntry e = joinedEntry f) :
    (e.document : JsonTree F).dump = (f.document : JsonTree G).dump := by
  obtain ⟨hname, hvalue⟩ := Prod.mk.inj h
  have hquote : JsonText.quote e.name = JsonText.quote f.name :=
    JsonText.quote_congr (by rw [← PyStr.utf16_joinPairs, hname, PyStr.utf16_joinPairs])
  have htagged : (e.value.taggedValue : JsonTree F).dump = (f.value.taggedValue : JsonTree G).dump := by
    calc (e.value.taggedValue : JsonTree F).dump
        = (e.value.joined.taggedValue : JsonTree G).dump := (dump_joined e.value).symm
      _ = (f.value.joined.taggedValue : JsonTree G).dump := by rw [hvalue]
      _ = (f.value.taggedValue : JsonTree G).dump := dump_joined f.value
  rw [AdaptiveParameter.document, AdaptiveParameter.document, dump_pair, dump_pair, dump_str, dump_str, hquote, htagged]

omit [FloatText F] in
theorem sorted_str (s : PyStr) : (JsonTree.str s : JsonTree F).sorted = .str s := by simp [JsonTree.sorted]

omit [FloatText F] in
theorem sorted_int (n : ℤ) : (JsonTree.int n : JsonTree F).sorted = .int n := by simp [JsonTree.sorted]

omit [FloatText F] in
theorem sorted_pair {a b : String} (hab : PyStr.ofString a ≤ PyStr.ofString b) (x y : JsonTree F) :
    (document [(a, x), (b, y)]).sorted = document [(a, x.sorted), (b, y.sorted)] := by
  rw [document, JsonTree.sorted_dict, document]
  congr 1
  refine sortBy_of_sorted ?_
  simpa using hab

omit [FloatText F] in
theorem sorted_taggedValue (value : AdaptiveValue) : (value.taggedValue : JsonTree F).sorted = value.taggedValue := by
  have htype : PyStr.ofString "type" ≤ PyStr.ofString "value" := by decide
  cases value with
  | decimal d => rw [AdaptiveValue.taggedValue, sorted_pair htype, sorted_str, sorted_str]
  | integer n => rw [AdaptiveValue.taggedValue, sorted_pair htype, sorted_str, sorted_int]
  | string s => rw [AdaptiveValue.taggedValue, sorted_pair htype, sorted_str, sorted_str]
  | stringTuple items =>
    have hmap : (items.map JsonTree.str).map JsonTree.sorted = items.map (JsonTree.str (F := F)) := by
      rw [List.map_map]
      exact List.map_congr_left fun s _ => sorted_str s
    rw [AdaptiveValue.taggedValue, sorted_pair htype, sorted_str, JsonTree.sorted_list, hmap]

omit [FloatText F] in
theorem sorted_entry (e : AdaptiveParameter) : (e.document : JsonTree F).sorted = e.document := by
  have hname : PyStr.ofString "name" ≤ PyStr.ofString "value" := by decide
  rw [AdaptiveParameter.document, sorted_pair hname, sorted_taggedValue, sorted_str]

omit [FloatText F] in
theorem sorted_vector (v : AdaptiveVector) : (v.document : JsonTree F).sorted = v.document := by
  rw [AdaptiveVector.document, JsonTree.sorted_list, List.map_map]
  congr 1
  exact List.map_congr_left fun e _ => sorted_entry e

/-- **Vectors of the same joined entries have one text.** -/
theorem text_of_joined {v w : AdaptiveVector} (h : v.entries.map joinedEntry = w.entries.map joinedEntry) :
    (v.document : JsonTree F).text = (w.document : JsonTree G).text := by
  rw [JsonTree.text, JsonTree.text, sorted_vector, sorted_vector]
  refine dump_list ?_
  have hpairs : List.Forall₂ (fun e f => joinedEntry e = joinedEntry f) v.entries w.entries := by
    have := List.forall₂_eq_eq_eq.symm ▸ h
    rwa [List.forall₂_map_left_iff, List.forall₂_map_right_iff] at this
  exact hpairs.imp fun _ _ => dump_entry

end Texts

/-! ## Reading a text back -/

/-- the vector with the surrogate pairs of its texts merged -/
def joinedVector (v : AdaptiveVector) : AdaptiveVector :=
  ⟨v.entries.map fun e => ⟨e.name.joinPairs, e.value.joined, []⟩, []⟩

theorem joinedEntry_joinedVector (v : AdaptiveVector) :
    (joinedVector v).entries.map joinedEntry = v.entries.map joinedEntry := by
  rw [joinedVector, List.map_map]
  refine List.map_congr_left fun e _ => ?_
  rw [Function.comp_apply, joinedEntry, joinedEntry, AdaptiveValue.joined_joined,
    PyStr.joinPairs_of_pairFree (PyStr.pairFree_joinPairs _)]

section

variable {F : Type}

theorem readable_str {s : PyStr} (h : s.pairFree = true) : (JsonTree.str s : JsonTree F).Readable none := by
  simp [JsonTree.Readable, JsonTree.distinctKeys, JsonTree.floatFree, JsonTree.pairFree, JsonTree.intsFit, h]

theorem readable_int (n : ℤ) : (JsonTree.int n : JsonTree F).Readable none := by
  simp [JsonTree.Readable, JsonTree.distinctKeys, JsonTree.floatFree, JsonTree.pairFree, JsonTree.intsFit,
    JsonTree.digitsFit]

theorem readable_list {xs : List (JsonTree F)} (h : ∀ x ∈ xs, x.Readable none) : (JsonTree.list xs).Readable none := by
  simp only [JsonTree.Readable, JsonTree.distinctKeys, JsonTree.floatFree, JsonTree.pairFree, JsonTree.intsFit,
    JsonTree.all_list, Bool.true_and, List.all_eq_true]
  exact ⟨fun x hx => (h x hx).1, fun x hx => (h x hx).2.1, fun x hx => (h x hx).2.2.1, fun x hx => (h x hx).2.2.2⟩

theorem readable_pair {a b : String} (hab : a ≠ b) {x y : JsonTree F} (hx : x.Readable none) (hy : y.Readable none) :
    (document [(a, x), (b, y)]).Readable none := by
  have hname : ∀ s : String, (PyStr.ofString s).pairFree = true := fun s => PyStr.pairFree_of_scalar (PyStr.scalar_ofString s)
  obtain ⟨hx₁, hx₂, hx₃, hx₄⟩ := hx
  obtain ⟨hy₁, hy₂, hy₃, hy₄⟩ := hy
  unfold JsonTree.distinctKeys at hx₁ hy₁
  unfold JsonTree.floatFree at hx₂ hy₂
  unfold JsonTree.pairFree at hx₃ hy₃
  unfold JsonTree.intsFit at hx₄ hy₄
  simp [JsonTree.Readable, document, JsonTree.distinctKeys, JsonTree.floatFree, JsonTree.pairFree, JsonTree.intsFit,
    PyStr.ofString_inj, *]

theorem readable_taggedValue {value : AdaptiveValue} (h : ∀ s ∈ value.texts, s.pairFree = true) :
    (value.taggedValue : JsonTree F).Readable none := by
  have hname : ∀ s : String, (PyStr.ofString s).pairFree = true := fun s => PyStr.pairFree_of_scalar (PyStr.scalar_ofString s)
  cases value with
  | decimal d => exact readable_pair (by decide) (readable_str (hname _)) (readable_str (PyStr.pairFree_map_ofChar _))
  | integer n => exact readable_pair (by decide) (readable_str (hname _)) (readable_int n)
  | string s => exact readable_pair (by decide) (readable_str (hname _)) (readable_str (h s (by simp [AdaptiveValue.texts])))
  | stringTuple items =>
    refine readable_pair (by decide) (readable_str (hname _)) (readable_list fun x hx => ?_)
    obtain ⟨s, hs, rfl⟩ := List.mem_map.1 hx
    exact readable_str (h s hs)

theorem readable_joinedVector (v : AdaptiveVector) : ((joinedVector v).document : JsonTree F).Readable none := by
  refine readable_list fun x hx => ?_
  obtain ⟨e, he, rfl⟩ := List.mem_map.1 hx
  obtain ⟨e', -, rfl⟩ := List.mem_map.1 he
  refine readable_pair (by decide) (readable_str (PyStr.pairFree_joinPairs _)) (readable_taggedValue ?_)
  exact AdaptiveValue.pairFree_joined _

end

/-! ## What a digest tells -/

theorem decimalText_inj {d e : DecimalTuple} (h : AdaptiveValue.decimalText d = AdaptiveValue.decimalText e) : d = e := by
  have htext : d.text = e.text := List.map_injective_iff.2 (fun _ _ => PyStr.ofChar_inj) h
  have hread := DecimalTuple.read_text d
  rw [htext, DecimalTuple.read_text] at hread
  simpa using hread.symm

theorem taggedValue_inj {F : Type} {v w : AdaptiveValue} (h : (v.taggedValue : JsonTree F) = w.taggedValue) : v = w := by
  cases v <;> cases w <;>
    simp only [AdaptiveValue.taggedValue, document, List.map_cons, List.map_nil, JsonTree.dict.injEq, List.cons.injEq,
      Prod.mk.injEq, JsonTree.str.injEq, JsonTree.int.injEq, JsonTree.list.injEq, PyStr.ofString_inj, and_true,
      true_and, reduceCtorEq, and_false, String.reduceEq, false_and] at h
  · rw [decimalText_inj h]
  · rw [h]
  · rw [h]
  · rw [List.map_injective_iff.2 (fun _ _ => JsonTree.str.inj) h]

/-- **A text tells the joined entries of a vector.** -/
theorem joined_of_text {v w : AdaptiveVector}
    (h : (v.document : JsonTree Empty).text = (w.document : JsonTree Empty).text) :
    v.entries.map joinedEntry = w.entries.map joinedEntry := by
  -- the text is read back with the floats of some type, of which the documents have none
  let _ : FloatRead Unit := { isFinite := fun _ => true, repr := fun _ => [], parse := fun _ => () }
  let hooks : JsonHooks Unit Unit := ⟨fun items => .ok items, fun _ => .error (), none, (), ()⟩
  have hread : ∀ u : AdaptiveVector, JsonText.loads hooks (u.document : JsonTree Empty).text =
      .ok (joinedVector u).document := by
    intro u
    rw [text_of_joined (F := Empty) (G := Unit) (joinedEntry_joinedVector u).symm, JsonText.loads_text (fun _ _ => rfl) (readable_joinedVector u),
      sorted_vector]
  have hdocuments : ((joinedVector v).document : JsonTree Unit) = (joinedVector w).document :=
    Except.ok.inj ((hread v).symm.trans (h ▸ hread w))
  have hentries : (joinedVector v).entries.map joinedEntry = (joinedVector w).entries.map joinedEntry := by
    have := JsonTree.list.inj hdocuments
    have hpairs := List.forall₂_eq_eq_eq.symm ▸ this
    rw [List.forall₂_map_left_iff, List.forall₂_map_right_iff] at hpairs
    have hjoined : List.Forall₂ (fun e f => joinedEntry e = joinedEntry f) (joinedVector v).entries
        (joinedVector w).entries := by
      refine hpairs.imp fun e f hef => ?_
      simp only [AdaptiveParameter.document, document, List.map_cons, List.map_nil, JsonTree.dict.injEq,
        List.cons.injEq, Prod.mk.injEq, JsonTree.str.injEq, and_true, true_and] at hef
      rw [joinedEntry, joinedEntry, hef.1, taggedValue_inj hef.2]
    rw [← List.forall₂_eq_eq_eq, List.forall₂_map_left_iff, List.forall₂_map_right_iff]
    exact hjoined
  rw [← joinedEntry_joinedVector v, hentries, joinedEntry_joinedVector w]

/-- **A digest without collisions tells the joined entries of a vector**, and no more. -/
theorem digest_eq_iff [Sha256] (hcollision : Function.Injective Sha256.hexdigestBytes) {v w : AdaptiveVector} :
    digest v.document = digest w.document ↔ v.entries.map joinedEntry = w.entries.map joinedEntry := by
  constructor
  · intro h
    rw [digest, digest, PyStr.ofString_inj] at h
    have hbytes := hcollision h
    rw [← JsonText.utf8_eq, ← JsonText.utf8_eq] at hbytes
    exact joined_of_text (JsonText.utf8_inj hbytes)
  · intro h
    rw [digest, digest, text_of_joined (F := Empty) (G := Empty) h]

end Redteam

end Apar
