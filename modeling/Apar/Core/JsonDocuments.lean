/-
JSON documents in bytes: objects with named fields, their canonical bytes, and reading them back. A library: nothing here
is about payments.

The canonical bytes of a value are `json.dumps(value, sort_keys=True, separators=(",", ":"), ensure_ascii=False,
allow_nan=False).encode()`. They are read by `json.loads`, which takes a text in UTF-8; a text in another encoding is not
canonical, and reading it is an error here.

- `loadsBytes_canonicalBytes`: canonical bytes are read back, the items of every object in sorted order.
- `get?_sorted`: sorting a document does not move its fields; `sorted_eq_object`: a document is its fields.
- `canonicalBytes_length`: the bytes of a document are at most its `weight`, which does not depend on the order of items.
-/
import Apar.Core.Dict
import Apar.Core.JsonPlain

namespace Apar

/-! ## Objects -/

namespace JsonTree

variable {F : Type}

/-- the object with these fields -/
def object (fields : List (String × JsonTree F)) : JsonTree F :=
  .dict (fields.map fun p => (PyStr.ofString p.1, p.2))

def textValue (s : String) : JsonTree F := .str (PyStr.ofString s)

def optional {α : Type} (f : α → JsonTree F) (x : Option α) : JsonTree F := (x.map f).getD .null

/-- `value.get(name)` -/
def get? (t : JsonTree F) (name : String) : Option (JsonTree F) :=
  match t with
  | .dict items => Assoc.get? (PyStr.ofString name) items
  | _ => none

/-- the keys of an object -/
def keys : JsonTree F → List PyStr
  | .dict items => items.map Prod.fst
  | _ => []

/-- the value is this text -/
def isText (t : Option (JsonTree F)) (s : String) : Bool :=
  match t with
  | some (.str p) => p = PyStr.ofString s
  | _ => false

/-- the object has no other field than these -/
def within (t : JsonTree F) (names : List String) : Bool := t.keys.all fun k => k ∈ names.map PyStr.ofString

/-- `set(document) == names` -/
def exactly (t : JsonTree F) (names : List String) : Bool :=
  t.within names && names.all fun n => PyStr.ofString n ∈ t.keys

theorem get?_object (fields : List (String × JsonTree F)) (name : String) :
    (object fields).get? name = Assoc.get? name fields := by
  unfold get? object
  induction fields with
  | nil => rfl
  | cons p fields ih =>
    obtain ⟨k, v⟩ := p
    simp only [List.map_cons, Assoc.get?, PyStr.ofString_inj, ih]

theorem keys_object (fields : List (String × JsonTree F)) :
    (object fields).keys = (fields.map Prod.fst).map PyStr.ofString := by
  simp [object, keys]

theorem keys_sorted_perm (t : JsonTree F) : t.sorted.keys.Perm t.keys := by
  cases t with
  | dict items =>
    rw [sorted_dict]
    refine ((sortBy_perm _ _).map Prod.fst).trans ?_
    rw [List.map_map]
    exact List.Perm.refl _
  | _ => simp [sorted, keys]

theorem within_sorted (t : JsonTree F) (names : List String) : t.sorted.within names = t.within names :=
  (keys_sorted_perm t).all_eq

theorem exactly_sorted (t : JsonTree F) (names : List String) : t.sorted.exactly names = t.exactly names := by
  have hmem : ∀ n ∈ names, decide (PyStr.ofString n ∈ t.sorted.keys) = decide (PyStr.ofString n ∈ t.keys) :=
    fun n _ => decide_eq_decide.2 (keys_sorted_perm t).mem_iff
  rw [exactly, exactly, within_sorted, all_congr_mem hmem]

/-- **Sorting moves no field.** -/
theorem get?_sorted {items : List (PyStr × JsonTree F)} (hn : (items.map Prod.fst).Nodup) (name : String) :
    (dict items).sorted.get? name = ((dict items).get? name).map sorted := by
  rw [sorted_dict]
  show Assoc.get? _ _ = (Assoc.get? _ _).map sorted
  rw [← Assoc.get?_map]
  have hmap : ((items.map fun i => (i.1, sorted i.2)).map Prod.fst).Nodup := by
    rw [List.map_map]
    exact hn
  have hperm := sortBy_perm Prod.fst (items.map fun i : PyStr × JsonTree F => (i.1, sorted i.2))
  cases hget : Assoc.get? (PyStr.ofString name) (items.map fun i => (i.1, sorted i.2)) with
  | none =>
    rw [Assoc.get?_eq_none] at hget ⊢
    rwa [(hperm.map Prod.fst).mem_iff]
  | some v =>
    exact Assoc.get?_of_mem ((hperm.map Prod.fst).nodup_iff.2 hmap) (hperm.mem_iff.2 (Assoc.mem_of_get? hget))

theorem nodup_object {fields : List (String × JsonTree F)} (hn : (fields.map Prod.fst).Nodup) :
    ((fields.map fun i => (PyStr.ofString i.1, i.2)).map Prod.fst).Nodup := by
  have := hn.map fun a b hab => PyStr.ofString_inj.1 hab
  rwa [List.map_map] at this ⊢

@[simp] theorem sorted_textValue (s : String) : (textValue s : JsonTree F).sorted = textValue s := by
  simp [textValue, sorted]

/-- **A document is its fields.** -/
theorem sorted_eq_object {items : List (PyStr × JsonTree F)} {fields : List (String × JsonTree F)}
    (hn : (items.map Prod.fst).Nodup) (hfields : (fields.map Prod.fst).Nodup)
    (hwithin : (dict items).within (fields.map Prod.fst) = true)
    (hget : ∀ f ∈ fields, ∃ v, (dict items).get? f.1 = some v ∧ v.sorted = f.2.sorted) :
    (dict items).sorted = (object fields).sorted := by
  rw [object, sorted_dict, sorted_dict, List.map_map]
  have hnA : ((items.map fun i => (i.1, sorted i.2)).map Prod.fst).Nodup := by
    rw [List.map_map]
    exact hn
  have hnB : ((fields.map ((fun i : PyStr × JsonTree F => (i.1, sorted i.2)) ∘
      fun p : String × JsonTree F => (PyStr.ofString p.1, p.2))).map Prod.fst).Nodup := by
    have := nodup_object hfields
    rw [List.map_map] at this ⊢
    exact this
  refine congrArg dict (sortBy_congr ?_ hnA)
  rw [List.perm_ext_iff_of_nodup (List.Nodup.of_map _ hnA) (List.Nodup.of_map _ hnB)]
  intro p
  simp only [List.mem_map, Function.comp_apply]
  constructor
  · rintro ⟨⟨k, v⟩, hkv, rfl⟩
    have hk := List.all_eq_true.1 hwithin k (List.mem_map.2 ⟨(k, v), hkv, rfl⟩)
    obtain ⟨n, hname, rfl⟩ := List.mem_map.1 (of_decide_eq_true hk)
    obtain ⟨f, hf, rfl⟩ := List.mem_map.1 hname
    obtain ⟨w, hw, hsorted⟩ := hget f hf
    have hv : (dict items).get? f.1 = some v := Assoc.get?_of_mem hn hkv
    rw [hw, Option.some.injEq] at hv
    exact ⟨f, hf, by rw [← hv, hsorted]⟩
  · rintro ⟨f, hf, rfl⟩
    obtain ⟨w, hw, hsorted⟩ := hget f hf
    exact ⟨_, Assoc.mem_of_get? hw, by rw [hsorted]⟩

/-! ## Documents that can be written -/

section Fields

variable {p : JsonTree F → Bool}

theorem all_object (fields : List (String × JsonTree F)) :
    all p (object fields) = (p (object fields) && fields.all fun i => all p i.2) := by
  unfold object
  rw [all_dict, List.all_map]
  rfl

variable {fields : List (String × JsonTree F)}

theorem distinctKeys_object (hn : (fields.map Prod.fst).Nodup) (h : ∀ i ∈ fields, i.2.distinctKeys = true) :
    (object fields).distinctKeys = true := by
  unfold distinctKeys at h ⊢
  rw [all_object, Bool.and_eq_true, List.all_eq_true]
  exact ⟨decide_eq_true (nodup_object hn), h⟩

theorem strings_object {q : PyStr → Bool} (hk : ∀ i ∈ fields, q (PyStr.ofString i.1) = true)
    (h : ∀ i ∈ fields, i.2.strings q = true) : (object fields).strings q = true := by
  unfold strings at h ⊢
  rw [all_object, Bool.and_eq_true, List.all_eq_true]
  refine ⟨?_, h⟩
  show (fields.map fun p => (PyStr.ofString p.1, p.2)).all (fun i => q i.1) = true
  rw [List.all_map, List.all_eq_true]
  exact hk

theorem intsFit_object {limit : Option ℕ} (h : ∀ i ∈ fields, i.2.intsFit limit = true) :
    (object fields).intsFit limit = true := by
  unfold intsFit at h ⊢
  rw [all_object, Bool.and_eq_true, List.all_eq_true]
  exact ⟨rfl, h⟩

theorem intsFit_field {limit : Option ℕ} (h : (object fields).intsFit limit = true) :
    ∀ i ∈ fields, i.2.intsFit limit = true := by
  unfold intsFit at h ⊢
  rw [all_object, Bool.and_eq_true, List.all_eq_true] at h
  exact h.2

theorem floats_object {q : F → Bool} (h : ∀ i ∈ fields, i.2.floats q = true) : (object fields).floats q = true := by
  unfold floats at h ⊢
  rw [all_object, Bool.and_eq_true, List.all_eq_true]
  exact ⟨rfl, h⟩

theorem floats_field {q : F → Bool} (h : (object fields).floats q = true) : ∀ i ∈ fields, i.2.floats q = true := by
  unfold floats at h ⊢
  rw [all_object, Bool.and_eq_true, List.all_eq_true] at h
  exact h.2

end Fields

end JsonTree

/-! ## Bytes -/

namespace JsonTree

variable {F : Type} [FloatText F]

/-- `sys.get_int_max_str_digits()` -/
def maxDigits : Option ℕ := some 4300

/-- `_canonical_bytes`; a float that is not finite, a lone surrogate, and an integer of too many digits are errors -/
def canonicalBytes (t : JsonTree F) : Option (List UInt8) :=
  if t.floats FloatText.isFinite && t.strings PyStr.scalar && t.intsFit maxDigits then some (JsonText.utf8 t.plainText)
  else none

theorem canonicalBytes_eq_some {t : JsonTree F} {raw : List UInt8} :
    t.canonicalBytes = some raw ↔ t.floats FloatText.isFinite = true ∧ t.strings PyStr.scalar = true ∧
      t.intsFit maxDigits = true ∧ JsonText.utf8 t.plainText = raw := by
  unfold canonicalBytes
  split_ifs with h
  · rw [Bool.and_eq_true, Bool.and_eq_true, and_assoc] at h
    simp [h]
  · rw [Bool.and_eq_true, Bool.and_eq_true, and_assoc] at h
    simpa using fun h1 h2 h3 => absurd ⟨h1, h2, h3⟩ h

/-- a value that can be written -/
def writable (t : JsonTree F) : Bool := t.floats FloatText.isFinite && t.strings PyStr.scalar && t.intsFit maxDigits

theorem canonicalBytes_of_writable {t : JsonTree F} (h : t.writable = true) :
    t.canonicalBytes = some (JsonText.utf8 t.plainText) := if_pos h

@[simp] theorem writable_bool (b : Bool) : (JsonTree.bool b : JsonTree F).writable = true := by
  simp [writable, floats, strings, intsFit]

@[simp] theorem writable_textValue (s : String) : (textValue s : JsonTree F).writable = true := by
  simp [writable, floats, strings, intsFit, textValue, PyStr.scalar_ofString]

theorem writable_int {n : ℤ} (h : digitsFit maxDigits n = true) : (JsonTree.int n : JsonTree F).writable = true := by
  simp [writable, floats, strings, intsFit, h]

theorem writable_float {x : F} (h : FloatText.isFinite x = true) : (JsonTree.float x : JsonTree F).writable = true := by
  simp [writable, floats, strings, intsFit, h]

theorem writable_optional {α : Type} {f : α → JsonTree F} (h : ∀ a, (f a).writable = true) (x : Option α) :
    (JsonTree.optional f x).writable = true := by
  cases x with
  | none => simp [JsonTree.optional, writable, floats, strings, intsFit]
  | some a => exact h a

theorem writable_list {xs : List (JsonTree F)} (h : ∀ x ∈ xs, x.writable = true) :
    (JsonTree.list xs : JsonTree F).writable = true := by
  simp only [writable, Bool.and_eq_true] at h
  simp only [writable, floats, strings, intsFit, all_list, Bool.true_and, Bool.and_eq_true, List.all_eq_true]
  exact ⟨⟨fun x hx => (h x hx).1.1, fun x hx => (h x hx).1.2⟩, fun x hx => (h x hx).2⟩

theorem writable_object {fields : List (String × JsonTree F)} (h : ∀ i ∈ fields, i.2.writable = true) :
    (object fields).writable = true := by
  simp only [writable, Bool.and_eq_true] at h ⊢
  exact ⟨⟨floats_object fun i hi => (h i hi).1.1, strings_object (fun i _ => PyStr.scalar_ofString i.1) fun i hi => (h i hi).1.2⟩,
    intsFit_object fun i hi => (h i hi).2⟩

theorem canonicalBytes_sorted (t : JsonTree F) : t.sorted.canonicalBytes = t.canonicalBytes := by
  rw [canonicalBytes, canonicalBytes, floats_sorted, strings_sorted, intsFit_sorted, plainText, plainText, sorted_sorted]

end JsonTree

namespace JsonText

/-- `json.loads` of a text: a key's last value counts, and every failure is one error -/
def plainHooks (F : Type) [FloatRead F] : JsonHooks F Unit where
  pairs := fun items => .ok (items.foldl (fun dict item => Assoc.set item.1 item.2 dict) [])
  constant := fun word => .ok (.float (FloatRead.parse word.toList))
  digitLimit := JsonTree.maxDigits
  tooManyDigits := ()
  malformed := ()

variable {F : Type} [FloatRead F]

/-- `json.loads(raw)` -/
def loadsBytes (raw : List UInt8) : Option (JsonTree F) := do
  let cs ← (ByteArray.mk raw.toArray).utf8Decode?
  (loads (plainHooks F) cs.toList).toOption

theorem plainHooks_pairs {items : List (PyStr × JsonTree F)} (h : (items.map Prod.fst).Nodup) :
    (plainHooks F).pairs items = .ok items := by
  have key : ∀ (l done : List (PyStr × JsonTree F)), ((done ++ l).map Prod.fst).Nodup →
      l.foldl (fun dict item => Assoc.set item.1 item.2 dict) done = done ++ l := by
    intro l
    induction l with
    | nil => intro done _; exact (List.append_nil done).symm
    | cons p l ih =>
      intro done hn
      have hp : p.1 ∉ done.map Prod.fst := by
        rw [List.map_append, List.map_cons, List.nodup_append] at hn
        exact fun hmem => hn.2.2 _ hmem _ List.mem_cons_self rfl
      rw [List.foldl_cons, Assoc.set_of_not_mem hp, ih _ (by simpa using hn), List.append_assoc, List.singleton_append]
  exact congrArg Except.ok (key items [] h)

/-- a dict that was read has a key once, and its values are the ones read -/
theorem plainHooks_dict {items items' : List (PyStr × JsonTree F)} (h : (plainHooks F).pairs items = .ok items') :
    (items'.map Prod.fst).Nodup ∧ ∀ i ∈ items', ∃ j ∈ items, i.2 = j.2 := by
  have key : ∀ (l done : List (PyStr × JsonTree F)) (P : JsonTree F → Prop), (done.map Prod.fst).Nodup →
      (∀ i ∈ done, P i.2) → (∀ i ∈ l, P i.2) →
      ((l.foldl (fun dict item => Assoc.set item.1 item.2 dict) done).map Prod.fst).Nodup ∧
        ∀ i ∈ l.foldl (fun dict item => Assoc.set item.1 item.2 dict) done, P i.2 := by
    intro l
    induction l with
    | nil => exact fun done P hn hdone _ => ⟨hn, hdone⟩
    | cons q l ih =>
      intro done P hn hdone hl
      refine ih _ P (Assoc.nodup_set _ _ hn) ?_ fun i hi => hl i (by simp [hi])
      intro i hi
      have hget := Assoc.get?_of_mem (Assoc.nodup_set q.1 q.2 hn) hi
      rw [Assoc.get?_set] at hget
      split_ifs at hget with hk
      · rw [Option.some.inj hget.symm]
        exact hl q (by simp)
      · exact hdone _ (Assoc.mem_of_get? hget)
  cases h
  exact key items [] (fun v => ∃ j ∈ items, v = j.2) (by simp) (by simp) fun i hi => ⟨i, hi, rfl⟩

/-- **A document that was read has a key once.** -/
theorem distinctKeys_loadsBytes {raw : List UInt8} {t : JsonTree F} (h : loadsBytes raw = some t) :
    t.distinctKeys = true := by
  simp only [loadsBytes, Option.bind_eq_bind, Option.bind_eq_some_iff] at h
  obtain ⟨cs, -, hread⟩ := h
  obtain ⟨t', hload, heq⟩ : ∃ t', loads (plainHooks F) cs.toList = .ok t' ∧ t' = t := by
    cases hl : loads (plainHooks F) cs.toList with
    | error e =>
      rw [hl] at hread
      cases hread
    | ok t' =>
      rw [hl] at hread
      exact ⟨t', rfl, Option.some.inj hread⟩
  subst heq
  suffices hp : ReadProperty (plainHooks F) (fun _ => True) fun t => t.distinctKeys = true from loads_property hp hload
  constructor
  case constant =>
    intro word t hok
    cases hok
    simp [JsonTree.distinctKeys]
  case list =>
    intro xs hxs
    simp only [JsonTree.distinctKeys, JsonTree.all_list, Bool.true_and, List.all_eq_true]
    exact hxs
  case dict =>
    intro items items' hitems hp
    obtain ⟨hn, hmem⟩ := plainHooks_dict hp
    simp only [JsonTree.distinctKeys, JsonTree.all_dict, Bool.and_eq_true, List.all_eq_true, decide_eq_true_eq]
    refine ⟨hn, fun i hi => ?_⟩
    obtain ⟨j, hj, hij⟩ := hmem i hi
    exact hij ▸ (hitems j hj).2
  all_goals simp [JsonTree.distinctKeys]

theorem utf8Decode?_utf8 (cs : List Char) : (ByteArray.mk (utf8 cs).toArray).utf8Decode? = some cs.toArray := by
  have hbytes : ByteArray.mk (utf8 cs).toArray = (String.ofList cs).toByteArray := by
    rw [utf8, Array.toArray_toList]
  rw [hbytes, String.toByteArray_ofList, List.utf8Decode?_utf8Encode]

/-- **Canonical bytes are read back.** -/
theorem loadsBytes_canonicalBytes [LawfulFloatRead F] {t : JsonTree F} (hn : t.distinctKeys = true) {raw : List UInt8}
    (h : t.canonicalBytes = some raw) : loadsBytes raw = some t.sorted := by
  obtain ⟨hfloats, hstrings, hints, rfl⟩ := JsonTree.canonicalBytes_eq_some.1 h
  have hread := loads_plainText (h := plainHooks F) (fun _ hp => plainHooks_pairs hp) floatSpelling_finite
    (t := t) ⟨hn, hfloats, hstrings, hints⟩
  rw [loadsBytes, utf8Decode?_utf8]
  show (loads (plainHooks F) t.plainText.toArray.toList).toOption = _
  rw [List.toList_toArray, hread]
  rfl

end JsonText

/-! ## Lengths -/

namespace JsonText

theorem utf8_eq (cs : List Char) : utf8 cs = cs.flatMap String.utf8EncodeChar := by
  rw [utf8, String.toByteArray_ofList, List.utf8Encode, List.data_toByteArray]

@[simp] theorem utf8_nil : utf8 [] = [] := by rw [utf8_eq]; rfl

@[simp] theorem utf8_append (cs ds : List Char) : utf8 (cs ++ ds) = utf8 cs ++ utf8 ds := by
  rw [utf8_eq, utf8_eq, utf8_eq, List.flatMap_append]

theorem utf8_cons (c : Char) (cs : List Char) : utf8 (c :: cs) = String.utf8EncodeChar c ++ utf8 cs := by
  rw [utf8_eq, utf8_eq, List.flatMap_cons]

/-- a character below U+0080 is a byte -/
theorem length_utf8_of_ascii {cs : List Char} (h : ∀ c ∈ cs, c.toNat < 128) : (utf8 cs).length = cs.length := by
  induction cs with
  | nil => simp
  | cons c cs ih =>
    have hc : c.utf8Size = 1 := by
      rw [Char.utf8Size_eq_one_iff, UInt32.le_iff_toNat_le]
      have := h c (by simp)
      show c.toNat ≤ 127
      omega
    rw [utf8_cons, List.length_append, String.length_utf8EncodeChar, hc, ih fun d hd => h d (by simp [hd]),
      List.length_cons, Nat.add_comm]

theorem length_utf8_plainPoint (c : CodePoint) : (utf8 (plainPoint c)).length ≤ 6 := by
  unfold plainPoint
  split_ifs with h
  · rw [utf8_cons, utf8_nil, List.append_nil, String.length_utf8EncodeChar]
    have := Char.utf8Size_le_four (Char.ofNat c.val)
    omega
  · rw [length_utf8_of_ascii fun d hd => (JsonTree.mem_escapePoint hd).trans (by norm_num)]
    unfold escapePoint
    dsimp only
    have hlt : c.val < 65536 := by omega
    split_ifs <;> simp [Json.hex4]

/-- a string of `n` code points is written in at most `6 * n + 2` bytes -/
theorem length_utf8_plainQuote (s : PyStr) : (utf8 (plainQuote s)).length ≤ 6 * s.length + 2 := by
  have key : (utf8 (s.flatMap plainPoint)).length ≤ 6 * s.length := by
    induction s with
    | nil => simp
    | cons c s ih =>
      have := length_utf8_plainPoint c
      simp only [List.flatMap_cons, utf8_append, List.length_append, List.length_cons]
      omega
  have hquote : (utf8 ['"']).length = 1 := length_utf8_of_ascii (by decide)
  have hsplit : plainQuote s = ['"'] ++ s.flatMap plainPoint ++ ['"'] := rfl
  simp only [hsplit, utf8_append, List.length_append, hquote]
  omega

end JsonText

namespace Decimal

theorem length_natText_le {n k : ℕ} (hk : 0 < k) (h : n < 10 ^ k) : (natText n).length ≤ k :=
  (Nat.length_toDigits_le_iff (by norm_num) hk).2 h

theorem length_intText_natCast (n : ℕ) : (intText n).length = (natText n).length := by
  rw [intText, if_neg (by omega), Int.natAbs_natCast]

end Decimal

namespace JsonTree

open JsonText

variable {F : Type} [FloatText F]

mutual

/-- a bound of the bytes of a document -/
def weight : JsonTree F → ℕ
  | .null => 4
  | .bool _ => 5
  | .int n => (Decimal.intText n).length
  | .float x => (utf8 (FloatText.repr x)).length
  | .str s => 6 * s.length + 2
  | .list xs => 2 + weightElems xs
  | .dict items => 2 + weightItems items

def weightElems : List (JsonTree F) → ℕ
  | [] => 0
  | x :: xs => 1 + weight x + weightElems xs

def weightItems : List (PyStr × JsonTree F) → ℕ
  | [] => 0
  | (k, x) :: items => 6 * k.length + 4 + weight x + weightItems items

end

section

-- the equations are made here, once
attribute [local simp] weight weightElems weightItems

end

theorem weightElems_eq (xs : List (JsonTree F)) : weightElems xs = (xs.map fun x => 1 + weight x).sum := by
  induction xs with
  | nil => rfl
  | cons x xs ih => rw [weightElems, List.map_cons, List.sum_cons, ih]

theorem weightItems_eq (items : List (PyStr × JsonTree F)) :
    weightItems items = (items.map fun i => 6 * i.1.length + 4 + weight i.2).sum := by
  induction items with
  | nil => rfl
  | cons i items ih => rw [weightItems, List.map_cons, List.sum_cons, ih]

theorem weight_sorted (t : JsonTree F) : t.sorted.weight = t.weight := by
  induction t using induct with
  | null | bool | int | float | str => simp [sorted]
  | list xs ih =>
    rw [sorted_list, weight, weight, weightElems_eq, weightElems_eq, List.map_map]
    congr 2
    exact List.map_congr_left fun x hx => by rw [Function.comp_apply, ih x hx]
  | dict items ih =>
    rw [sorted_dict, weight, weight, weightItems_eq, weightItems_eq, ((sortBy_perm _ _).map _).sum_eq, List.map_map]
    congr 2
    exact List.map_congr_left fun i hi => by rw [Function.comp_apply, ih i hi]

theorem weight_object (fields : List (String × JsonTree F)) :
    (object fields).weight = 2 + (fields.map fun i => 6 * i.1.toList.length + 4 + i.2.weight).sum := by
  rw [object, weight, weightItems_eq, List.map_map]
  congr 3
  funext i
  simp [PyStr.ofString]

theorem weight_textValue (s : String) : (textValue s : JsonTree F).weight = 6 * s.toList.length + 2 := by
  simp [textValue, weight, PyStr.ofString]

theorem weight_natCast (n : ℕ) : (JsonTree.int n : JsonTree F).weight = (Decimal.natText n).length := by
  rw [weight, Decimal.length_intText_natCast]

theorem weight_optional_le {α : Type} {f : α → JsonTree F} {x : Option α} {w : ℕ} (hw : 4 ≤ w)
    (h : ∀ a ∈ x, (f a).weight ≤ w) : (JsonTree.optional f x).weight ≤ w := by
  cases x with
  | none => exact hw
  | some a => exact h a rfl

theorem weight_fields_le {fields : List (String × JsonTree F)} {n w : ℕ}
    (hnames : ∀ name ∈ fields.map Prod.fst, name.toList.length ≤ n) (h : ∀ i ∈ fields, i.2.weight ≤ w) :
    (fields.map fun i => 6 * i.1.toList.length + 4 + i.2.weight).sum ≤ fields.length * (6 * n + 4 + w) := by
  have := List.sum_le_card_nsmul (fields.map fun i => 6 * i.1.toList.length + 4 + i.2.weight) (6 * n + 4 + w) (by
    intro x hx
    obtain ⟨i, hi, rfl⟩ := List.mem_map.1 hx
    have := hnames i.1 (List.mem_map.2 ⟨i, hi, rfl⟩)
    have := h i hi
    omega)
  simpa using this

theorem weight_list_le {α : Type} {f : α → JsonTree F} {xs : List α} {w : ℕ} (h : ∀ x ∈ xs, (f x).weight ≤ w) :
    (JsonTree.list (xs.map f)).weight ≤ 2 + xs.length * (1 + w) := by
  have := List.sum_le_card_nsmul ((xs.map f).map fun x => 1 + x.weight) (1 + w) (by
    intro n hn
    obtain ⟨y, hy, rfl⟩ := List.mem_map.1 hn
    obtain ⟨x, hx, rfl⟩ := List.mem_map.1 hy
    have := h x hx
    omega)
  rw [weight, weightElems_eq]
  simpa using this

/-- one more byte than its characters have -/
theorem length_utf8_cons {c : Char} (h : c.toNat < 128) (cs : List Char) : (utf8 (c :: cs)).length = 1 + (utf8 cs).length := by
  have hone : (utf8 [c]).length = _ := length_utf8_of_ascii (by simpa using h)
  rw [utf8_cons, utf8_nil, List.append_nil, List.length_singleton] at hone
  rw [utf8_cons, List.length_append, hone]

theorem length_dumpWith_le (t : JsonTree F) : (utf8 (t.dumpWith plainQuote)).length ≤ t.weight := by
  induction t using induct with
  | null =>
    rw [dumpWith, weight]
    decide
  | bool b => cases b <;> rw [dumpWith, weight] <;> decide
  | int n =>
    rw [dumpWith, weight, length_utf8_of_ascii fun d hd => (mem_intText hd).trans (by norm_num)]
  | float x => rw [dumpWith, weight]
  | str s =>
    rw [dumpWith, weight]
    exact length_utf8_plainQuote s
  | list xs ih =>
    have hrest : ∀ ys : List (JsonTree F), (∀ y ∈ ys, (utf8 (y.dumpWith plainQuote)).length ≤ y.weight) →
        (utf8 (dumpElemsWith plainQuote ys)).length ≤ weightElems ys := by
      intro ys hys
      induction ys with
      | nil => simp [dumpElemsWith, weightElems]
      | cons y ys ihy =>
        have := hys y (by simp)
        have := ihy fun z hz => hys z (by simp [hz])
        rw [dumpElemsWith, weightElems, List.cons_append, length_utf8_cons (by decide), utf8_append, List.length_append]
        omega
    cases xs with
    | nil =>
      rw [dumpWith, weight, weightElems]
      decide
    | cons x xs =>
      have := ih x (by simp)
      have := hrest xs fun y hy => ih y (by simp [hy])
      have hclose : (utf8 [']']).length = 1 := length_utf8_of_ascii (by decide)
      rw [dumpWith, weight, weightElems]
      simp only [List.cons_append, length_utf8_cons (c := '[') (by decide), utf8_append, List.length_append, hclose]
      omega
  | dict items ih =>
    have hitem : ∀ (k : PyStr) (x : JsonTree F), (utf8 (x.dumpWith plainQuote)).length ≤ x.weight →
        (utf8 (plainQuote k ++ ':' :: x.dumpWith plainQuote)).length + 1 ≤ 6 * k.length + 4 + x.weight := by
      intro k x hx
      have := length_utf8_plainQuote k
      simp only [utf8_append, List.length_append, length_utf8_cons (c := ':') (by decide)]
      omega
    have hrest : ∀ js : List (PyStr × JsonTree F), (∀ j ∈ js, (utf8 (j.2.dumpWith plainQuote)).length ≤ j.2.weight) →
        (utf8 (dumpItemsWith plainQuote js)).length ≤ weightItems js := by
      intro js hjs
      induction js with
      | nil => simp [dumpItemsWith, weightItems]
      | cons j js ihj =>
        obtain ⟨k, x⟩ := j
        have := hitem k x (hjs (k, x) (by simp))
        have := ihj fun z hz => hjs z (by simp [hz])
        rw [dumpItemsWith, weightItems, List.cons_append, List.cons_append, length_utf8_cons (c := ',') (by decide),
          utf8_append, List.length_append]
        omega
    cases items with
    | nil =>
      rw [dumpWith, weight, weightItems]
      decide
    | cons i items =>
      obtain ⟨k, x⟩ := i
      have := hitem k x (ih (k, x) (by simp))
      have := hrest items fun j hj => ih j (by simp [hj])
      have hclose : (utf8 ['}']).length = 1 := length_utf8_of_ascii (by decide)
      have hsplit : (dict ((k, x) :: items)).dumpWith plainQuote =
          '{' :: ((plainQuote k ++ ':' :: x.dumpWith plainQuote) ++ (dumpItemsWith plainQuote items ++ ['}'])) := by
        rw [dumpWith]
        simp
      rw [hsplit, weight, weightItems, length_utf8_cons (c := '{') (by decide),
        utf8_append (plainQuote k ++ _), List.length_append, utf8_append _ ['}'], List.length_append, hclose]
      omega

/-- **The bytes of a document are bounded by its weight.** -/
theorem canonicalBytes_length {t : JsonTree F} {raw : List UInt8} (h : t.canonicalBytes = some raw) :
    raw.length ≤ t.weight := by
  obtain ⟨-, -, -, rfl⟩ := canonicalBytes_eq_some.1 h
  rw [← weight_sorted]
  exact length_dumpWith_le t.sorted

end JsonTree

end Apar
