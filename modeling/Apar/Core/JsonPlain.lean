/-
The two spellings of a JSON text: `ensure_ascii=True`, which escapes every code point outside the printable ASCII range,
and `ensure_ascii=False`, which writes code points from U+007F on as they are. A library: nothing here is about payments.

- `loads_plainText`: the plain text of a tree without surrogates is read back.
-/
import Apar.Core.JsonRoundTrip

namespace Apar

namespace PyStr

/-- no code point is a surrogate -/
def scalar (s : PyStr) : Bool := s.all fun c => !isHigh c && !isLow c

/-- the Lean string of a text without surrogates -/
def toString? (s : PyStr) : Option String :=
  if s.scalar then some (String.ofList (s.map fun c => Char.ofNat c.val)) else none

theorem toNat_ofChar (c : Char) : (ofChar c).val = c.toNat := by
  have hlt : c.toNat < 0x110000 := by
    have := c.valid
    simp only [UInt32.isValidChar, Nat.isValidChar] at this
    simp only [Char.toNat]
    omega
  exact Nat.mod_eq_of_lt hlt

theorem ofChar_inj {c d : Char} (h : ofChar c = ofChar d) : c = d := by
  have := congrArg Fin.val h
  rw [toNat_ofChar, toNat_ofChar] at this
  rw [← Char.ofNat_toNat c, this, Char.ofNat_toNat]

theorem ofString_inj {s t : String} : ofString s = ofString t ↔ s = t := by
  refine ⟨fun h => ?_, fun h => h ▸ rfl⟩
  exact String.toList_inj.1 (List.map_injective_iff.2 (fun _ _ => ofChar_inj) h)

/-- the text of a Lean string has no surrogate -/
theorem scalar_ofString (s : String) : (ofString s).scalar = true := by
  simp only [scalar, ofString, List.all_map, List.all_eq_true, Function.comp_apply]
  intro c _
  have hvalid := c.valid
  simp only [UInt32.isValidChar, Nat.isValidChar] at hvalid
  have htoNat : c.toNat = c.val.toNat := rfl
  simp only [isHigh, isLow, toNat_ofChar, Bool.and_eq_true, Bool.not_eq_true', Bool.and_eq_false_iff,
    decide_eq_false_iff_not]
  omega

@[simp] theorem toString?_ofString (s : String) : (ofString s).toString? = some s := by
  rw [toString?, if_pos (scalar_ofString s), ofString, List.map_map]
  have hchars : ((fun c : CodePoint => Char.ofNat c.val) ∘ ofChar) = id := by
    funext c
    simp [toNat_ofChar, Char.ofNat_toNat]
  rw [hchars, List.map_id, String.ofList_toList]

theorem toNat_ofNat {c : CodePoint} (h : isHigh c = false ∧ isLow c = false) : (Char.ofNat c.val).toNat = c.val := by
  have hvalid : c.val.isValidChar := by
    have hlt := c.isLt
    simp only [isHigh, isLow, Bool.and_eq_false_iff, decide_eq_false_iff_not] at h
    simp only [Nat.isValidChar]
    omega
  rw [Char.ofNat, dif_pos hvalid]
  rfl

theorem ofChar_ofNat {c : CodePoint} (h : isHigh c = false ∧ isLow c = false) : ofChar (Char.ofNat c.val) = c :=
  Fin.ext (by rw [toNat_ofChar, toNat_ofNat h])

theorem ofString_toString? {s : PyStr} {t : String} (h : s.toString? = some t) : ofString t = s := by
  unfold toString? at h
  split_ifs at h with hs
  rw [← Option.some.inj h, ofString, String.toList_ofList, List.map_map]
  refine (List.map_congr_left fun c hc => ?_).trans (List.map_id _)
  have := List.all_eq_true.1 hs c hc
  rw [Bool.and_eq_true, Bool.not_eq_true', Bool.not_eq_true'] at this
  exact ofChar_ofNat this

theorem pairFree_of_scalar {s : PyStr} (h : s.scalar = true) : s.pairFree = true := by
  induction s with
  | nil => rfl
  | cons c s ih =>
    simp only [scalar, List.all_cons, Bool.and_eq_true, Bool.not_eq_true'] at h
    refine pairFree_cons.2 ⟨fun d _ hd => ?_, ih h.2⟩
    rw [h.1.1] at hd
    cases hd.1

end PyStr

namespace JsonText

open PyStr

/-- `text.encode("utf-8")` -/
def utf8 (cs : List Char) : List UInt8 := (String.ofList cs).toByteArray.data.toList

theorem utf8_inj {cs ds : List Char} (h : utf8 cs = utf8 ds) : cs = ds := by
  have hbytes : (String.ofList cs).toByteArray = (String.ofList ds).toByteArray :=
    ByteArray.ext (Array.toList_inj.1 h)
  have := congrArg ByteArray.utf8Decode? hbytes
  rw [String.toByteArray_ofList, String.toByteArray_ofList, List.utf8Decode?_utf8Encode, List.utf8Decode?_utf8Encode,
    Option.some.injEq] at this
  simpa using this

/-! ## The plain spelling -/

theorem scanUnits_plainPoint {c : CodePoint} (hc : isHigh c = false ∧ isLow c = false) (cs : List Char) :
    scanUnits (plainPoint c ++ cs) = (scanUnits cs).map fun p => (c :: p.1, p.2) := by
  unfold plainPoint
  split_ifs with h
  · have hn := toNat_ofNat hc
    rw [List.singleton_append, scanUnits_plain]
    · rw [ofChar_ofNat hc]
    · intro hq
      rw [hq] at hn
      have : (34 : ℕ) = c.val := hn
      omega
    · intro hq
      rw [hq] at hn
      have : (92 : ℕ) = c.val := hn
      omega
    · omega
  · have hunits : units c = [c] := by
      unfold units
      rw [if_pos (by omega)]
    rw [scanUnits_escapePoint, hunits]
    rfl

theorem scanUnits_plainQuote {s : PyStr} (h : s.scalar = true) (rest : List Char) :
    scanUnits (s.flatMap plainPoint ++ '"' :: rest) = some (s, rest) := by
  induction s with
  | nil => simpa using scanUnits_escape [] rest
  | cons c s ih =>
    simp only [scalar, List.all_cons, Bool.and_eq_true, Bool.not_eq_true'] at h
    rw [List.flatMap_cons, List.append_assoc, scanUnits_plainPoint h.1, ih (by simpa [scalar] using h.2)]
    rfl

theorem joinPairs_of_scalar {s : PyStr} (h : s.scalar = true) : joinPairs s = s := by
  induction s with
  | nil => rfl
  | cons c s ih =>
    simp only [scalar, List.all_cons, Bool.and_eq_true, Bool.not_eq_true'] at h
    rw [joinPairs_cons, ih (by simpa [scalar] using h.2)]
    intro d _ hd
    rw [h.1.1] at hd
    cases hd.1

theorem spelling_plainQuote : JsonTree.Spelling plainQuote scalar := by
  refine ⟨fun _ => ⟨_, rfl⟩, fun s h rest => ⟨s.flatMap plainPoint ++ '"' :: rest, by simp [plainQuote], ?_⟩⟩
  rw [scanString, scanUnits_plainQuote h, Option.map_some]
  exact congrArg (fun u => some (u, rest)) (joinPairs_of_scalar h)

/-- **The plain text of a tree is read back**, the items of its dicts in sorted order. -/
theorem loads_plainText {F ε : Type} [FloatRead F] {h : JsonHooks F ε}
    (hpairs : ∀ items, (items.map Prod.fst).Nodup → h.pairs items = .ok items) {fl : F → Bool} (hfl : FloatSpelling h fl)
    {t : JsonTree F} (ht : t.ReadableWith fl scalar h.digitLimit) : loads h t.plainText = .ok t.sorted :=
  loads_dumpWith hpairs spelling_plainQuote hfl (JsonTree.readableWith_sorted.2 ht)

/-! ## The two spellings of a string -/

end JsonText

/-! ## The two texts of a tree -/

namespace JsonTree

open JsonText PyStr

variable {F : Type} [FloatText F]

/-! ## The ASCII text -/

theorem hexChar_lt (n : ℕ) : (Uuid.hexChar n).toNat < 127 := by
  rcases lt_or_ge n 16 with h | h
  · have key : ∀ a < 16, (Uuid.hexChar a).toNat < 127 := by decide
    exact key n h
  · rw [Uuid.hexChar, List.getElem?_eq_none (by simpa [hexChars] using h)]
    decide

theorem mem_escapePoint {c : CodePoint} {d : Char} (h : d ∈ escapePoint c) : d.toNat < 127 := by
  have hhex : ∀ n, ∀ d ∈ Json.hex4 n, d.toNat < 127 := by
    intro n d hd
    simp only [Json.hex4, List.mem_cons, List.not_mem_nil, or_false] at hd
    rcases hd with rfl | rfl | rfl | rfl <;> exact hexChar_lt _
  have hletter : ∀ cs : List Char, (∀ d ∈ cs, d.toNat < 127) → d ∈ cs → d.toNat < 127 := fun cs h hd => h d hd
  unfold escapePoint at h
  dsimp only at h
  split_ifs at h with h1 h2 h3 h4 h5 h6 h7 h8 h9
  · exact hletter _ (by decide) h
  · exact hletter _ (by decide) h
  · exact hletter _ (by decide) h
  · exact hletter _ (by decide) h
  · exact hletter _ (by decide) h
  · exact hletter _ (by decide) h
  · exact hletter _ (by decide) h
  · have hvalid : c.val.isValidChar := .inl (by omega)
    rw [List.mem_singleton.1 h, Char.ofNat, dif_pos hvalid]
    show c.val < 127
    omega
  · simp only [List.mem_cons] at h
    rcases h with rfl | rfl | h
    · decide
    · decide
    · exact hhex _ d h
  · simp only [List.cons_append, List.mem_cons, List.mem_append] at h
    rcases h with rfl | rfl | h | rfl | rfl | h
    · decide
    · decide
    · exact hhex _ d h
    · decide
    · decide
    · exact hhex _ d h

theorem mem_intText {n : ℤ} {d : Char} (h : d ∈ Decimal.intText n) : d.toNat < 127 := by
  have hdigit : ∀ m : ℕ, d ∈ Decimal.natText m → d.toNat < 127 := by
    intro m hm
    have hd := natText_digits hm
    simp only [Char.isDigit, Bool.and_eq_true, decide_eq_true_eq] at hd
    have hle : d.val.toNat ≤ (57 : UInt32).toNat := UInt32.le_iff_toNat_le.1 hd.2
    have h57 : (57 : UInt32).toNat = 57 := rfl
    show d.val.toNat < 127
    omega
  unfold Decimal.intText at h
  split_ifs at h
  · rcases List.mem_cons.1 h with rfl | h
    · decide
    · exact hdigit _ h
  · exact hdigit _ h

end JsonTree

end Apar
