/-
Which texts have one spelling, and what the spelling tells. A library: nothing here is about payments.

The ASCII spelling of a text is that of its UTF-16 units (`PyStr.utf16`), so a surrogate pair and the code point that it
stands for are spelled alike.

- `quote_append_inj`: a quoted text tells its units, and where it ends.
- `plain_iff`: a text is told apart from every other by its units exactly when it has neither a surrogate pair nor a code
  point beyond the basic plane.
- `array_append_inj`: an array tells its elements, when each of them tells where it ends.
-/
import Apar.Core.JsonPlain
import Apar.Core.DecimalText

namespace Apar

/-! ## Units -/

namespace PyStr

/-- the UTF-16 units of a text -/
def utf16 (s : PyStr) : PyStr := s.flatMap units

/-- a text of the basic plane without surrogate pairs -/
def plain (s : PyStr) : Bool := s.all (fun c => decide (c.val < 65536)) && pairFree s

@[simp] theorem utf16_nil : utf16 [] = [] := rfl

theorem utf16_cons (c : CodePoint) (s : PyStr) : utf16 (c :: s) = units c ++ utf16 s := List.flatMap_cons ..

variable {s : PyStr}

theorem utf16_of_basic (h : ∀ c ∈ s, c.val < 65536) : utf16 s = s := by
  induction s with
  | nil => rfl
  | cons c s ih =>
    rw [utf16_cons, units, if_pos (h c (by simp)), ih fun d hd => h d (by simp [hd])]
    rfl

theorem basic_utf16 (s : PyStr) : ∀ c ∈ utf16 s, c.val < 65536 := by
  intro c hc
  obtain ⟨d, -, hd⟩ := List.mem_flatMap.1 hc
  by_cases hbasic : d.val < 65536
  · rw [units, if_pos hbasic, List.mem_singleton] at hd
    rwa [hd]
  · obtain ⟨hi, lo, hpair, hhi, hlo, -, -⟩ := units_pair hbasic
    rw [hpair] at hd
    simp only [isHigh, isLow, Bool.and_eq_true, decide_eq_true_eq] at hhi hlo
    rcases List.mem_cons.1 hd with rfl | hd
    · omega
    · rw [List.mem_singleton.1 hd]
      omega

theorem utf16_utf16 (s : PyStr) : utf16 (utf16 s) = utf16 s := utf16_of_basic (basic_utf16 s)

theorem units_ne_nil (c : CodePoint) : units c ≠ [] := by
  unfold units
  split_ifs <;> simp

theorem utf16_eq_nil : utf16 s = [] ↔ s = [] := by
  cases s with
  | nil => simp
  | cons c s => simp [utf16_cons, units_ne_nil]

/-- a merged pair has the units of the pair -/
theorem units_join {h l : CodePoint} (hh : isHigh h = true) (hl : isLow l = true) : units (join h l) = [h, l] := by
  simp only [isHigh, isLow, Bool.and_eq_true, decide_eq_true_eq] at hh hl
  have hval : (join h l).val = 0x10000 + (h.val - 0xD800) * 0x400 + (l.val - 0xDC00) := by
    simp only [join, Fin.val_ofNat]
    exact Nat.mod_eq_of_lt (by omega)
  have hhi : Fin.ofNat 0x110000 (55296 + ((join h l).val - 65536) / 1024) = h := by
    apply Fin.ext
    rw [Fin.val_ofNat, hval, Nat.mod_eq_of_lt] <;> omega
  have hlo : Fin.ofNat 0x110000 (56320 + ((join h l).val - 65536) % 1024) = l := by
    apply Fin.ext
    rw [Fin.val_ofNat, hval, Nat.mod_eq_of_lt] <;> omega
  rw [units, if_neg (by omega), hhi, hlo]

theorem utf16_joinPairs (s : PyStr) : utf16 (joinPairs s) = utf16 s := by
  fun_induction joinPairs s with
  | case1 h l rest hpair ih =>
    rw [Bool.and_eq_true] at hpair
    have basic : ∀ c : CodePoint, isHigh c = true ∨ isLow c = true → units c = [c] := by
      intro c hc
      simp only [isHigh, isLow, Bool.and_eq_true, decide_eq_true_eq] at hc
      rw [units, if_pos (by omega)]
    rw [utf16_cons, utf16_cons, utf16_cons, units_join hpair.1 hpair.2, ih, basic h (.inl hpair.1), basic l (.inr hpair.2)]
    rfl
  | case2 h l rest hpair ih => rw [utf16_cons, utf16_cons, ih]
  | case3 s hs => rfl

theorem utf16_inj {t : PyStr} (hs : pairFree s = true) (ht : pairFree t = true) (h : utf16 s = utf16 t) : s = t := by
  rw [← joinPairs_units hs, ← joinPairs_units ht]
  exact congrArg joinPairs h

theorem basic_of_pairFree_utf16 (h : pairFree (utf16 s) = true) : ∀ c ∈ s, c.val < 65536 := by
  induction s with
  | nil => exact fun c hc => absurd hc List.not_mem_nil
  | cons c s ih =>
    rw [utf16_cons] at h
    by_cases hc : c.val < 65536
    · rw [units, if_pos hc] at h
      intro d hd
      rcases List.mem_cons.1 hd with rfl | hd
      · exact hc
      · exact ih (pairFree_cons.1 h).2 d hd
    · obtain ⟨hi, lo, hpair, hhi, hlo, -, -⟩ := units_pair hc
      rw [hpair] at h
      exact absurd ⟨hhi, hlo⟩ ((pairFree_cons.1 h).1 lo (by simp))

theorem plain_eq_true : plain s = true ↔ (∀ c ∈ s, c.val < 65536) ∧ pairFree s = true := by
  rw [plain, Bool.and_eq_true, List.all_eq_true]
  simp

/-- **Plain texts are those that no other text is spelled like.** -/
theorem plain_iff : plain s = true ↔ ∀ t, utf16 t = utf16 s → t = s := by
  rw [plain_eq_true]
  constructor
  · rintro ⟨hbasic, hpair⟩ t h
    rw [utf16_of_basic hbasic] at h
    have ht := utf16_of_basic (basic_of_pairFree_utf16 (h ▸ hpair))
    rw [← ht, h]
  · intro h
    have hbasic : ∀ c ∈ s, c.val < 65536 := by
      rw [← h _ (utf16_utf16 s)]
      exact basic_utf16 s
    refine ⟨hbasic, ?_⟩
    rw [← h _ (utf16_joinPairs s)]
    exact pairFree_joinPairs s

theorem pairFree_map_ofChar (cs : List Char) : pairFree (cs.map ofChar) = true := by
  have := scalar_ofString (String.ofList cs)
  rw [ofString, String.toList_ofList] at this
  exact pairFree_of_scalar this

/-- a text of characters is told by its units -/
theorem map_ofChar_inj {cs ds : List Char} (h : utf16 (cs.map ofChar) = utf16 (ds.map ofChar)) : cs = ds :=
  List.map_injective_iff.2 (fun _ _ => ofChar_inj) (utf16_inj (pairFree_map_ofChar cs) (pairFree_map_ofChar ds) h)

end PyStr

/-! ## Spellings -/

namespace JsonText

open PyStr

theorem escapePoint_units (c : CodePoint) : (units c).flatMap escapePoint = escapePoint c := by
  by_cases hc : c.val < 65536
  · rw [units, if_pos hc, List.flatMap_singleton]
  · have hlt := c.isLt
    have unit : ∀ n, 55296 ≤ n → n < 57344 → escapePoint (Fin.ofNat 0x110000 n) = '\\' :: 'u' :: Json.hex4 n := by
      intro n hle hn
      have hval : (Fin.ofNat 0x110000 n).val = n := Nat.mod_eq_of_lt (by omega)
      simp only [escapePoint, hval]
      rw [if_neg (by omega), if_neg (by omega), if_neg (by omega), if_neg (by omega), if_neg (by omega), if_neg (by omega),
        if_neg (by omega), if_neg (by omega), if_pos (by omega)]
    have hpoint : escapePoint c = '\\' :: 'u' :: Json.hex4 (55296 + (c.val - 65536) / 1024) ++
        '\\' :: 'u' :: Json.hex4 (56320 + (c.val - 65536) % 1024) := by
      simp only [escapePoint]
      rw [if_neg (by omega), if_neg (by omega), if_neg (by omega), if_neg (by omega), if_neg (by omega), if_neg (by omega),
        if_neg (by omega), if_neg (by omega), if_neg (by omega)]
    rw [units, if_neg hc, hpoint, List.flatMap_cons, List.flatMap_singleton, unit _ (by omega) (by omega),
      unit _ (by omega) (by omega)]

theorem escape_utf16 (s : PyStr) : (utf16 s).flatMap escapePoint = s.flatMap escapePoint := by
  rw [utf16, List.flatMap_assoc]
  exact congrArg (List.flatMap · s) (funext escapePoint_units)

/-- texts of the same units are spelled alike -/
theorem quote_congr {s t : PyStr} (h : utf16 s = utf16 t) : quote s = quote t := by
  rw [quote, quote, ← escape_utf16 s, h, escape_utf16]

variable {us vs sep : List Char}

/-- **A quoted text tells its units**, and where it ends. -/
theorem quote_append_inj {s t : PyStr} (h : quote s ++ us = quote t ++ vs) : utf16 s = utf16 t ∧ us = vs := by
  simp only [quote, List.cons_append, List.nil_append, List.append_assoc, List.cons.injEq, true_and] at h
  have hs := scanUnits_escape s us
  rw [h, scanUnits_escape t vs] at hs
  have := Prod.mk.inj (Option.some.inj hs)
  exact ⟨this.1.symm, this.2.symm⟩

/-! ## Arrays -/

section Arrays

variable {α κ : Type} (sep : List Char) (f : α → List Char)

/-- the elements after the first -/
def arrayRest : List α → List Char
  | [] => [']']
  | x :: xs => sep ++ f x ++ arrayRest xs

/-- an array with this text between its elements -/
def array : List α → List Char
  | [] => ['[', ']']
  | x :: xs => '[' :: f x ++ arrayRest sep f xs

variable {sep f}

theorem array_congr {k : α → κ} (hf : ∀ x y, k x = k y → f x = f y) {xs ys : List α} (h : xs.map k = ys.map k) :
    array sep f xs = array sep f ys := by
  have hrest : ∀ {xs ys : List α}, xs.map k = ys.map k → arrayRest sep f xs = arrayRest sep f ys := by
    intro xs
    induction xs with
    | nil =>
      intro ys h
      rw [List.map_nil, eq_comm, List.map_eq_nil_iff] at h
      rw [h]
    | cons x xs ih =>
      intro ys h
      cases ys with
      | nil => cases h
      | cons y ys =>
        rw [List.map_cons, List.map_cons, List.cons.injEq] at h
        rw [arrayRest, arrayRest, hf x y h.1, ih h.2]
  cases xs with
  | nil =>
    rw [List.map_nil, eq_comm, List.map_eq_nil_iff] at h
    rw [h]
  | cons x xs =>
    cases ys with
    | nil => cases h
    | cons y ys =>
      rw [List.map_cons, List.map_cons, List.cons.injEq] at h
      rw [array, array, hf x y h.1, hrest h.2]

variable {k : α → κ}

theorem arrayRest_append_inj (hsep : sep.head? = some ',')
    (hf : ∀ (x y : α) (us vs : List Char), f x ++ us = f y ++ vs → k x = k y ∧ us = vs) {xs ys : List α} {us vs : List Char}
    (h : arrayRest sep f xs ++ us = arrayRest sep f ys ++ vs) : xs.map k = ys.map k ∧ us = vs := by
  obtain ⟨rest, rfl⟩ : ∃ rest, sep = ',' :: rest := by
    cases sep with
    | nil => cases hsep
    | cons c rest => exact ⟨rest, by rw [Option.some.inj hsep]⟩
  induction xs generalizing ys with
  | nil =>
    cases ys with
    | nil => exact ⟨rfl, by simpa [arrayRest] using h⟩
    | cons y ys => simp [arrayRest] at h
  | cons x xs ih =>
    cases ys with
    | nil => simp [arrayRest] at h
    | cons y ys =>
      rw [arrayRest, arrayRest, List.append_assoc, List.append_assoc, List.append_assoc, List.append_assoc] at h
      obtain ⟨hx, hrest⟩ := hf x y _ _ (List.append_cancel_left h)
      obtain ⟨hxs, huv⟩ := ih hrest
      exact ⟨by rw [List.map_cons, List.map_cons, hx, hxs], huv⟩

/-- **An array tells its elements**, and where it ends. -/
theorem array_append_inj (hsep : sep.head? = some ',')
    (hf : ∀ (x y : α) (us vs : List Char), f x ++ us = f y ++ vs → k x = k y ∧ us = vs)
    (hopen : ∀ x, ∃ c cs, f x = c :: cs ∧ c ≠ ']') {xs ys : List α} {us vs : List Char}
    (h : array sep f xs ++ us = array sep f ys ++ vs) : xs.map k = ys.map k ∧ us = vs := by
  cases xs with
  | nil =>
    cases ys with
    | nil => exact ⟨rfl, by simpa [array] using h⟩
    | cons y ys =>
      obtain ⟨c, cs, hc, hne⟩ := hopen y
      simp only [array, hc, List.cons_append, List.cons.injEq, true_and] at h
      exact absurd h.1.symm hne
  | cons x xs =>
    cases ys with
    | nil =>
      obtain ⟨c, cs, hc, hne⟩ := hopen x
      simp only [array, hc, List.cons_append, List.cons.injEq, true_and] at h
      exact absurd h.1 hne
    | cons y ys =>
      simp only [array, List.cons_append, List.cons.injEq, true_and, List.append_assoc] at h
      obtain ⟨hx, hrest⟩ := hf x y _ _ h
      obtain ⟨hxs, huv⟩ := arrayRest_append_inj hsep hf hrest
      exact ⟨by rw [List.map_cons, List.map_cons, hx, hxs], huv⟩

end Arrays

/-- `json.dumps(texts)` with this text between the elements -/
def texts (sep : List Char) : List PyStr → List Char := array sep quote

theorem texts_append_inj (hsep : sep.head? = some ',') {xs ys : List PyStr}
    (h : texts sep xs ++ us = texts sep ys ++ vs) : xs.map utf16 = ys.map utf16 ∧ us = vs :=
  array_append_inj hsep (fun _ _ _ _ h => quote_append_inj h) (fun x => ⟨'"', _, rfl, by decide⟩) h

theorem texts_congr {xs ys : List PyStr} (h : xs.map utf16 = ys.map utf16) : texts sep xs = texts sep ys :=
  array_congr (fun _ _ => quote_congr) h

/-- `json.dumps(rows, separators=(",", ":"))`, of lists of texts -/
def rows (xs : List (List PyStr)) : List Char := array [','] (texts [',']) xs

/-- **Rows are spelled alike exactly when their texts have the same units.** -/
theorem rows_inj {xs ys : List (List PyStr)} : rows xs = rows ys ↔ xs.map (·.map utf16) = ys.map (·.map utf16) := by
  constructor
  · intro h
    refine (array_append_inj rfl (fun _ _ _ _ h => texts_append_inj rfl h) (fun x => ?_)
      (congrArg (· ++ []) h)).1
    cases x with
    | nil => exact ⟨'[', [']'], rfl, by decide⟩
    | cons x xs => exact ⟨'[', _, rfl, by decide⟩
  · exact array_congr fun _ _ => texts_congr

end JsonText

end Apar
