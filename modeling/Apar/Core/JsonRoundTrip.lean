/-
Reading back the text of a JSON tree. A library: nothing here is about payments.

- `scanString_quote`: a string without surrogate pairs is read back; `pairFree_joinPairs`: whatever is read has none.
- `scanNumber_intText`: an integer is read back, its sign apart.
- `scanFloat_repr`: a float is read back whose text is a number with a fraction or an exponent (`LawfulFloatRead`).
- `scanValue_dump`: a tree of distinct keys, without surrogate pairs, is read back from its text.
- `loads_property`: a property that holds of whatever is read; `loads_pairFree`: no tree that was read has a surrogate pair
  in a string, whatever the text.
- `loads_text`: the two put together.
-/
import Apar.Core.JsonTrees

namespace Apar

/-! ## Surrogate pairs -/

namespace PyStr

variable {c h l : CodePoint}

theorem pairFree_cons {s : PyStr} :
    pairFree (c :: s) = true ↔ (∀ d ∈ s.head?, ¬ (isHigh c = true ∧ isLow d = true)) ∧ pairFree s = true := by
  cases s with
  | nil => simp [pairFree]
  | cons d s =>
    rw [pairFree, Bool.and_eq_true, Bool.not_eq_true', ← Bool.not_eq_true, Bool.and_eq_true]
    simp

theorem joinPairs_cons {s : PyStr} (h : ∀ d ∈ s.head?, ¬ (isHigh c = true ∧ isLow d = true)) :
    joinPairs (c :: s) = c :: joinPairs s := by
  cases s with
  | nil => rfl
  | cons d s =>
    have hcd := h d (by simp)
    rw [joinPairs, if_neg (by simpa using hcd)]

theorem isLow_join (hh : isHigh h = true) (hl : isLow l = true) : isLow (join h l) = false := by
  simp only [isHigh, isLow, Bool.and_eq_true, decide_eq_true_eq] at hh hl
  have hval : (join h l).val = 0x10000 + (h.val - 0xD800) * 0x400 + (l.val - 0xDC00) := by
    simp only [join, Fin.val_ofNat]
    exact Nat.mod_eq_of_lt (by omega)
  simp only [isLow, hval, Bool.and_eq_false_iff, decide_eq_false_iff_not]
  omega

theorem isHigh_join (hh : isHigh h = true) (hl : isLow l = true) : isHigh (join h l) = false := by
  simp only [isHigh, isLow, Bool.and_eq_true, decide_eq_true_eq] at hh hl
  have hval : (join h l).val = 0x10000 + (h.val - 0xD800) * 0x400 + (l.val - 0xDC00) := by
    simp only [join, Fin.val_ofNat]
    exact Nat.mod_eq_of_lt (by omega)
  simp only [isHigh, hval, Bool.and_eq_false_iff, decide_eq_false_iff_not]
  omega

/-- the merged string starts with what the units start with, or with a merged pair -/
theorem head_joinPairs {u : PyStr} {d : CodePoint} (h : d ∈ (joinPairs u).head?) (hd : isLow d = true) :
    d ∈ u.head? := by
  fun_cases joinPairs u with
  | case1 a b rest hab =>
    rw [joinPairs, if_pos hab] at h
    rw [Bool.and_eq_true] at hab
    simp only [List.head?_cons, Option.mem_some_iff] at h
    rw [← h, isLow_join hab.1 hab.2] at hd
    cases hd
  | case2 a b rest hab =>
    rw [joinPairs, if_neg hab] at h
    exact h
  | case3 u hu =>
    rw [joinPairs] at h
    · exact h
    · exact hu

/-- **What is read has no surrogate pair.** -/
theorem pairFree_joinPairs (u : PyStr) : pairFree (joinPairs u) = true := by
  fun_induction joinPairs u with
  | case1 a b rest hab ih =>
    rw [Bool.and_eq_true] at hab
    refine pairFree_cons.2 ⟨?_, ih⟩
    rintro d - ⟨hhigh, -⟩
    rw [isHigh_join hab.1 hab.2] at hhigh
    cases hhigh
  | case2 a b rest hab ih =>
    refine pairFree_cons.2 ⟨?_, ih⟩
    rintro d hd ⟨hhigh, hlow⟩
    have := head_joinPairs hd hlow
    simp only [List.head?_cons, Option.mem_some_iff] at this
    subst this
    exact hab (by simp [hhigh, hlow])
  | case3 u hu =>
    match u with
    | [] | [_] => rfl
    | a :: b :: rest => exact (hu a b rest rfl).elim

/-- the units in which a code point is written -/
def units (c : CodePoint) : PyStr :=
  if c.val < 65536 then [c]
  else [Fin.ofNat 0x110000 (55296 + (c.val - 65536) / 1024), Fin.ofNat 0x110000 (56320 + (c.val - 65536) % 1024)]

/-- a code point above the basic plane is written as the surrogate pair that is merged into it -/
theorem units_pair (h : ¬ c.val < 65536) :
    ∃ hi lo, units c = [hi, lo] ∧ isHigh hi = true ∧ isLow lo = true ∧ join hi lo = c ∧ isLow hi = false := by
  have hc := c.isLt
  have hhi : (Fin.ofNat 0x110000 (55296 + (c.val - 65536) / 1024)).val = 55296 + (c.val - 65536) / 1024 := by
    rw [Fin.val_ofNat]
    exact Nat.mod_eq_of_lt (by omega)
  have hlo : (Fin.ofNat 0x110000 (56320 + (c.val - 65536) % 1024)).val = 56320 + (c.val - 65536) % 1024 := by
    rw [Fin.val_ofNat]
    exact Nat.mod_eq_of_lt (by omega)
  refine ⟨_, _, if_neg h, ?_, ?_, ?_, ?_⟩
  · simp only [isHigh, hhi, Bool.and_eq_true, decide_eq_true_eq]
    omega
  · simp only [isLow, hlo, Bool.and_eq_true, decide_eq_true_eq]
    omega
  · apply Fin.ext
    rw [join, hhi, hlo, Fin.val_ofNat]
    rw [Nat.mod_eq_of_lt] <;> omega
  · simp only [isLow, hhi, Bool.and_eq_false_iff, decide_eq_false_iff_not]
    omega

/-- **Merging undoes splitting** where there was no pair to begin with. -/
theorem joinPairs_units {s : PyStr} (h : pairFree s = true) : joinPairs (s.flatMap units) = s := by
  induction s with
  | nil => rfl
  | cons c s ih =>
    obtain ⟨hnext, hs⟩ := pairFree_cons.1 h
    rw [List.flatMap_cons]
    by_cases hc : c.val < 65536
    · have hunits : units c = [c] := if_pos hc
      rw [hunits, List.singleton_append, joinPairs_cons, ih hs]
      rintro d hd ⟨hhigh, hlow⟩
      cases s with
      | nil => cases hd
      | cons e s =>
        rw [List.flatMap_cons] at hd
        by_cases he : e.val < 65536
        · rw [units, if_pos he] at hd
          simp only [List.singleton_append, List.head?_cons, Option.mem_some_iff] at hd
          exact hnext e (by simp) ⟨hhigh, hd ▸ hlow⟩
        · obtain ⟨hi, lo, hpair, -, -, -, hnot⟩ := units_pair he
          rw [hpair] at hd
          simp only [List.cons_append, List.head?_cons, Option.mem_some_iff] at hd
          rw [← hd, hnot] at hlow
          cases hlow
    · obtain ⟨hi, lo, hpair, hhi, hlo, hjoin, -⟩ := units_pair hc
      rw [hpair, List.cons_append, List.singleton_append, joinPairs, if_pos (by rw [hhi, hlo]; rfl), hjoin, ih hs]

end PyStr

/-! ## Strings -/

namespace JsonText

open PyStr

theorem hexValue_hexChar {n : ℕ} (h : n < 16) : Uuid.hexValue (Uuid.hexChar n) = some n := by
  have key : ∀ a < 16, Uuid.hexValue (Uuid.hexChar a) = some a := by decide
  exact key n h

variable {cs rest : List Char}

theorem scanUnits_unicode {a b c d : Char} {u : CodePoint} (h : hexQuad a b c d = some u) :
    scanUnits ('\\' :: 'u' :: a :: b :: c :: d :: cs) = (scanUnits cs).map fun p => (u :: p.1, p.2) := by
  rw [scanUnits, h]
  cases scanUnits cs <;> rfl

theorem scanUnits_hex4 {n : ℕ} (hn : n < 65536) (cs : List Char) :
    scanUnits ('\\' :: 'u' :: Json.hex4 n ++ cs) =
      (scanUnits cs).map fun p => (Fin.ofNat 0x110000 n :: p.1, p.2) := by
  refine scanUnits_unicode ?_
  have hlt : ∀ m : ℕ, m % 16 < 16 := fun m => Nat.mod_lt m (by norm_num)
  simp only [hexQuad, hexValue_hexChar (hlt _), Option.bind_eq_bind, Option.bind_some, Option.some.injEq]
  congr 1
  omega

theorem scanUnits_simple {e : Char} {u : CodePoint} (h : simpleEscape e = some u) :
    scanUnits ('\\' :: e :: cs) = (scanUnits cs).map fun p => (u :: p.1, p.2) := by
  have hu : e ≠ 'u' := by
    rintro rfl
    have : simpleEscape 'u' = none := by decide
    rw [this] at h
    cases h
  rw [scanUnits, h]
  · cases scanUnits cs <;> rfl
  · intro a b c d rest he
    exact fun _ => hu he

theorem scanUnits_plain {c : Char} (hq : c ≠ '"') (hb : c ≠ '\\') (hc : ¬ c.toNat < 32) :
    scanUnits (c :: cs) = (scanUnits cs).map fun p => (ofChar c :: p.1, p.2) := by
  rw [scanUnits, if_neg hq, if_neg hc]
  · cases scanUnits cs <;> rfl
  · intro a b c' d rest he
    exact absurd he hb
  · intro e rest he
    exact absurd he hb

/-- one code point read back, as its units -/
theorem scanUnits_escapePoint (c : CodePoint) (cs : List Char) :
    scanUnits (escapePoint c ++ cs) = (scanUnits cs).map fun p => (units c ++ p.1, p.2) := by
  have short : c.val < 65536 → ∀ {e : Char} {n : CodePoint}, simpleEscape e = some n → c = n →
      scanUnits (['\\', e] ++ cs) = (scanUnits cs).map fun p => (units c ++ p.1, p.2) := by
    intro hc e n he hcn
    rw [units, if_pos hc]
    subst hcn
    exact scanUnits_simple he
  unfold escapePoint
  dsimp only
  split_ifs with h1 h2 h3 h4 h5 h6 h7 h8 h9
  · exact short (by omega) (n := 34) (by decide) (Fin.ext h1)
  · exact short (by omega) (n := 92) (by decide) (Fin.ext h2)
  · exact short (by omega) (n := 10) (by decide) (Fin.ext h3)
  · exact short (by omega) (n := 13) (by decide) (Fin.ext h4)
  · exact short (by omega) (n := 9) (by decide) (Fin.ext h5)
  · exact short (by omega) (n := 12) (by decide) (Fin.ext h6)
  · exact short (by omega) (n := 8) (by decide) (Fin.ext h7)
  · have hnat : (Char.ofNat c.val).toNat = c.val := by
      rw [Char.ofNat, dif_pos (Or.inl (by omega))]
      rfl
    have hself : ofChar (Char.ofNat c.val) = c := by
      apply Fin.ext
      rw [ofChar, Fin.val_ofNat, hnat]
      exact Nat.mod_eq_of_lt c.isLt
    rw [units, if_pos (by omega), List.singleton_append, scanUnits_plain, hself]
    · rfl
    · intro he
      exact h1 (hnat ▸ congrArg Char.toNat he)
    · intro he
      exact h2 (hnat ▸ congrArg Char.toNat he)
    · omega
  · have hself : Fin.ofNat 0x110000 c.val = c := Fin.ext (Nat.mod_eq_of_lt c.isLt)
    rw [units, if_pos h9, scanUnits_hex4 h9, hself]
    rfl
  · have hc := c.isLt
    rw [units, if_neg h9, List.append_assoc, scanUnits_hex4 (by omega), scanUnits_hex4 (by omega), Option.map_map]
    rfl

theorem scanUnits_escape (s : PyStr) (rest : List Char) :
    scanUnits (s.flatMap escapePoint ++ '"' :: rest) = some (s.flatMap units, rest) := by
  induction s with
  | nil =>
    have hclose : scanUnits ('"' :: rest) = some ([], rest) := by
      rw [scanUnits, if_pos rfl]
      · intro a b c d rest' he
        cases he
      · intro e rest' he
        cases he
    exact hclose
  | cons c s ih => rw [List.flatMap_cons, List.append_assoc, scanUnits_escapePoint, ih]; rfl

/-- **Strings are read back.** -/
theorem scanString_quote {s : PyStr} (h : pairFree s = true) (rest : List Char) :
    ∃ cs, quote s ++ rest = '"' :: cs ∧ scanString cs = some (s, rest) := by
  refine ⟨s.flatMap escapePoint ++ '"' :: rest, ?_, ?_⟩
  · simp [quote]
  · rw [scanString, scanUnits_escape, Option.map_some]
    show some (joinPairs (s.flatMap units), rest) = some (s, rest)
    rw [joinPairs_units h]

theorem scanString_pairFree {s : PyStr} (h : scanString cs = some (s, rest)) : pairFree s = true := by
  unfold scanString at h
  cases hu : scanUnits cs with
  | none => simp [hu] at h
  | some p =>
    simp only [hu, Option.map_some, Option.some.injEq, Prod.mk.injEq] at h
    exact h.1 ▸ pairFree_joinPairs _

/-! ## Numbers -/

/-- what may follow a number without being read as part of it -/
def Ends (rest : List Char) : Prop := ∀ c ∈ rest.head?, c.isDigit = false ∧ c ≠ '.' ∧ c ≠ 'e' ∧ c ≠ 'E'

theorem ends_nil : Ends [] := by
  intro c hc
  cases hc

theorem ends_cons {c : Char} (h : c.isDigit = false ∧ c ≠ '.' ∧ c ≠ 'e' ∧ c ≠ 'E') : Ends (c :: rest) := by
  intro d hd
  simp only [List.head?_cons, Option.mem_some_iff] at hd
  exact hd ▸ h

theorem natText_digits {n : ℕ} {c : Char} (h : c ∈ Decimal.natText n) : c.isDigit = true :=
  Nat.isDigit_of_mem_toDigits (by norm_num) (by norm_num) h

/-- a positive number does not start with a zero -/
theorem natText_head {n : ℕ} (hn : 0 < n) : ∃ c cs, Decimal.natText n = c :: cs ∧ c ≠ '0' := by
  induction n using Nat.strong_induction_on with
  | _ n ih =>
    unfold Decimal.natText at ih ⊢
    rcases lt_or_ge n 10 with hlt | hge
    · refine ⟨n.digitChar, [], Nat.toDigits_of_lt_base hlt, ?_⟩
      have key : ∀ a < 10, 0 < a → Nat.digitChar a ≠ '0' := by decide
      exact key n hlt hn
    · obtain ⟨c, cs, heq, hc⟩ := ih (n / 10) (by omega) (by omega)
      refine ⟨c, cs ++ [(n % 10).digitChar], ?_, hc⟩
      rw [Nat.toDigits_of_base_le (by norm_num) hge, heq, List.cons_append]

/-- the digits at the start of a text end where another character follows -/
theorem digits_stop {ds : List Char} (hds : ∀ d ∈ ds, d.isDigit = true) (h : ∀ c ∈ rest.head?, c.isDigit = false) :
    (ds ++ rest).takeWhile Char.isDigit = ds ∧ (ds ++ rest).dropWhile Char.isDigit = rest := by
  have hrest : rest.takeWhile Char.isDigit = [] ∧ rest.dropWhile Char.isDigit = rest := by
    cases rest with
    | nil => exact ⟨rfl, rfl⟩
    | cons c cs =>
      have hc := h c (by simp)
      exact ⟨by rw [List.takeWhile_cons, hc]; rfl, by rw [List.dropWhile_cons, hc]; rfl⟩
  rw [List.takeWhile_append_of_pos hds, List.dropWhile_append_of_pos hds, hrest.1, hrest.2, List.append_nil]
  exact ⟨rfl, rfl⟩

theorem scanInt_natText (n : ℕ) (h : ∀ c ∈ rest.head?, c.isDigit = false) :
    scanInt (Decimal.natText n ++ rest) = some (Decimal.natText n, rest) := by
  rcases Nat.eq_zero_or_pos n with rfl | hn
  · have hzero : Decimal.natText 0 = ['0'] := rfl
    rw [hzero, List.singleton_append, scanInt, if_pos rfl]
  · obtain ⟨c, cs, heq, hc⟩ := natText_head hn
    have hdigit : ∀ d ∈ c :: cs, d.isDigit = true := fun d hd => natText_digits (heq ▸ hd)
    have hcs : ∀ d ∈ cs, d.isDigit = true := fun d hd => hdigit d (by simp [hd])
    rw [heq, List.cons_append, scanInt, if_neg hc, if_pos (hdigit c (by simp)), (digits_stop hcs h).1, (digits_stop hcs h).2]

theorem scanFraction_ends (h : Ends rest) : scanFraction rest = ([], rest) := by
  cases rest with
  | nil => rfl
  | cons c cs =>
    rw [scanFraction, if_neg]
    exact fun hc => (h c (by simp)).2.1 hc.1

theorem scanExponent_ends (h : Ends rest) : scanExponent rest = ([], rest) := by
  cases rest with
  | nil => rfl
  | cons c cs =>
    obtain ⟨-, -, he, hE⟩ := h c (by simp)
    rw [scanExponent]
    split
    rw [if_neg]
    rintro ⟨rfl | rfl, -⟩
    · exact he rfl
    · exact hE rfl

variable {F ε : Type} [FloatRead F] {h : JsonHooks F ε}

theorem natText_cons (n : ℕ) : ∃ c cs, Decimal.natText n = c :: cs ∧ c.isDigit = true := by
  cases htext : Decimal.natText n with
  | nil => exact absurd htext Nat.toDigits_ne_nil
  | cons c cs => exact ⟨c, cs, rfl, natText_digits (n := n) (by simp [htext])⟩

theorem scanNumber_natText {n : ℕ} (negative : Bool) (hrest : Ends rest)
    (hfit : JsonTree.digitsFit h.digitLimit n = true) :
    scanNumber h negative (Decimal.natText n ++ rest) = .ok (.int (if negative then -(n : ℤ) else n), rest) := by
  have hread : Nat.ofDigitChars 10 (Decimal.natText n) 0 = n := Nat.ofDigitChars_ten_toDigits
  simp only [scanNumber, scanInt_natText n fun c hc => (hrest c hc).1, scanFraction_ends hrest, scanExponent_ends hrest, hread, hfit,
    and_self, if_true]

theorem after_eq_none {word : String} {w c : Char} {ws : List Char} (hword : word.toList = w :: ws) (hne : w ≠ c) :
    after word (c :: cs) = none := by
  rw [after, hword, if_neg]
  simp [List.isPrefixOf, hne]

/-- a text that starts as a number does is read as one -/
theorem scanScalar_digit {c : Char} (hc : c.isDigit = true) (cs : List Char) :
    scanScalar h (c :: cs) = scanNumber h false (c :: cs) := by
  have hne : ∀ d : Char, d.isDigit = false → d ≠ c := by
    rintro d hd rfl
    rw [hc] at hd
    cases hd
  rw [scanScalar, after_eq_none (w := 'n') rfl (hne _ (by decide)), after_eq_none (w := 't') rfl (hne _ (by decide)),
    after_eq_none (w := 'f') rfl (hne _ (by decide)), after_eq_none (w := 'N') rfl (hne _ (by decide)),
    after_eq_none (w := 'I') rfl (hne _ (by decide)), after_eq_none (w := '-') rfl (hne _ (by decide))]
  intro cs' heq
  rw [List.cons.injEq] at heq
  exact hne '-' (by decide) heq.1.symm

theorem scanScalar_minus {c : Char} (hc : c.isDigit = true) (cs : List Char) :
    scanScalar h ('-' :: c :: cs) = scanNumber h true (c :: cs) := by
  have hI : after "-Infinity" ('-' :: c :: cs) = none := by
    have hne : 'I' ≠ c := by
      rintro rfl
      cases hc
    rw [after, if_neg]
    simp [List.isPrefixOf, hne]
  rw [scanScalar, after_eq_none (w := 'n') rfl (by decide), after_eq_none (w := 't') rfl (by decide),
    after_eq_none (w := 'f') rfl (by decide), after_eq_none (w := 'N') rfl (by decide),
    after_eq_none (w := 'I') rfl (by decide), hI]

/-- **Integers are read back.** -/
theorem scanScalar_intText {n : ℤ} (hrest : Ends rest) (hfit : JsonTree.digitsFit h.digitLimit n = true) :
    scanScalar h (Decimal.intText n ++ rest) = .ok (.int n, rest) := by
  obtain ⟨c, cs, htext, hc⟩ := natText_cons n.natAbs
  have hfit' : JsonTree.digitsFit h.digitLimit (n.natAbs : ℤ) = true := by
    unfold JsonTree.digitsFit at hfit ⊢
    rwa [Int.natAbs_natCast]
  unfold Decimal.intText
  split_ifs with hneg
  · have hnumber := scanNumber_natText true hrest hfit'
    rw [htext] at hnumber ⊢
    rw [List.cons_append, List.cons_append, scanScalar_minus hc, ← List.cons_append, hnumber]
    congr 3
    simp only [if_true]
    omega
  · have hnumber := scanNumber_natText false hrest hfit'
    rw [htext] at hnumber ⊢
    rw [List.cons_append, scanScalar_digit hc, ← List.cons_append, hnumber]
    congr 3
    simp only [Bool.false_eq_true, if_false]
    omega

/-! ## Floats -/

/-- the text of a fraction, which may be missing -/
def IsFraction (cs : List Char) : Prop := cs = [] ∨ ∃ ds, ds ≠ [] ∧ (∀ d ∈ ds, d.isDigit = true) ∧ cs = '.' :: ds

/-- the text of an exponent, which may be missing -/
def IsExponent (cs : List Char) : Prop :=
  cs = [] ∨ ∃ sign ds, sign ∈ ['-', '+'] ∧ ds ≠ [] ∧ (∀ d ∈ ds, d.isDigit = true) ∧ cs = 'e' :: sign :: ds

/-- the text of a finite float is a number with a fraction or an exponent, and that float is read from it -/
class LawfulFloatRead (F : Type) [FloatRead F] : Prop where
  repr_number : ∀ x : F, FloatText.isFinite x = true → ∃ (negative : Bool) (n : ℕ) (fraction exponent : List Char),
    FloatText.repr x = (if negative then ['-'] else []) ++ Decimal.natText n ++ fraction ++ exponent ∧
      IsFraction fraction ∧ IsExponent exponent ∧ ¬ (fraction = [] ∧ exponent = [])
  parse_repr : ∀ x : F, FloatText.isFinite x = true → FloatRead.parse (FloatText.repr x) = x

theorem scanExponent_text {exponent : List Char} (he : IsExponent exponent) (h : Ends rest) :
    scanExponent (exponent ++ rest) = (exponent, rest) := by
  rcases he with rfl | ⟨sign, ds, hsign, hne, hds, rfl⟩
  · exact scanExponent_ends h
  · have hstop := digits_stop hds fun c hc => (h c hc).1
    have hscan : scanSign (sign :: (ds ++ rest)) = ([sign], ds ++ rest) := by
      rw [scanSign, if_pos (by simpa using hsign)]
    show scanExponent ('e' :: (sign :: (ds ++ rest))) = _
    simp only [scanExponent, hscan, hstop.1, hstop.2]
    rw [if_pos ⟨.inl trivial, hne⟩]
    rfl

theorem scanFraction_text {fraction : List Char} (hf : IsFraction fraction)
    (h : ∀ c ∈ rest.head?, c.isDigit = false ∧ c ≠ '.') : scanFraction (fraction ++ rest) = (fraction, rest) := by
  rcases hf with rfl | ⟨ds, hne, hds, rfl⟩
  · cases rest with
    | nil => rfl
    | cons c cs =>
      rw [List.nil_append, scanFraction, if_neg]
      exact fun hc => (h c (by simp)).2 hc.1
  · have hstop := digits_stop hds fun c hc => (h c hc).1
    rw [List.cons_append, scanFraction, hstop.1, hstop.2, if_pos ⟨rfl, hne⟩]

/-- **A float is read back.** -/
theorem scanFloat_repr [LawfulFloatRead F] {x : F} (hx : FloatText.isFinite x = true) (hrest : Ends rest) :
    scanScalar h (FloatText.repr x ++ rest) = .ok (.float x, rest) := by
  obtain ⟨negative, n, fraction, exponent, hrepr, hf, he, hsome⟩ := LawfulFloatRead.repr_number x hx
  have hexp : ∀ c ∈ (exponent ++ rest).head?, c.isDigit = false ∧ c ≠ '.' := by
    rcases he with rfl | ⟨sign, ds, -, -, -, rfl⟩
    · exact fun c hc => ⟨(hrest c hc).1, (hrest c hc).2.1⟩
    · intro c hc
      simp only [List.cons_append, List.head?_cons, Option.mem_some_iff] at hc
      exact hc ▸ ⟨by decide, by decide⟩
  have hfrac : ∀ c ∈ (fraction ++ (exponent ++ rest)).head?, c.isDigit = false := by
    rcases hf with rfl | ⟨ds, -, -, rfl⟩
    · exact fun c hc => (hexp c hc).1
    · intro c hc
      simp only [List.cons_append, List.head?_cons, Option.mem_some_iff] at hc
      exact hc ▸ by decide
  have hnumber : scanNumber h negative (Decimal.natText n ++ (fraction ++ (exponent ++ rest))) = .ok (.float x, rest) := by
    simp only [scanNumber, scanInt_natText n hfrac, scanFraction_text hf hexp, scanExponent_text he hrest, if_neg hsome]
    rw [← hrepr, LawfulFloatRead.parse_repr x hx]
  obtain ⟨c, cs, hn, hc⟩ := natText_cons n
  rw [hrepr]
  simp only [List.append_assoc]
  rw [hn] at hnumber ⊢
  cases negative with
  | true => exact (scanScalar_minus hc _).trans hnumber
  | false => exact (scanScalar_digit hc _).trans hnumber

end JsonText

/-! ## Trees -/

namespace JsonTree

variable {F : Type}

/-- what is needed of a tree to read it back: the floats of `fl`, and a spelling of the strings that are `ok` -/
def ReadableWith (fl : F → Bool) (ok : PyStr → Bool) (limit : Option ℕ) (t : JsonTree F) : Prop :=
  t.distinctKeys = true ∧ t.floats fl = true ∧ t.strings ok = true ∧ t.intsFit limit = true

/-- what is needed of a tree to read it back -/
def Readable (limit : Option ℕ) (t : JsonTree F) : Prop :=
  t.distinctKeys = true ∧ t.floatFree = true ∧ t.pairFree = true ∧ t.intsFit limit = true

variable {fl : F → Bool} {ok : PyStr → Bool} {limit : Option ℕ}

theorem readableWith_sorted {t : JsonTree F} : t.sorted.ReadableWith fl ok limit ↔ t.ReadableWith fl ok limit := by
  simp only [ReadableWith, distinctKeys_sorted, floats_sorted, strings_sorted, intsFit_sorted]

theorem readable_sorted {t : JsonTree F} : t.sorted.Readable limit ↔ t.Readable limit := readableWith_sorted

theorem ReadableWith.elem {xs : List (JsonTree F)} (h : ReadableWith fl ok limit (.list xs)) {x : JsonTree F}
    (hx : x ∈ xs) : x.ReadableWith fl ok limit := by
  simp only [ReadableWith, distinctKeys, floats, strings, intsFit, all_list, Bool.true_and, List.all_eq_true] at h
  exact ⟨h.1 x hx, h.2.1 x hx, h.2.2.1 x hx, h.2.2.2 x hx⟩

theorem ReadableWith.item {items : List (PyStr × JsonTree F)} (h : ReadableWith fl ok limit (.dict items))
    {i : PyStr × JsonTree F} (hi : i ∈ items) : ok i.1 = true ∧ i.2.ReadableWith fl ok limit := by
  simp only [ReadableWith, distinctKeys, floats, strings, intsFit, all_dict, Bool.true_and, Bool.and_eq_true,
    List.all_eq_true] at h
  exact ⟨h.2.2.1.1 i hi, h.1.2 i hi, h.2.1 i hi, h.2.2.1.2 i hi, h.2.2.2 i hi⟩

theorem ReadableWith.nodup {items : List (PyStr × JsonTree F)} (h : ReadableWith fl ok limit (.dict items)) :
    (items.map Prod.fst).Nodup := by
  have := h.1
  simp only [distinctKeys, all_dict, Bool.and_eq_true, decide_eq_true_eq] at this
  exact this.1

variable [FloatText F] {q : PyStr → List Char}

/-- a spelling of strings that the reader reads back, of those that are `ok` -/
structure Spelling (q : PyStr → List Char) (ok : PyStr → Bool) : Prop where
  opens : ∀ s, ∃ cs, q s = '"' :: cs
  scans : ∀ s, ok s = true → ∀ rest, ∃ cs, q s ++ rest = '"' :: cs ∧ JsonText.scanString cs = some (s, rest)

/-- the text of a number starts so -/
def Opens (cs : List Char) : Prop := ∃ c rest, cs = c :: rest ∧ (c = '-' ∨ c.isDigit = true)

theorem opens_intText (n : ℤ) : Opens (Decimal.intText n) := by
  unfold Decimal.intText
  split_ifs
  · exact ⟨'-', _, rfl, .inl rfl⟩
  · obtain ⟨c, cs, htext, hc⟩ := JsonText.natText_cons n.natAbs
    exact ⟨c, cs, htext, .inr hc⟩

theorem Opens.first {cs : List Char} (h : Opens cs) :
    ∃ c rest, cs = c :: rest ∧ JsonText.isSpace c = false ∧ c ≠ ']' ∧ c ≠ Char.ofNat 0xFEFF := by
  obtain ⟨c, rest, rfl, hc⟩ := h
  refine ⟨c, rest, rfl, ?_, ?_, ?_⟩
  · simp only [JsonText.isSpace, Bool.or_eq_false_iff, decide_eq_false_iff_not]
    refine ⟨⟨⟨?_, ?_⟩, ?_⟩, ?_⟩ <;> rintro rfl <;> rcases hc with hc | hc <;> cases hc
  all_goals
    rintro rfl
    rcases hc with hc | hc <;> cases hc

/-- the text of a value starts with neither a space nor a closing bracket nor a byte order mark -/
theorem dump_first (hq : Spelling q ok) (hfl : ∀ x : F, fl x = true → Opens (FloatText.repr x)) {t : JsonTree F}
    (h : t.floats fl = true) :
    ∃ c cs, t.dumpWith q = c :: cs ∧ JsonText.isSpace c = false ∧ c ≠ ']' ∧ c ≠ Char.ofNat 0xFEFF := by
  cases t with
  | null => exact ⟨'n', _, rfl, by decide, by decide, by decide⟩
  | bool b =>
    cases b with
    | true => exact ⟨'t', _, rfl, by decide, by decide, by decide⟩
    | false => exact ⟨'f', _, rfl, by decide, by decide, by decide⟩
  | int n =>
    rw [dumpWith]
    exact (opens_intText n).first
  | float x =>
    rw [dumpWith]
    exact (hfl x (by simpa [floats] using h)).first
  | str s =>
    obtain ⟨cs, hopen⟩ := hq.opens s
    exact ⟨'"', cs, by rw [dumpWith, hopen], by decide, by decide, by decide⟩
  | list xs =>
    cases xs with
    | nil => exact ⟨'[', _, by rw [dumpWith], by decide, by decide, by decide⟩
    | cons x xs =>
      exact ⟨'[', dumpWith q x ++ dumpElemsWith q xs ++ [']'], by rw [dumpWith]; rfl, by decide, by decide, by decide⟩
  | dict items =>
    cases items with
    | nil => exact ⟨'{', _, by rw [dumpWith], by decide, by decide, by decide⟩
    | cons i items =>
      exact ⟨'{', q i.1 ++ ':' :: dumpWith q i.2 ++ dumpItemsWith q items ++ ['}'], by rw [dumpWith]; simp, by decide,
        by decide, by decide⟩

end JsonTree

namespace JsonText

open JsonTree

variable {F ε : Type} [FloatRead F] {h : JsonHooks F ε} {q : PyStr → List Char} {ok : PyStr → Bool} {fl : F → Bool}

/-- the reader reads a float of `fl` back from its text -/
structure FloatSpelling (h : JsonHooks F ε) (fl : F → Bool) : Prop where
  opens : ∀ x, fl x = true → Opens (FloatText.repr x)
  scans : ∀ x, fl x = true → ∀ rest, Ends rest → scanScalar h (FloatText.repr x ++ rest) = .ok (.float x, rest)

theorem floatSpelling_none : FloatSpelling h (fun _ => false) := ⟨nofun, nofun⟩

/-- **Finite floats are read back.** -/
theorem floatSpelling_finite [LawfulFloatRead F] : FloatSpelling h (FloatText.isFinite (F := F)) := by
  refine ⟨fun x hx => ?_, fun x hx rest hrest => scanFloat_repr hx hrest⟩
  obtain ⟨negative, n, fraction, exponent, hrepr, -⟩ := LawfulFloatRead.repr_number x hx
  rw [hrepr]
  cases negative with
  | true => exact ⟨'-', _, rfl, .inl rfl⟩
  | false =>
    obtain ⟨c, cs, hn, hc⟩ := natText_cons n
    exact ⟨c, cs ++ fraction ++ exponent, by rw [hn]; simp, .inr hc⟩

variable {cs rest : List Char} {t x : JsonTree F} {fuel : ℕ}

theorem skipSpace_cons {c : Char} (hc : isSpace c = false) : skipSpace (c :: cs) = c :: cs := by
  rw [skipSpace, List.dropWhile_cons, hc]
  rfl

theorem skipSpace_dump (hq : Spelling q ok) (hfl : FloatSpelling h fl) (ht : t.floats fl = true) (rest : List Char) :
    skipSpace (t.dumpWith q ++ rest) = t.dumpWith q ++ rest := by
  obtain ⟨c, cs, heq, hc, -⟩ := dump_first hq hfl.opens ht
  rw [heq, List.cons_append, skipSpace_cons hc]

/-- a value is read back whatever follows it, with fuel for its text -/
def ReadsBack (h : JsonHooks F ε) (q : PyStr → List Char) (t : JsonTree F) : Prop :=
  ∀ rest fuel, Ends rest → (t.dumpWith q).length ≤ fuel → scanValue h fuel (t.dumpWith q ++ rest) = .ok (t, rest)

theorem scanElems_last {fuel : ℕ} {done : List (JsonTree F)} {x : JsonTree F} {cs rest : List Char}
    (hx : scanValue h fuel cs = .ok (x, ']' :: rest)) :
    scanElems h (fuel + 1) done cs = .ok (.list (done ++ [x]), rest) := by
  rw [scanElems, hx]
  rfl

theorem scanElems_next {done : List (JsonTree F)} (hx : scanValue h fuel cs = .ok (x, ',' :: rest)) :
    scanElems h (fuel + 1) done cs = scanElems h fuel (done ++ [x]) (skipSpace rest) := by
  rw [scanElems, hx]
  rfl

theorem scanElems_dump (hq : Spelling q ok) (hfl : FloatSpelling h fl) {xs : List (JsonTree F)}
    (hread : ∀ y ∈ x :: xs, y.floats fl = true ∧ ReadsBack h q y) (done : List (JsonTree F)) (rest : List Char)
    (hfuel : (x.dumpWith q).length + (dumpElemsWith q xs).length < fuel) :
    scanElems h fuel done (x.dumpWith q ++ (dumpElemsWith q xs ++ ']' :: rest)) = .ok (.list (done ++ x :: xs), rest) := by
  obtain ⟨fuel, rfl⟩ : ∃ n, fuel = n + 1 := ⟨fuel - 1, by omega⟩
  induction xs generalizing x done fuel with
  | nil =>
    rw [dumpElemsWith, List.nil_append]
    exact scanElems_last ((hread x (by simp)).2 _ fuel (ends_cons (by decide)) (by omega))
  | cons y ys ih =>
    have htext : dumpElemsWith q (y :: ys) ++ ']' :: rest = ',' :: (y.dumpWith q ++ (dumpElemsWith q ys ++ ']' :: rest)) := by
      rw [dumpElemsWith]
      simp
    have hlen : (dumpElemsWith q (y :: ys)).length = 1 + (y.dumpWith q).length + (dumpElemsWith q ys).length := by
      rw [dumpElemsWith]
      simp only [List.length_cons, List.length_append]
      omega
    obtain ⟨n, rfl⟩ : ∃ n, fuel = n + 1 := ⟨fuel - 1, by omega⟩
    rw [htext, scanElems_next ((hread x (by simp)).2 _ (n + 1) (ends_cons (by decide)) (by omega)),
      skipSpace_dump hq hfl (hread y (by simp)).1, ih (fun z hz => hread z (List.mem_cons_of_mem _ hz)) _ n (by omega),
      List.append_assoc, List.singleton_append]

theorem scanItems_last {fuel : ℕ} {done items : List (PyStr × JsonTree F)} {k : PyStr} {x : JsonTree F}
    {cs cs' rest : List Char} (hk : scanString cs = some (k, ':' :: cs'))
    (hx : scanValue h fuel (skipSpace cs') = .ok (x, '}' :: rest)) (hpairs : h.pairs (done ++ [(k, x)]) = .ok items) :
    scanItems h (fuel + 1) done ('"' :: cs) = .ok (.dict items, rest) := by
  rw [scanItems, hk]
  show (scanValue h fuel (skipSpace cs') >>= _) = _
  rw [hx]
  show (h.pairs (done ++ [(k, x)])).map _ = _
  rw [hpairs]
  rfl

theorem scanItems_next {done : List (PyStr × JsonTree F)} {k : PyStr} {cs' : List Char}
    (hk : scanString cs = some (k, ':' :: cs')) (hx : scanValue h fuel (skipSpace cs') = .ok (x, ',' :: rest)) :
    scanItems h (fuel + 1) done ('"' :: cs) = scanItems h fuel (done ++ [(k, x)]) (skipSpace rest) := by
  rw [scanItems, hk]
  show (scanValue h fuel (skipSpace cs') >>= _) = _
  rw [hx]
  rfl

theorem scanItems_dump (hq : Spelling q ok) (hfl : FloatSpelling h fl) {items : List (PyStr × JsonTree F)} {k : PyStr}
    (hread : ∀ i ∈ (k, x) :: items, ok i.1 = true ∧ i.2.floats fl = true ∧ ReadsBack h q i.2)
    (done : List (PyStr × JsonTree F)) (hpairs : h.pairs (done ++ (k, x) :: items) = .ok (done ++ (k, x) :: items))
    (rest : List Char) (hfuel : (x.dumpWith q).length + (dumpItemsWith q items).length + 1 < fuel) :
    scanItems h fuel done (q k ++ ':' :: (x.dumpWith q ++ (dumpItemsWith q items ++ '}' :: rest))) =
      .ok (.dict (done ++ (k, x) :: items), rest) := by
  obtain ⟨fuel, rfl⟩ : ∃ n, fuel = n + 1 := ⟨fuel - 1, by omega⟩
  induction items generalizing k x done fuel with
  | nil =>
    obtain ⟨hk, hfloat, hx⟩ : ok k = true ∧ x.floats fl = true ∧ ReadsBack h q x := hread (k, x) (by simp)
    obtain ⟨cs, hquote, hscan⟩ := hq.scans _ hk (':' :: (x.dumpWith q ++ '}' :: rest))
    have hvalue := hx ('}' :: rest) fuel (ends_cons (by decide)) (by omega)
    rw [← skipSpace_dump hq hfl hfloat] at hvalue
    rw [dumpItemsWith, List.nil_append, hquote]
    exact scanItems_last hscan hvalue hpairs
  | cons i items ih =>
    obtain ⟨k', y⟩ := i
    obtain ⟨hk, hfloat, hx⟩ : ok k = true ∧ x.floats fl = true ∧ ReadsBack h q x := hread (k, x) (by simp)
    have htext : dumpItemsWith q ((k', y) :: items) ++ '}' :: rest =
        ',' :: (q k' ++ ':' :: (y.dumpWith q ++ (dumpItemsWith q items ++ '}' :: rest))) := by
      rw [dumpItemsWith]
      simp
    have hlen : (dumpItemsWith q ((k', y) :: items)).length =
        1 + (q k').length + 1 + (y.dumpWith q).length + (dumpItemsWith q items).length := by
      rw [dumpItemsWith]
      simp only [List.length_cons, List.length_append]
      omega
    obtain ⟨n, rfl⟩ : ∃ n, fuel = n + 1 := ⟨fuel - 1, by omega⟩
    obtain ⟨cs, hquote, hscan⟩ := hq.scans _ hk
      (':' :: (x.dumpWith q ++ (dumpItemsWith q ((k', y) :: items) ++ '}' :: rest)))
    have hvalue := hx (dumpItemsWith q ((k', y) :: items) ++ '}' :: rest) (n + 1) (htext ▸ ends_cons (by decide)) (by omega)
    rw [← skipSpace_dump hq hfl hfloat, htext] at hvalue
    rw [htext] at hscan hquote
    have hspace : ∀ cs, skipSpace (q k' ++ cs) = q k' ++ cs := fun cs => by
      obtain ⟨_, hopen⟩ := hq.opens k'
      rw [hopen, List.cons_append, skipSpace_cons (by decide)]
    rw [htext, hquote, scanItems_next hscan hvalue, hspace,
      ih (fun j hj => hread j (List.mem_cons_of_mem _ hj)) _ (by simpa using hpairs) n (by omega), List.append_assoc,
      List.singleton_append]

theorem scanValue_scalar {fuel : ℕ} {c : Char} {cs : List Char} (hs : c ≠ '"') (hl : c ≠ '[') (hd : c ≠ '{') :
    scanValue h (fuel + 1) (c :: cs) = scanScalar h (c :: cs) := by
  rw [scanValue, if_neg hs, if_neg hl, if_neg hd]

theorem scanValue_number (hopen : Opens cs) (hscan : scanScalar h (cs ++ rest) = .ok (t, rest))
    (hfuel : cs.length ≤ fuel) : scanValue h fuel (cs ++ rest) = .ok (t, rest) := by
  obtain ⟨c, cs, rfl, hc⟩ := hopen
  obtain ⟨m, rfl⟩ : ∃ m, fuel = m + 1 := ⟨fuel - 1, by rw [List.length_cons] at hfuel; omega⟩
  rw [List.cons_append] at hscan ⊢
  rw [scanValue_scalar, hscan]
  all_goals
    rintro rfl
    rcases hc with hc | hc <;> cases hc

theorem scanValue_list {fuel : ℕ} {c : Char} {cs rest : List Char} (hcs : skipSpace cs = c :: rest) (hc : c ≠ ']') :
    scanValue h (fuel + 1) ('[' :: cs) = scanElems h fuel [] (c :: rest) := by
  have hne : ¬ ('[' : Char) = '"' := by decide
  rw [scanValue, if_neg hne, if_pos rfl, hcs]
  split
  · rename_i heq
    rw [List.cons.injEq] at heq
    exact absurd heq.1 hc
  · rfl

theorem scanValue_dict {fuel : ℕ} {c : Char} {cs rest : List Char} (hcs : skipSpace cs = c :: rest) (hc : c ≠ '}') :
    scanValue h (fuel + 1) ('{' :: cs) = scanItems h fuel [] (c :: rest) := by
  have hq : ¬ ('{' : Char) = '"' := by decide
  have hl : ¬ ('{' : Char) = '[' := by decide
  rw [scanValue, if_neg hq, if_neg hl, if_pos rfl, hcs]
  split
  · rename_i heq
    rw [List.cons.injEq] at heq
    exact absurd heq.1 hc
  · rfl

/-- **Trees are read back.** -/
theorem scanValue_dump (hpairs : ∀ items, (items.map Prod.fst).Nodup → h.pairs items = .ok items) (hq : Spelling q ok)
    (hfl : FloatSpelling h fl) (t : JsonTree F) (ht : t.ReadableWith fl ok h.digitLimit) : ReadsBack h q t := by
  induction t using JsonTree.induct with
  | null =>
    intro rest fuel _ hfuel
    obtain ⟨n, rfl⟩ : ∃ n, fuel = n + 1 := ⟨fuel - 1, by simp [dumpWith] at hfuel; omega⟩
    rfl
  | bool b =>
    intro rest fuel _ hfuel
    obtain ⟨n, rfl⟩ : ∃ n, fuel = n + 1 := ⟨fuel - 1, by cases b <;> simp [dumpWith] at hfuel <;> omega⟩
    cases b <;> rfl
  | int n =>
    intro rest fuel hrest hfuel
    have hscan := scanScalar_intText hrest (h := h) (n := n) (by simpa [JsonTree.intsFit] using ht.2.2.2)
    have htext : (JsonTree.int n : JsonTree F).dumpWith q = Decimal.intText n := by rw [dumpWith]
    rw [htext] at hfuel ⊢
    exact scanValue_number (opens_intText n) hscan hfuel
  | float x =>
    intro rest fuel hrest hfuel
    have hx : fl x = true := by simpa [JsonTree.floats] using ht.2.1
    have htext : (JsonTree.float x : JsonTree F).dumpWith q = FloatText.repr x := by rw [dumpWith]
    rw [htext] at hfuel ⊢
    exact scanValue_number (hfl.opens x hx) (hfl.scans x hx rest hrest) hfuel
  | str s =>
    intro rest fuel _ hfuel
    obtain ⟨_, hopen⟩ := hq.opens s
    obtain ⟨n, rfl⟩ : ∃ n, fuel = n + 1 := ⟨fuel - 1, by simp [dumpWith, hopen] at hfuel; omega⟩
    obtain ⟨cs, hquote, hscan⟩ := hq.scans s (by simpa [JsonTree.strings] using ht.2.2.1) rest
    rw [dumpWith, hquote, scanValue, if_pos rfl, hscan]
  | list xs ih =>
    intro rest fuel _ hfuel
    cases xs with
    | nil =>
      obtain ⟨n, rfl⟩ : ∃ n, fuel = n + 1 := ⟨fuel - 1, by simp [dumpWith] at hfuel; omega⟩
      rw [dumpWith]
      show scanValue h (n + 1) ('[' :: ']' :: rest) = _
      rw [scanValue]
      rfl
    | cons x xs =>
      have hread : ∀ y ∈ x :: xs, y.floats fl = true ∧ ReadsBack h q y := fun y hy =>
        ⟨(ht.elem hy).2.1, ih y hy (ht.elem hy)⟩
      have htext : (JsonTree.list (x :: xs)).dumpWith q ++ rest = '[' :: (x.dumpWith q ++ (dumpElemsWith q xs ++ ']' :: rest)) := by
        rw [dumpWith]
        simp
      rw [dumpWith] at hfuel
      simp only [List.length_cons, List.length_append, List.length_nil] at hfuel
      obtain ⟨n, rfl⟩ : ∃ n, fuel = n + 1 := ⟨fuel - 1, by omega⟩
      have hn : (x.dumpWith q).length + (dumpElemsWith q xs).length < n := by omega
      have helems := scanElems_dump hq hfl hread [] rest hn
      have hspace := skipSpace_dump hq hfl (hread x (by simp)).1 (dumpElemsWith q xs ++ ']' :: rest)
      obtain ⟨c, cs, hdump, -, hclose, -⟩ := dump_first hq hfl.opens (hread x (by simp)).1
      rw [hdump, List.cons_append] at hspace helems
      rw [htext, hdump, List.cons_append, scanValue_list hspace hclose]
      exact helems
  | dict items ih =>
    intro rest fuel _ hfuel
    cases items with
    | nil =>
      obtain ⟨n, rfl⟩ : ∃ n, fuel = n + 1 := ⟨fuel - 1, by simp [dumpWith] at hfuel; omega⟩
      rw [dumpWith]
      show scanValue h (n + 1) ('{' :: '}' :: rest) = _
      rw [scanValue]
      show (h.pairs []).map _ = _
      rw [hpairs [] List.nodup_nil]
      rfl
    | cons i items =>
      obtain ⟨k, x⟩ := i
      have hread : ∀ i ∈ (k, x) :: items, ok i.1 = true ∧ i.2.floats fl = true ∧ ReadsBack h q i.2 := fun i hi =>
        ⟨(ht.item hi).1, (ht.item hi).2.2.1, ih i hi (ht.item hi).2⟩
      have htext : (JsonTree.dict ((k, x) :: items)).dumpWith q ++ rest =
          '{' :: (q k ++ ':' :: (x.dumpWith q ++ (dumpItemsWith q items ++ '}' :: rest))) := by
        rw [dumpWith]
        simp
      obtain ⟨cs, hopen⟩ := hq.opens k
      have hquote : 1 ≤ (q k).length := by rw [hopen, List.length_cons]; omega
      rw [dumpWith] at hfuel
      simp only [List.length_cons, List.length_append, List.length_nil] at hfuel
      obtain ⟨n, rfl⟩ : ∃ n, fuel = n + 1 := ⟨fuel - 1, by omega⟩
      have hn : (x.dumpWith q).length + (dumpItemsWith q items).length + 1 < n := by omega
      have hitems := scanItems_dump hq hfl hread [] (hpairs _ ht.nodup) rest hn
      have hspace : skipSpace (q k ++ ':' :: (x.dumpWith q ++ (dumpItemsWith q items ++ '}' :: rest))) =
          '"' :: (cs ++ ':' :: (x.dumpWith q ++ (dumpItemsWith q items ++ '}' :: rest))) := by
        rw [hopen, List.cons_append, skipSpace_cons (by decide)]
      rw [hopen, List.cons_append] at hitems
      rw [htext, scanValue_dict hspace (by decide)]
      exact hitems

/-! ## Whatever is read -/

/-- a property that holds of whatever is read: of the keys of dicts `key`, of values `p` -/
structure ReadProperty (h : JsonHooks F ε) (key : PyStr → Prop) (p : JsonTree F → Prop) : Prop where
  constant : ∀ word t, h.constant word = .ok t → p t
  null : p .null
  bool : ∀ b, p (.bool b)
  int : ∀ n, p (.int n)
  float : ∀ x, p (.float x)
  str : ∀ cs s rest, scanString cs = some (s, rest) → key s ∧ p (.str s)
  list : ∀ xs, (∀ x ∈ xs, p x) → p (.list xs)
  dict : ∀ items items', (∀ i ∈ items, key i.1 ∧ p i.2) → h.pairs items = .ok items' → p (.dict items')

section ReadProperty

variable {key : PyStr → Prop} {p : JsonTree F → Prop} (hp : ReadProperty h key p)

include hp

theorem scanScalar_property {cs rest : List Char} {t : JsonTree F} (hok : scanScalar h cs = .ok (t, rest)) : p t := by
  have hmap : ∀ {word : String} {out : List Char}, (h.constant word).map (·, out) = .ok (t, rest) → p t := by
    intro word out hout
    cases hc : h.constant word with
    | error e => rw [hc] at hout; cases hout
    | ok t' =>
      rw [hc] at hout
      cases hout
      exact hp.constant word t hc
  have hnumber : ∀ {negative : Bool} {cs : List Char}, scanNumber h negative cs = .ok (t, rest) → p t := by
    intro negative cs hok
    unfold scanNumber at hok
    cases hint : scanInt cs with
    | none => simp [hint] at hok
    | some q =>
      simp only [hint] at hok
      split_ifs at hok
      all_goals rw [Except.ok.injEq, Prod.mk.injEq] at hok
      · exact hok.1 ▸ hp.int _
      · exact hok.1 ▸ hp.int _
      · exact hok.1 ▸ hp.float _
      · exact hok.1 ▸ hp.float _
  unfold scanScalar at hok
  split at hok
  · cases hok
    exact hp.null
  · cases hok
    exact hp.bool true
  · cases hok
    exact hp.bool false
  · exact hmap hok
  · exact hmap hok
  · exact hmap hok
  · split at hok
    · exact hnumber hok
    · exact hnumber hok

theorem scan_property (fuel : ℕ) :
    (∀ {cs t rest}, scanValue h fuel cs = .ok (t, rest) → p t) ∧
    (∀ {done : List (JsonTree F)} {cs t rest}, (∀ x ∈ done, p x) → scanElems h fuel done cs = .ok (t, rest) → p t) ∧
    (∀ {done : List (PyStr × JsonTree F)} {cs t rest}, (∀ i ∈ done, key i.1 ∧ p i.2) →
      scanItems h fuel done cs = .ok (t, rest) → p t) := by
  have hdict : ∀ {items : List (PyStr × JsonTree F)} {t : JsonTree F} {out rest : List Char},
      (∀ i ∈ items, key i.1 ∧ p i.2) →
      (h.pairs items).map (fun items => (JsonTree.dict items, out)) = .ok (t, rest) → p t := by
    intro items t out rest hitems hok
    cases hpairs : h.pairs items with
    | error e => rw [hpairs] at hok; cases hok
    | ok items' =>
      rw [hpairs] at hok
      cases hok
      exact hp.dict items items' hitems hpairs
  induction fuel with
  | zero =>
    refine ⟨?_, ?_, ?_⟩
    · intro cs t rest hok
      simp [scanValue] at hok
    · intro done cs t rest _ hok
      simp [scanElems] at hok
    · intro done cs t rest _ hok
      simp [scanItems] at hok
  | succ fuel ih =>
    obtain ⟨ihvalue, ihelems, ihitems⟩ := ih
    refine ⟨?_, ?_, ?_⟩
    · intro cs t rest hok
      cases cs with
      | nil => simp [scanValue] at hok
      | cons c cs =>
        rw [scanValue] at hok
        split_ifs at hok with hs hl hd
        · cases hscan : scanString cs with
          | none => simp [hscan] at hok
          | some q =>
            simp only [hscan, Except.ok.injEq, Prod.mk.injEq] at hok
            rw [← hok.1]
            exact (hp.str cs q.1 q.2 hscan).2
        · split at hok
          · cases hok
            exact hp.list [] (by simp)
          · exact ihelems (by simp) hok
        · split at hok
          · exact hdict (by simp) hok
          · exact ihitems (by simp) hok
        · exact scanScalar_property hp hok
    · intro done cs t rest hdone hok
      rw [scanElems] at hok
      obtain ⟨⟨x, cs'⟩, hx, hok⟩ := Exec.except_bind_eq_ok.1 hok
      have hdone' : ∀ y ∈ done ++ [x], p y := by
        intro y hy
        rcases List.mem_append.1 hy with hy | hy
        · exact hdone y hy
        · rw [List.mem_singleton] at hy
          exact hy ▸ ihvalue hx
      dsimp only at hok
      split at hok
      · cases hok
        exact hp.list _ hdone'
      · exact ihelems hdone' hok
      · cases hok
    · intro done cs t rest hdone hok
      cases cs with
      | nil => simp [scanItems] at hok
      | cons c cs =>
        by_cases hc : c = '"'
        · subst hc
          rw [scanItems] at hok
          cases hscan : scanString cs with
          | none => simp [hscan] at hok
          | some q =>
            obtain ⟨k, cs'⟩ := q
            simp only [hscan] at hok
            split at hok
            · obtain ⟨⟨x, out⟩, hx, hok⟩ := Exec.except_bind_eq_ok.1 hok
              have hdone' : ∀ i ∈ done ++ [(k, x)], key i.1 ∧ p i.2 := by
                intro i hi
                rcases List.mem_append.1 hi with hi | hi
                · exact hdone i hi
                · rw [List.mem_singleton] at hi
                  exact hi ▸ ⟨(hp.str cs k _ hscan).1, ihvalue hx⟩
              dsimp only at hok
              split at hok
              · exact hdict hdone' hok
              · exact ihitems hdone' hok
              · cases hok
            · cases hok
        · rw [scanItems] at hok
          · cases hok
          · intro cs' heq
            rw [List.cons.injEq] at heq
            exact hc heq.1

/-- **Whatever is read has the property.** -/
theorem loads_property {cs : List Char} {t : JsonTree F} (hok : loads h cs = .ok t) : p t := by
  unfold loads at hok
  split_ifs at hok
  split at hok
  · cases hok
  · rename_i hscan
    split_ifs at hok
    cases hok
    exact (scan_property hp _).1 hscan

end ReadProperty

/-- **No tree that was read has a surrogate pair.** -/
theorem loads_pairFree (hconst : ∀ word t, h.constant word = .ok t → t.pairFree = true)
    (hpairs : ∀ items items', h.pairs items = .ok items' → items' = items) (hok : loads h cs = .ok t) :
    t.pairFree = true := by
  suffices hp : ReadProperty h (fun s => s.pairFree = true) fun t => t.pairFree = true from loads_property hp hok
  constructor
  case constant => exact hconst
  case str => exact fun cs s rest hscan => ⟨scanString_pairFree hscan, by simpa [JsonTree.pairFree] using scanString_pairFree hscan⟩
  case list =>
    intro xs hxs
    simp only [JsonTree.pairFree, all_list, Bool.true_and, List.all_eq_true]
    exact hxs
  case dict =>
    intro items items' hitems hp
    rw [hpairs items items' hp]
    simp only [JsonTree.pairFree, all_dict, Bool.and_eq_true, List.all_eq_true]
    exact ⟨fun i hi => (hitems i hi).1, fun i hi => (hitems i hi).2⟩
  all_goals simp [JsonTree.pairFree]

/-- **A text under a spelling is read back.** -/
theorem loads_dumpWith (hpairs : ∀ items, (items.map Prod.fst).Nodup → h.pairs items = .ok items)
    {q : PyStr → List Char} {ok : PyStr → Bool} (hq : JsonTree.Spelling q ok) {fl : F → Bool} (hfl : FloatSpelling h fl)
    (ht : t.ReadableWith fl ok h.digitLimit) : loads h (t.dumpWith q) = .ok t := by
  have hread := scanValue_dump hpairs hq hfl t ht [] (2 * (t.dumpWith q).length + 1) ends_nil (by omega)
  have hspace := skipSpace_dump hq hfl ht.2.1 []
  obtain ⟨c, cs, hdump, -, -, hbom⟩ := dump_first hq hfl.opens ht.2.1
  rw [List.append_nil] at hread hspace
  have hmark : (t.dumpWith q).head? ≠ some (Char.ofNat 0xFEFF) := by
    rw [hdump, List.head?_cons]
    exact fun he => hbom (Option.some.inj he)
  rw [loads, if_neg hmark, hspace, hread]
  rfl

theorem spelling_quote : JsonTree.Spelling quote PyStr.pairFree :=
  ⟨fun _ => ⟨_, rfl⟩, fun _ h rest => scanString_quote h rest⟩

/-- **The text of a tree is read back**, the items of its dicts in sorted order. -/
theorem loads_text (hpairs : ∀ items, (items.map Prod.fst).Nodup → h.pairs items = .ok items)
    (ht : t.Readable h.digitLimit) : loads h t.text = .ok t.sorted := by
  have hread := loads_dumpWith hpairs spelling_quote floatSpelling_none (JsonTree.readable_sorted.2 ht)
  rwa [JsonTree.dumpWith_quote] at hread

end JsonText

end Apar
