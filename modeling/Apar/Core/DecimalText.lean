/-
The text of a finite decimal with its sign, as Python's `Decimal` writes and reads it. A library: nothing here is about
payments.

`DecimalTuple` is `Decimal.as_tuple()`, so a negative zero is not a zero. The writer is to-scientific-string; the reader
takes the numeric strings of the specification (digits beyond ASCII, which Python reads and never writes, are not read).

- `read_text`: a number is read back from its text.
- `text_ofDecimal`: it is the text of the number without a sign on its zero.
-/
import Apar.Core.Digest

namespace Apar

/-- a finite decimal: sign, digits and exponent -/
structure DecimalTuple where
  negative : Bool
  coeff : ℕ
  exp : ℤ
deriving DecidableEq, Repr

/-- what a numeric string stands for -/
inductive DecimalNumber where
  | finite (d : DecimalTuple)
  /-- an infinity or a NaN -/
  | special

namespace DecimalTuple

open Decimal (natText)

/-- the number without the sign of a zero -/
def toDecimal (d : DecimalTuple) : Decimal := ⟨if d.negative then -(d.coeff : ℤ) else d.coeff, d.exp⟩

/-- the result of an operation, whose zero is positive -/
def ofDecimal (d : Decimal) : DecimalTuple := ⟨d.coeff < 0, d.coeff.natAbs, d.exp⟩

/-! ## Writing -/

def zeros (n : ℤ) : List Char := List.replicate n.toNat '0'

/-- `"%+d" % n` -/
def signedText (n : ℤ) : List Char := (if n < 0 then '-' else '+') :: natText n.natAbs

/-- the digits with the point at `dotplace` -/
def pointed (ds : List Char) (dotplace : ℤ) : List Char :=
  if dotplace ≤ 0 then '0' :: '.' :: (zeros (-dotplace) ++ ds)
  else if ds.length ≤ dotplace then ds ++ zeros (dotplace - ds.length)
  else ds.take dotplace.toNat ++ '.' :: ds.drop dotplace.toNat

/-- `str(d)` -/
def text (d : DecimalTuple) : List Char :=
  let ds := natText d.coeff
  let leftdigits : ℤ := d.exp + ds.length
  let dotplace : ℤ := if d.exp ≤ 0 ∧ -6 < leftdigits then leftdigits else 1
  (if d.negative then ['-'] else []) ++ pointed ds dotplace ++
    (if leftdigits = dotplace then [] else 'E' :: signedText (leftdigits - dotplace))

/-! ## Reading -/

def isSpace (c : Char) : Bool := c = ' ' || (9 ≤ c.toNat && c.toNat ≤ 13) || (28 ≤ c.toNat && c.toNat ≤ 31)

/-- `value.strip().replace("_", "")` -/
def cleaned (cs : List Char) : List Char :=
  (((cs.dropWhile isSpace).reverse.dropWhile isSpace).reverse).filter (· ≠ '_')

/-- `Inf(inity)?|s?NaN\d*`, in any case -/
def isSpecial (cs : List Char) : Bool :=
  let lower := cs.map Char.toLower
  lower = "inf".toList || lower = "infinity".toList ||
    ("nan".toList.isPrefixOf lower && (lower.drop 3).all Char.isDigit) ||
    ("snan".toList.isPrefixOf lower && (lower.drop 4).all Char.isDigit)

/-- `[-+]?` -/
def readSign : List Char → Bool × List Char
  | [] => (false, [])
  | c :: cs => if c = '-' then (true, cs) else if c = '+' then (false, cs) else (false, c :: cs)

/-- `(\.\d*)?` -/
def readFraction : List Char → List Char × List Char
  | [] => ([], [])
  | c :: cs => if c = '.' then (cs.takeWhile Char.isDigit, cs.dropWhile Char.isDigit) else ([], c :: cs)

/-- `(E[-+]?\d+)?` up to the end of the text -/
def readExponent : List Char → Option ℤ
  | [] => some 0
  | c :: cs =>
    let (negative, ds) := readSign cs
    if (c = 'E' ∨ c = 'e') ∧ ds ≠ [] ∧ ds.all Char.isDigit then
      let n : ℤ := Nat.ofDigitChars 10 ds 0
      some (if negative then -n else n)
    else none

/-- a number without its sign -/
def readUnsigned (negative : Bool) (cs : List Char) : Option DecimalTuple :=
  let intpart := cs.takeWhile Char.isDigit
  let (fracpart, rest) := readFraction (cs.dropWhile Char.isDigit)
  if intpart = [] ∧ fracpart = [] then none
  else (readExponent rest).map fun e => ⟨negative, Nat.ofDigitChars 10 (intpart ++ fracpart) 0, e - fracpart.length⟩

/-- `Decimal(text)`; `none` is `InvalidOperation` -/
def read (cs : List Char) : Option DecimalNumber :=
  let (negative, body) := readSign (cleaned cs)
  if isSpecial body then some .special else (readUnsigned negative body).map .finite

example : text ⟨true, 0, -2⟩ = "-0.00".toList ∧ text ⟨false, 12, 3⟩ = "1.2E+4".toList ∧
    text ⟨false, 5, -9⟩ = "5E-9".toList := by decide

/-! ## Reading back -/

variable {c : Char}

theorem natText_isDigit {n : ℕ} (h : c ∈ natText n) : c.isDigit = true :=
  Nat.isDigit_of_mem_toDigits (by norm_num) (by norm_num) h

theorem zeros_isDigit {n : ℤ} (h : c ∈ zeros n) : c.isDigit = true := by
  rw [List.eq_of_mem_replicate h]
  decide

theorem readSign_of_ne {cs : List Char} (h : c.isDigit = true) : readSign (c :: cs) = (false, c :: cs) := by
  have hminus : c ≠ '-' := by
    rintro rfl
    cases h
  have hplus : c ≠ '+' := by
    rintro rfl
    cases h
  rw [readSign, if_neg hminus, if_neg hplus]

theorem readExponent_signedText (n : ℤ) : readExponent ('E' :: signedText n) = some n := by
  have hread : Nat.ofDigitChars 10 (natText n.natAbs) 0 = n.natAbs := Nat.ofDigitChars_ten_toDigits
  have hall : (natText n.natAbs).all Char.isDigit = true := List.all_eq_true.2 fun c hc => natText_isDigit hc
  have hne : natText n.natAbs ≠ [] := Nat.toDigits_ne_nil
  unfold signedText
  split_ifs with hneg
  · have hsign : readSign ('-' :: natText n.natAbs) = (true, natText n.natAbs) := by rw [readSign, if_pos rfl]
    simp only [readExponent, hsign, hne, hall, hread, true_or, not_false_eq_true, and_self, if_true, ne_eq,
      Option.some.injEq]
    omega
  · have hsign : readSign ('+' :: natText n.natAbs) = (false, natText n.natAbs) := by
      rw [readSign, if_neg (by decide), if_pos rfl]
    simp only [readExponent, hsign, hne, hall, hread, true_or, not_false_eq_true, and_self, if_true, ne_eq,
      Option.some.injEq, Bool.false_eq_true, if_false]
    omega

/-- digits, then a point and digits or nothing, then an exponent or nothing -/
theorem readUnsigned_append {negative : Bool} {intpart fracpart tail : List Char} {e : ℤ}
    (hint : ∀ c ∈ intpart, c.isDigit = true) (hfrac : ∀ c ∈ fracpart, c.isDigit = true)
    (htail : ∀ c ∈ tail.head?, c.isDigit = false ∧ c ≠ '.') (hexp : readExponent tail = some e)
    (hne : intpart ++ fracpart ≠ []) (point : Bool) (hpoint : point = false → fracpart = []) :
    readUnsigned negative (intpart ++ (if point then '.' :: fracpart else []) ++ tail) =
      some ⟨negative, Nat.ofDigitChars 10 (intpart ++ fracpart) 0, e - fracpart.length⟩ := by
  have htake : tail.takeWhile Char.isDigit = [] ∧ tail.dropWhile Char.isDigit = tail := by
    cases tail with
    | nil => exact ⟨rfl, rfl⟩
    | cons c cs =>
      have hc := (htail c (by simp)).1
      exact ⟨by rw [List.takeWhile_cons, hc]; rfl, by rw [List.dropWhile_cons, hc]; rfl⟩
  have hnot : ¬ (intpart = [] ∧ fracpart = []) := fun h => hne (by rw [h.1, h.2]; rfl)
  rw [List.append_assoc]
  unfold readUnsigned
  rw [List.takeWhile_append_of_pos hint, List.dropWhile_append_of_pos hint]
  cases point with
  | true =>
    have hdot : ('.' :: fracpart ++ tail).takeWhile Char.isDigit = [] := by
      rw [List.cons_append, List.takeWhile_cons]
      rfl
    have hdrop : ('.' :: fracpart ++ tail).dropWhile Char.isDigit = '.' :: (fracpart ++ tail) := by
      rw [List.cons_append, List.dropWhile_cons]
      rfl
    have hread : readFraction ('.' :: (fracpart ++ tail)) = (fracpart, tail) := by
      rw [readFraction, if_pos rfl, List.takeWhile_append_of_pos hfrac, List.dropWhile_append_of_pos hfrac, htake.1,
        htake.2, List.append_nil]
    simp only [if_true, hdot, hdrop, hread, List.append_nil, hnot, if_false, hexp, Option.map_some]
  | false =>
    have hempty := hpoint rfl
    subst hempty
    have hread : readFraction tail = ([], tail) := by
      cases tail with
      | nil => rfl
      | cons c cs => rw [readFraction, if_neg (htail c (by simp)).2]
    have hne' : intpart ≠ [] := fun h => hnot ⟨h, rfl⟩
    simp only [Bool.false_eq_true, if_false, List.nil_append, htake.1, htake.2, hread, hne', false_and, hexp,
      Option.map_some, List.append_nil]

/-- the digits of a pointed number around its point -/
theorem pointed_eq (ds : List Char) (hds : ∀ c ∈ ds, c.isDigit = true) (hpos : 0 < ds.length) {dotplace : ℤ}
    (hle : dotplace ≤ ds.length) :
    ∃ (point : Bool) (intpart fracpart : List Char), pointed ds dotplace = intpart ++ (if point then '.' :: fracpart else []) ∧
      (∀ c ∈ intpart, c.isDigit = true) ∧ (∀ c ∈ fracpart, c.isDigit = true) ∧ intpart ≠ [] ∧
      (point = false → fracpart = []) ∧ (fracpart.length : ℤ) = ds.length - dotplace ∧
      Nat.ofDigitChars 10 (intpart ++ fracpart) 0 = Nat.ofDigitChars 10 ds 0 := by
  unfold pointed
  split_ifs with h1 h2
  · refine ⟨true, ['0'], zeros (-dotplace) ++ ds, by simp, ?_, ?_, by simp, by simp, ?_, ?_⟩
    · simp
    · intro c hc
      rcases List.mem_append.1 hc with hc | hc
      · exact zeros_isDigit hc
      · exact hds c hc
    · simp only [zeros, List.length_append, List.length_replicate]
      omega
    · have hzeros : ∀ n, Nat.ofDigitChars 10 (List.replicate n '0') 0 = 0 := by
        intro n
        induction n with
        | zero => rfl
        | succ n ih => simp [List.replicate_succ, Nat.ofDigitChars_cons, ih]
      rw [← List.append_assoc, Nat.ofDigitChars_append, List.singleton_append, Nat.ofDigitChars_cons]
      simp [zeros, hzeros]
  · refine ⟨false, ds, [], ?_, hds, by simp, ?_, by simp, ?_, by simp⟩
    · have : dotplace - ds.length = 0 := by omega
      simp [zeros, this]
    · exact List.ne_nil_of_length_pos hpos
    · simp only [List.length_nil]
      omega
  · refine ⟨true, ds.take dotplace.toNat, ds.drop dotplace.toNat, by simp, ?_, ?_, ?_, by simp, ?_, ?_⟩
    · exact fun c hc => hds c (List.mem_of_mem_take hc)
    · exact fun c hc => hds c (List.mem_of_mem_drop hc)
    · intro h
      have := congrArg List.length h
      simp only [List.length_take, List.length_nil] at this
      omega
    · simp only [List.length_drop]
      omega
    · rw [List.take_append_drop]

/-- a character of the text of a decimal -/
def IsTextChar (c : Char) : Prop := c.isDigit = true ∨ c = '-' ∨ c = '+' ∨ c = '.' ∨ c = 'E'

theorem mem_pointed {ds : List Char} (hds : ∀ c ∈ ds, c.isDigit = true) {dotplace : ℤ} (h : c ∈ pointed ds dotplace) :
    c.isDigit = true ∨ c = '.' := by
  unfold pointed at h
  split_ifs at h
  · rcases List.mem_cons.1 h with rfl | h
    · exact .inl (by decide)
    rcases List.mem_cons.1 h with rfl | h
    · exact .inr rfl
    rcases List.mem_append.1 h with h | h
    · exact .inl (zeros_isDigit h)
    · exact .inl (hds c h)
  · rcases List.mem_append.1 h with h | h
    · exact .inl (hds c h)
    · exact .inl (zeros_isDigit h)
  · rcases List.mem_append.1 h with h | h
    · exact .inl (hds c (List.mem_of_mem_take h))
    rcases List.mem_cons.1 h with rfl | h
    · exact .inr rfl
    · exact .inl (hds c (List.mem_of_mem_drop h))

theorem mem_exponent {p : Prop} [Decidable p] {n : ℤ} (h : c ∈ if p then [] else 'E' :: signedText n) :
    IsTextChar c := by
  split_ifs at h
  · cases h
  · rcases List.mem_cons.1 h with rfl | h
    · exact .inr (.inr (.inr (.inr rfl)))
    unfold signedText at h
    rcases List.mem_cons.1 h with rfl | h
    · split_ifs
      · exact .inr (.inl rfl)
      · exact .inr (.inr (.inl rfl))
    · exact .inl (natText_isDigit h)

theorem isTextChar_text {d : DecimalTuple} (h : c ∈ d.text) : IsTextChar c := by
  unfold text at h
  rw [List.mem_append, List.mem_append] at h
  rcases h with (h | h) | h
  · split_ifs at h
    · exact .inr (.inl (by simpa using h))
    · cases h
  · rcases mem_pointed (fun c hc => natText_isDigit hc) h with h | rfl
    · exact .inl h
    · exact .inr (.inr (.inr (.inl rfl)))
  · exact mem_exponent h

theorem isTextChar_lt (h : IsTextChar c) : c.toNat < 128 := by
  rcases h with h | rfl | rfl | rfl | rfl
  · rw [Char.isDigit, Bool.and_eq_true, decide_eq_true_eq, decide_eq_true_eq] at h
    have : c.val.toNat ≤ 57 := UInt32.le_iff_toNat_le.1 h.2
    change c.val.toNat < 128
    omega
  all_goals decide

theorem cleaned_of_textChars {cs : List Char} (h : ∀ c ∈ cs, IsTextChar c) : cleaned cs = cs := by
  have hspace : ∀ c ∈ cs, isSpace c = false ∧ c ≠ '_' := by
    intro c hc
    rcases h c hc with hd | rfl | rfl | rfl | rfl
    · refine ⟨?_, ?_⟩
      · rw [Char.isDigit, Bool.and_eq_true, decide_eq_true_eq, decide_eq_true_eq] at hd
        have hlow : 48 ≤ c.toNat := UInt32.le_iff_toNat_le.1 hd.1
        have hne : c ≠ ' ' := by
          rintro rfl
          exact absurd hlow (by decide)
        simp only [isSpace, hne, decide_false, Bool.false_or, Bool.or_eq_false_iff, Bool.and_eq_false_iff,
          decide_eq_false_iff_not]
        omega
      · rintro rfl
        cases hd
    · decide
    · decide
    · decide
    · decide
  have hdrop : ∀ l : List Char, (∀ c ∈ l, isSpace c = false) → l.dropWhile isSpace = l := by
    intro l hl
    cases l with
    | nil => rfl
    | cons c l => rw [List.dropWhile_cons, hl c (by simp)]; rfl
  unfold cleaned
  rw [hdrop cs fun c hc => (hspace c hc).1, hdrop cs.reverse fun c hc => (hspace c (List.mem_reverse.1 hc)).1,
    List.reverse_reverse, List.filter_eq_self]
  exact fun c hc => decide_eq_true (hspace c hc).2

/-- a text that starts with a digit is no infinity and no NaN -/
theorem isSpecial_of_digit (hc : c.isDigit = true) (cs : List Char) : isSpecial (c :: cs) = false := by
  have hlower : c.toLower = c := by
    rw [Char.isDigit, Bool.and_eq_true, decide_eq_true_eq, decide_eq_true_eq] at hc
    have : c.val.toNat ≤ 57 := UInt32.le_iff_toNat_le.1 hc.2
    refine dif_neg fun hupper => ?_
    have : 65 ≤ c.val.toNat := UInt32.le_iff_toNat_le.1 hupper.1
    omega
  have hne : ∀ d : Char, d.isDigit = false → d ≠ c := by
    rintro d hd rfl
    rw [hc] at hd
    cases hd
  have hi := hne 'i' (by decide)
  have hn := hne 'n' (by decide)
  have hs := hne 's' (by decide)
  simp [isSpecial, hlower, hi.symm, hn, hs]

/-- **Decimals are read back.** -/
theorem read_text (d : DecimalTuple) : read d.text = some (.finite d) := by
  obtain ⟨negative, coeff, exp⟩ := d
  have hds : ∀ c ∈ natText coeff, c.isDigit = true := fun c hc => natText_isDigit hc
  have hpos : 0 < (natText coeff).length := Nat.length_toDigits_pos
  have hcoeff : Nat.ofDigitChars 10 (natText coeff) 0 = coeff := Nat.ofDigitChars_ten_toDigits
  obtain ⟨ds, hdsdef⟩ : ∃ ds, ds = natText coeff := ⟨_, rfl⟩
  rw [← hdsdef] at hds hpos hcoeff
  obtain ⟨dotplace, hdot⟩ : ∃ p : ℤ, p = if exp ≤ 0 ∧ -6 < exp + ds.length then exp + ds.length else 1 := ⟨_, rfl⟩
  obtain ⟨tail, htail⟩ : ∃ t, t = if exp + ds.length = dotplace then []
      else 'E' :: signedText (exp + ds.length - dotplace) := ⟨_, rfl⟩
  have hle : dotplace ≤ ds.length := by
    rw [hdot]
    split_ifs <;> omega
  have hexp : readExponent tail = some (exp + ds.length - dotplace) := by
    rw [htail]
    split_ifs with h
    · rw [h, sub_self]
      rfl
    · exact readExponent_signedText _
  have hhead : ∀ c ∈ tail.head?, c.isDigit = false ∧ c ≠ '.' := by
    rw [htail]
    split_ifs
    · intro c hc
      cases hc
    · intro c hc
      simp only [List.head?_cons, Option.mem_some_iff] at hc
      subst hc
      decide
  obtain ⟨point, intpart, fracpart, hpointed, hint, hfrac, hne, hpoint, hlen, hvalue⟩ := pointed_eq ds hds hpos hle
  have htext : text ⟨negative, coeff, exp⟩ = (if negative then ['-'] else []) ++ (pointed ds dotplace ++ tail) := by
    simp only [text, ← hdsdef, ← hdot, ← htail, List.append_assoc]
  have hbody : ∀ s, readUnsigned s (pointed ds dotplace ++ tail) =
      some ⟨s, coeff, exp + ds.length - dotplace - (ds.length - dotplace)⟩ := by
    intro s
    rw [hpointed, readUnsigned_append hint hfrac hhead hexp (by simp [hne]) point hpoint, hvalue, hcoeff, hlen]
  have hfirst : ∃ c cs, pointed ds dotplace ++ tail = c :: cs ∧ c.isDigit = true := by
    cases hi : intpart with
    | nil => exact absurd hi hne
    | cons c cs => exact ⟨c, _, by rw [hpointed, hi]; rfl, hint c (by simp [hi])⟩
  obtain ⟨c, cs, hcons, hc⟩ := hfirst
  have hsign : readSign (text ⟨negative, coeff, exp⟩) = (negative, pointed ds dotplace ++ tail) := by
    rw [htext]
    cases negative with
    | true => simp only [if_true, List.singleton_append, readSign]
    | false =>
      simp only [Bool.false_eq_true, if_false, List.nil_append]
      rw [hcons]
      exact readSign_of_ne hc
  unfold read
  rw [cleaned_of_textChars fun c hc => isTextChar_text hc, hsign]
  simp only [hcons, isSpecial_of_digit hc, Bool.false_eq_true, if_false]
  rw [← hcons, hbody]
  simp only [Option.map_some, Option.some.injEq, DecimalNumber.finite.injEq, DecimalTuple.mk.injEq, true_and]
  omega

/-! ## Numbers without a negative zero -/

theorem toDecimal_ofDecimal (d : Decimal) : (ofDecimal d).toDecimal = d := by
  obtain ⟨c, e⟩ := d
  simp only [ofDecimal, toDecimal, decide_eq_true_eq, Decimal.mk.injEq, and_true]
  split_ifs <;> omega

/-- **One text.** `str` of a number is that of its tuple. -/
theorem text_ofDecimal (d : Decimal) : d.text.toList = (ofDecimal d).text := by
  obtain ⟨c, e⟩ := d
  obtain ⟨ds, hds⟩ : ∃ ds, ds = natText c.natAbs := ⟨_, rfl⟩
  have hpos : 0 < ds.length := hds ▸ Nat.length_toDigits_pos
  have hexponent : ∀ n : ℤ, (if 0 ≤ n then '+' :: natText n.natAbs else Decimal.intText n) = signedText n := by
    intro n
    unfold signedText Decimal.intText
    rcases lt_or_ge n 0 with h | h
    · rw [if_neg (not_le.2 h), if_pos h, if_pos h]
    · rw [if_pos h, if_neg (not_lt.2 h)]
  unfold Decimal.text text
  simp only [ofDecimal, ← hds, String.toList_ofList, decide_eq_true_eq, hexponent]
  have hsign : ∀ body : List Char, (if c < 0 then '-' :: body else body) = (if c < 0 then ['-'] else []) ++ body := by
    intro body
    split_ifs <;> rfl
  rw [hsign, List.append_assoc]
  congr 1
  by_cases hplain : e ≤ 0 ∧ -6 < e + ds.length
  · have hplain' : e ≤ 0 ∧ -6 ≤ e + (ds.length - 1 : ℤ) := ⟨hplain.1, by omega⟩
    rw [if_pos hplain, if_pos hplain', if_pos rfl, List.append_nil]
    unfold pointed zeros
    split_ifs with h0 h1 h2 h3 h4 h5
    all_goals first
      | omega
      | rfl
      | skip
    · simp [h0]
    · rw [add_comm]
    · rw [add_comm e]
  · have hplain' : ¬ (e ≤ 0 ∧ -6 ≤ e + (ds.length - 1 : ℤ)) := fun h => hplain ⟨h.1, by omega⟩
    rw [if_neg hplain, if_neg hplain', if_neg (by omega)]
    have hadjusted : e + (ds.length - 1 : ℤ) = e + ds.length - 1 := by ring
    rw [hadjusted]
    refine congrArg (· ++ 'E' :: signedText (e + ds.length - 1)) ?_
    cases ds with
    | nil => simp at hpos
    | cons a as =>
      cases as with
      | nil => rfl
      | cons b bs => simp [pointed]

end DecimalTuple

end Apar
