/-
Ratios of integers as decimals. A library: nothing here is about payments.

A quotient of so many digits is near the ratio it stands for, and what quantising leaves of it is near it as well, so the
decimals of two ratios are different when the ratios are far enough apart.

- `near_div`, `near_quantize`: how far a quotient and a quantised number are from the exact ones; both stay between zero
  and one.
- `exists_ratio`: the two together.
- `gap_of_ne`: two different fractions are at least the product of their denominators apart.
- `truncate_of_nonneg`, `truncate_toIntegral`: `int(d)` of a number, and of one rounded to an integer.
-/
import Apar.Core.DecimalProducts

namespace Apar

namespace Decimal

@[simp] theorem value_int (n : ℤ) : (⟨n, 0⟩ : Decimal).value = n := by simp [value]

/-! ## Nearness -/

theorem abs_halfEven_sub_le (x : ℚ) : |(halfEven x : ℚ) - x| ≤ 1 := by
  obtain ⟨hlow, hhigh⟩ := halfEven_mem x
  have hlow' : (⌊x⌋ : ℚ) ≤ halfEven x := by exact_mod_cast hlow
  have hhigh' : (halfEven x : ℚ) ≤ ⌊x⌋ + 1 := by exact_mod_cast hhigh
  have hfloor := Int.floor_le x
  have hfloor' := Int.lt_floor_add_one x
  rw [abs_le]
  exact ⟨by linarith, by linarith⟩

theorem abs_roundTo_sub_le (p : ℕ) (x : ℚ) : |roundTo p x - x| ≤ 10 ^ quantum p x := by
  have hpow : (0 : ℚ) < 10 ^ quantum p x := by positivity
  have hsplit : roundTo p x - x =
      (halfEven (x / 10 ^ quantum p x) - x / 10 ^ quantum p x) * 10 ^ quantum p x := by
    rw [roundTo, sub_mul, div_mul_cancel₀ _ hpow.ne']
  rw [hsplit, abs_mul, abs_of_pos hpow]
  exact mul_le_of_le_one_left hpow.le (abs_halfEven_sub_le _)

/-- the last of `p` digits of a number that is at most one -/
theorem quantum_le {p : ℕ} {x : ℚ} (hx : x ≠ 0) (hone : |x| ≤ 1) : quantum p x ≤ 1 - p := by
  have hlog : Int.log 10 |x| < 1 := by
    rw [← Int.lt_zpow_iff_log_lt (by norm_num) (abs_pos.2 hx)]
    refine lt_of_le_of_lt hone ?_
    norm_num
  unfold quantum
  omega

theorem roundTo_near {p : ℕ} {x : ℚ} (hone : |x| ≤ 1) : |roundTo p x - x| ≤ 10 ^ (1 - p : ℤ) := by
  rcases eq_or_ne x 0 with rfl | hx
  · rw [roundTo_zero, sub_zero, abs_zero]
    positivity
  · calc |roundTo p x - x| ≤ 10 ^ quantum p x := abs_roundTo_sub_le p x
      _ ≤ 10 ^ (1 - p : ℤ) := zpow_le_zpow_right₀ (by norm_num) (quantum_le hx hone)

theorem roundTo_one {p : ℕ} (hp : 0 < p) : roundTo p 1 = 1 := by
  have h := roundTo_of_lt (p := p) (c := 1) (e := 0) (one_lt_pow₀ (by norm_num) hp.ne')
  rwa [Int.cast_one, zpow_zero, mul_one] at h

/-- **A quotient of integers is near their ratio**, and between zero and one when the ratio is. -/
theorem near_div {p : ℕ} (hp : 0 < p) {n d : ℤ} (hn : 0 ≤ n) (hnd : n ≤ d) (hd : 0 < d) {q : Decimal}
    (h : div p ⟨n, 0⟩ ⟨d, 0⟩ = some q) :
    |q.value - n / d| ≤ 10 ^ (1 - p : ℤ) ∧ 0 ≤ q.value ∧ q.value ≤ 1 := by
  have hd' : (0 : ℚ) < d := by exact_mod_cast hd
  have hn' : (0 : ℚ) ≤ n := by exact_mod_cast hn
  have hle : (n : ℚ) / d ≤ 1 := (div_le_one hd').2 (by exact_mod_cast hnd)
  have hnonneg : 0 ≤ (n : ℚ) / d := div_nonneg hn' hd'.le
  have hvalue : q.value = roundTo p (n / d) := by
    rw [value_div hp h, value_int, value_int]
  rw [hvalue]
  refine ⟨roundTo_near ?_, roundTo_nonneg hnonneg, ?_⟩
  · rwa [abs_of_nonneg hnonneg]
  · calc roundTo p (n / d) ≤ roundTo p 1 := roundTo_mono hp hnonneg hle
      _ = 1 := roundTo_one hp

/-- **A quantised number is near the number**, and between zero and one when the number is. -/
theorem near_quantize {ctx : DecimalContext} {d r : Decimal} {e : ℕ} (h : quantize ctx d (-e) = some r)
    (hlow : 0 ≤ d.value) (hhigh : d.value ≤ 1) :
    r.exp = -e ∧ |r.value - d.value| ≤ 10 ^ (-e : ℤ) ∧ 0 ≤ r.value ∧ r.value ≤ 1 := by
  have hpow : (0 : ℚ) < 10 ^ (-e : ℤ) := by positivity
  rw [quantize_rescale h]
  refine ⟨rfl, rescale_near d _, value_nonneg.2 (rescale_nonneg hlow _), ?_⟩
  have hone : d.rescale (-e) ≤ 10 ^ e := by
    have hinv : (1 : ℚ) / 10 ^ (-e : ℤ) = ((10 ^ e : ℤ) : ℚ) := by
      rw [zpow_neg, one_div, inv_inv, zpow_natCast]
      push_cast
      rfl
    calc d.rescale (-e) = halfEven (d.value / 10 ^ (-e : ℤ)) := rescale_eq d _
      _ ≤ halfEven (1 / 10 ^ (-e : ℤ)) := halfEven_mono (by gcongr)
      _ = 10 ^ e := by rw [hinv, halfEven_intCast]
  calc (⟨d.rescale (-e), -e⟩ : Decimal).value = (d.rescale (-e) : ℚ) * 10 ^ (-e : ℤ) := rfl
    _ ≤ ((10 ^ e : ℤ) : ℚ) * 10 ^ (-e : ℤ) := by
      refine mul_le_mul_of_nonneg_right ?_ hpow.le
      exact_mod_cast hone
    _ = 1 := by
      push_cast
      rw [← zpow_natCast, ← zpow_add₀ (by norm_num), add_neg_cancel, zpow_zero]

/-- **A quantised quotient** of integers exists, and is near their ratio -/
theorem exists_ratio {p e : ℕ} (hpe : e < p) (hp : 0 < p) {n d : ℤ} (hn : 0 ≤ n) (hnd : n ≤ d) (hd : 0 < d)
    {ctx : DecimalContext} (hctx : ctx.prec = some p) :
    ∃ q r, div p ⟨n, 0⟩ ⟨d, 0⟩ = some q ∧ quantize ctx q (-e) = some r ∧ r.exp = -e ∧
      |r.value - n / d| ≤ 10 ^ (1 - p : ℤ) + 10 ^ (-e : ℤ) ∧ 0 ≤ r.value ∧ r.value ≤ 1 := by
  obtain ⟨q, hq⟩ := div_isSome (p := p) (a := ⟨n, 0⟩) (b := ⟨d, 0⟩) hd.ne'
  obtain ⟨hnear, hlow, hhigh⟩ := near_div hp hn hnd hd hq
  have hroom : ∀ p', ctx.prec = some p' → |q.value| + 10 ^ (-e : ℤ) < 10 ^ p' * 10 ^ (-e : ℤ) := by
    intro p' hp'
    rw [hctx, Option.some.injEq] at hp'
    have hten : (10 : ℚ) ^ (1 : ℤ) ≤ 10 ^ ((p : ℤ) + -e) := zpow_le_zpow_right₀ (by norm_num) (by omega)
    have hone : (10 : ℚ) ^ (-e : ℤ) ≤ 10 ^ (0 : ℤ) := zpow_le_zpow_right₀ (by norm_num) (by omega)
    rw [zpow_one] at hten
    rw [zpow_zero] at hone
    rw [← hp', abs_of_nonneg hlow, ← zpow_natCast, ← zpow_add₀ (by norm_num)]
    linarith
  obtain ⟨r, hr⟩ := quantize_isSome hroom
  obtain ⟨hexp, hnear', hlow', hhigh'⟩ := near_quantize hr hlow hhigh
  refine ⟨q, r, hq, hr, hexp, ?_, hlow', hhigh'⟩
  calc |r.value - n / d| = |(r.value - q.value) + (q.value - n / d)| := by rw [sub_add_sub_cancel]
    _ ≤ |r.value - q.value| + |q.value - n / d| := abs_add_le _ _
    _ ≤ 10 ^ (1 - p : ℤ) + 10 ^ (-e : ℤ) := by linarith

/-! ## Fractions -/

/-- different fractions are apart -/
theorem gap_of_ne {a b c d : ℤ} (hb : 0 < b) (hd : 0 < d) (hne : (a : ℚ) / b ≠ c / d) :
    1 / (b * d : ℚ) ≤ |(a : ℚ) / b - c / d| := by
  have hb' : (0 : ℚ) < b := by exact_mod_cast hb
  have hd' : (0 : ℚ) < d := by exact_mod_cast hd
  have hnum : (1 : ℚ) ≤ |((a * d - b * c : ℤ) : ℚ)| := by
    have hint : a * d - b * c ≠ 0 := by
      intro h
      refine hne ((div_eq_div_iff hb'.ne' hd'.ne').2 ?_)
      have : a * d = c * b := by linarith
      exact_mod_cast this
    rw [← Int.cast_abs]
    exact_mod_cast Int.one_le_abs hint
  rw [div_sub_div _ _ hb'.ne' hd'.ne', abs_div, abs_of_pos (mul_pos hb' hd')]
  refine div_le_div_of_nonneg_right ?_ (mul_pos hb' hd').le
  push_cast at hnum
  exact hnum

/-! ## Integers of decimals -/

/-- `int(d)` -/
def truncate (d : Decimal) : ℤ :=
  if 0 ≤ d.exp then d.coeff * 10 ^ d.exp.toNat else d.coeff.tdiv (10 ^ (-d.exp).toNat : ℕ)

/-- `d.to_integral_value(rounding=ROUND_HALF_EVEN)` -/
def toIntegral (d : Decimal) : Decimal := if 0 ≤ d.exp then d else ⟨d.rescale 0, 0⟩

theorem value_of_exp_nonneg {d : Decimal} (h : 0 ≤ d.exp) : d.value = ((d.coeff * 10 ^ d.exp.toNat : ℤ) : ℚ) := by
  have hexp : (d.exp.toNat : ℤ) = d.exp := Int.toNat_of_nonneg h
  rw [value, ← hexp, zpow_natCast, Int.toNat_natCast]
  push_cast
  rfl

theorem truncate_of_nonneg {d : Decimal} (h : 0 ≤ d.coeff) : truncate d = ⌊d.value⌋ := by
  unfold truncate
  split_ifs with hexp
  · rw [value_of_exp_nonneg hexp, Int.floor_intCast]
  · have hneg : ((-d.exp).toNat : ℤ) = -d.exp := Int.toNat_of_nonneg (by omega)
    have hvalue : d.value = (d.coeff : ℚ) / ((10 ^ (-d.exp).toNat : ℕ) : ℚ) := by
      rw [value, Nat.cast_pow, ← zpow_natCast, hneg, zpow_neg, div_inv_eq_mul]
      norm_num
    rw [hvalue, Rat.floor_intCast_div_natCast, Int.tdiv_eq_ediv_of_nonneg h]

theorem truncate_toIntegral (d : Decimal) : truncate (toIntegral d) = halfEven d.value := by
  unfold toIntegral
  split_ifs with h
  · rw [truncate, if_pos h, value_of_exp_nonneg h, halfEven_intCast]
  · have hrescale : d.rescale 0 = halfEven d.value := by
      rw [rescale_eq, zpow_zero, div_one]
    rw [truncate, if_pos le_rfl, hrescale]
    simp

end Decimal

end Apar
