/-
Products and quotients of decimals in a context. A library: nothing here is about payments.

- `value_mul`, `value_div`: a product and a quotient are the exact ones, rounded to the context.
- `rescale_eq`: rescaling rounds the number to a multiple of the quantum.
-/
import Apar.Core.DecimalRounding

namespace Apar

namespace Decimal

def mul (ctx : DecimalContext) (a b : Decimal) : Decimal := fix ctx ⟨a.coeff * b.coeff, a.exp + b.exp⟩

/-- drop trailing zeros while the exponent is below the ideal one; a coefficient of `n` digits has fewer than `n` -/
def stripZeros (ideal : ℤ) : ℕ → Decimal → Decimal
  | 0, d => d
  | n + 1, d => if d.exp < ideal ∧ d.coeff % 10 = 0 then stripZeros ideal n ⟨d.coeff / 10, d.exp + 1⟩ else d

/-- the quotient of `p` significant digits, half-even; an exact quotient has the exponent nearest to the ideal one.
`none` is `DivisionByZero`. -/
def div (p : ℕ) (a b : Decimal) : Option Decimal :=
  if b.coeff = 0 then none
  else if a.coeff = 0 then some ⟨0, a.exp - b.exp⟩
  else
    let q := a.value / b.value
    let e := quantum p q
    let c := halfEven (q / 10 ^ e)
    if c * 10 ^ e = q then some (stripZeros (a.exp - b.exp) p ⟨c, e⟩)
    -- rounding 99..9 up carries into one more digit
    else if c.natAbs = 10 ^ p then some ⟨c / 10, e + 1⟩ else some ⟨c, e⟩

theorem value_mul (ctx : DecimalContext) (a b : Decimal) : (mul ctx a b).value = ctx.round (a.value * b.value) := by
  unfold mul
  rw [value_fix]
  congr 1
  simp only [value]
  rw [zpow_add₀ (by norm_num)]
  push_cast
  ring

theorem value_tenth {c e : ℤ} (h : c % 10 = 0) : (⟨c / 10, e + 1⟩ : Decimal).value = (⟨c, e⟩ : Decimal).value := by
  obtain ⟨m, rfl⟩ := Int.dvd_of_emod_eq_zero h
  rw [Int.mul_ediv_cancel_left _ (by norm_num)]
  simp only [value]
  rw [zpow_add₀ (by norm_num), zpow_one]
  push_cast
  ring

theorem value_stripZeros (ideal : ℤ) (n : ℕ) (d : Decimal) : (stripZeros ideal n d).value = d.value := by
  induction n generalizing d with
  | zero => rfl
  | succ n ih =>
    unfold stripZeros
    split_ifs with h
    · rw [ih]
      exact value_tenth h.2
    · rfl

/-- **A quotient is the exact one, rounded.** -/
theorem value_div {p : ℕ} (hp : 0 < p) {a b q : Decimal} (h : div p a b = some q) :
    q.value = roundTo p (a.value / b.value) := by
  unfold div at h
  dsimp only at h
  split_ifs at h with hb ha hexact hcarry
  · rw [Option.some.injEq] at h
    subst h
    have hzero : a.value = 0 := by simp [value, ha]
    rw [hzero, zero_div, roundTo_zero]
    simp [value]
  · rw [Option.some.injEq] at h
    subst h
    rw [value_stripZeros]
    rfl
  · rw [Option.some.injEq] at h
    subst h
    refine value_tenth ?_
    have hten : (10 : ℤ) ∣ 10 ^ p := dvd_pow_self 10 hp.ne'
    have hdvd : ((10 : ℤ) : ℤ) ∣ halfEven (a.value / b.value / 10 ^ quantum p (a.value / b.value)) := by
      rw [← Int.dvd_natAbs, hcarry]
      exact_mod_cast hten
    exact Int.emod_eq_zero_of_dvd hdvd
  · rw [Option.some.injEq] at h
    subst h
    rfl

/-- a quotient exists where the divisor is not zero -/
theorem div_isSome {p : ℕ} {a b : Decimal} (h : b.coeff ≠ 0) : ∃ q, div p a b = some q := by
  unfold div
  rw [if_neg h]
  dsimp only
  split_ifs <;> exact ⟨_, rfl⟩

/-- a number of units of `10 ^ e` fits by the digits of its coefficient -/
theorem fits_mk {ctx : DecimalContext} {c e : ℤ} :
    ctx.Fits e (⟨c, e⟩ : Decimal).value ↔ ∀ p, ctx.prec = some p → c.natAbs < 10 ^ p := by
  have hpow : (0 : ℚ) < 10 ^ e := by positivity
  unfold DecimalContext.Fits
  refine forall_congr' fun p => imp_congr_right fun _ => ?_
  rw [value, abs_mul, abs_of_pos hpow, natAbs_lt_pow]
  exact mul_lt_mul_iff_left₀ hpow

/-- **Rescaling rounds to the nearest multiple of the quantum.** -/
theorem rescale_eq (d : Decimal) (e : ℤ) : d.rescale e = halfEven (d.value / 10 ^ e) := by
  have hpow : (10 : ℚ) ^ e ≠ 0 := by positivity
  unfold rescale
  split_ifs with he
  · have hv := value_scaled he
    rw [← hv, mul_div_assoc, div_self hpow, mul_one, halfEven_intCast]
  · rw [divHalfEven_eq _ (by positivity)]
    congr 1
    have hn : ((e - d.exp).toNat : ℤ) = e - d.exp := Int.toNat_of_nonneg (by omega)
    rw [Nat.cast_pow, ← zpow_natCast, hn, Nat.cast_ofNat, value, zpow_sub₀ (by norm_num)]
    field_simp

end Decimal

end Apar
