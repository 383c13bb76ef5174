/-
Totals of nonnegative decimals under a context precision. A library: nothing here is about payments.

A total is exact while it fits the context, and once it does not fit it never fits again: rounding keeps a number at or
above the limit (`Large`), so quantising the total at a common lower bound of the exponents fails.

- `quantize_exact`: a number at or above the exponent asked for is quantised exactly where it fits.
- `quantize_large`: it cannot be quantised where it does not.
- `quantize_sum`: the two for a total.
- `foldl_value`: a running signed total is exact while all its partial totals fit.
-/
import Apar.Core.Decimal

namespace Apar

namespace Decimal

variable {ctx : DecimalContext} {d a b : Decimal} {e : ℤ}

theorem quantize_exact (hexp : e ≤ d.exp) (h : ctx.Fits e d.value) :
    ∃ q, d.quantize ctx e = some q ∧ q.exp = e ∧ q.value = d.value := by
  have hvalue : (⟨d.rescale e, e⟩ : Decimal).value = d.value := by
    unfold rescale
    rw [if_pos hexp]
    exact value_scaled hexp
  unfold quantize
  cases hp : ctx.prec with
  | none => exact ⟨_, rfl, rfl, hvalue⟩
  | some p =>
    have hpow : (0 : ℚ) < 10 ^ e := by positivity
    have hlt := h p hp
    rw [← hvalue, value, abs_mul, abs_of_pos hpow] at hlt
    have hdigits : (d.rescale e).natAbs < 10 ^ p := (natAbs_lt_pow _ _).2 (lt_of_mul_lt_mul_right hlt hpow.le)
    exact ⟨_, if_pos hdigits, rfl, hvalue⟩

theorem quantize_large (hexp : e ≤ d.exp) (h : ¬ ctx.Fits e d.value) : d.quantize ctx e = none := by
  cases hq : d.quantize ctx e with
  | none => rfl
  | some q =>
    have hfits := (quantize_spec hq).2
    rw [quantize_rescale hq, show d.rescale e = d.scaled e from if_pos hexp] at hfits
    exact absurd (value_scaled hexp ▸ hfits) h

theorem fits_nonneg {x : ℚ} (h : 0 ≤ x) : ctx.Fits e x ↔ ∀ p, ctx.prec = some p → x < 10 ^ p * 10 ^ e := by
  unfold DecimalContext.Fits
  rw [abs_of_nonneg h]

/-- a number that does not fit stays above the limit when it is rounded -/
theorem add_large (ha : e ≤ a.exp) (hb : e ≤ b.exp) (hsum : 0 ≤ a.value + b.value)
    (h : ¬ ctx.Fits e (a.value + b.value)) : e ≤ (add ctx a b).exp ∧ 0 ≤ (add ctx a b).value ∧
      ¬ ctx.Fits e (add ctx a b).value := by
  obtain ⟨p, hp, hlarge⟩ : ∃ p, ctx.prec = some p ∧ 10 ^ p * 10 ^ e ≤ a.value + b.value := by
    rw [fits_nonneg hsum] at h
    push Not at h
    exact h
  have hlimit : (0 : ℚ) < 10 ^ p * 10 ^ e := by positivity
  have hpos : 0 < (add ctx a b).value := add_pos (hlimit.trans_le hlarge)
  have hmin : e ≤ min a.exp b.exp := le_min ha hb
  have hexact := value_mk_add a b
  suffices hstays : e ≤ (add ctx a b).exp ∧ 10 ^ p * 10 ^ e ≤ (add ctx a b).value by
    refine ⟨hstays.1, hpos.le, fun hfits => ?_⟩
    exact absurd ((fits_nonneg hpos.le).1 hfits p hp) (not_lt.2 hstays.2)
  rcases Nat.lt_or_ge (a.scaled (min a.exp b.exp) + b.scaled (min a.exp b.exp)).natAbs (10 ^ p) with hlt | hge
  · have hfix : add ctx a b = ⟨a.scaled (min a.exp b.exp) + b.scaled (min a.exp b.exp), min a.exp b.exp⟩ := by
      unfold add fix
      rw [hp]
      exact if_pos hlt
    rw [hfix]
    exact ⟨hmin, hexact.symm ▸ hlarge⟩
  · obtain ⟨hexp, hdigits⟩ := fix_large hp (e := min a.exp b.exp) hge
    have hadd : add ctx a b = fix ctx ⟨a.scaled (min a.exp b.exp) + b.scaled (min a.exp b.exp), min a.exp b.exp⟩ := rfl
    rw [← hadd] at hexp hdigits
    refine ⟨hmin.trans hexp, ?_⟩
    have hscaled := value_scaled hexp
    have hnonneg : 0 ≤ (add ctx a b).scaled (min a.exp b.exp) := mul_nonneg (value_pos.1 hpos).le (by positivity)
    have hle : (10 : ℤ) ^ p ≤ (add ctx a b).scaled (min a.exp b.exp) := by
      rw [← Int.natAbs_of_nonneg hnonneg]
      exact_mod_cast hdigits
    have hcast : (10 : ℚ) ^ p ≤ ((add ctx a b).scaled (min a.exp b.exp) : ℚ) := by exact_mod_cast hle
    calc (10 : ℚ) ^ p * 10 ^ e ≤ 10 ^ p * 10 ^ min a.exp b.exp :=
          mul_le_mul_of_nonneg_left (zpow_le_zpow_right₀ (by norm_num) hmin) (by positivity)
      _ ≤ (add ctx a b).scaled (min a.exp b.exp) * 10 ^ min a.exp b.exp :=
          mul_le_mul_of_nonneg_right hcast (by positivity)
      _ = (add ctx a b).value := hscaled

/-- a total so far: exact while it fits, above the limit when it does not -/
structure Totalled (ctx : DecimalContext) (e : ℤ) (x : ℚ) (d : Decimal) : Prop where
  exp : e ≤ d.exp
  nonneg : 0 ≤ x
  exact : ctx.Fits e x → d.value = x
  large : ¬ ctx.Fits e x → 0 ≤ d.value ∧ ¬ ctx.Fits e d.value

theorem Totalled.zero (he : e ≤ 0) : Totalled ctx e 0 0 := by
  refine ⟨he, le_refl 0, fun _ => value_zero, fun h => absurd (fun p hp => ?_) h⟩
  rw [abs_zero]
  positivity

/-- **Step.** One more number. -/
theorem Totalled.add {x : ℚ} (h : Totalled ctx e x a) (hexp : e ≤ b.exp) (hb : 0 ≤ b.value) :
    Totalled ctx e (x + b.value) (Decimal.add ctx a b) := by
  have hx := h.nonneg
  have hmono : ctx.Fits e (x + b.value) → ctx.Fits e x := fun hfits =>
    hfits.mono (by rw [abs_of_nonneg hx, abs_of_nonneg (by linarith)]; linarith)
  by_cases hfits : ctx.Fits e x
  · have hvalue := h.exact hfits
    by_cases hnext : ctx.Fits e (x + b.value)
    · obtain ⟨hadd, hle⟩ := add_value h.exp hexp (hvalue.symm ▸ hnext)
      exact ⟨hle, by linarith, fun _ => hvalue ▸ hadd, fun hn => absurd hnext hn⟩
    · obtain ⟨hle, hpos, hlarge⟩ := add_large h.exp hexp (by rw [hvalue]; linarith) (hvalue.symm ▸ hnext)
      exact ⟨hle, by linarith, fun hf => absurd hf hnext, fun _ => ⟨hpos, hlarge⟩⟩
  · obtain ⟨hpos, hlarge⟩ := h.large hfits
    have hstays : ¬ ctx.Fits e (a.value + b.value) := fun hf =>
      hlarge (hf.mono (by rw [abs_of_nonneg hpos, abs_of_nonneg (by linarith)]; linarith))
    obtain ⟨hle, hnonneg, hlarge'⟩ := add_large h.exp hexp (by linarith) hstays
    exact ⟨hle, by linarith, fun hf => absurd (hmono hf) hfits, fun _ => ⟨hnonneg, hlarge'⟩⟩

theorem Totalled.sum (ctx : DecimalContext) {xs : List Decimal} (he : e ≤ 0) (h : ∀ x ∈ xs, e ≤ x.exp ∧ 0 ≤ x.value) :
    Totalled ctx e (xs.map value).sum (Decimal.sum ctx xs) := by
  induction xs using List.reverseRecOn with
  | nil => exact Totalled.zero he
  | append_singleton xs x ih =>
    obtain ⟨hexp, hnonneg⟩ := h x (by simp)
    have := (ih fun y hy => h y (by simp [hy])).add hexp hnonneg
    simpa [Decimal.sum] using this

/-- **A quantised total.** It is exact where the total fits, and fails where it does not. -/
theorem quantize_sum (ctx : DecimalContext) {xs : List Decimal} (he : e ≤ 0) (h : ∀ x ∈ xs, e ≤ x.exp ∧ 0 ≤ x.value) :
    (ctx.Fits e (xs.map value).sum →
      ∃ q, (sum ctx xs).quantize ctx e = some q ∧ q.exp = e ∧ q.value = (xs.map value).sum) ∧
    (¬ ctx.Fits e (xs.map value).sum → (sum ctx xs).quantize ctx e = none) := by
  have htotal := Totalled.sum ctx he h
  constructor
  · intro hfits
    have hvalue := htotal.exact hfits
    rw [← hvalue]
    exact quantize_exact htotal.exp (hvalue.symm ▸ hfits)
  · intro hfits
    exact quantize_large htotal.exp (htotal.large hfits).2

/-- **A running signed total.** It is exact while all its partial totals fit. -/
theorem foldl_value (ctx : DecimalContext) {α : Type} {step : Decimal → α → Decimal} {change : α → ℚ} {xs : List α} (he : e ≤ 0)
    (hstep : ∀ acc, ∀ x ∈ xs, e ≤ acc.exp → ctx.Fits e (acc.value + change x) →
      (step acc x).value = acc.value + change x ∧ e ≤ (step acc x).exp)
    (h : ∀ pre, pre <+: xs → ctx.Fits e (pre.map change).sum) :
    (xs.foldl step 0).value = (xs.map change).sum ∧ e ≤ (xs.foldl step 0).exp := by
  induction xs using List.reverseRecOn with
  | nil => exact ⟨value_zero, he⟩
  | append_singleton xs x ih =>
    obtain ⟨hvalue, hexp⟩ := ih (fun acc y hy => hstep acc y (by simp [hy])) fun pre hpre =>
      h pre (hpre.trans (List.prefix_append _ _))
    have hfits := h _ (List.prefix_refl _)
    rw [List.map_append, List.map_singleton, List.sum_append, List.sum_singleton] at hfits ⊢
    rw [List.foldl_append, List.foldl_cons, List.foldl_nil, ← hvalue]
    exact hstep _ x (by simp) hexp (hvalue.symm ▸ hfits)

end Decimal

end Apar
