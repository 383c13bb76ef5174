/-
The rounding of a decimal context as a function of numbers, and what it does to sums. A library: nothing here is about
payments.

- `value_fix`: rounding to the context's precision is a function of the number alone, half-even at the quantum of its
  magnitude.
- `round_mono`: on nonnegative numbers that function is monotone.
- `round_of_fits`: a number that fits the context is kept.
- `sum_exact_value`: without a precision a sum is the sum of the numbers.
-/
import Mathlib.Data.Int.Log
import Apar.Core.Decimal

namespace Apar

namespace Decimal

/-! ## Half-even rounding of a rational -/

/-- the nearest integer, ties to even -/
def halfEven (q : ℚ) : ℤ :=
  if 2 * (q - ⌊q⌋) < 1 then ⌊q⌋ else if 1 < 2 * (q - ⌊q⌋) then ⌊q⌋ + 1 else if ⌊q⌋ % 2 = 0 then ⌊q⌋ else ⌊q⌋ + 1

theorem divHalfEven_eq (n : ℤ) {d : ℕ} (hd : 0 < d) : divHalfEven n d = halfEven (n / d) := by
  have hd' : (0 : ℚ) < d := by exact_mod_cast hd
  have hfloor : ⌊(n : ℚ) / d⌋ = n / d := Rat.floor_intCast_div_natCast n d
  have hfrac : (n : ℚ) / d - ⌊(n : ℚ) / d⌋ = ((n % d : ℤ) : ℚ) / d := by
    rw [hfloor, div_sub' hd'.ne']
    congr 1
    have := Int.emod_add_mul_ediv n d
    have hcast : ((n % d : ℤ) : ℚ) + d * ((n / d : ℤ) : ℚ) = n := by exact_mod_cast this
    linarith
  have hlt : 2 * (((n % d : ℤ) : ℚ) / d) < 1 ↔ 2 * (n % d) < d := by
    rw [← mul_div_assoc, div_lt_one hd']
    exact_mod_cast Iff.rfl
  have hgt : 1 < 2 * (((n % d : ℤ) : ℚ) / d) ↔ (d : ℤ) < 2 * (n % d) := by
    rw [← mul_div_assoc, one_lt_div hd']
    exact_mod_cast Iff.rfl
  unfold divHalfEven halfEven
  simp only [hfrac, hlt, hgt]
  rw [hfloor]

@[simp] theorem halfEven_intCast (z : ℤ) : halfEven (z : ℚ) = z := by
  simp [halfEven]

theorem halfEven_mem (q : ℚ) : ⌊q⌋ ≤ halfEven q ∧ halfEven q ≤ ⌊q⌋ + 1 := by
  unfold halfEven
  split_ifs <;> omega

theorem halfEven_mono {q r : ℚ} (h : q ≤ r) : halfEven q ≤ halfEven r := by
  have hfloor : ⌊q⌋ ≤ ⌊r⌋ := Int.floor_le_floor h
  rcases hfloor.lt_or_eq with hlt | heq
  · have hq := (halfEven_mem q).2
    have hr := (halfEven_mem r).1
    omega
  · unfold halfEven
    rw [heq]
    split_ifs <;> first | omega | (exfalso; linarith)

/-! ## Rounding to a precision -/

/-- the exponent of the last of `p` digits of a number -/
def quantum (p : ℕ) (x : ℚ) : ℤ := Int.log 10 |x| + 1 - p

/-- `p` significant digits, half-even -/
def roundTo (p : ℕ) (x : ℚ) : ℚ := halfEven (x / 10 ^ quantum p x) * 10 ^ quantum p x

end Decimal

/-- a context's rounding of a number -/
def DecimalContext.round (ctx : DecimalContext) (x : ℚ) : ℚ :=
  match ctx.prec with
  | none => x
  | some p => Decimal.roundTo p x

namespace Decimal

@[simp] theorem roundTo_zero (p : ℕ) : roundTo p 0 = 0 := by
  have : halfEven 0 = 0 := halfEven_intCast 0
  simp [roundTo, this]

theorem halfEven_div_mul {z : ℤ} {x : ℚ} {e : ℤ} (h : x = z * 10 ^ e) : halfEven (x / 10 ^ e) * 10 ^ e = x := by
  have hpow : (10 : ℚ) ^ e ≠ 0 := by positivity
  rw [h, mul_div_assoc, div_self hpow, mul_one, halfEven_intCast]

/-- a number with few enough digits is its own rounding -/
theorem roundTo_of_lt {p : ℕ} {c e : ℤ} (h : c.natAbs < 10 ^ p) : roundTo p (c * 10 ^ e) = c * 10 ^ e := by
  rcases eq_or_ne c 0 with rfl | hc
  · simp
  have hpow : (0 : ℚ) < 10 ^ e := by positivity
  have hne : 0 < |(c : ℚ) * 10 ^ e| := by
    rw [abs_pos]
    exact mul_ne_zero (by exact_mod_cast hc) hpow.ne'
  have hlt : |(c : ℚ) * 10 ^ e| < ((10 : ℕ) : ℚ) ^ ((p : ℤ) + e) := by
    rw [abs_mul, abs_of_pos hpow, Nat.cast_ofNat, zpow_add₀ (by norm_num), zpow_natCast]
    exact mul_lt_mul_of_pos_right ((natAbs_lt_pow c p).1 h) hpow
  have hlog := (Int.lt_zpow_iff_log_lt (by norm_num) hne).1 hlt
  have hle : quantum p ((c : ℚ) * 10 ^ e) ≤ e := by
    unfold quantum
    omega
  unfold roundTo
  refine halfEven_div_mul (z := c * 10 ^ (e - quantum p ((c : ℚ) * 10 ^ e)).toNat) ?_
  push_cast
  rw [mul_assoc, ← zpow_natCast, Int.toNat_of_nonneg (by omega), ← zpow_add₀ (by norm_num), sub_add_cancel]

theorem log_coeff {c e : ℤ} (hc : c ≠ 0) : Int.log 10 |(c : ℚ) * 10 ^ e| = Nat.log 10 c.natAbs + e := by
  have hpow : (0 : ℚ) < 10 ^ e := by positivity
  have habs : |(c : ℚ) * 10 ^ e| = (c.natAbs : ℚ) * 10 ^ e := by
    rw [abs_mul, abs_of_pos hpow, ← Int.cast_abs, Int.abs_eq_natAbs]
    rfl
  have hpos : 0 < (c.natAbs : ℚ) * 10 ^ e := by
    have : 0 < (c.natAbs : ℚ) := by exact_mod_cast Int.natAbs_pos.2 hc
    positivity
  have hlow : (10 : ℕ) ^ Nat.log 10 c.natAbs ≤ c.natAbs := Nat.pow_log_le_self 10 (Int.natAbs_ne_zero.2 hc)
  have hhigh : c.natAbs < 10 ^ (Nat.log 10 c.natAbs + 1) := Nat.lt_pow_succ_log_self (by norm_num) _
  rw [habs]
  refine le_antisymm ?_ ?_
  · rw [← Int.lt_add_one_iff, ← Int.lt_zpow_iff_log_lt (by norm_num) hpos, Nat.cast_ofNat, add_right_comm,
      zpow_add₀ (by norm_num)]
    refine mul_lt_mul_of_pos_right ?_ hpow
    exact_mod_cast hhigh
  · rw [← Int.zpow_le_iff_le_log (by norm_num) hpos, Nat.cast_ofNat, zpow_add₀ (by norm_num), zpow_natCast]
    refine mul_le_mul_of_nonneg_right ?_ hpow.le
    exact_mod_cast hlow

/-- **Rounding to the context is a function of the number alone.** -/
theorem value_fix (ctx : DecimalContext) (d : Decimal) : (fix ctx d).value = ctx.round d.value := by
  unfold fix DecimalContext.round
  cases hp : ctx.prec with
  | none => rfl
  | some p =>
    have hp0 := ctx.pos p hp
    dsimp only
    split_ifs with hlt hcarry
    · exact (roundTo_of_lt hlt).symm
    all_goals
      have hc : d.coeff ≠ 0 := by
        intro h
        rw [h] at hlt
        exact hlt (by positivity)
      have hdigits : p ≤ digits d.coeff := by
        have := (Nat.le_log_iff_pow_le (by norm_num) (Int.natAbs_ne_zero.2 hc)).2 (not_lt.1 hlt)
        unfold digits
        omega
      have hquantum : quantum p d.value = d.exp + (digits d.coeff - p : ℕ) := by
        unfold quantum value digits at *
        rw [log_coeff hc]
        omega
      have hround : roundTo p d.value = divHalfEven d.coeff (10 ^ (digits d.coeff - p)) * 10 ^ quantum p d.value := by
        unfold roundTo
        rw [divHalfEven_eq _ (by positivity)]
        congr 3
        rw [hquantum, value, zpow_add₀ (by norm_num), zpow_natCast]
        push_cast
        field_simp
    · -- a carry into one more digit divides the coefficient by ten
      have hten : (10 : ℤ) ∣ divHalfEven d.coeff (10 ^ (digits d.coeff - p)) := by
        rw [← Int.natAbs_dvd_natAbs, hcarry]
        exact dvd_pow_self _ (by omega)
      rw [hround, hquantum, value, zpow_add₀ (by norm_num) _ 1, zpow_one, mul_comm ((10 : ℚ) ^ _) 10, ← mul_assoc]
      congr 1
      obtain ⟨z, hz⟩ := hten
      rw [hz, Int.mul_ediv_cancel_left _ (by norm_num)]
      push_cast
      ring
    · rw [hround, hquantum, value]

theorem value_add (ctx : DecimalContext) (a b : Decimal) : (add ctx a b).value = ctx.round (a.value + b.value) := by
  unfold add
  rw [value_fix, value_mk_add]

/-! ## Monotonicity -/

theorem roundTo_nonneg {p : ℕ} {x : ℚ} (h : 0 ≤ x) : 0 ≤ roundTo p x := by
  have hpow : (0 : ℚ) < 10 ^ quantum p x := by positivity
  have hle : halfEven 0 ≤ halfEven (x / 10 ^ quantum p x) := halfEven_mono (by positivity)
  have hzero : halfEven 0 = 0 := halfEven_intCast 0
  unfold roundTo
  rw [hzero] at hle
  have : (0 : ℚ) ≤ (halfEven (x / 10 ^ quantum p x) : ℤ) := by exact_mod_cast hle
  positivity

theorem roundTo_mono {p : ℕ} (hp : 0 < p) {x y : ℚ} (hx : 0 ≤ x) (h : x ≤ y) : roundTo p x ≤ roundTo p y := by
  rcases hx.eq_or_lt with rfl | hx
  · rw [roundTo_zero]
    exact roundTo_nonneg h
  have hy : 0 < y := hx.trans_le h
  have hpow : ∀ e : ℤ, (0 : ℚ) < 10 ^ e := fun e => by positivity
  have hlog : Int.log 10 x ≤ Int.log 10 y := Int.log_mono_right hx h
  have hqx : quantum p x = Int.log 10 x + 1 - p := by rw [quantum, abs_of_pos hx]
  have hqy : quantum p y = Int.log 10 y + 1 - p := by rw [quantum, abs_of_pos hy]
  rcases hlog.eq_or_lt with heq | hlt
  · -- one quantum
    have hsame : quantum p y = quantum p x := by rw [hqx, hqy, heq]
    unfold roundTo
    rw [hsame]
    refine mul_le_mul_of_nonneg_right ?_ (hpow _).le
    exact_mod_cast halfEven_mono (div_le_div_of_nonneg_right h (hpow _).le)
  · -- a power of ten between the two
    have hupper : roundTo p x ≤ 10 ^ (Int.log 10 x + 1) := by
      have hlt : x < ((10 : ℕ) : ℚ) ^ (Int.log 10 x + 1) := Int.lt_zpow_succ_log_self (by norm_num) x
      have hle : x / 10 ^ quantum p x ≤ ((10 ^ p : ℕ) : ℤ) := by
        rw [div_le_iff₀ (hpow _), hqx]
        push_cast
        rw [← zpow_natCast, ← zpow_add₀ (by norm_num)]
        refine hlt.le.trans (le_of_eq ?_)
        push_cast
        congr 1
        omega
      have hround := halfEven_mono hle
      rw [halfEven_intCast] at hround
      have hcast : ((halfEven (x / 10 ^ quantum p x) : ℤ) : ℚ) ≤ 10 ^ p := by exact_mod_cast hround
      calc roundTo p x ≤ 10 ^ p * 10 ^ quantum p x := mul_le_mul_of_nonneg_right hcast (hpow _).le
        _ = 10 ^ (Int.log 10 x + 1) := by
          rw [hqx, ← zpow_natCast, ← zpow_add₀ (by norm_num)]
          congr 1
          omega
    have hlower : (10 : ℚ) ^ Int.log 10 y ≤ roundTo p y := by
      have hle : ((10 : ℕ) : ℚ) ^ Int.log 10 y ≤ y := Int.zpow_log_le_self (by norm_num) hy
      have hge : (((10 ^ (p - 1) : ℕ) : ℤ) : ℚ) ≤ y / 10 ^ quantum p y := by
        rw [le_div_iff₀ (hpow _), hqy]
        push_cast
        rw [← zpow_natCast, ← zpow_add₀ (by norm_num)]
        refine le_trans (le_of_eq ?_) hle
        push_cast
        congr 1
        omega
      have hround := halfEven_mono hge
      rw [halfEven_intCast] at hround
      have hcast : (10 : ℚ) ^ (p - 1) ≤ (halfEven (y / 10 ^ quantum p y) : ℤ) := by exact_mod_cast hround
      calc (10 : ℚ) ^ Int.log 10 y = 10 ^ (p - 1) * 10 ^ quantum p y := by
            rw [hqy, ← zpow_natCast, ← zpow_add₀ (by norm_num)]
            congr 1
            omega
        _ ≤ roundTo p y := mul_le_mul_of_nonneg_right hcast (hpow _).le
    refine hupper.trans (le_trans ?_ hlower)
    exact zpow_le_zpow_right₀ (by norm_num) (by omega)

end Decimal

namespace DecimalContext

variable {ctx : DecimalContext}

@[simp] theorem round_zero : ctx.round 0 = 0 := by
  unfold round
  cases ctx.prec with
  | none => rfl
  | some p => exact Decimal.roundTo_zero p

theorem round_mono {x y : ℚ} (hx : 0 ≤ x) (h : x ≤ y) : ctx.round x ≤ ctx.round y := by
  unfold round
  cases hp : ctx.prec with
  | none => exact h
  | some p => exact Decimal.roundTo_mono (ctx.pos p hp) hx h

theorem round_nonneg {x : ℚ} (h : 0 ≤ x) : 0 ≤ ctx.round x := by
  have hmono : ctx.round 0 ≤ ctx.round x := round_mono le_rfl h
  rwa [round_zero] at hmono

theorem round_of_fits {x : ℚ} {e : ℤ} {c : ℤ} (hx : x = c * 10 ^ e) (h : ctx.Fits e x) : ctx.round x = x := by
  subst hx
  have hfix : Decimal.fix ctx ⟨c, e⟩ = ⟨c, e⟩ := Decimal.fix_of_fits le_rfl h
  have hvalue := Decimal.value_fix ctx ⟨c, e⟩
  rw [hfix] at hvalue
  exact hvalue.symm

end DecimalContext

namespace Decimal

variable {ctx : DecimalContext}

/-- a number that the context represents -/
def Held (ctx : DecimalContext) (x : ℚ) : Prop := ctx.round x = x

/-- rounding off all but `p` digits carries at most into the next power of ten -/
theorem natAbs_divHalfEven_le {n : ℤ} {p k : ℕ} (h : n.natAbs < 10 ^ (p + k)) :
    (divHalfEven n (10 ^ k)).natAbs ≤ 10 ^ p := by
  have hnear := abs_le.1 (divHalfEven_near n (d := 10 ^ k) (by positivity))
  have hn : |n| < 10 ^ p * 10 ^ k := by
    rw [Int.abs_eq_natAbs, ← pow_add]
    exact_mod_cast h
  have hd : (0 : ℤ) < 10 ^ k := by positivity
  push_cast at hnear
  rw [← Int.ofNat_le, Int.natCast_natAbs, abs_le]
  push_cast
  rw [abs_lt] at hn
  constructor <;> by_contra hlt <;> nlinarith

theorem natAbs_fix_lt {p : ℕ} (hp : ctx.prec = some p) (d : Decimal) : (fix ctx d).coeff.natAbs < 10 ^ p := by
  have hp0 := ctx.pos p hp
  unfold fix
  rw [hp]
  dsimp only
  split_ifs with hlt hcarry
  · exact hlt
  all_goals
    have hlog : d.coeff.natAbs < 10 ^ (p + (digits d.coeff - p)) := by
      have hsucc : d.coeff.natAbs < 10 ^ digits d.coeff := Nat.lt_pow_succ_log_self (by norm_num) _
      exact hsucc.trans_le (Nat.pow_le_pow_right (by norm_num) (by omega))
    have hle := natAbs_divHalfEven_le hlog
  · show (divHalfEven d.coeff (10 ^ (digits d.coeff - p)) / 10).natAbs < 10 ^ p
    have hten : 10 ^ 1 ≤ 10 ^ p := Nat.pow_le_pow_right (by norm_num) hp0
    generalize 10 ^ p = m at hcarry hten ⊢
    omega
  · exact lt_of_le_of_ne hle hcarry

theorem held_fix (d : Decimal) : Held ctx (fix ctx d).value := by
  unfold Held DecimalContext.round
  cases hp : ctx.prec with
  | none => rfl
  | some p => exact roundTo_of_lt (natAbs_fix_lt hp d)

theorem held_add (a b : Decimal) : Held ctx (add ctx a b).value := held_fix _

/-! ## Exact sums -/

@[simp] theorem add_exact_value (a b : Decimal) : (add .exact a b).value = a.value + b.value := value_mk_add a b

@[simp] theorem sub_exact_value (a b : Decimal) : (sub .exact a b).value = a.value - b.value := by
  rw [sub, add_exact_value, value_neg, sub_eq_add_neg]

theorem sum_exact_value (xs : List Decimal) : (sum .exact xs).value = (xs.map value).sum := by
  have key : ∀ (xs : List Decimal) (a : Decimal), (xs.foldl (add .exact) a).value = a.value + (xs.map value).sum := by
    intro xs
    induction xs with
    | nil => intro a; simp
    | cons x xs ih =>
      intro a
      rw [List.foldl_cons, ih, add_exact_value, List.map_cons, List.sum_cons, add_assoc]
  simpa [sum] using key xs 0

theorem eq_of_value_eq {a b : Decimal} (he : a.exp = b.exp) (hv : a.value = b.value) : a = b := by
  obtain ⟨c, e⟩ := a
  obtain ⟨d, f⟩ := b
  cases he
  have hpow : (10 : ℚ) ^ e ≠ 0 := by positivity
  have hc : (c : ℚ) = d := mul_right_cancel₀ hpow hv
  rw [Int.cast_inj.1 hc]

end Decimal

end Apar
