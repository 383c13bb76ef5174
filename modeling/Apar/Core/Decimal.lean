/-
Decimal floating-point arithmetic under a context precision, as the General Decimal Arithmetic specification defines it
and Python's `decimal` computes it. A library: nothing here is about payments.

A finite decimal is `coeff * 10 ^ exp`; two of them are equal when their digits and exponents are (`as_tuple`), and
compare by `value`. Every operation computes the exact result and then rounds it, half-even, to the context's `prec`
significant digits (`fix`); `quantize` fails where its result needs more digits than that. `prec = none` is exact
arithmetic.

- `add_value` / `sub_value`: an addition whose exact result fits the context is exact, and its exponent stays at or
  above a common lower bound of the operands' exponents.
- `quantize_spec`: a successful `quantize` has the exponent asked for and fits the context.
- `quantize_self`: a number that already has the exponent and fits is its own quantum.
- `fix_pos` / `fix_neg`: rounding keeps the sign.
- `quantize_value_iff`: quantising is exact precisely on the multiples of the quantum.
- `quantize_add`: two numbers of one exponent whose sum can be quantised at it were added exactly.

Not modelled: NaN and infinities (every caller rejects them first), the sign of zero, and `Emin`/`Emax`.
-/
import Mathlib.Tactic

namespace Apar

/-! ## Numbers and contexts -/

/-- the finite decimal `coeff * 10 ^ exp` -/
structure Decimal where
  coeff : ℤ
  exp : ℤ
deriving DecidableEq, Repr

/-- a decimal context: the number of significant digits kept, at least one; `none` for exact arithmetic -/
structure DecimalContext where
  prec : Option ℕ
  pos : ∀ p, prec = some p → 0 < p

namespace DecimalContext

/-- Python's default context, `prec=28` -/
def default : DecimalContext := ⟨some 28, by simp⟩

/-- IEEE decimal128, `prec=34` -/
def decimal128 : DecimalContext := ⟨some 34, by simp⟩

def exact : DecimalContext := ⟨none, by simp⟩

/-- a number of units of `10 ^ e` needs no more digits than the context keeps -/
def Fits (ctx : DecimalContext) (e : ℤ) (x : ℚ) : Prop := ∀ p, ctx.prec = some p → |x| < 10 ^ p * 10 ^ e

theorem Fits.mono {ctx : DecimalContext} {e : ℤ} {x y : ℚ} (h : ctx.Fits e x) (hxy : |y| ≤ |x|) : ctx.Fits e y :=
  fun p hp => lt_of_le_of_lt hxy (h p hp)

end DecimalContext

namespace Decimal

/-- the number a decimal stands for -/
def value (d : Decimal) : ℚ := d.coeff * 10 ^ d.exp

instance : OfNat Decimal 0 := ⟨⟨0, 0⟩⟩

@[simp] theorem value_zero : (0 : Decimal).value = 0 := by
  show ((0 : ℤ) : ℚ) * 10 ^ (0 : ℤ) = 0
  simp

@[simp] theorem exp_zero : (0 : Decimal).exp = 0 := rfl

/-- the number of digits of a positive coefficient -/
def digits (c : ℤ) : ℕ := Nat.log 10 c.natAbs + 1

/-- `n / d` to the nearest integer, ties to even -/
def divHalfEven (n : ℤ) (d : ℕ) : ℤ :=
  let q := n / d
  let r := n % d
  if 2 * r < d then q else if d < 2 * r then q + 1 else if q % 2 = 0 then q else q + 1

/-- the coefficient of a decimal at an exponent at or below its own -/
def scaled (d : Decimal) (e : ℤ) : ℤ := d.coeff * (10 ^ (d.exp - e).toNat : ℕ)

/-- round to the context's precision (`_fix`) -/
def fix (ctx : DecimalContext) (d : Decimal) : Decimal :=
  match ctx.prec with
  | none => d
  | some p =>
    if d.coeff.natAbs < 10 ^ p then d
    else
      let k := digits d.coeff - p
      let c := divHalfEven d.coeff (10 ^ k)
      -- rounding 99..9 up carries into one more digit
      if c.natAbs = 10 ^ p then ⟨c / 10, d.exp + k + 1⟩ else ⟨c, d.exp + k⟩

def add (ctx : DecimalContext) (a b : Decimal) : Decimal :=
  let e := min a.exp b.exp
  fix ctx ⟨a.scaled e + b.scaled e, e⟩

def neg (d : Decimal) : Decimal := ⟨-d.coeff, d.exp⟩

def sub (ctx : DecimalContext) (a b : Decimal) : Decimal := add ctx a b.neg

/-- `sum(values, Decimal(0))`, left to right -/
def sum (ctx : DecimalContext) (xs : List Decimal) : Decimal := xs.foldl (add ctx) 0

/-- the coefficient of a decimal at any exponent, rounded half-even (`_rescale`) -/
def rescale (d : Decimal) (e : ℤ) : ℤ :=
  if e ≤ d.exp then d.scaled e else divHalfEven d.coeff (10 ^ (e - d.exp).toNat)

/-- `d.quantize(10 ** e, rounding=ROUND_HALF_EVEN)`; `none` is `InvalidOperation` -/
def quantize (ctx : DecimalContext) (d : Decimal) (e : ℤ) : Option Decimal :=
  match ctx.prec with
  | none => some ⟨d.rescale e, e⟩
  | some p => if (d.rescale e).natAbs < 10 ^ p then some ⟨d.rescale e, e⟩ else none

/-- numeric `a ≤ b` -/
def ble (a b : Decimal) : Bool :=
  let e := min a.exp b.exp
  decide (a.scaled e ≤ b.scaled e)

/-- numeric `a == b` -/
def numEq (a b : Decimal) : Bool := ble a b && ble b a

/-! ## Values of the operations -/

variable {d a b q : Decimal} {e m n : ℤ} {ctx : DecimalContext}

theorem value_scaled (h : e ≤ d.exp) : ((d.scaled e : ℤ) : ℚ) * 10 ^ e = d.value := by
  have hn : ((d.exp - e).toNat : ℤ) = d.exp - e := Int.toNat_of_nonneg (by omega)
  unfold scaled value
  push_cast
  rw [← zpow_natCast, hn, mul_assoc, ← zpow_add₀ (by norm_num)]
  congr 2
  omega

theorem value_neg (d : Decimal) : d.neg.value = -d.value := by
  simp [neg, value]

@[simp] theorem exp_neg (d : Decimal) : d.neg.exp = d.exp := rfl

theorem value_mk_add (a b : Decimal) :
    (⟨a.scaled (min a.exp b.exp) + b.scaled (min a.exp b.exp), min a.exp b.exp⟩ : Decimal).value = a.value + b.value := by
  have ha := value_scaled (d := a) (min_le_left a.exp b.exp)
  have hb := value_scaled (d := b) (min_le_right a.exp b.exp)
  rw [← ha, ← hb]
  simp only [value]
  push_cast
  ring

theorem natAbs_lt_pow (c : ℤ) (p : ℕ) : c.natAbs < 10 ^ p ↔ |(c : ℚ)| < 10 ^ p := by
  rw [← Int.cast_abs, Int.abs_eq_natAbs]
  constructor
  · intro h; exact_mod_cast h
  · intro h; exact_mod_cast h

/-- a number that fits the context at a lower exponent is not rounded -/
theorem fix_of_fits (hm : m ≤ d.exp) (h : ctx.Fits m d.value) : fix ctx d = d := by
  unfold fix
  cases hp : ctx.prec with
  | none => rfl
  | some p =>
    have hlt := h p hp
    have hpow : (0 : ℚ) < 10 ^ d.exp := by positivity
    have hle : (10 : ℚ) ^ m ≤ 10 ^ d.exp := zpow_le_zpow_right₀ (by norm_num) hm
    have habs : |(d.coeff : ℚ)| * 10 ^ d.exp < 10 ^ p * 10 ^ d.exp := by
      calc |(d.coeff : ℚ)| * 10 ^ d.exp = |d.value| := by rw [value, abs_mul, abs_of_pos hpow]
        _ < 10 ^ p * 10 ^ m := hlt
        _ ≤ 10 ^ p * 10 ^ d.exp := by gcongr
    have hc : d.coeff.natAbs < 10 ^ p := (natAbs_lt_pow _ _).2 (lt_of_mul_lt_mul_right habs hpow.le)
    simp [hc]

/-- **Exact addition.** An addition whose exact result fits the context at a common lower bound `m` of the exponents
returns that result, with an exponent at or above `m`. -/
theorem add_value (ha : m ≤ a.exp) (hb : m ≤ b.exp) (h : ctx.Fits m (a.value + b.value)) :
    (add ctx a b).value = a.value + b.value ∧ m ≤ (add ctx a b).exp := by
  have hv := value_mk_add a b
  have hm : m ≤ min a.exp b.exp := le_min ha hb
  unfold add
  rw [fix_of_fits hm (by rw [hv]; exact h)]
  exact ⟨hv, hm⟩

theorem sub_value (ha : m ≤ a.exp) (hb : m ≤ b.exp) (h : ctx.Fits m (a.value - b.value)) :
    (sub ctx a b).value = a.value - b.value ∧ m ≤ (sub ctx a b).exp := by
  have := add_value (b := b.neg) ha hb (by rw [value_neg, ← sub_eq_add_neg]; exact h)
  rwa [value_neg, ← sub_eq_add_neg] at this

theorem ble_iff (a b : Decimal) : ble a b = true ↔ a.value ≤ b.value := by
  have ha := value_scaled (d := a) (min_le_left a.exp b.exp)
  have hb := value_scaled (d := b) (min_le_right a.exp b.exp)
  have hpow : (0 : ℚ) < 10 ^ min a.exp b.exp := by positivity
  simp only [ble, decide_eq_true_eq]
  rw [← ha, ← hb, mul_le_mul_iff_left₀ hpow]
  exact_mod_cast Iff.rfl

theorem numEq_iff (a b : Decimal) : numEq a b = true ↔ a.value = b.value := by
  simp only [numEq, Bool.and_eq_true, ble_iff]
  exact le_antisymm_iff.symm

theorem quantize_spec (h : quantize ctx d e = some q) : q.exp = e ∧ ctx.Fits e q.value := by
  unfold quantize at h
  have key : ∀ c : ℤ, (∀ p, ctx.prec = some p → c.natAbs < 10 ^ p) → ctx.Fits e (⟨c, e⟩ : Decimal).value := by
    intro c hc p hp
    have hpow : (0 : ℚ) < 10 ^ e := by positivity
    rw [value, abs_mul, abs_of_pos hpow]
    exact mul_lt_mul_of_pos_right ((natAbs_lt_pow _ _).1 (hc p hp)) hpow
  cases hp : ctx.prec with
  | none =>
    rw [hp] at h
    cases h
    exact ⟨rfl, key _ fun p hp' => by rw [hp] at hp'; cases hp'⟩
  | some p =>
    rw [hp] at h
    dsimp only at h
    split_ifs at h with hlt
    · cases h
      exact ⟨rfl, key _ fun p' hp' => by rw [hp] at hp'; cases hp'; exact hlt⟩

/-- quantising to the exponent a fitting number already has changes nothing -/
theorem quantize_self (h : ctx.Fits d.exp d.value) : quantize ctx d d.exp = some d := by
  have hc : d.rescale d.exp = d.coeff := by simp [rescale, scaled]
  unfold quantize
  rw [hc]
  cases hp : ctx.prec with
  | none => rfl
  | some p =>
    have hpow : (0 : ℚ) < 10 ^ d.exp := by positivity
    have hlt := h p hp
    rw [value, abs_mul, abs_of_pos hpow] at hlt
    have : d.coeff.natAbs < 10 ^ p := (natAbs_lt_pow _ _).2 (lt_of_mul_lt_mul_right hlt hpow.le)
    simp [this]

/-! ## Rounding of large results -/

/-- a rounded quotient is within half of the divisor -/
theorem divHalfEven_near (n : ℤ) {d : ℕ} (hd : 0 < d) : |2 * (divHalfEven n d * d - n)| ≤ d := by
  have hd' : (0:ℤ) < d := by exact_mod_cast hd
  have h1 := Int.emod_add_mul_ediv n d
  have h2 := Int.emod_nonneg n hd'.ne'
  have h3 := Int.emod_lt_of_pos n hd'
  unfold divHalfEven
  rw [abs_le]
  dsimp only
  split_ifs <;> constructor <;> nlinarith

/-- rounding a quotient keeps it at or above an integer bound in absolute value -/
theorem divHalfEven_large {d m : ℕ} (hd : 0 < d) (h : m * d ≤ n.natAbs) : m ≤ (divHalfEven n d).natAbs := by
  have hd' : (0:ℤ) < d := by exact_mod_cast hd
  have hnear := abs_le.1 (divHalfEven_near n hd)
  have habs : (m : ℤ) * d ≤ |n| := by rw [Int.abs_eq_natAbs]; exact_mod_cast h
  zify
  by_contra hlt
  push Not at hlt
  have hlt' : |divHalfEven n d| ≤ m - 1 := by omega
  obtain ⟨h1, h2⟩ := abs_le.1 hlt'
  rcases abs_cases n with ⟨hn, _⟩ | ⟨hn, _⟩ <;> rw [hn] at habs <;> nlinarith

/-- a coefficient with too many digits is rounded to one that still needs them at the old exponent -/
theorem fix_large {p : ℕ} (hp : ctx.prec = some p) (h : 10 ^ p ≤ n.natAbs) :
    e ≤ (fix ctx ⟨n, e⟩).exp ∧ 10 ^ p ≤ ((fix ctx ⟨n, e⟩).scaled e).natAbs := by
  have hp0 := ctx.pos p hp
  have hp10 : 0 < 10 ^ p := by positivity
  have hn0 : n.natAbs ≠ 0 := by omega
  have hlog : p ≤ Nat.log 10 n.natAbs := (Nat.le_log_iff_pow_le (by norm_num) hn0).2 h
  obtain ⟨k, hk⟩ : ∃ k, digits n - p = k + 1 := ⟨Nat.log 10 n.natAbs - p, by unfold digits; omega⟩
  have hpow : 10 ^ (p - 1) * 10 ^ (k + 1) ≤ n.natAbs := by
    rw [← pow_add, show p - 1 + (k + 1) = Nat.log 10 n.natAbs by unfold digits at hk; omega]
    exact Nat.pow_log_le_self 10 hn0
  have hc := divHalfEven_large (pow_pos (by norm_num) (k + 1)) hpow
  have split : ∀ j, 10 ^ p ≤ 10 ^ (p - 1) * 10 ^ (j + 1) := by
    intro j
    rw [← pow_add]
    exact Nat.pow_le_pow_right (by norm_num) (by omega)
  have hfix : fix ctx ⟨n, e⟩ = if (divHalfEven n (10 ^ (k + 1))).natAbs = 10 ^ p
      then ⟨divHalfEven n (10 ^ (k + 1)) / 10, e + (k + 1 : ℕ) + 1⟩ else ⟨divHalfEven n (10 ^ (k + 1)), e + (k + 1 : ℕ)⟩ := by
    unfold fix
    rw [hp]
    simp only [hk, not_lt.2 h, if_false]
  rw [hfix]
  split_ifs with hcarry
  · refine ⟨by push_cast; omega, ?_⟩
    have hexp : (e + (k + 1 : ℕ) + 1 - e).toNat = k + 1 + 1 := by omega
    have h10 : ((10 : ℤ) ∣ divHalfEven n (10 ^ (k + 1))) := by
      rw [← Int.natAbs_dvd_natAbs, hcarry]
      exact dvd_pow_self 10 hp0.ne'
    obtain ⟨c, hc10⟩ := h10
    simp only [scaled, hexp]
    rw [Int.natAbs_mul, Int.natAbs_natCast]
    have hdiv : (divHalfEven n (10 ^ (k + 1)) / 10).natAbs = 10 ^ (p - 1) := by
      rw [hc10] at hcarry ⊢
      rw [Int.mul_ediv_cancel_left _ (by norm_num)]
      rw [Int.natAbs_mul] at hcarry
      have : 10 ^ p = 10 * 10 ^ (p - 1) := by rw [← pow_succ', Nat.sub_add_cancel hp0]
      rw [this] at hcarry
      exact Nat.eq_of_mul_eq_mul_left (by norm_num) hcarry
    rw [hdiv]
    exact split (k + 1)
  · refine ⟨by push_cast; omega, ?_⟩
    have hexp : (e + (k + 1 : ℕ) - e).toNat = k + 1 := by omega
    simp only [scaled, hexp]
    rw [Int.natAbs_mul, Int.natAbs_natCast]
    exact (split k).trans (Nat.mul_le_mul_right _ hc)

/-- **A rounded sum cannot be quantised back.** When two numbers share an exponent and their sum quantises at it, the
sum was exact. -/
theorem quantize_add (ha : a.exp = e) (hb : b.exp = e) (h : quantize ctx (add ctx a b) e = some q) :
    q = ⟨a.coeff + b.coeff, e⟩ := by
  have hadd : add ctx a b = fix ctx ⟨a.coeff + b.coeff, e⟩ := by simp [add, ha, hb, scaled]
  rw [hadd] at h
  by_cases hfit : ctx.Fits e (⟨a.coeff + b.coeff, e⟩ : Decimal).value
  · rw [fix_of_fits (le_refl e) hfit, quantize_self hfit] at h
    exact (Option.some.inj h).symm
  · exfalso
    cases hp : ctx.prec with
    | none => exact hfit fun p hp' => by rw [hp] at hp'; cases hp'
    | some p =>
      have hbig : 10 ^ p ≤ (a.coeff + b.coeff).natAbs := by
        by_contra hlt
        refine hfit fun p' hp' => ?_
        rw [hp] at hp'; cases hp'
        have hpow : (0 : ℚ) < 10 ^ e := by positivity
        rw [value, abs_mul, abs_of_pos hpow]
        exact mul_lt_mul_of_pos_right ((natAbs_lt_pow _ _).1 (not_le.1 hlt)) hpow
      obtain ⟨h1, h2⟩ := fix_large hp (e := e) hbig
      simp only [quantize, hp, rescale, if_pos h1, not_lt.2 h2, if_false] at h
      cases h

/-! ## Signs -/

theorem value_nonneg : 0 ≤ d.value ↔ 0 ≤ d.coeff := by
  have hpow : (0 : ℚ) < 10 ^ d.exp := by positivity
  rw [value, mul_nonneg_iff_of_pos_right hpow]
  exact_mod_cast Iff.rfl

theorem value_pos : 0 < d.value ↔ 0 < d.coeff := by
  have hpow : (0 : ℚ) < 10 ^ d.exp := by positivity
  rw [value, mul_pos_iff_of_pos_right hpow]
  exact_mod_cast Iff.rfl

/-- a quotient of a number at least its divisor keeps the sign -/
theorem divHalfEven_pos {d : ℕ} (hd : 0 < d) (h : (d : ℤ) ≤ n) : 0 < divHalfEven n d := by
  have hd' : (0 : ℤ) < d := by exact_mod_cast hd
  have hnear := (abs_le.1 (divHalfEven_near n hd)).1
  by_contra hle
  nlinarith

theorem divHalfEven_neg {d : ℕ} (hd : 0 < d) (h : n ≤ -(d : ℤ)) : divHalfEven n d < 0 := by
  have hd' : (0 : ℤ) < d := by exact_mod_cast hd
  have hnear := (abs_le.1 (divHalfEven_near n hd)).2
  by_contra hle
  nlinarith

theorem value_lt_zero : d.value < 0 ↔ d.coeff < 0 := by
  have hpow : (0 : ℚ) < 10 ^ d.exp := by positivity
  rw [value, mul_neg_iff]
  constructor
  · rintro (⟨-, h⟩ | ⟨h, -⟩)
    · exact absurd h (not_lt.2 hpow.le)
    · exact_mod_cast h
  · intro h
    exact .inr ⟨by exact_mod_cast h, hpow⟩

/-- the shape of a rounded number: itself, or a rounded quotient by a power of ten no larger than it, carry included -/
theorem fix_cases (ctx : DecimalContext) (d : Decimal) :
    fix ctx d = d ∨ ∃ k : ℕ, 10 ^ k ≤ d.coeff.natAbs ∧
      ((fix ctx d).coeff = divHalfEven d.coeff (10 ^ k) ∨
        (10 ∣ divHalfEven d.coeff (10 ^ k) ∧ (fix ctx d).coeff = divHalfEven d.coeff (10 ^ k) / 10)) := by
  unfold fix
  cases hp : ctx.prec with
  | none => exact .inl rfl
  | some p =>
    simp only
    split_ifs with hlt hcarry
    · exact .inl rfl
    all_goals
      right
      have hp0 := ctx.pos p hp
      have hp10 : 0 < 10 ^ p := by positivity
      have hn0 : d.coeff.natAbs ≠ 0 := by omega
      have hk : 10 ^ (digits d.coeff - p) ≤ d.coeff.natAbs :=
        (Nat.pow_le_pow_right (by norm_num) (by unfold digits; omega)).trans (Nat.pow_log_le_self 10 hn0)
      refine ⟨digits d.coeff - p, hk, ?_⟩
    · right
      refine ⟨?_, rfl⟩
      rw [← Int.natAbs_dvd_natAbs, hcarry]
      exact dvd_pow_self 10 hp0.ne'
    · exact .inl rfl

/-- rounding keeps the sign -/
theorem fix_pos (h : 0 < d.value) : 0 < (fix ctx d).value := by
  rcases fix_cases ctx d with heq | ⟨k, hk, hc⟩
  · rwa [heq]
  · rw [value_pos] at h ⊢
    have hq : 0 < divHalfEven d.coeff (10 ^ k) := divHalfEven_pos (by positivity) (by omega)
    rcases hc with hc | ⟨⟨c, hdvd⟩, hc⟩
    · omega
    · omega

theorem fix_neg (h : d.value < 0) : (fix ctx d).value < 0 := by
  rcases fix_cases ctx d with heq | ⟨k, hk, hc⟩
  · rwa [heq]
  · rw [value_lt_zero] at h ⊢
    have hq : divHalfEven d.coeff (10 ^ k) < 0 := divHalfEven_neg (by positivity) (by omega)
    rcases hc with hc | ⟨⟨c, hdvd⟩, hc⟩
    · omega
    · omega

theorem add_pos (h : 0 < a.value + b.value) : 0 < (add ctx a b).value := by
  rw [← value_mk_add] at h
  exact fix_pos h

theorem sub_neg {ctx : DecimalContext} {a b : Decimal} (h : a.value < b.value) : (sub ctx a b).value < 0 := by
  have hlt : a.value + b.neg.value < 0 := by
    rw [value_neg]
    linarith
  rw [← value_mk_add] at hlt
  exact fix_neg hlt

/-- **Doubling exceeds.** A positive number that fits the context is less than its rounded double. -/
theorem lt_add_self (ha : 0 < a.value) (hfits : ctx.Fits a.exp a.value) : a.value < (add ctx a a).value := by
  have hadd : add ctx a a = fix ctx ⟨a.coeff + a.coeff, a.exp⟩ := by simp [add, scaled]
  rw [hadd]
  have hpow : (0 : ℚ) < 10 ^ a.exp := by positivity
  have hc : 0 < a.coeff := value_pos.1 ha
  by_cases hfit : ctx.Fits a.exp (⟨a.coeff + a.coeff, a.exp⟩ : Decimal).value
  · rw [fix_of_fits (d := ⟨a.coeff + a.coeff, a.exp⟩) (le_refl a.exp) hfit]
    simp only [value, Int.cast_add, add_mul]
    have : 0 < (a.coeff : ℚ) * 10 ^ a.exp := ha
    linarith
  · cases hp : ctx.prec with
    | none => exact absurd (fun p hp' => by rw [hp] at hp'; cases hp') hfit
    | some p =>
      have hbig : 10 ^ p ≤ (a.coeff + a.coeff).natAbs := by
        by_contra hlt
        refine hfit fun p' hp' => ?_
        rw [hp] at hp'
        cases hp'
        rw [value, abs_mul, abs_of_pos hpow]
        exact mul_lt_mul_of_pos_right ((natAbs_lt_pow _ _).1 (not_le.1 hlt)) hpow
      obtain ⟨hexp, hlarge⟩ := fix_large hp (e := a.exp) hbig
      have hpos : 0 < (fix ctx ⟨a.coeff + a.coeff, a.exp⟩).value := by
        refine fix_pos (value_pos.2 ?_)
        show 0 < a.coeff + a.coeff
        omega
      have hsmall : a.coeff.natAbs < 10 ^ p := by
        have := hfits p hp
        rw [value, abs_mul, abs_of_pos hpow] at this
        exact (natAbs_lt_pow _ _).2 (lt_of_mul_lt_mul_right this hpow.le)
      have hscaled : 0 < (fix ctx ⟨a.coeff + a.coeff, a.exp⟩).scaled a.exp := by
        unfold scaled
        exact mul_pos (value_pos.1 hpos) (by positivity)
      rw [← value_scaled hexp, value]
      refine mul_lt_mul_of_pos_right ?_ hpow
      have : a.coeff < (fix ctx ⟨a.coeff + a.coeff, a.exp⟩).scaled a.exp := by omega
      exact_mod_cast this

/-- `quantize` returns the nearest multiple -/
theorem quantize_rescale (h : quantize ctx d e = some q) : q = ⟨d.rescale e, e⟩ := by
  unfold quantize at h
  cases hp : ctx.prec with
  | none =>
    rw [hp] at h
    exact (Option.some.inj h).symm
  | some p =>
    simp only [hp] at h
    split_ifs at h
    exact (Option.some.inj h).symm

theorem divHalfEven_mul (z : ℤ) {d : ℕ} (hd : 0 < d) : divHalfEven (z * d) d = z := by
  have hd' : (d : ℤ) ≠ 0 := by exact_mod_cast hd.ne'
  unfold divHalfEven
  simp [Int.mul_ediv_cancel _ hd', hd]

/-- quantising is exact precisely on the multiples of the quantum -/
theorem quantize_value_iff (h : quantize ctx d e = some q) : q.value = d.value ↔ ∃ z : ℤ, d.value = z * 10 ^ e := by
  have hq := quantize_rescale h
  subst hq
  constructor
  · intro heq
    exact ⟨d.rescale e, heq.symm⟩
  · rintro ⟨z, hz⟩
    have hpow : (10 : ℚ) ^ e ≠ 0 := by positivity
    rw [hz]
    show ((d.rescale e : ℤ) : ℚ) * 10 ^ e = z * 10 ^ e
    congr 2
    unfold rescale
    split_ifs with he
    · have := value_scaled he
      rw [hz] at this
      exact_mod_cast mul_right_cancel₀ hpow this
    · have hn : ((e - d.exp).toNat : ℤ) = e - d.exp := Int.toNat_of_nonneg (by omega)
      have hcoeff : d.coeff = z * ((10 ^ (e - d.exp).toNat : ℕ) : ℤ) := by
        have hdp : (10 : ℚ) ^ d.exp ≠ 0 := by positivity
        have : (d.coeff : ℚ) = z * 10 ^ (e - d.exp).toNat := by
          apply mul_right_cancel₀ hdp
          rw [mul_assoc, ← zpow_natCast, hn, ← zpow_add₀ (by norm_num), sub_add_cancel]
          exact hz
        exact_mod_cast this
      rw [hcoeff]
      exact_mod_cast divHalfEven_mul z (by positivity)

theorem divHalfEven_nonneg {d : ℕ} (h : 0 ≤ n) : 0 ≤ divHalfEven n d := by
  have hq : 0 ≤ n / (d : ℤ) := Int.ediv_nonneg h (by positivity)
  unfold divHalfEven
  dsimp only
  split_ifs <;> omega

theorem rescale_nonneg (h : 0 ≤ d.value) (e : ℤ) : 0 ≤ d.rescale e := by
  rw [value_nonneg] at h
  unfold rescale
  split_ifs
  · exact mul_nonneg h (by positivity)
  · exact divHalfEven_nonneg h

/-- a rescaled number is within one unit of the number -/
theorem rescale_near (d : Decimal) (e : ℤ) : |(⟨d.rescale e, e⟩ : Decimal).value - d.value| ≤ 10 ^ e := by
  have hpow : (0 : ℚ) < 10 ^ e := by positivity
  unfold rescale
  split_ifs with he
  · have hsame : (⟨d.scaled e, e⟩ : Decimal).value = d.value := value_scaled he
    rw [hsame, sub_self, abs_zero]
    exact hpow.le
  · obtain ⟨D, hD⟩ : ∃ D : ℕ, D = 10 ^ (e - d.exp).toNat := ⟨_, rfl⟩
    have hn : ((e - d.exp).toNat : ℤ) = e - d.exp := Int.toNat_of_nonneg (by omega)
    have hDe : (D : ℚ) * 10 ^ d.exp = 10 ^ e := by
      rw [hD, Nat.cast_pow, ← zpow_natCast, hn, Nat.cast_ofNat, ← zpow_add₀ (by norm_num), sub_add_cancel]
    have hnear : |2 * (divHalfEven d.coeff D * D - d.coeff)| ≤ (D : ℤ) :=
      divHalfEven_near d.coeff (hD ▸ by positivity)
    have hdp : (0 : ℚ) < 10 ^ d.exp := by positivity
    have hnear' : |2 * ((divHalfEven d.coeff D : ℚ) * D - d.coeff)| ≤ D := by exact_mod_cast hnear
    rw [← hD]
    have hdiff : (⟨divHalfEven d.coeff D, e⟩ : Decimal).value - d.value =
        ((divHalfEven d.coeff D : ℚ) * D - d.coeff) * 10 ^ d.exp := by
      simp only [value]
      rw [← hDe]
      ring
    rw [hdiff, abs_mul, abs_of_pos hdp, ← hDe]
    rw [abs_mul] at hnear'
    have hD0 : (0 : ℚ) ≤ D := by positivity
    refine mul_le_mul_of_nonneg_right ?_ hdp.le
    rw [abs_of_pos (by norm_num : (0 : ℚ) < 2)] at hnear'
    linarith

/-- a number at least a unit away from the context's limit can be quantised -/
theorem quantize_isSome (h : ∀ p, ctx.prec = some p → |d.value| + 10 ^ e < 10 ^ p * 10 ^ e) :
    ∃ q, quantize ctx d e = some q := by
  unfold quantize
  cases hp : ctx.prec with
  | none => exact ⟨_, rfl⟩
  | some p =>
    have hpow : (0 : ℚ) < 10 ^ e := by positivity
    have hnear := rescale_near d e
    have habs : |(⟨d.rescale e, e⟩ : Decimal).value| < 10 ^ p * 10 ^ e := by
      have := abs_sub_abs_le_abs_sub (⟨d.rescale e, e⟩ : Decimal).value d.value
      have := h p hp
      linarith
    rw [value, abs_mul, abs_of_pos hpow] at habs
    have hlt : (d.rescale e).natAbs < 10 ^ p := (natAbs_lt_pow _ _).2 (lt_of_mul_lt_mul_right habs hpow.le)
    exact ⟨⟨d.rescale e, e⟩, by simp [hlt]⟩

end Decimal

end Apar
