/-
Binary floats by their exact values: IEEE double precision, rounded to nearest, ties to even. A library: nothing here is
about payments.

A finite float is the rational it stands for, and an operation rounds the exact result to 53 binary digits, no finer
than `2 ^ -1074`. Infinities are left out: what is computed here stays in range.

- `nearest_mono`: rounding keeps the order of numbers that are not negative.
- `abs_nearest_sub_le`: up to one, a rounding moves a number by at most `epsilon`, which is `2 ^ -52`.
- `abs_prod_sub_le`: a product of factors from the unit interval is off by at most `epsilon` for each factor, so that
  two orders of the same factors give almost the same product.
-/
import Apar.Core.DecimalRounding

namespace Apar

namespace Binary64

open Decimal (halfEven halfEven_intCast halfEven_mono halfEven_mem)

/-- the exponent of the last binary digit that a number keeps -/
def place (x : ℚ) : ℤ := max (Int.log 2 |x| - 52) (-1074)

/-- the nearest float -/
@[irreducible] def nearest (x : ℚ) : ℚ := halfEven (x / 2 ^ place x) * 2 ^ place x

def add (x y : ℚ) : ℚ := nearest (x + y)

def sub (x y : ℚ) : ℚ := nearest (x - y)

def mul (x y : ℚ) : ℚ := nearest (x * y)

def div (x y : ℚ) : ℚ := nearest (x / y)

/-- the distance from one to the next float -/
def epsilon : ℚ := 2 ^ (-52 : ℤ)

/-- `math.prod(xs)`; one times the first factor is that factor -/
def prod : List ℚ → ℚ
  | [] => 1
  | x :: xs => xs.foldl mul x

/-- `math.isclose(x, y, rel_tol=rel, abs_tol=abs)` -/
def isClose (rel abs x y : ℚ) : Bool :=
  let diff := |sub y x|
  x = y || diff ≤ |mul rel y| || diff ≤ |mul rel x| || diff ≤ abs

/-! ## Rounding -/

theorem epsilon_pos : 0 < epsilon := by unfold epsilon; positivity

theorem pow_pos (e : ℤ) : (0 : ℚ) < 2 ^ e := by positivity

@[simp] theorem nearest_zero : nearest 0 = 0 := by
  have hzero : halfEven 0 = 0 := halfEven_intCast 0
  simp [nearest, hzero]

@[simp] theorem nearest_one : nearest 1 = 1 := by
  have hplace : place 1 = -52 := by simp [place]
  have hwhole : (1 : ℚ) / 2 ^ (-52 : ℤ) = ((2 ^ 52 : ℤ) : ℚ) := by norm_num
  unfold nearest
  rw [hplace, hwhole, halfEven_intCast]
  norm_num

variable {x y : ℚ}

theorem nearest_le_of_le {z : ℤ} (h : x ≤ z * 2 ^ place x) : nearest x ≤ z * 2 ^ place x := by
  have hround := halfEven_mono ((div_le_iff₀ (pow_pos _)).2 h)
  rw [halfEven_intCast] at hround
  unfold nearest
  exact mul_le_mul_of_nonneg_right (by exact_mod_cast hround) (pow_pos _).le

theorem le_nearest_of_le {z : ℤ} (h : z * 2 ^ place x ≤ x) : z * 2 ^ place x ≤ nearest x := by
  have hround := halfEven_mono ((le_div_iff₀ (pow_pos _)).2 h)
  rw [halfEven_intCast] at hround
  unfold nearest
  exact mul_le_mul_of_nonneg_right (by exact_mod_cast hround) (pow_pos _).le

theorem nearest_nonneg (h : 0 ≤ x) : 0 ≤ nearest x := by
  have := le_nearest_of_le (x := x) (z := 0) (by simpa using h)
  simpa using this

theorem nearest_mono (hx : 0 ≤ x) (h : x ≤ y) : nearest x ≤ nearest y := by
  rcases hx.eq_or_lt with rfl | hx
  · rw [nearest_zero]
    exact nearest_nonneg h
  have hy : 0 < y := hx.trans_le h
  have hlog : Int.log 2 x ≤ Int.log 2 y := Int.log_mono_right hx h
  have hpx : place x = max (Int.log 2 x - 52) (-1074) := by rw [place, abs_of_pos hx]
  have hpy : place y = max (Int.log 2 y - 52) (-1074) := by rw [place, abs_of_pos hy]
  have hle : place x ≤ place y := by omega
  rcases hle.eq_or_lt with heq | hlt
  · -- one last place
    unfold nearest
    rw [← heq]
    refine mul_le_mul_of_nonneg_right ?_ (pow_pos _).le
    exact_mod_cast halfEven_mono (div_le_div_of_nonneg_right h (pow_pos _).le)
  · -- a power of two between the two, a whole number of last places of either
    have hupper : nearest x ≤ 2 ^ Int.log 2 y := by
      have hpow : (2 : ℚ) ^ Int.log 2 y = ((2 ^ (Int.log 2 y - place x).toNat : ℤ) : ℚ) * 2 ^ place x := by
        push_cast
        rw [← zpow_natCast, ← zpow_add₀ (by norm_num), Int.toNat_of_nonneg (by omega), sub_add_cancel]
      rw [hpow]
      refine nearest_le_of_le ?_
      rw [← hpow]
      have hself : x < ((2 : ℕ) : ℚ) ^ (Int.log 2 x + 1) := Int.lt_zpow_succ_log_self (by norm_num) x
      push_cast at hself
      exact hself.le.trans (zpow_le_zpow_right₀ (by norm_num) (by omega))
    have hlower : (2 : ℚ) ^ Int.log 2 y ≤ nearest y := by
      have hdigits : ((2 ^ 52 : ℤ) : ℚ) = 2 ^ (52 : ℤ) := by norm_num
      have hpow : (2 : ℚ) ^ Int.log 2 y = ((2 ^ 52 : ℤ) : ℚ) * 2 ^ place y := by
        rw [hdigits, ← zpow_add₀ (by norm_num)]
        congr 1
        omega
      rw [hpow]
      refine le_nearest_of_le ?_
      rw [← hpow]
      have hself : ((2 : ℕ) : ℚ) ^ Int.log 2 y ≤ y := Int.zpow_log_le_self (by norm_num) hy
      simpa using hself
    exact hupper.trans hlower

theorem nearest_le_one (hx : 0 ≤ x) (h : x ≤ 1) : nearest x ≤ 1 := by
  have := nearest_mono hx h
  rwa [nearest_one] at this

/-- a rounding moves a number by at most one last place -/
theorem abs_nearest_sub_le_place (x : ℚ) : |nearest x - x| ≤ 2 ^ place x := by
  obtain ⟨hlow, hhigh⟩ := halfEven_mem (x / 2 ^ place x)
  have hfloor : (⌊x / 2 ^ place x⌋ : ℚ) ≤ x / 2 ^ place x := Int.floor_le _
  have hceil : x / 2 ^ place x < ⌊x / 2 ^ place x⌋ + 1 := Int.lt_floor_add_one _
  have hlow' : (⌊x / 2 ^ place x⌋ : ℚ) ≤ halfEven (x / 2 ^ place x) := by exact_mod_cast hlow
  have hhigh' : (halfEven (x / 2 ^ place x) : ℚ) ≤ ⌊x / 2 ^ place x⌋ + 1 := by exact_mod_cast hhigh
  have hcancel : x = x / 2 ^ place x * 2 ^ place x := by field_simp
  have hdiff : nearest x - x = (halfEven (x / 2 ^ place x) - x / 2 ^ place x) * 2 ^ place x := by
    rw [sub_mul, ← hcancel, nearest]
  rw [hdiff, abs_mul, abs_of_pos (pow_pos (place x))]
  refine mul_le_of_le_one_left (pow_pos _).le ?_
  rw [abs_le]
  constructor <;> linarith

theorem abs_nearest_sub_le (h : |x| ≤ 1) : |nearest x - x| ≤ epsilon := by
  refine (abs_nearest_sub_le_place x).trans (zpow_le_zpow_right₀ (by norm_num) ?_)
  rcases (abs_nonneg x).eq_or_lt with hzero | hpos
  · simp [place, ← hzero]
  · have hlog : Int.log 2 |x| ≤ Int.log 2 (1 : ℚ) := Int.log_mono_right hpos h
    rw [Int.log_one_right] at hlog
    unfold place
    omega

/-! ## Products from the unit interval -/

/-- a number of the unit interval -/
def Unit (x : ℚ) : Prop := 0 ≤ x ∧ x ≤ 1

theorem Unit.mul (hx : Unit x) (hy : Unit y) : Unit (x * y) :=
  ⟨mul_nonneg hx.1 hy.1, mul_le_one₀ hx.2 hy.1 hy.2⟩

theorem Unit.nearest {x : ℚ} (hx : Unit x) : Unit (Binary64.nearest x) := ⟨nearest_nonneg hx.1, nearest_le_one hx.1 hx.2⟩

theorem Unit.abs_le (hx : Unit x) : |x| ≤ 1 := by
  rw [abs_of_nonneg hx.1]
  exact hx.2

theorem Unit.one_sub (hx : Unit x) : Unit (1 - x) := ⟨by linarith [hx.2], by linarith [hx.1]⟩

theorem Unit.prod {xs : List ℚ} (h : ∀ x ∈ xs, Unit x) : Unit xs.prod := by
  induction xs with
  | nil => exact ⟨by simp, by simp⟩
  | cons x xs ih =>
    rw [List.prod_cons]
    exact (h x (by simp)).mul (ih fun y hy => h y (by simp [hy]))

/-- a running product of factors from the unit interval, against the exact one -/
theorem foldl_mul {xs : List ℚ} (h : ∀ x ∈ xs, Unit x) {a b : ℚ} (ha : Unit a) :
    Unit (xs.foldl Binary64.mul a) ∧
      |xs.foldl Binary64.mul a - b * xs.prod| ≤ |a - b| + xs.length * epsilon := by
  induction xs generalizing a b with
  | nil => simpa using ha
  | cons x xs ih =>
    have hx := h x (by simp)
    have hax := ha.mul hx
    obtain ⟨hunit, hclose⟩ := ih (fun y hy => h y (by simp [hy])) (a := Binary64.mul a x) (b := b * x) hax.nearest
    refine ⟨hunit, ?_⟩
    rw [List.foldl_cons, List.prod_cons, ← mul_assoc]
    refine hclose.trans ?_
    have hstep : |Binary64.mul a x - b * x| ≤ epsilon + |a - b| := by
      have hround : |Binary64.mul a x - a * x| ≤ epsilon := abs_nearest_sub_le hax.abs_le
      have hscaled : |a * x - b * x| ≤ |a - b| := by
        rw [← sub_mul, abs_mul]
        exact mul_le_of_le_one_right (abs_nonneg _) hx.abs_le
      calc |Binary64.mul a x - b * x| ≤ |Binary64.mul a x - a * x| + |a * x - b * x| := abs_sub_le _ _ _
        _ ≤ epsilon + |a - b| := add_le_add hround hscaled
    rw [List.length_cons]
    push_cast
    linarith

theorem unit_prod {xs : List ℚ} (h : ∀ x ∈ xs, Unit x) : Unit (prod xs) := by
  cases xs with
  | nil => exact ⟨zero_le_one, le_rfl⟩
  | cons x xs => exact (foldl_mul (fun y hy => h y (List.mem_cons_of_mem x hy)) (b := x) (h x (by simp))).1

theorem abs_prod_sub_le {xs : List ℚ} (h : ∀ x ∈ xs, Unit x) : |prod xs - xs.prod| ≤ xs.length * epsilon := by
  cases xs with
  | nil => simp [prod]
  | cons x xs =>
    have hrest := (foldl_mul (fun y hy => h y (List.mem_cons_of_mem x hy)) (b := x) (h x (by simp))).2
    rw [sub_self, abs_zero, zero_add] at hrest
    rw [List.prod_cons, List.length_cons]
    refine hrest.trans (mul_le_mul_of_nonneg_right ?_ epsilon_pos.le)
    push_cast
    linarith

theorem prod_pair (x y : ℚ) : prod [x, y] = prod [y, x] := by
  change mul x y = mul y x
  unfold mul
  rw [mul_comm]

/-! ## Closeness -/

/-- numbers within the absolute tolerance, less a rounding, are close -/
theorem isClose_of_abs_sub_le {rel abs : ℚ} (hone : |x - y| ≤ 1) (h : |x - y| + epsilon ≤ abs) :
    isClose rel abs x y = true := by
  have hround : |sub y x - (y - x)| ≤ epsilon := abs_nearest_sub_le (by rwa [abs_sub_comm])
  have hdiff : |sub y x| ≤ abs := by
    rw [abs_sub_comm x y] at h
    calc |sub y x| = |(sub y x - (y - x)) + (y - x)| := by ring_nf
      _ ≤ |sub y x - (y - x)| + |y - x| := abs_add_le _ _
      _ ≤ abs := by linarith
  simp [isClose, hdiff]

end Binary64

end Apar
