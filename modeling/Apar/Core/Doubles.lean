/-
Binary floats with their infinities, as Python computes with them: an operation that overflows gives an infinity, and
the operations that raise give `none`. A library: nothing here is about payments.

The sign of a zero is left out.

- `nearest_of_dyadic`, `nearest_nearest`: what a float can hold is not rounded.
- `nearest_neg`, `nearest_le_nearest`: rounding is symmetric and keeps the order of all numbers.
- `div_le_one_iff`: a rounded quotient is at most one only when the dividend is at most the divisor.
- `AtLeast.add`, `AtLeast.mul`: a bound that a float can hold survives a sum and a product.
- `ofInt_isSome`: the integers that `float` takes.
-/
import Apar.Core.Binary64

namespace Apar

namespace Decimal

theorem halfEven_neg (q : ℚ) : halfEven (-q) = -halfEven q := by
  by_cases hwhole : (⌊q⌋ : ℚ) = q
  · rw [← hwhole, ← Int.cast_neg, halfEven_intCast, halfEven_intCast]
  · have hlt : (⌊q⌋ : ℚ) < q := lt_of_le_of_ne (Int.floor_le q) hwhole
    have hfloor : ⌊-q⌋ = -⌊q⌋ - 1 := by
      rw [Int.floor_eq_iff]
      push_cast
      constructor <;> linarith [Int.lt_floor_add_one q]
    unfold halfEven
    rw [hfloor]
    push_cast
    split_ifs <;> first | omega | linarith

end Decimal

namespace Binary64

open Decimal (halfEven halfEven_intCast halfEven_mono halfEven_mem halfEven_neg)

theorem place_neg (x : ℚ) : place (-x) = place x := by
  unfold place
  rw [abs_neg]

theorem nearest_neg (x : ℚ) : nearest (-x) = -nearest x := by
  unfold nearest
  rw [place_neg, neg_div, halfEven_neg]
  push_cast
  ring

variable {x b a : ℚ}

theorem nearest_le_nearest {y : ℚ} (h : x ≤ y) : nearest x ≤ nearest y := by
  rcases le_total 0 x with hx | hx
  · exact nearest_mono hx h
  rcases le_total 0 y with hy | hy
  · calc nearest x = -nearest (-x) := by rw [nearest_neg, neg_neg]
      _ ≤ 0 := neg_nonpos.2 (nearest_nonneg (neg_nonneg.2 hx))
      _ ≤ nearest y := nearest_nonneg hy
  · have := nearest_mono (neg_nonneg.2 hy) (neg_le_neg h)
    rw [nearest_neg, nearest_neg] at this
    exact neg_le_neg_iff.1 this

/-- a whole number of last places -/
theorem nearest_of_mul {z : ℤ} (h : x = z * 2 ^ place x) : nearest x = x := by
  unfold nearest
  have hdiv : x / 2 ^ place x = z := by
    rw [div_eq_iff (pow_pos _).ne']
    exact h
  rw [hdiv, halfEven_intCast, ← h]

theorem place_le {e : ℤ} (hzero : x ≠ 0) (hx : |x| < 2 ^ (e + 53)) (he : -1074 ≤ e) : place x ≤ e := by
  unfold place
  refine max_le ?_ he
  have hlog : Int.log 2 |x| < e + 53 := by
    apply (Int.lt_zpow_iff_log_lt (by norm_num) (abs_pos.2 hzero)).1
    exact_mod_cast hx
  omega

theorem nearest_of_place_le {z e : ℤ} (h : x = z * 2 ^ e) (he : place x ≤ e) : nearest x = x := by
  refine nearest_of_mul (z := z * 2 ^ (e - place x).toNat) ?_
  have hsplit : (2 : ℚ) ^ e = 2 ^ (e - place x).toNat * 2 ^ place x := by
    rw [← zpow_natCast, ← zpow_add₀ (by norm_num), Int.toNat_of_nonneg (by omega), sub_add_cancel]
  rw [Int.cast_mul, Int.cast_pow, Int.cast_ofNat, mul_assoc, ← hsplit, ← h]

/-- a number of at most 53 binary digits -/
theorem nearest_of_dyadic {z e : ℤ} (h : x = z * 2 ^ e) (hz : |z| < 2 ^ 53) (he : -1074 ≤ e) : nearest x = x := by
  by_cases hzero : x = 0
  · rw [hzero, nearest_zero]
  refine nearest_of_place_le h (place_le hzero ?_ he)
  have habs : |x| = |z| * 2 ^ e := by rw [h, abs_mul, abs_of_pos (pow_pos e), Int.cast_abs]
  have hlt : ((|z| : ℤ) : ℚ) < 2 ^ 53 := by exact_mod_cast hz
  rw [habs, zpow_add₀ (by norm_num), mul_comm]
  exact mul_lt_mul_of_pos_left (by exact_mod_cast hlt) (pow_pos e)

theorem nearest_natCast {n : ℕ} (h : n < 2 ^ 53) : nearest (n : ℚ) = n :=
  nearest_of_dyadic (z := n) (e := 0) (by simp) (by simpa using by exact_mod_cast h) (by norm_num)

theorem nearest_two_pow {e : ℤ} (he : -1074 ≤ e) : nearest (2 ^ e) = 2 ^ e :=
  nearest_of_dyadic (z := 1) (e := e) (by simp) (by norm_num) he

theorem abs_lt_place (x : ℚ) : |x| < 2 ^ (place x + 53) := by
  have hself : |x| < ((2 : ℕ) : ℚ) ^ (Int.log 2 |x| + 1) := Int.lt_zpow_succ_log_self (by norm_num) _
  push_cast at hself
  refine hself.trans_le (zpow_le_zpow_right₀ (by norm_num) ?_)
  unfold place
  omega

/-- a float is not rounded again -/
theorem nearest_nearest (x : ℚ) : nearest (nearest x) = nearest x := by
  have hplace : -1074 ≤ place x := le_max_right _ _
  have hform : nearest x = (halfEven (x / 2 ^ place x) : ℤ) * 2 ^ place x := by rw [nearest]
  -- the rounded number is below the next power of two, or that power
  have hle : |nearest x| ≤ 2 ^ (place x + 53) := by
    have hx : |x| ≤ 2 ^ (place x + 53) := (abs_lt_place x).le
    have hpow : nearest (2 ^ (place x + 53)) = 2 ^ (place x + 53) := nearest_two_pow (by omega)
    rw [abs_le] at hx ⊢
    constructor
    · have := nearest_le_nearest hx.1
      rwa [nearest_neg, hpow] at this
    · have := nearest_le_nearest hx.2
      rwa [hpow] at this
  by_cases hzero : nearest x = 0
  · rw [hzero, nearest_zero]
  rcases hle.lt_or_eq with hlt | heq
  · exact nearest_of_place_le hform (place_le hzero hlt hplace)
  · rcases abs_choice (nearest x) with hsign | hsign
    · rw [hsign] at heq
      rw [heq, nearest_two_pow (by omega)]
    · have hneg : nearest x = -2 ^ (place x + 53) := by linarith
      rw [hneg, nearest_neg, nearest_two_pow (by omega)]

/-- twice a float, whatever its size -/
theorem nearest_double (h : nearest x = x) : nearest (2 * x) = 2 * x := by
  by_cases hzero : x = 0
  · rw [hzero, mul_zero, nearest_zero]
  have hform : 2 * x = (halfEven (x / 2 ^ place x) : ℤ) * 2 ^ (place x + 1) := by
    have hx : x = (halfEven (x / 2 ^ place x) : ℤ) * 2 ^ place x := by
      calc x = nearest x := h.symm
        _ = (halfEven (x / 2 ^ place x) : ℤ) * 2 ^ place x := by rw [nearest]
    rw [zpow_add_one₀ (by norm_num), ← mul_assoc, ← hx, mul_comm]
  have hplace : -1074 ≤ place x := le_max_right _ _
  refine nearest_of_place_le hform (place_le (mul_ne_zero two_ne_zero hzero) ?_ (by omega))
  rw [abs_mul, abs_two, add_right_comm, zpow_add_one₀ (by norm_num), mul_comm]
  exact mul_lt_mul_of_pos_right (abs_lt_place x) two_pos

theorem le_nearest (hb : nearest b = b) (h : b ≤ x) : b ≤ nearest x := by
  rw [← hb]
  exact nearest_le_nearest h

theorem nearest_le (hb : nearest b = b) (h : x ≤ b) : nearest x ≤ b := by
  rw [← hb]
  exact nearest_le_nearest h

/-- a float is a whole number of its last places -/
theorem exists_places (h : nearest x = x) : ∃ z : ℤ, x = z * 2 ^ place x :=
  ⟨halfEven (x / 2 ^ place x), by rw [← nearest, h]⟩

/-- what is beyond the middle between one and the next float is not rounded to one -/
theorem one_lt_nearest (h : 1 + 2 ^ (-53 : ℤ) < x) : 1 < nearest x := by
  -- it is enough to look below 3/2, where the last place is `2 ^ -52`
  have hy : 1 + 2 ^ (-53 : ℤ) < min x (3 / 2) := lt_min h (by norm_num)
  have hupper : min x (3 / 2) ≤ 3 / 2 := min_le_right _ _
  generalize hdef : min x (3 / 2) = y at hy hupper
  have hyx : y ≤ x := hdef ▸ min_le_left _ _
  have hone : 1 ≤ y := (by norm_num : (1 : ℚ) ≤ 1 + 2 ^ (-53 : ℤ)).trans hy.le
  have hlog : Int.log 2 |y| = 0 := by
    rw [abs_of_pos (by linarith), Int.log_of_one_le_right 2 hone]
    have hfloor : ⌊y⌋₊ = 1 := (Nat.floor_eq_iff (by linarith)).2 ⟨by simpa using hone, by push_cast; linarith⟩
    rw [hfloor]
    norm_num
  have hplace : place y = -52 := by rw [place, hlog]; rfl
  have hscaled : (2 : ℚ) ^ 52 + 1 / 2 < y / 2 ^ (-52 : ℤ) := by
    rw [lt_div_iff₀ (pow_pos _)]
    have : ((2 : ℚ) ^ 52 + 1 / 2) * 2 ^ (-52 : ℤ) = 1 + 2 ^ (-53 : ℤ) := by norm_num
    rw [this]
    exact hy
  have hround : (2 ^ 52 + 1 : ℤ) ≤ halfEven (y / 2 ^ (-52 : ℤ)) := by
    generalize y / 2 ^ (-52 : ℤ) = q at hscaled
    have hfloor : (2 ^ 52 : ℤ) ≤ ⌊q⌋ := Int.le_floor.2 (by push_cast; linarith)
    rcases hfloor.lt_or_eq with hlt | heq
    · exact (Int.add_one_le_iff.2 hlt).trans (halfEven_mem q).1
    · have hfrac : (⌊q⌋ : ℚ) + 1 / 2 < q := by
        rw [← heq]
        push_cast
        exact hscaled
      unfold halfEven
      rw [if_neg (by linarith), if_pos (by linarith), ← heq]
  refine lt_of_lt_of_le ?_ (nearest_le_nearest hyx)
  rw [nearest, hplace]
  calc
    (1 : ℚ) < ((2 ^ 52 + 1 : ℤ) : ℚ) * 2 ^ (-52 : ℤ) := by norm_num
    _ ≤ (halfEven (y / 2 ^ (-52 : ℤ)) : ℚ) * 2 ^ (-52 : ℤ) :=
      mul_le_mul_of_nonneg_right (by exact_mod_cast hround) (pow_pos _).le

/-- floats that differ differ by a last place of the smaller one -/
theorem add_place_le (ha : nearest a = a) (hb : nearest b = b) (hpos : 0 < b) (h : b < a) : b + 2 ^ place b ≤ a := by
  obtain ⟨m, hm⟩ := exists_places ha
  obtain ⟨n, hn⟩ := exists_places hb
  have hlog : Int.log 2 b ≤ Int.log 2 a := Int.log_mono_right hpos h.le
  have hle : place b ≤ place a := by
    rw [place, place, abs_of_pos hpos, abs_of_pos (hpos.trans h)]
    omega
  have ha' : a = (m * 2 ^ (place a - place b).toNat : ℤ) * 2 ^ place b := by
    have hsplit : (2 : ℚ) ^ place a = 2 ^ (place a - place b).toNat * 2 ^ place b := by
      rw [← zpow_natCast, ← zpow_add₀ (by norm_num), Int.toNat_of_nonneg (by omega), sub_add_cancel]
    rw [Int.cast_mul, Int.cast_pow, Int.cast_ofNat, mul_assoc, ← hsplit, ← hm]
  generalize m * 2 ^ (place a - place b).toNat = k at ha'
  have hlt : n < k := by
    have : (n : ℚ) * 2 ^ place b < k * 2 ^ place b := by rwa [← hn, ← ha']
    exact_mod_cast lt_of_mul_lt_mul_right this (pow_pos _).le
  have hnext : (n : ℚ) + 1 ≤ k := by exact_mod_cast Int.add_one_le_iff.2 hlt
  calc
    b + 2 ^ place b = (n + 1) * 2 ^ place b := by rw [add_mul, one_mul, ← hn]
    _ ≤ k * 2 ^ place b := mul_le_mul_of_nonneg_right hnext (pow_pos _).le
    _ = a := ha'.symm

/-- **A quotient of floats** is at most one, once rounded, only when the dividend is at most the divisor. -/
theorem div_le_one_iff (ha : nearest a = a) (hb : nearest b = b) (hpos : 0 < b) : div a b ≤ 1 ↔ a ≤ b := by
  constructor
  · intro h
    by_contra hlt
    rw [not_le] at hlt
    have hgap := add_place_le ha hb hpos hlt
    have hsmall : b < 2 ^ (place b + 53) := by
      have := abs_lt_place b
      rwa [abs_of_pos hpos] at this
    have hplace : (2 : ℚ) ^ (-53 : ℤ) < 2 ^ place b / b := by
      rw [lt_div_iff₀ hpos]
      calc
        (2 : ℚ) ^ (-53 : ℤ) * b < 2 ^ (-53 : ℤ) * 2 ^ (place b + 53) := mul_lt_mul_of_pos_left hsmall (pow_pos _)
        _ = 2 ^ place b := by
          rw [← zpow_add₀ (by norm_num)]
          congr 1
          ring
    have hquot : 1 + 2 ^ (-53 : ℤ) < a / b :=
      calc
        1 + 2 ^ (-53 : ℤ) < 1 + 2 ^ place b / b := by linarith
        _ = (b + 2 ^ place b) / b := by rw [add_div, div_self hpos.ne']
        _ ≤ a / b := div_le_div_of_nonneg_right hgap hpos.le
    exact absurd h (not_le.2 (one_lt_nearest hquot))
  · intro h
    have hle : a / b ≤ 1 := (div_le_one hpos).2 h
    have := nearest_le_nearest hle
    rwa [nearest_one] at this

end Binary64

/-- a float -/
inductive Double where
  | nan
  | inf (negative : Bool)
  | fin (x : ℚ)
deriving DecidableEq, Repr

namespace Double

open Binary64 (nearest)

/-- the least power of two that is not a float -/
def limit : ℚ := 2 ^ 1024

theorem lt_limit {x : ℚ} (h : x ≤ 2 ^ 20) : x < limit := by
  refine h.trans_lt ?_
  unfold limit
  exact pow_lt_pow_right₀ (by norm_num) (by norm_num)

/-- the float of an exact result -/
def ofRat (x : ℚ) : Double := if |nearest x| < limit then .fin (nearest x) else .inf (decide (x < 0))

/-- `math.isfinite(x)` -/
def isFinite : Double → Bool
  | .fin _ => true
  | _ => false

def neg : Double → Double
  | .nan => .nan
  | .inf negative => .inf (!negative)
  | .fin x => .fin (-x)

def add : Double → Double → Double
  | .nan, _ => .nan
  | _, .nan => .nan
  | .inf a, .inf b => if a = b then .inf a else .nan
  | .inf a, .fin _ => .inf a
  | .fin _, .inf b => .inf b
  | .fin x, .fin y => ofRat (x + y)

def sub (a b : Double) : Double := add a b.neg

def mul : Double → Double → Double
  | .nan, _ => .nan
  | _, .nan => .nan
  | .inf a, .inf b => .inf (a != b)
  | .inf a, .fin y => if y = 0 then .nan else .inf (a != decide (y < 0))
  | .fin x, .inf b => if x = 0 then .nan else .inf (decide (x < 0) != b)
  | .fin x, .fin y => ofRat (x * y)

/-- `a / b`, which raises `ZeroDivisionError` -/
def div : Double → Double → Option Double
  | a, .fin y =>
    if y = 0 then none
    else
      match a with
      | .nan => some .nan
      | .inf a => some (.inf (a != decide (y < 0)))
      | .fin x => some (ofRat (x / y))
  | .nan, _ => some .nan
  | _, .nan => some .nan
  | .inf _, .inf _ => some .nan
  | .fin _, .inf _ => some (.fin 0)

/-- `a <= b` -/
def le : Double → Double → Bool
  | .nan, _ => false
  | _, .nan => false
  | .inf a, .inf b => a || !b
  | .inf a, .fin _ => a
  | .fin _, .inf b => !b
  | .fin x, .fin y => x ≤ y

/-- `float(n)`, which raises `OverflowError` -/
def ofInt (n : ℤ) : Option Double := if |nearest n| < limit then some (.fin (nearest n)) else none

/-- `2.0 ** x`, which raises `OverflowError` instead of an infinite result of a finite exponent -/
def twoPow (exp2 : ℚ → Double) : Double → Option Double
  | .nan => some .nan
  | .inf negative => some (if negative then .fin 0 else .inf false)
  | .fin x => if 1024 ≤ x then none else some (exp2 x)

/-- `float(numpy.float32(x))`: 24 binary digits, no finer than `2 ^ -149` -/
def single : Double → Double
  | .fin x =>
    let place := max (Int.log 2 |x| - 23) (-149)
    let y : ℚ := Decimal.halfEven (x / 2 ^ place) * 2 ^ place
    if |y| < 2 ^ 128 then .fin y else .inf (decide (x < 0))
  | x => x

/-! ## Bounds -/

/-- a float that is a number and at least `q` -/
def AtLeast (q : ℚ) : Double → Prop
  | .nan => False
  | .inf negative => negative = false
  | .fin x => q ≤ x

theorem atLeast_ofRat {q x : ℚ} (hq : nearest q = q) (hlow : -limit < q) (h : q ≤ x) : AtLeast q (ofRat x) := by
  have hround : q ≤ nearest x := Binary64.le_nearest hq h
  unfold ofRat
  split_ifs with hrange
  · exact hround
  · -- the result is too large, and it is not too small
    show decide (x < 0) = false
    rw [decide_eq_false_iff_not]
    intro hneg
    have hsmall : nearest x ≤ 0 := Binary64.nearest_le Binary64.nearest_zero hneg.le
    apply hrange
    rw [abs_of_nonpos hsmall]
    linarith

theorem AtLeast.add {p q : ℚ} {a b : Double} (ha : AtLeast p a) (hb : AtLeast q b) (hround : nearest (p + q) = p + q)
    (hlow : -limit < p + q) : AtLeast (p + q) (add a b) := by
  cases a with
  | nan => exact ha.elim
  | inf s =>
    have hs : s = false := ha
    subst hs
    cases b with
    | nan => exact hb.elim
    | inf t =>
      have ht : t = false := hb
      subst ht
      rfl
    | fin y => rfl
  | fin x =>
    cases b with
    | nan => exact hb.elim
    | inf t => exact hb
    | fin y => exact atLeast_ofRat hround hlow (add_le_add ha hb)

theorem AtLeast.mul {p q : ℚ} {a b : Double} (ha : AtLeast p a) (hb : AtLeast q b) (hp : 0 < p) (hq : 0 < q)
    (hround : nearest (p * q) = p * q) : AtLeast (p * q) (mul a b) := by
  have hlow : -limit < p * q := by
    have : (0 : ℚ) < limit := by unfold limit; positivity
    linarith [mul_pos hp hq]
  cases a with
  | nan => exact ha.elim
  | inf s =>
    have hs : s = false := ha
    subst hs
    cases b with
    | nan => exact hb.elim
    | inf t =>
      have ht : t = false := hb
      subst ht
      rfl
    | fin y =>
      have hy : 0 < y := hq.trans_le hb
      simp [Double.mul, AtLeast, hy.ne', hy.le]
  | fin x =>
    have hx : 0 < x := hp.trans_le ha
    cases b with
    | nan => exact hb.elim
    | inf t =>
      have ht : t = false := hb
      subst ht
      simp [Double.mul, AtLeast, hx.ne', hx.le]
    | fin y => exact atLeast_ofRat hround hlow (mul_le_mul ha hb hq.le hx.le)

theorem AtLeast.mono {p q : ℚ} {a : Double} (h : AtLeast p a) (hq : q ≤ p) : AtLeast q a := by
  cases a with
  | nan => exact h
  | inf s => exact h
  | fin x => exact hq.trans h

/-! ## Integers -/

theorem lt_overflow {n : ℤ} (h : n ≤ 2 ^ 20) : n < 2 ^ 1024 - 2 ^ 970 := by
  have hsplit : (2 : ℤ) ^ 1024 = 18014398509481984 * 2 ^ 970 := by
    rw [show (1024 : ℕ) = 54 + 970 from rfl, pow_add]
    norm_num only
  have hlarge : (2 : ℤ) ^ 20 ≤ 2 ^ 970 := pow_le_pow_right₀ (by norm_num) (by norm_num)
  rw [hsplit]
  generalize (2 : ℤ) ^ 970 = unit at hlarge
  omega

/-- the integers that are rounded into range -/
theorem ofInt_isSome {n : ℤ} (hpos : 0 ≤ n) (h : n < 2 ^ 1024 - 2 ^ 970) : ofInt n = some (.fin (nearest n)) := by
  have hn : (0 : ℚ) ≤ n := by exact_mod_cast hpos
  have hupper : (n : ℚ) < 2 ^ 1024 - 2 ^ 970 := by
    have hcast : (n : ℚ) < ((2 ^ 1024 - 2 ^ 970 : ℤ) : ℚ) := Int.cast_lt.2 h
    rwa [Int.cast_sub, Int.cast_pow 2 1024, Int.cast_pow 2 970, Int.cast_ofNat] at hcast
  refine if_pos ?_
  rw [abs_of_nonneg (Binary64.nearest_nonneg hn)]
  -- all the powers of two here are multiples of one
  have hpos970 : (0 : ℚ) < 2 ^ 970 := by positivity
  have h971 : (2 : ℚ) ^ (971 : ℤ) = 2 * 2 ^ 970 := by
    rw [show (971 : ℤ) = ((971 : ℕ) : ℤ) from rfl, zpow_natCast, pow_succ, mul_comm]
  have h1024 : (2 : ℚ) ^ 1024 = 18014398509481984 * 2 ^ 970 := by
    rw [show (1024 : ℕ) = 54 + 970 from rfl, pow_add]
    norm_num only
  have h1023 : (2 : ℚ) ^ 1023 = 9007199254740992 * 2 ^ 970 := by
    rw [show (1023 : ℕ) = 53 + 970 from rfl, pow_add]
    norm_num only
  have htop : nearest ((9007199254740991 : ℤ) * 2 ^ (971 : ℤ)) = (9007199254740991 : ℤ) * 2 ^ (971 : ℤ) :=
    Binary64.nearest_of_dyadic rfl (by norm_num) (by norm_num)
  generalize (2 : ℚ) ^ 970 = unit at hpos970 h971 h1024 h1023 hupper
  have hbelow : ((9007199254740991 : ℤ) : ℚ) * 2 ^ (971 : ℤ) < limit := by
    unfold limit
    rw [h971, h1024]
    push_cast
    linarith only [hpos970]
  refine lt_of_le_of_lt ?_ hbelow
  by_cases hle : (n : ℚ) ≤ (9007199254740991 : ℤ) * 2 ^ (971 : ℤ)
  · exact Binary64.nearest_le htop hle
  · -- between the largest float and the middle of its place, a number is rounded down
    rw [not_le, h971] at hle
    push_cast at hle
    rw [h1024] at hupper
    have hnpos : (0 : ℚ) < n := by linarith only [hle, hpos970]
    have hlog : Int.log 2 (n : ℚ) = 1023 := by
      refine le_antisymm ?_ ?_
      · have : Int.log 2 (n : ℚ) < 1024 := by
          apply (Int.lt_zpow_iff_log_lt (by norm_num) hnpos).1
          rw [show (1024 : ℤ) = ((1024 : ℕ) : ℤ) from rfl, zpow_natCast, Nat.cast_ofNat, h1024]
          linarith only [hupper, hpos970]
        omega
      · apply (Int.zpow_le_iff_le_log (by norm_num) hnpos).1
        rw [show (1023 : ℤ) = ((1023 : ℕ) : ℤ) from rfl, zpow_natCast, Nat.cast_ofNat, h1023]
        linarith only [hle, hpos970]
    have hplace : Binary64.place n = 971 := by
      rw [Binary64.place, abs_of_pos hnpos, hlog]
      rfl
    have hdiv : (n : ℚ) / 2 ^ (971 : ℤ) < 9007199254740991 + 1 / 2 := by
      rw [div_lt_iff₀ (Binary64.pow_pos _), h971]
      linarith only [hupper]
    have hfloor : ⌊(n : ℚ) / 2 ^ (971 : ℤ)⌋ = 9007199254740991 := by
      rw [Int.floor_eq_iff]
      push_cast
      refine ⟨?_, by linarith only [hdiv]⟩
      rw [le_div_iff₀ (Binary64.pow_pos _), h971]
      linarith only [hle]
    have hfract : 2 * ((n : ℚ) / 2 ^ (971 : ℤ) - ⌊(n : ℚ) / 2 ^ (971 : ℤ)⌋) < 1 := by
      rw [hfloor]
      push_cast
      linarith only [hdiv]
    unfold Binary64.nearest
    rw [hplace, Decimal.halfEven, if_pos hfract, hfloor]

end Double

end Apar
