/-
The adaptive parameters of campaigns (`generators/campaigns.py`): public values in which a policy names a discrete level.

A number of recoveries, of merchants, of actors or of attacks is named by a decimal between zero and one, the ratio it is
of the number available, rounded to 18 digits (28 for attacks). One level of each keeps the value that was the default
before there were levels. A value is decoded by a search for the level it names. A cash target is named by the fraction it
is of the total, and a tuple of mutations by itself, repeated until the attacks are used up.

- `recovery_noAliases`, `merchant_noAliases`, `span_noAliases`, `attack_noAliases`: up to a million, every level has one value.
- `cashOutTarget_inj`: two accepted fractions do not have one target.
- `agenticExtras_inj`: two accepted tuples do not have the same attacks.
-/
import Apar.Contracts.Event
import Apar.Core.DecimalRatios
import Apar.Core.Levels

namespace Apar

open Exec

namespace Campaigns

/-- a number between zero and one, as `CampaignParams` accepts it -/
def InUnit (d : Decimal) : Prop := 0 ≤ d.value ∧ d.value ≤ 1

/-- `Decimal(numerator) / Decimal(denominator)` in a context of `p` digits; the denominators are positive -/
def quotient (p : ℕ) (a b : Decimal) : Except SimError Decimal :=
  match Decimal.div p a b with
  | none => .error .invalidOperation
  | some q => .ok q

/-- `d.quantize(10 ** e, rounding=ROUND_HALF_EVEN)` -/
def quantized (ctx : DecimalContext) (d : Decimal) (e : ℤ) : Except SimError Decimal :=
  match Decimal.quantize ctx d e with
  | none => .error .invalidOperation
  | some q => .ok q

def precision36 : DecimalContext := ⟨some 36, by simp⟩

def precision50 : DecimalContext := ⟨some 50, by simp⟩

/-! ## Recoveries -/

/-- `_COMPATIBLE_RECOVERY_PROBABILITY` -/
def compatibleRecoveryProbability : Decimal := ⟨25, -2⟩

/-- the number of recoveries that keeps the compatible probability -/
def compatibleRecoveryCount (eligibleCount : ℕ) : ℤ :=
  let product := Decimal.mul .default ⟨eligibleCount, 0⟩ compatibleRecoveryProbability
  let count := Decimal.truncate product
  if !Decimal.ble product ⟨count, 0⟩ then count + 1 else count

/-- `_canonical_recovery_probability` -/
def canonicalRecoveryProbability (eligibleCount recoveryCount : ℕ) : Except SimError Decimal :=
  if (recoveryCount : ℤ) = compatibleRecoveryCount eligibleCount then .ok compatibleRecoveryProbability
  else do
    let ratio ← quotient 50 ⟨recoveryCount, 0⟩ ⟨eligibleCount, 0⟩
    quantized precision50 ratio (-18)

def recoveryMaximum (eligibleCount : ℕ) (requireUnrecovered : Bool) : ℕ :=
  if requireUnrecovered then eligibleCount - 1 else eligibleCount

/-- `_recovery_count` -/
def recoveryCount (eligibleCount : ℕ) (requireUnrecovered : Bool) (probability : Decimal) : Except SimError ℕ := do
  check (0 < eligibleCount ∧ 0 < recoveryMaximum eligibleCount requireUnrecovered)
    (.valueError "recovery motif has no eligible discrete level")
  Levels.decode (canonicalRecoveryProbability eligibleCount) Decimal.numEq
    (.valueError "recovery_probability is not canonical for the eligible count") probability
    (List.range' 1 (recoveryMaximum eligibleCount requireUnrecovered))

/-! ## Merchants and actors -/

/-- `_ratio`, of 18 digits -/
def ratio (numerator denominator : ℤ) : Except SimError Decimal := do
  check (0 < denominator) (.valueError "discrete adaptive denominator must be positive")
  let ratio ← quotient 36 ⟨numerator, 0⟩ ⟨denominator, 0⟩
  quantized precision36 ratio (-18)

/-- the number of merchants that keeps the compatible concentration -/
def compatibleMerchantCount (available : ℕ) : ℤ :=
  max 1 (Decimal.truncate (Decimal.toIntegral
    (Decimal.mul .default ⟨available, 0⟩ (Decimal.sub .default ⟨1, 0⟩ ⟨70, -2⟩))))

/-- the concentration that names a number of merchants -/
def merchantConcentration (available count : ℕ) : Except SimError Decimal :=
  if (count : ℤ) = compatibleMerchantCount available then .ok ⟨70, -2⟩
  else if count = 1 then .ok ⟨1, 0⟩
  else if count = available then .ok ⟨0, 0⟩
  else do
    let ratio ← ratio count available
    pure (Decimal.sub .default ⟨1, 0⟩ ratio)

/-- `_merchant_target_count` -/
def merchantTargetCount (available : ℕ) (concentration : Decimal) : Except SimError ℕ := do
  check (0 < available) (.valueError "merchant concentration has no eligible merchants")
  Levels.decode (merchantConcentration available) Decimal.numEq
    (.valueError "merchant_concentration is not canonical for the population") concentration (List.range' 1 available)

/-- the number of actors that keeps the compatible rate -/
def compatibleActorSpan (available : ℕ) : ℤ :=
  max 2 (min available (Decimal.truncate (Decimal.toIntegral
    (Decimal.add .default ⟨2, 0⟩
      (Decimal.mul .default ⟨(available : ℤ) - 2, 0⟩ (Decimal.sub .default ⟨1, 0⟩ ⟨60, -2⟩))))))

/-- the rate that names a number of actors -/
def deviceReuseRate (available count : ℕ) : Except SimError Decimal :=
  if (count : ℤ) = compatibleActorSpan available then .ok ⟨60, -2⟩
  else if count = 2 then .ok ⟨1, 0⟩
  else if count = available then .ok ⟨0, 0⟩
  else ratio ((available : ℤ) - count) ((available : ℤ) - 2)

/-- `_card_actor_span` -/
def cardActorSpan (available : ℕ) (reuseRate : Decimal) : Except SimError ℕ := do
  check (2 ≤ available) (.valueError "device reuse requires at least two eligible actors")
  Levels.decode (deviceReuseRate available) Decimal.numEq
    (.valueError "device_reuse_rate is not canonical for the population") reuseRate (List.range' 2 (available - 1))

/-! ## Attacks -/

/-- `_agentic_attack_count` -/
def agenticAttackCount (paymentCount : ℕ) (attackMix : Decimal) : Except SimError ℕ :=
  Levels.decode (fun count : ℕ => quotient 28 ⟨count, 0⟩ ⟨paymentCount, 0⟩) Decimal.numEq
    (.valueError "agentic_attack_mix is not canonical for the payment count") attackMix
    (List.range' 23 (paymentCount - 24))

/-! ## Cash -/

/-- the fraction that names a cash target -/
def cashCandidate (total cashTarget : Decimal) : Except SimError Decimal := do
  let compatibleTarget ← quantized .default (Decimal.mul .default total ⟨30, -2⟩) (-2)
  if Decimal.numEq cashTarget compatibleTarget then pure ⟨30, -2⟩
  else do
    let totalCents ← quotient 28 total ⟨1, -2⟩
    let cashCents ← quotient 28 cashTarget ⟨1, -2⟩
    ratio (Decimal.truncate cashCents) (Decimal.truncate totalCents)

/-- `_cash_out_target` -/
def cashOutTarget (total fraction : Decimal) : Except SimError Decimal := do
  let cashTarget ← quantized .default (Decimal.mul .default total fraction) (-2)
  let candidate ← cashCandidate total cashTarget
  check (Decimal.numEq fraction candidate) (.valueError "cash_out_fraction is not canonical for the realized cents")
  pure cashTarget

/-! ## Mutations -/

/-- `_AGENTIC_MUTATIONS` -/
def agenticMutations : List String :=
  ["identity", "signature", "mandate", "authority_identity", "amount", "currency", "merchant", "payee", "category",
    "product", "cart", "intent", "credential", "token_scope", "consent", "mandate_time", "expiry", "auth_missing",
    "auth_mismatch", "auth_expired", "nonce_replay", "receipt_chain", "auth_replay"]

/-- a tuple of mutations as `CampaignParams` accepts it -/
structure Mutations where
  values : List String
  nonempty : values ≠ []
  nodup : values.Nodup
  declared : ∀ value ∈ values, value ∈ agenticMutations

/-- `tuple(values[index % len(values)] for index in range(k))` -/
def cycle {α : Type} (values : List α) (h : values ≠ []) (k : ℕ) : List α :=
  (List.range k).map fun index => values.get ⟨index % values.length, Nat.mod_lt _ (List.length_pos_iff.2 h)⟩

/-- `_agentic_extras` -/
def agenticExtras (additionalAttacks : ℕ) (mutations : Mutations) : Except SimError (List String) :=
  if additionalAttacks = 0 then do
    check (mutations.values = agenticMutations) (.valueError "agentic mutation selection has no adaptive slot")
    pure []
  else do
    check (mutations.values = agenticMutations ∨ mutations.values.length ≤ additionalAttacks)
      (.valueError "agentic mutation selection contains unused values")
    let extras := cycle mutations.values mutations.nonempty additionalAttacks
    let defaultExtras := cycle agenticMutations (List.cons_ne_nil _ _) additionalAttacks
    check (mutations.values = agenticMutations ∨ extras ≠ defaultExtras)
      (.valueError "agentic mutation selection aliases the default")
    pure extras

/-! ## Values near fractions -/

/-- a public value: next to the fraction it stands for, and between zero and one -/
structure Near (c : Decimal) (x : ℚ) : Prop where
  near : |c.value - x| ≤ 1 / 10 ^ 17
  low : 0 ≤ c.value
  high : c.value ≤ 1

/-- a fraction with a denominator up to a million -/
def Coarse (x : ℚ) : Prop := ∃ a b : ℤ, 0 < b ∧ b ≤ 10 ^ 6 ∧ x = a / b

theorem numEq_equivalence : Equivalence fun a b => Decimal.numEq a b = true where
  refl a := (Decimal.numEq_iff a a).2 rfl
  symm h := (Decimal.numEq_iff _ _).2 ((Decimal.numEq_iff _ _).1 h).symm
  trans h h' := (Decimal.numEq_iff _ _).2 (((Decimal.numEq_iff _ _).1 h).trans ((Decimal.numEq_iff _ _).1 h'))

variable {c d total cashTarget f g : Decimal} {k : ℕ}

/-- coarse fractions next to one value are the same -/
theorem Coarse.eq_of_near {x y : ℚ} (hx : Coarse x) (hy : Coarse y) (hc : Near c x) (hd : Near d y)
    (hcd : c.value = d.value) : x = y := by
  by_contra hne
  obtain ⟨a, b, hb, hble, rfl⟩ := hx
  obtain ⟨a', b', hb', hble', rfl⟩ := hy
  have hgap := Decimal.gap_of_ne hb hb' hne
  have hbq : (0 : ℚ) < b := by exact_mod_cast hb
  have hbq' : (0 : ℚ) < b' := by exact_mod_cast hb'
  have hprod : (b * b' : ℚ) ≤ 10 ^ 6 * 10 ^ 6 :=
    mul_le_mul (by exact_mod_cast hble) (by exact_mod_cast hble') hbq'.le (by norm_num)
  have hwide : (1 : ℚ) / (10 ^ 6 * 10 ^ 6) ≤ 1 / (b * b') := one_div_le_one_div_of_le (mul_pos hbq hbq') hprod
  have hclose : |(a : ℚ) / b - a' / b'| ≤ 1 / 10 ^ 17 + 1 / 10 ^ 17 :=
    calc |(a : ℚ) / b - a' / b'| = |-(c.value - a / b) + (d.value - a' / b')| := by
          rw [hcd]
          ring_nf
      _ ≤ |-(c.value - a / b)| + |d.value - a' / b'| := abs_add_le _ _
      _ ≤ 1 / 10 ^ 17 + 1 / 10 ^ 17 := by
          rw [abs_neg]
          exact add_le_add hc.near hd.near
  have hsmall : (1 : ℚ) / 10 ^ 17 + 1 / 10 ^ 17 < 1 / (10 ^ 6 * 10 ^ 6) := by norm_num
  linarith

section

variable {candidate : ℕ → Except SimError Decimal} {levels : List ℕ} {t : ℕ → ℚ}

/-- **A decoder whose levels have values near different fractions** has no aliases. -/
theorem noAliases_of_near (hcoarse : ∀ k ∈ levels, Coarse (t k))
    (hnear : ∀ k ∈ levels, ∃ c, candidate k = .ok c ∧ Near c (t k)) (hinj : Set.InjOn t {k | k ∈ levels}) (missing : SimError) :
    Levels.NoAliases Decimal.numEq InUnit (fun value => Levels.decode candidate Decimal.numEq missing value levels) levels := by
  refine Levels.noAliases_of_distinct numEq_equivalence ⟨fun k hk => ?_, fun j hj k hk c d hc hd hsame => ?_⟩ fun k hk c hc => ?_
  · obtain ⟨c, hc, -⟩ := hnear k hk
    exact ⟨c, hc⟩
  · obtain ⟨c', hc', hnearc⟩ := hnear j hj
    obtain ⟨d', hd', hneard⟩ := hnear k hk
    rw [hc, Except.ok.injEq] at hc'
    rw [hd, Except.ok.injEq] at hd'
    subst hc' hd'
    exact hinj hj hk ((hcoarse j hj).eq_of_near (hcoarse k hk) hnearc hneard ((Decimal.numEq_iff c d).1 hsame))
  · obtain ⟨d, hd, hneard⟩ := hnear k hk
    rw [hc, Except.ok.injEq] at hd
    subst hd
    exact ⟨hneard.low, hneard.high⟩

theorem noAliases_check {decoded : Decimal → Except SimError ℕ} {c : Bool} {e : SimError} (hnone : c = false → levels = [])
    (h : Levels.NoAliases Decimal.numEq InUnit decoded levels) :
    Levels.NoAliases Decimal.numEq InUnit (fun value => do check c e; decoded value) levels := by
  cases hc : c with
  | true => exact h
  | false =>
    rw [hnone hc]
    exact ⟨nofun, nofun, nofun, fun _ _ _ => rfl⟩

/-- one level with a fraction of its own, which no other level has -/
theorem injOn_ite {p : ℕ → Prop} [DecidablePred p] {x : ℚ} {S : Set ℕ} (hone : ∀ j k, p j → p k → j = k)
    (hother : ∀ k ∈ S, ¬ p k → t k ≠ x) (hinj : Set.InjOn t {k | k ∈ S ∧ ¬ p k}) :
    Set.InjOn (fun k => if p k then x else t k) S := by
  intro j hj k hk heq
  dsimp only at heq
  by_cases hpj : p j
  · by_cases hpk : p k
    · exact hone j k hpj hpk
    · rw [if_pos hpj, if_neg hpk] at heq
      exact absurd heq.symm (hother k hk hpk)
  · by_cases hpk : p k
    · rw [if_neg hpj, if_pos hpk] at heq
      exact absurd heq (hother j hj hpj)
    · rw [if_neg hpj, if_neg hpk] at heq
      exact hinj ⟨hj, hpj⟩ ⟨hk, hpk⟩ heq

end

/-! ## Ratios -/

theorem near_self (hlow : 0 ≤ c.value) (hhigh : c.value ≤ 1) : Near c c.value := by
  refine ⟨?_, hlow, hhigh⟩
  rw [sub_self, abs_zero]
  norm_num

theorem near_ratio {p : ℕ} (hp : 19 ≤ p) {ctx : DecimalContext} (hctx : ctx.prec = some p) {n d : ℤ} (hn : 0 ≤ n)
    (hnd : n ≤ d) (hd : 0 < d) :
    ∃ q c, quotient p ⟨n, 0⟩ ⟨d, 0⟩ = .ok q ∧ quantized ctx q (-18) = .ok c ∧ c.exp = -18 ∧ Near c (n / d) := by
  obtain ⟨q, c, hq, hc, hexp, hnear, hlow, hhigh⟩ :=
    Decimal.exists_ratio (p := p) (e := 18) (by omega) (by omega) hn hnd hd hctx
  have hexp18 : (-((18 : ℕ) : ℤ)) = -18 := rfl
  rw [hexp18] at hc hexp hnear
  refine ⟨q, c, by rw [quotient, hq], by rw [quantized, hc], hexp, ?_, hlow, hhigh⟩
  calc |c.value - n / d| ≤ 10 ^ (1 - p : ℤ) + 10 ^ (-18 : ℤ) := hnear
    _ ≤ 10 ^ (-18 : ℤ) + 10 ^ (-18 : ℤ) :=
        add_le_add_left (zpow_le_zpow_right₀ (by norm_num) (by omega)) _
    _ ≤ 1 / 10 ^ 17 := by norm_num

theorem ratio_near {n d : ℤ} (hn : 0 ≤ n) (hnd : n ≤ d) (hd : 0 < d) :
    ∃ c, ratio n d = .ok c ∧ c.exp = -18 ∧ Near c (n / d) := by
  obtain ⟨q, c, hq, hc, hc'⟩ := near_ratio (by norm_num) (rfl : precision36.prec = some 36) hn hnd hd
  refine ⟨c, ?_, hc'⟩
  rw [ratio, show check (ε := SimError) (decide (0 < d)) _ = .ok () from check_eq_ok.2 (decide_eq_true hd), except_ok_bind,
    hq, except_ok_bind, hc]

/-- a product of an integer up to a million and a number of hundredths is exact -/
theorem value_mul_hundredths {n c : ℤ} (hn : |n| ≤ 10 ^ 6) (hc : |c| ≤ 100) :
    (Decimal.mul .default ⟨n, 0⟩ ⟨c, -2⟩).value = n * c / 100 := by
  have hexact : ((n : ℚ) * c / 100) = ((n * c : ℤ) : ℚ) * 10 ^ (-2 : ℤ) := by
    push_cast
    rw [zpow_neg, div_eq_mul_inv]
    norm_num
  rw [Decimal.value_mul, Decimal.value_int, show (⟨c, -2⟩ : Decimal).value = c * 10 ^ (-2 : ℤ) from rfl, ← mul_assoc]
  rw [show (n : ℚ) * c * 10 ^ (-2 : ℤ) = n * c / 100 by rw [hexact]; push_cast; ring]
  refine DecimalContext.round_of_fits hexact fun p hp => ?_
  rw [← Option.some.inj (hp : some 28 = some p), hexact, abs_mul, abs_of_pos (by positivity : (0 : ℚ) < 10 ^ (-2 : ℤ))]
  refine mul_lt_mul_of_pos_right ?_ (by positivity)
  have hbound : |n * c| ≤ 10 ^ 6 * 100 := by
    rw [abs_mul]
    exact mul_le_mul hn hc (abs_nonneg c) (by norm_num)
  calc |((n * c : ℤ) : ℚ)| = ((|n * c| : ℤ) : ℚ) := by push_cast; rfl
    _ ≤ ((10 ^ 6 * 100 : ℤ) : ℚ) := by exact_mod_cast hbound
    _ < 10 ^ 28 := by norm_num

variable {n : ℕ}

theorem abs_le_million (hn : n ≤ 10 ^ 6) : |(n : ℤ)| ≤ 10 ^ 6 := by
  rw [abs_of_nonneg (Int.natCast_nonneg n)]
  exact_mod_cast hn

/-! ## Recoveries -/

theorem compatibleRecoveryCount_eq (hn : n ≤ 10 ^ 6) (hk : 4 * k = n) : compatibleRecoveryCount n = k := by
  have hvalue : (Decimal.mul .default ⟨n, 0⟩ compatibleRecoveryProbability).value = k := by
    rw [compatibleRecoveryProbability, value_mul_hundredths (abs_le_million hn) (by norm_num), ← hk]
    push_cast
    ring
  have htruncate : Decimal.truncate (Decimal.mul .default ⟨n, 0⟩ compatibleRecoveryProbability) = k := by
    rw [Decimal.truncate_of_nonneg (Decimal.value_nonneg.1 (by rw [hvalue]; positivity)), hvalue, Int.floor_natCast]
  have hble : Decimal.ble (Decimal.mul .default ⟨n, 0⟩ compatibleRecoveryProbability) ⟨k, 0⟩ = true := by
    rw [Decimal.ble_iff, hvalue, Decimal.value_int]
    exact le_of_eq (Int.cast_natCast k).symm
  rw [compatibleRecoveryCount, htruncate, hble]
  rfl

/-- the fraction a number of recoveries stands for -/
def recoveryFraction (n k : ℕ) : ℚ := if (k : ℤ) = compatibleRecoveryCount n then 1 / 4 else k / n

theorem recovery_near (hlow : 1 ≤ k) (hhigh : k ≤ n) :
    ∃ c, canonicalRecoveryProbability n k = .ok c ∧ Near c (recoveryFraction n k) := by
  unfold canonicalRecoveryProbability recoveryFraction
  by_cases hk : (k : ℤ) = compatibleRecoveryCount n
  · rw [if_pos hk, if_pos hk]
    have hvalue : compatibleRecoveryProbability.value = 1 / 4 := by norm_num [compatibleRecoveryProbability, Decimal.value]
    refine ⟨_, rfl, ?_⟩
    rw [← hvalue]
    exact near_self (by rw [hvalue]; norm_num) (by rw [hvalue]; norm_num)
  · rw [if_neg hk, if_neg hk]
    obtain ⟨q, c, hq, hc, -, hnear⟩ := near_ratio (p := 50) (by norm_num) (rfl : precision50.prec = some 50)
      (Int.natCast_nonneg k) (by exact_mod_cast hhigh : (k : ℤ) ≤ n) (by omega)
    rw [Int.cast_natCast, Int.cast_natCast] at hnear
    exact ⟨c, by rw [hq, except_ok_bind, hc], hnear⟩

/-- **Recoveries** -/
theorem recovery_noAliases (hn : n ≤ 10 ^ 6) (requireUnrecovered : Bool) :
    Levels.NoAliases Decimal.numEq InUnit (recoveryCount n requireUnrecovered)
      (List.range' 1 (recoveryMaximum n requireUnrecovered)) := by
  have hmax : recoveryMaximum n requireUnrecovered ≤ n := by
    unfold recoveryMaximum
    split_ifs <;> omega
  have hlevel : ∀ k ∈ List.range' 1 (recoveryMaximum n requireUnrecovered), 1 ≤ k ∧ k ≤ n := by
    intro k hk
    rw [List.mem_range'_1] at hk
    omega
  have hpos : ∀ k ∈ List.range' 1 (recoveryMaximum n requireUnrecovered), (0 : ℚ) < n := by
    intro k hk
    have := hlevel k hk
    exact_mod_cast (by omega : 0 < n)
  refine noAliases_check (fun hnone => ?_) (noAliases_of_near (t := recoveryFraction n) (fun k hk => ?_)
    (fun k hk => recovery_near (hlevel k hk).1 (hlevel k hk).2) (injOn_ite ?_ (fun k hk hne heq => ?_) ?_) _)
  · rw [decide_eq_false_iff_not] at hnone
    have hzero : recoveryMaximum n requireUnrecovered = 0 := by
      by_contra hne
      exact hnone ⟨by omega, by omega⟩
    rw [hzero, List.range'_zero]
  · unfold recoveryFraction
    split_ifs
    · exact ⟨1, 4, by norm_num, by norm_num, by norm_num⟩
    · exact ⟨k, n, by exact_mod_cast hpos k hk, by exact_mod_cast hn, by push_cast; rfl⟩
  · exact fun j k hj hk => by exact_mod_cast hj.trans hk.symm
  -- a level with the ratio of the compatible probability is the compatible level
  · rw [div_eq_div_iff (hpos k hk).ne' (by norm_num)] at heq
    refine hne (compatibleRecoveryCount_eq hn ?_).symm
    have hfour : (4 * k : ℚ) = n := by linarith
    exact_mod_cast hfour
  · intro j ⟨hj, _⟩ k _ heq
    exact_mod_cast (div_left_inj' (hpos j hj).ne').1 heq

/-! ## Merchants -/

/-- `int(d.to_integral_value(rounding=ROUND_HALF_EVEN))` of an integer -/
theorem truncate_toIntegral_int {k : ℤ} (h : d.value = k) : Decimal.truncate (Decimal.toIntegral d) = k := by
  rw [Decimal.truncate_toIntegral, h, Decimal.halfEven_intCast]

theorem compatibleMerchantCount_eq (hn : n ≤ 10 ^ 6) (hpos : 1 ≤ k) (hk : 10 * k = 3 * n) :
    compatibleMerchantCount n = k := by
  have hthirty : Decimal.sub .default ⟨1, 0⟩ ⟨70, -2⟩ = ⟨30, -2⟩ := by decide
  have hvalue : (Decimal.mul .default ⟨n, 0⟩ ⟨30, -2⟩).value = ((k : ℤ) : ℚ) := by
    rw [value_mul_hundredths (abs_le_million hn) (by norm_num)]
    have hten : (10 * k : ℚ) = 3 * n := by exact_mod_cast hk
    push_cast
    linarith
  rw [compatibleMerchantCount, hthirty, truncate_toIntegral_int hvalue]
  exact max_eq_right (by exact_mod_cast hpos)

/-- the fraction a number of merchants stands for -/
def merchantFraction (n k : ℕ) : ℚ :=
  if (k : ℤ) = compatibleMerchantCount n then 7 / 10 else if k = 1 then 1 else ((n : ℚ) - k) / n

theorem merchant_near (hlow : 1 ≤ k) (hhigh : k ≤ n) :
    ∃ c, merchantConcentration n k = .ok c ∧ Near c (merchantFraction n k) := by
  have hpos : (0 : ℚ) < n := by exact_mod_cast (by omega : 0 < n)
  unfold merchantConcentration merchantFraction
  by_cases hk : (k : ℤ) = compatibleMerchantCount n
  · rw [if_pos hk, if_pos hk]
    have hvalue : (⟨70, -2⟩ : Decimal).value = 7 / 10 := by norm_num [Decimal.value]
    refine ⟨_, rfl, ?_⟩
    rw [← hvalue]
    exact near_self (by rw [hvalue]; norm_num) (by rw [hvalue]; norm_num)
  · rw [if_neg hk, if_neg hk]
    by_cases hone : k = 1
    · rw [if_pos hone, if_pos hone]
      have hvalue : (⟨1, 0⟩ : Decimal).value = 1 := by norm_num [Decimal.value]
      refine ⟨_, rfl, ?_⟩
      rw [← hvalue]
      exact near_self (by rw [hvalue]; norm_num) (by rw [hvalue])
    · rw [if_neg hone, if_neg hone]
      by_cases hall : k = n
      · rw [if_pos hall, hall, sub_self, zero_div]
        have hvalue : (⟨0, 0⟩ : Decimal).value = 0 := by norm_num [Decimal.value]
        refine ⟨_, rfl, ?_⟩
        rw [← hvalue]
        exact near_self (by rw [hvalue]) (by rw [hvalue]; norm_num)
      · rw [if_neg hall]
        obtain ⟨r, hr, hexp, hnear⟩ := ratio_near (Int.natCast_nonneg k) (by exact_mod_cast hhigh : (k : ℤ) ≤ n) (by omega)
        rw [Int.cast_natCast, Int.cast_natCast] at hnear
        have hroom : DecimalContext.default.Fits (-18) ((⟨1, 0⟩ : Decimal).value - r.value) := by
          intro p hp
          rw [← Option.some.inj (hp : some 28 = some p), Decimal.value_int, Int.cast_one,
            abs_of_nonneg (sub_nonneg.2 hnear.high)]
          have := hnear.low
          norm_num
          linarith
        obtain ⟨hvalue, -⟩ := Decimal.sub_value (by decide : (-18 : ℤ) ≤ (⟨1, 0⟩ : Decimal).exp) hexp.ge hroom
        rw [Decimal.value_int, Int.cast_one] at hvalue
        refine ⟨_, by rw [hr, except_ok_bind]; rfl, ?_, ?_, ?_⟩
        · rw [hvalue, sub_div, div_self hpos.ne', sub_sub_sub_cancel_left, abs_sub_comm]
          exact hnear.near
        · rw [hvalue]
          exact sub_nonneg.2 hnear.high
        · rw [hvalue]
          have := hnear.low
          linarith

/-- **Merchants** -/
theorem merchant_noAliases (hn : n ≤ 10 ^ 6) :
    Levels.NoAliases Decimal.numEq InUnit (merchantTargetCount n) (List.range' 1 n) := by
  have hlevel : ∀ k ∈ List.range' 1 n, 1 ≤ k ∧ k ≤ n := by
    intro k hk
    rw [List.mem_range'_1] at hk
    omega
  have hpos : ∀ k ∈ List.range' 1 n, (0 : ℚ) < n := by
    intro k hk
    have := hlevel k hk
    exact_mod_cast (by omega : 0 < n)
  refine noAliases_check (fun hnone => ?_) (noAliases_of_near (t := merchantFraction n) (fun k hk => ?_)
    (fun k hk => merchant_near (hlevel k hk).1 (hlevel k hk).2) (injOn_ite ?_ (fun k hk hne heq => ?_) ?_) _)
  · rw [decide_eq_false_iff_not] at hnone
    rw [Nat.eq_zero_of_not_pos hnone, List.range'_zero]
  · unfold merchantFraction
    split_ifs
    · exact ⟨7, 10, by norm_num, by norm_num, by norm_num⟩
    · exact ⟨1, 1, by norm_num, by norm_num, by norm_num⟩
    · exact ⟨n - k, n, by exact_mod_cast hpos k hk, by exact_mod_cast hn, by push_cast; rfl⟩
  · exact fun j k hj hk => by exact_mod_cast hj.trans hk.symm
  -- a level with the ratio of the compatible concentration is the compatible level
  · split_ifs at heq with hone
    · norm_num at heq
    · rw [div_eq_div_iff (hpos k hk).ne' (by norm_num)] at heq
      refine hne (compatibleMerchantCount_eq hn (hlevel k hk).1 ?_).symm
      have hten : (10 * k : ℚ) = 3 * n := by linarith
      exact_mod_cast hten
  · refine injOn_ite (fun j k hj hk => hj.trans hk.symm) (fun k ⟨hk, _⟩ _ heq => ?_) ?_
    · rw [div_eq_one_iff_eq (hpos k hk).ne', sub_eq_self, Nat.cast_eq_zero] at heq
      have := hlevel k hk
      omega
    · intro j ⟨⟨hj, _⟩, _⟩ k _ heq
      exact_mod_cast sub_right_injective ((div_left_inj' (hpos j hj).ne').1 heq)

/-! ## Actors -/

theorem compatibleActorSpan_eq (hn : n ≤ 10 ^ 6) (hlow : 2 ≤ k) (hhigh : k ≤ n) (hk : 5 * (n - k) = 3 * (n - 2)) :
    compatibleActorSpan n = k := by
  have hforty : Decimal.sub .default ⟨1, 0⟩ ⟨60, -2⟩ = ⟨40, -2⟩ := by decide
  have habs : |(n : ℤ) - 2| ≤ 10 ^ 6 := by
    rw [abs_of_nonneg (by omega)]
    have : (n : ℤ) ≤ 10 ^ 6 := by exact_mod_cast hn
    linarith
  have hproduct : (Decimal.mul .default ⟨(n : ℤ) - 2, 0⟩ ⟨40, -2⟩).value = (((k : ℤ) - 2 : ℤ) : ℚ) := by
    rw [value_mul_hundredths habs (by norm_num)]
    have hfive : (5 : ℤ) * (n - k) = 3 * (n - 2) := by omega
    have hfiveq : (5 : ℚ) * (n - k) = 3 * (n - 2) := by exact_mod_cast hfive
    push_cast
    linarith
  have hroom : |((k : ℤ) : ℚ)| < 10 ^ 28 := by
    have hkn : ((k : ℤ) : ℚ) ≤ 10 ^ 6 := by exact_mod_cast hhigh.trans hn
    rw [abs_of_nonneg (by positivity)]
    linarith
  have hvalue : (Decimal.add .default ⟨2, 0⟩ (Decimal.mul .default ⟨(n : ℤ) - 2, 0⟩ ⟨40, -2⟩)).value = ((k : ℤ) : ℚ) := by
    have hsum : (⟨2, 0⟩ : Decimal).value + (Decimal.mul .default ⟨(n : ℤ) - 2, 0⟩ ⟨40, -2⟩).value = ((k : ℤ) : ℚ) := by
      rw [hproduct, Decimal.value_int]
      push_cast
      ring
    rw [Decimal.value_add, hsum]
    refine DecimalContext.round_of_fits (c := k) (e := 0) (by rw [zpow_zero, mul_one]) fun p hp => ?_
    rw [← Option.some.inj (hp : some 28 = some p), zpow_zero, mul_one]
    exact hroom
  rw [compatibleActorSpan, hforty, truncate_toIntegral_int hvalue, min_eq_right (by exact_mod_cast hhigh)]
  exact max_eq_right (by exact_mod_cast hlow)

/-- the fraction a number of actors stands for -/
def spanFraction (n k : ℕ) : ℚ :=
  if (k : ℤ) = compatibleActorSpan n then 3 / 5 else if k = 2 then 1 else ((n : ℚ) - k) / (n - 2)

theorem span_near (hlow : 2 ≤ k) (hhigh : k ≤ n) : ∃ c, deviceReuseRate n k = .ok c ∧ Near c (spanFraction n k) := by
  unfold deviceReuseRate spanFraction
  by_cases hk : (k : ℤ) = compatibleActorSpan n
  · rw [if_pos hk, if_pos hk]
    have hvalue : (⟨60, -2⟩ : Decimal).value = 3 / 5 := by norm_num [Decimal.value]
    refine ⟨_, rfl, ?_⟩
    rw [← hvalue]
    exact near_self (by rw [hvalue]; norm_num) (by rw [hvalue]; norm_num)
  · rw [if_neg hk, if_neg hk]
    by_cases hone : k = 2
    · rw [if_pos hone, if_pos hone]
      have hvalue : (⟨1, 0⟩ : Decimal).value = 1 := by norm_num [Decimal.value]
      refine ⟨_, rfl, ?_⟩
      rw [← hvalue]
      exact near_self (by rw [hvalue]; norm_num) (by rw [hvalue])
    · rw [if_neg hone, if_neg hone]
      by_cases hall : k = n
      · rw [if_pos hall, hall, sub_self, zero_div]
        have hvalue : (⟨0, 0⟩ : Decimal).value = 0 := by norm_num [Decimal.value]
        refine ⟨_, rfl, ?_⟩
        rw [← hvalue]
        exact near_self (by rw [hvalue]) (by rw [hvalue]; norm_num)
      · rw [if_neg hall]
        obtain ⟨c, hc, -, hnear⟩ := ratio_near (n := (n : ℤ) - k) (d := (n : ℤ) - 2) (by omega) (by omega) (by omega)
        push_cast at hnear
        exact ⟨c, hc, hnear⟩

/-- **Actors** -/
theorem span_noAliases (hn : n ≤ 10 ^ 6) :
    Levels.NoAliases Decimal.numEq InUnit (cardActorSpan n) (List.range' 2 (n - 1)) := by
  have hlevel : ∀ k ∈ List.range' 2 (n - 1), 2 ≤ k ∧ k ≤ n := by
    intro k hk
    rw [List.mem_range'_1] at hk
    omega
  have hcast : ∀ k ∈ List.range' 2 (n - 1), k ≠ 2 → (0 : ℚ) < n - 2 := by
    intro k hk hne
    have := hlevel k hk
    have hlt : (2 : ℚ) < n := by exact_mod_cast (by omega : 2 < n)
    linarith
  refine noAliases_check (fun hnone => ?_) (noAliases_of_near (t := spanFraction n) (fun k hk => ?_)
    (fun k hk => span_near (hlevel k hk).1 (hlevel k hk).2) (injOn_ite ?_ (fun k hk hne heq => ?_) ?_) _)
  · rw [decide_eq_false_iff_not] at hnone
    rw [show n - 1 = 0 by omega, List.range'_zero]
  · unfold spanFraction
    split_ifs with _ htwo
    · exact ⟨3, 5, by norm_num, by norm_num, by norm_num⟩
    · exact ⟨1, 1, by norm_num, by norm_num, by norm_num⟩
    · have := hlevel k hk
      have hle : (n : ℤ) ≤ 10 ^ 6 := by exact_mod_cast hn
      exact ⟨n - k, n - 2, by omega, by linarith, by push_cast; rfl⟩
  · exact fun j k hj hk => by exact_mod_cast hj.trans hk.symm
  -- a level with the ratio of the compatible rate is the compatible level
  · split_ifs at heq with htwo
    · norm_num at heq
    · have hk' := hlevel k hk
      rw [div_eq_div_iff (hcast k hk htwo).ne' (by norm_num)] at heq
      refine hne (compatibleActorSpan_eq hn hk'.1 hk'.2 ?_).symm
      have hfive : (5 : ℤ) * (n - k) = 3 * (n - 2) := by
        have : ((5 : ℚ) * (n - k)) = 3 * (n - 2) := by linarith
        exact_mod_cast this
      omega
  · refine injOn_ite (fun j k hj hk => hj.trans hk.symm) (fun k ⟨hk, _⟩ htwo heq => ?_) ?_
    · rw [div_eq_one_iff_eq (hcast k hk htwo).ne', sub_right_inj] at heq
      exact htwo (by exact_mod_cast heq)
    · intro j ⟨⟨hj, _⟩, htwo⟩ k _ heq
      exact_mod_cast sub_right_injective ((div_left_inj' (hcast j hj htwo).ne').1 heq)

/-! ## Attacks -/

theorem attack_near (hpos : 0 < n) (hhigh : k ≤ n) : ∃ c, quotient 28 ⟨k, 0⟩ ⟨n, 0⟩ = .ok c ∧ Near c (k / n) := by
  obtain ⟨q, hq⟩ := Decimal.div_isSome (p := 28) (a := ⟨k, 0⟩) (b := ⟨n, 0⟩) (Int.natCast_ne_zero.2 hpos.ne')
  obtain ⟨hnear, hlow, hhigh⟩ := Decimal.near_div (p := 28) (by norm_num) (Int.natCast_nonneg k)
    (by exact_mod_cast hhigh : (k : ℤ) ≤ n) (by exact_mod_cast hpos) hq
  rw [Int.cast_natCast, Int.cast_natCast] at hnear
  exact ⟨q, by rw [quotient, hq], hnear.trans (by norm_num), hlow, hhigh⟩

/-- **Attacks** -/
theorem attack_noAliases (hn : n ≤ 10 ^ 6) :
    Levels.NoAliases Decimal.numEq InUnit (agenticAttackCount n) (List.range' 23 (n - 24)) := by
  have hlevel : ∀ k ∈ List.range' 23 (n - 24), 23 ≤ k ∧ k ≤ n ∧ 0 < n := by
    intro k hk
    rw [List.mem_range'_1] at hk
    omega
  refine noAliases_of_near (t := fun k => (k : ℚ) / n) (fun k hk => ?_)
    (fun k hk => attack_near (hlevel k hk).2.2 (hlevel k hk).2.1) (fun j hj k hk heq => ?_) _
  · exact ⟨k, n, by exact_mod_cast (hlevel k hk).2.2, by exact_mod_cast hn, by push_cast; rfl⟩
  · have hpos : (n : ℚ) ≠ 0 := by exact_mod_cast (hlevel j hj).2.2.ne'
    exact_mod_cast (div_left_inj' hpos).1 heq

/-! ## Cash -/

theorem quantized_congr {a b : Decimal} (h : a.value = b.value) (e : ℤ) :
    quantized .default a e = quantized .default b e := by
  have hrescale : a.rescale e = b.rescale e := by rw [Decimal.rescale_eq, Decimal.rescale_eq, h]
  rw [quantized, quantized, Decimal.quantize, Decimal.quantize, hrescale]

theorem cashOutTarget_eq_ok {fraction : Decimal} :
    cashOutTarget total fraction = .ok cashTarget ↔
      quantized .default (Decimal.mul .default total fraction) (-2) = .ok cashTarget ∧
        ∃ candidate, cashCandidate total cashTarget = .ok candidate ∧ fraction.value = candidate.value := by
  simp only [cashOutTarget, except_bind_eq_ok, check_eq_ok, except_pure_eq_ok, exists_const, Decimal.numEq_iff]
  constructor
  · rintro ⟨target, htarget, candidate, hcandidate, hsame, heq⟩
    subst heq
    exact ⟨htarget, candidate, hcandidate, hsame⟩
  · rintro ⟨htarget, candidate, hcandidate, hsame⟩
    exact ⟨cashTarget, htarget, candidate, hcandidate, hsame, rfl⟩

/-- a fraction determines its target, however it is written -/
theorem cashOutTarget_congr (total : Decimal) (h : f.value = g.value) (hf : cashOutTarget total f = .ok cashTarget) :
    cashOutTarget total g = .ok cashTarget := by
  obtain ⟨htarget, candidate, hcandidate, hsame⟩ := cashOutTarget_eq_ok.1 hf
  refine cashOutTarget_eq_ok.2 ⟨?_, candidate, hcandidate, h.symm.trans hsame⟩
  rw [← htarget]
  refine quantized_congr ?_ _
  rw [Decimal.value_mul, Decimal.value_mul, h]

/-- **Cash targets**: accepted fractions with one target are one fraction. -/
theorem cashOutTarget_inj {cashTarget' : Decimal} (hf : cashOutTarget total f = .ok cashTarget)
    (hg : cashOutTarget total g = .ok cashTarget') (hsame : cashTarget.value = cashTarget'.value) :
    f.value = g.value := by
  obtain ⟨htarget, candidate, hcandidate, hfraction⟩ := cashOutTarget_eq_ok.1 hf
  obtain ⟨htarget', candidate', hcandidate', hfraction'⟩ := cashOutTarget_eq_ok.1 hg
  have hcents : ∀ {d target : Decimal}, quantized .default d (-2) = .ok target → target.exp = -2 := by
    intro d target h
    rw [quantized] at h
    cases hq : Decimal.quantize .default d (-2) with
    | none =>
      rw [hq] at h
      cases h
    | some q =>
      rw [hq, Except.ok.injEq] at h
      rw [← h, Decimal.quantize_rescale hq]
  have heq : cashTarget = cashTarget' := Decimal.eq_of_value_eq ((hcents htarget).trans (hcents htarget').symm) hsame
  rw [← heq, hcandidate, Except.ok.injEq] at hcandidate'
  rw [hfraction, hfraction', hcandidate']

/-! ## Mutations -/

section

variable {α : Type} {xs ys : List α}

theorem cycle_congr (h : xs = ys) (hxs : xs ≠ []) (hys : ys ≠ []) (k : ℕ) : cycle xs hxs k = cycle ys hys k := by
  subst h
  rfl

theorem getElem?_cycle (hxs : xs ≠ []) {k i : ℕ} (hi : i < k) : (cycle xs hxs k)[i]? = xs[i % xs.length]? := by
  have hlt : i % xs.length < xs.length := Nat.mod_lt _ (List.length_pos_iff.2 hxs)
  rw [cycle, List.getElem?_map, List.getElem?_range hi, Option.map_some, List.getElem?_eq_getElem hlt, List.get_eq_getElem]

/-- a shorter list of distinct elements does not repeat into a longer one -/
theorem length_le_of_cycle (hxs : xs ≠ []) (hys : ys ≠ []) (hn : ys.Nodup) {k : ℕ} (hk : ys.length ≤ k)
    (h : cycle xs hxs k = cycle ys hys k) : ys.length ≤ xs.length := by
  by_contra hlt
  rw [not_le] at hlt
  have hpos := List.length_pos_iff.2 hxs
  have hget : ∀ i < k, xs[i % xs.length]? = ys[i % ys.length]? := by
    intro i hi
    rw [← getElem?_cycle hxs hi, h, getElem?_cycle hys hi]
  -- both begin with the first element of the shorter list, which comes again at its length
  have hfirst := hget 0 (by omega)
  have hagain := hget xs.length (by omega)
  rw [Nat.mod_self, Nat.mod_eq_of_lt hlt] at hagain
  rw [Nat.zero_mod, Nat.zero_mod] at hfirst
  have hsame : ys[xs.length]? = ys[0]? := hagain.symm.trans hfirst
  have hzero := (List.getElem?_inj hlt hn).1 hsame
  omega

/-- **Repetition keeps lists of distinct elements apart**, as long as they fit. -/
theorem cycle_inj (hxs : xs ≠ []) (hys : ys ≠ []) (hnx : xs.Nodup) (hny : ys.Nodup) {k : ℕ} (hkx : xs.length ≤ k)
    (hky : ys.length ≤ k) (h : cycle xs hxs k = cycle ys hys k) : xs = ys := by
  have hlength : xs.length = ys.length :=
    le_antisymm (length_le_of_cycle hys hxs hnx hkx h.symm) (length_le_of_cycle hxs hys hny hky h)
  refine List.ext_getElem? fun i => ?_
  by_cases hi : i < xs.length
  · have hget : xs[i % xs.length]? = ys[i % ys.length]? := by
      rw [← getElem?_cycle hxs (hi.trans_le hkx), h, getElem?_cycle hys (hi.trans_le hkx)]
    rwa [← hlength, Nat.mod_eq_of_lt hi] at hget
  · rw [List.getElem?_eq_none (not_lt.1 hi), List.getElem?_eq_none (hlength ▸ not_lt.1 hi)]

end

/-- what an accepted tuple has passed -/
theorem agenticExtras_eq_ok {m : Mutations} {extras : List String} (h : agenticExtras k m = .ok extras) :
    extras = cycle m.values m.nonempty k ∧ (m.values = agenticMutations ∨
      m.values.length ≤ k ∧ extras ≠ cycle agenticMutations (List.cons_ne_nil _ _) k) := by
  unfold agenticExtras at h
  by_cases hk : k = 0
  · rw [if_pos hk] at h
    simp only [except_bind_eq_ok, check_eq_ok, decide_eq_true_eq, except_pure_eq_ok, exists_const] at h
    refine ⟨?_, .inl h.1⟩
    rw [← h.2, hk]
    rfl
  · rw [if_neg hk] at h
    simp only [except_bind_eq_ok, check_eq_ok, decide_eq_true_eq, except_pure_eq_ok, exists_const] at h
    obtain ⟨hlength, hother, heq⟩ := h
    refine ⟨heq.symm, ?_⟩
    by_cases hdefault : m.values = agenticMutations
    · exact .inl hdefault
    · rw [← heq]
      exact .inr ⟨hlength.resolve_left hdefault, hother.resolve_left hdefault⟩

/-- **Mutations**: accepted tuples with the same attacks are one tuple. -/
theorem agenticExtras_inj {m m' : Mutations} {extras : List String} (h : agenticExtras k m = .ok extras)
    (h' : agenticExtras k m' = .ok extras) : m.values = m'.values := by
  obtain ⟨heq, hm⟩ := agenticExtras_eq_ok h
  obtain ⟨heq', hm'⟩ := agenticExtras_eq_ok h'
  have hsame : cycle m.values m.nonempty k = cycle m'.values m'.nonempty k := heq.symm.trans heq'
  have hdefault : ∀ {u : Mutations}, u.values = agenticMutations → extras = cycle u.values u.nonempty k →
      extras = cycle agenticMutations (List.cons_ne_nil _ _) k := by
    intro u hu hextras
    exact hextras.trans (cycle_congr hu _ _ k)
  rcases hm with hm | ⟨hfit, hother⟩
  · rcases hm' with hm' | ⟨_, hother'⟩
    · exact hm.trans hm'.symm
    · exact absurd (hdefault hm heq) hother'
  · rcases hm' with hm' | ⟨hfit', _⟩
    · exact absurd (hdefault hm' heq') hother
    · exact cycle_inj m.nonempty m'.nonempty m.nodup m'.nodup hfit hfit' hsame

/-! ## All of them -/

/-- **No aliases**: up to a million eligible, every level of recoveries, merchants, actors and attacks has exactly one
public value, and a value names one level however it is written; a fraction of the total determines its cash target, and two
fractions never have the same one; two tuples of mutations never have the same attacks. -/
theorem adaptive_noAliases (hn : n ≤ 10 ^ 6) :
    (∀ requireUnrecovered, Levels.NoAliases Decimal.numEq InUnit (recoveryCount n requireUnrecovered)
      (List.range' 1 (recoveryMaximum n requireUnrecovered))) ∧
    Levels.NoAliases Decimal.numEq InUnit (merchantTargetCount n) (List.range' 1 n) ∧
    Levels.NoAliases Decimal.numEq InUnit (cardActorSpan n) (List.range' 2 (n - 1)) ∧
    Levels.NoAliases Decimal.numEq InUnit (agenticAttackCount n) (List.range' 23 (n - 24)) ∧
    (∀ total f g cashTarget cashTarget', cashOutTarget total f = .ok cashTarget → cashOutTarget total g = .ok cashTarget' →
      (cashTarget.value = cashTarget'.value ↔ f.value = g.value)) ∧
    ∀ k m m' extras, agenticExtras k m = .ok extras → agenticExtras k m' = .ok extras → m.values = m'.values := by
  refine ⟨recovery_noAliases hn, merchant_noAliases hn, span_noAliases hn, attack_noAliases hn, ?_, ?_⟩
  · intro total f g cashTarget cashTarget' hf hg
    refine ⟨cashOutTarget_inj hf hg, fun hfg => ?_⟩
    have hsame := cashOutTarget_congr total hfg hf
    rw [hg, Except.ok.injEq] at hsame
    rw [hsame]
  · exact fun k m m' extras => agenticExtras_inj

/-- four merchants: concentrations of 0.70, 1/2, 1/4 and none -/
theorem adaptive_noAliases_four :
    Levels.NoAliases Decimal.numEq InUnit (merchantTargetCount 4) (List.range' 1 4) ∧
      merchantTargetCount 4 ⟨5, -1⟩ = .ok 2 :=
  ⟨(adaptive_noAliases (by norm_num : 4 ≤ 10 ^ 6)).2.1, by decide +kernel⟩

end Campaigns

end Apar
