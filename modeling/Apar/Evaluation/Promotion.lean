/-
Soundness of the promotion gates.

- `improvement_value`: money in whole cents is subtracted exactly, so an improvement is a difference of values.
- `qualifies_dominated`: a comparator that dominates a qualified hybrid has exactly the hybrid's value, one cent below
  the best comparator, which takes more review cases than the hybrid.
- `bestComparator_minimal`: the retained comparator is the first in the order of value, review cases and arm.
- `evaluatePromotionGates_perm`: the decision is the same for every order of the results.
- `promotion_sound`: what a promoted and a retained champion are.

The cent of tolerance of a promotion is deliberate: `dominated_promotion` is a promoted hybrid that a passing comparator
dominates.
-/
import Mathlib.Data.List.MinMax
import Apar.Evaluation.Gates

namespace Apar

open Exec

namespace Gates

variable {F : Type} [PyFloat F]

/-! ## Money in cents -/

/-- the value that an arm stopped -/
def ReplayResult.value (row : ReplayResult F) : ℚ := row.metrics.preventableSettledValue.value

def ReplayResult.cases (row : ReplayResult F) : ℕ := row.metrics.reviewCaseCount

/-- at least the value for at most the review cases, one of the two strictly -/
def Dominates (a b : ReplayResult F) : Prop :=
  b.value ≤ a.value ∧ a.cases ≤ b.cases ∧ (b.value < a.value ∨ a.cases < b.cases)

theorem moneyIsCents_spec {d : Decimal} (h : moneyIsCents d = true) :
    ∃ z : ℤ, d.value = z * 10 ^ (-2 : ℤ) ∧ 0 ≤ z ∧ z < 10 ^ 34 := by
  simp only [moneyIsCents, Bool.and_eq_true, Option.any_eq_true] at h
  rcases h with ⟨hnonneg, q, hq, hnum⟩
  rw [Decimal.ble_iff, Decimal.value_zero] at hnonneg
  rw [Decimal.numEq_iff] at hnum
  rcases (Decimal.quantize_value_iff hq).1 hnum.symm with ⟨z, hz⟩
  have hfits : |d.value| < 10 ^ 34 * (10 : ℚ) ^ (-2 : ℤ) := by
    rw [hnum]
    exact (Decimal.quantize_spec hq).2 34 rfl
  have hpow : (0 : ℚ) < 10 ^ (-2 : ℤ) := by positivity
  refine ⟨z, hz, ?_, ?_⟩
  · rw [hz] at hnonneg
    exact_mod_cast nonneg_of_mul_nonneg_left hnonneg hpow
  · rw [hz] at hfits hnonneg
    rw [abs_of_nonneg hnonneg] at hfits
    exact_mod_cast lt_of_mul_lt_mul_right hfits hpow.le

section Cents

omit [PyFloat F]

theorem value_cents (m : PromotionMetrics F) :
    ∃ z : ℤ, m.preventableSettledValue.value = z * 10 ^ (-2 : ℤ) ∧ 0 ≤ z ∧ z < 10 ^ 34 :=
  moneyIsCents_spec m.valid

theorem value_nonneg (m : PromotionMetrics F) : 0 ≤ m.preventableSettledValue.value := by
  rcases value_cents m with ⟨z, hz, hz0, _⟩
  rw [hz]
  positivity

/-- values in whole cents are subtracted without rounding -/
theorem improvement_value (m m' : PromotionMetrics F) :
    (Decimal.sub .decimal128 m.preventableSettledValue m'.preventableSettledValue).value =
      m.preventableSettledValue.value - m'.preventableSettledValue.value := by
  rcases value_cents m with ⟨z, hz, hz0, hzlt⟩
  rcases value_cents m' with ⟨z', hz', hz0', hzlt'⟩
  have hdiff : m.preventableSettledValue.value - m'.preventableSettledValue.value =
      ((z - z' : ℤ) : ℚ) * 10 ^ (-2 : ℤ) := by
    rw [hz, hz']
    push_cast
    ring
  rw [Decimal.sub, Decimal.value_add, Decimal.value_neg, ← sub_eq_add_neg]
  refine DecimalContext.round_of_fits hdiff ?_
  intro p hp
  cases hp
  rw [hdiff, abs_mul, abs_of_pos (by positivity : (0 : ℚ) < 10 ^ (-2 : ℤ))]
  refine mul_lt_mul_of_pos_right ?_ (by positivity)
  have : |z - z'| < 10 ^ 34 := by rw [abs_lt]; omega
  exact_mod_cast this

/-- values in cents that differ by less than a cent are equal -/
theorem value_eq_of_lt {m m' : PromotionMetrics F}
    (h : m.preventableSettledValue.value < m'.preventableSettledValue.value + 1 / 100)
    (h' : m'.preventableSettledValue.value < m.preventableSettledValue.value + 1 / 100) :
    m.preventableSettledValue.value = m'.preventableSettledValue.value := by
  rcases value_cents m with ⟨z, hz, _⟩
  rcases value_cents m' with ⟨z', hz', _⟩
  rw [hz, hz'] at h h' ⊢
  norm_num at h h'
  have h1 : (z : ℚ) < z' + 1 := by linarith
  have h2 : (z' : ℚ) < z + 1 := by linarith
  have hzz : z = z' := by
    have h1' : z < z' + 1 := by exact_mod_cast h1
    have h2' : z' < z + 1 := by exact_mod_cast h2
    omega
  rw [hzz]

end Cents

/-! ## Promotion -/

theorem config_cent (config : GateConfig F) : config.minimumValueImprovement.value = 1 / 100 := by
  have h := config.valid
  simp only [GateLimits.validate, except_bind_eq_ok, check_eq_ok] at h
  rcases h with ⟨_, h, _⟩
  rw [Decimal.numEq_iff] at h
  rw [h]
  norm_num [Decimal.value]

/-- what `_hybrid_qualifies` accepts -/
theorem hybridQualifies_spec {config : GateConfig F} {hybrid : PromotionMetrics F} {comparators : List (PromotionMetrics F)}
    (h : hybridQualifies config hybrid comparators = true) :
    (∀ c ∈ comparators, c.preventableSettledValue.value + 1 / 100 ≤ hybrid.preventableSettledValue.value) ∨
    ∃ best ∈ comparators,
      (∀ c ∈ comparators, c.preventableSettledValue.value ≤ best.preventableSettledValue.value) ∧
      best.preventableSettledValue.value ≤ hybrid.preventableSettledValue.value + 1 / 100 ∧
      ∀ c ∈ comparators, c.preventableSettledValue.value = best.preventableSettledValue.value →
        hybrid.reviewCaseCount < c.reviewCaseCount := by
  simp only [hybridQualifies] at h
  split_ifs at h with himprove
  · left
    intro c hc
    rw [List.all_eq_true] at himprove
    have := himprove _ (List.mem_map_of_mem hc)
    rw [Decimal.ble_iff, improvement_value, config_cent] at this
    linarith
  · right
    rw [Bool.and_eq_true, Option.any_eq_true] at h
    rcases h with ⟨⟨best, hbest, hwithin⟩, hworkload⟩
    rcases List.mem_filter.1 (List.mem_of_head? hbest) with ⟨hmem, hmax⟩
    rw [List.all_eq_true] at hmax hworkload
    have hmax' : ∀ c ∈ comparators, c.preventableSettledValue.value ≤ best.preventableSettledValue.value :=
      fun c hc => (Decimal.ble_iff _ _).1 (hmax c hc)
    rw [Decimal.ble_iff, improvement_value, config_cent] at hwithin
    refine ⟨best, hmem, hmax', by linarith, ?_⟩
    intro c hc heq
    have hcmax : (comparators.all fun c' => Decimal.ble c'.preventableSettledValue c.preventableSettledValue) = true := by
      rw [List.all_eq_true]
      intro c' hc'
      rw [Decimal.ble_iff, heq]
      exact hmax' c' hc'
    exact of_decide_eq_true (hworkload c (List.mem_filter.2 ⟨hc, hcmax⟩))

/-- **Dominated promotions.** A comparator that dominates a qualified hybrid has exactly its value, one cent below the
best comparator. -/
theorem qualifies_dominated {config : GateConfig F} {hybrid c : ReplayResult F} {comparators : List (ReplayResult F)}
    (h : hybridQualifies config hybrid.metrics (comparators.map ReplayResult.metrics) = true) (hc : c ∈ comparators)
    (hdom : Dominates c hybrid) :
    c.value = hybrid.value ∧
      ∃ best ∈ comparators, best.value = hybrid.value + 1 / 100 ∧ hybrid.cases < best.cases := by
  rcases hdom with ⟨hvalue, hcases, _⟩
  rcases hybridQualifies_spec h with himprove | ⟨best, hbest, hmax, hwithin, hworkload⟩
  · have := himprove _ (List.mem_map_of_mem hc)
    exact absurd hvalue (by unfold ReplayResult.value; linarith)
  · rcases List.mem_map.1 hbest with ⟨best', hbest', rfl⟩
    have hle : c.value ≤ best'.value := hmax _ (List.mem_map_of_mem hc)
    have hlt : c.value < best'.value := by
      refine lt_of_le_of_ne hle fun heq => ?_
      exact absurd (hworkload _ (List.mem_map_of_mem hc) heq) (not_lt.2 hcases)
    have hwithin' : best'.value ≤ hybrid.value + 1 / 100 := hwithin
    have heq : c.value = hybrid.value :=
      value_eq_of_lt (by unfold ReplayResult.value at *; linarith) (by unfold ReplayResult.value at *; linarith)
    refine ⟨heq, best', hbest', ?_, hworkload _ hbest rfl⟩
    refine le_antisymm hwithin' (not_lt.1 fun hless => ?_)
    have : c.value = best'.value :=
      value_eq_of_lt (by unfold ReplayResult.value at *; linarith) (by unfold ReplayResult.value at *; linarith)
    exact absurd this hlt.ne

/-! ## Retention -/

section Retention

omit [PyFloat F]

/-- the order of the retained comparators: value down, review cases up, arm -/
def retainedKey (row : ReplayResult F) : ℚ ×ₗ ℕ ×ₗ ℕ :=
  toLex ((negatedValue row).value, toLex (row.cases, row.arm.index))

theorem retainedBefore_iff (a b : ReplayResult F) : retainedBefore a b = true ↔ retainedKey a < retainedKey b := by
  have hle : Decimal.ble (negatedValue b) (negatedValue a) = true ↔ _ := Decimal.ble_iff _ _
  have heq : (negatedValue a).numEq (negatedValue b) = true ↔ _ := Decimal.numEq_iff _ _
  simp only [retainedBefore, retainedKey, Prod.Lex.toLex_lt_toLex, Bool.or_eq_true, Bool.and_eq_true,
    Bool.not_eq_true', ← Bool.not_eq_true, hle, heq, not_le, decide_eq_true_eq, ReplayResult.cases]

theorem bestComparator_eq (rows : List (ReplayResult F)) : bestComparator rows = rows.argmin retainedKey := by
  cases rows with
  | nil => rfl
  | cons row rows =>
    show some _ = List.foldl _ (some row) rows
    induction rows generalizing row with
    | nil => rfl
    | cons row' rows ih =>
      rw [List.foldl_cons, List.foldl_cons, ih]
      congr 1
      simp only [List.argAux, retainedBefore_iff]
      split_ifs <;> rfl

theorem bestComparator_minimal {rows : List (ReplayResult F)} {best : ReplayResult F} (h : bestComparator rows = some best) :
    best ∈ rows ∧ ∀ row ∈ rows, retainedKey best ≤ retainedKey row := by
  rw [bestComparator_eq] at h
  exact ⟨List.argmin_mem h, fun row hrow => List.le_of_mem_argmin hrow h⟩

/-- money of at most 28 digits is negated without rounding -/
theorem negatedValue_value {row : ReplayResult F} (h : row.value < 10 ^ 26) : (negatedValue row).value = -row.value := by
  rcases value_cents row.metrics with ⟨z, hz, hz0, _⟩
  have hvalue : row.value = z * 10 ^ (-2 : ℤ) := hz
  have hneg : -row.value = ((-z : ℤ) : ℚ) * 10 ^ (-2 : ℤ) := by
    rw [hvalue]
    push_cast
    ring
  rw [negatedValue, Decimal.value_fix, Decimal.value_neg]
  refine DecimalContext.round_of_fits hneg ?_
  intro p hp
  cases hp
  have hnonneg : 0 ≤ row.value := value_nonneg row.metrics
  show |-row.value| < _
  rw [abs_neg, abs_of_nonneg hnonneg]
  norm_num at h ⊢
  exact h

/-- a comparator that dominates another comes before it -/
theorem retainedKey_lt {a b : ReplayResult F} (ha : a.value < 10 ^ 26) (h : Dominates a b) : retainedKey a < retainedKey b := by
  rcases h with ⟨hvalue, hcases, hstrict⟩
  rw [retainedKey, retainedKey, negatedValue_value ha, negatedValue_value (hvalue.trans_lt ha), Prod.Lex.toLex_lt_toLex]
  rcases hvalue.lt_or_eq with hlt | heq
  · exact Or.inl (neg_lt_neg hlt)
  · right
    refine ⟨by rw [heq], ?_⟩
    rw [Prod.Lex.toLex_lt_toLex]
    exact Or.inl (hstrict.resolve_left fun hlt => absurd heq hlt.ne)

end Retention

/-! ## The order of the results -/

section Order

omit [PyFloat F]

theorem resultKey_inj {row row' : ReplayResult F} (h : resultKey row = resultKey row') :
    (row.arm, row.evaluation) = (row'.arm, row'.evaluation) := by
  have hkind : ∀ a b : EvaluationKind, a.index = b.index → a = b := by
    intro a b hab
    cases a <;> cases b <;> first | rfl | cases hab
  have harm : ∀ a b : DefenseArm, a.index = b.index → a = b := by
    intro a b hab
    cases a <;> cases b <;> first | rfl | cases hab
  simp only [resultKey, toLex_inj, Prod.mk.injEq] at h
  refine Prod.ext (harm _ _ h.2.2) ?_
  cases he : row.evaluation
  cases he' : row'.evaluation
  rw [he, he'] at h
  rw [EvaluationDescriptor.mk.injEq]
  exact ⟨hkind _ _ h.1, h.2.1⟩

theorem resultKey_nodup {results : List (ReplayResult F)}
    (h : (results.map fun row => (row.arm, row.evaluation)).Nodup) : (results.map resultKey).Nodup := by
  refine (List.nodup_map_iff_inj_on (List.Nodup.of_map _ h)).2 ?_
  intro row hrow row' hrow' heq
  exact List.inj_on_of_nodup_map h hrow hrow' (resultKey_inj heq)

theorem validatedResults_spec {results rows : List (ReplayResult F)} (h : validatedResults results = .ok rows) :
    rows = sortBy resultKey results ∧ (results.map fun row => (row.arm, row.evaluation)).Nodup := by
  simp only [validatedResults, except_bind_eq_ok, check_eq_ok, decide_eq_true_eq] at h
  rcases h with ⟨_, _, _, hnodup, hrows⟩
  exact ⟨(Except.ok.inj hrows).symm, hnodup⟩

theorem validatedResults_perm {results results' : List (ReplayResult F)} (hp : results.Perm results') :
    validatedResults results = validatedResults results' := by
  have hempty : results.isEmpty = results'.isEmpty := by
    rw [Bool.eq_iff_iff, List.isEmpty_iff_length_eq_zero, List.isEmpty_iff_length_eq_zero, hp.length_eq]
  have hnodup := (hp.map fun row => (row.arm, row.evaluation)).nodup_iff
  unfold validatedResults
  rw [hempty, hp.length_eq, decide_eq_decide.2 hnodup]
  by_cases hn : (results'.map fun row => (row.arm, row.evaluation)).Nodup
  · rw [sortBy_congr hp (resultKey_nodup (hnodup.2 hn))]
  · rw [decide_eq_false hn]
    rfl

end Order

/-- **Order independence.** -/
theorem evaluatePromotionGates_perm [Sha256] {results results' : List (ReplayResult F)} (hp : results.Perm results')
    (config : GateConfig F) : evaluatePromotionGates results config = evaluatePromotionGates results' config := by
  unfold evaluatePromotionGates
  rw [validatedResults_perm hp]

/-! ## The decision -/

section Primary

omit [PyFloat F]

theorem primary_spec {rows : List (ReplayResult F)} {arm : DefenseArm} {row : ReplayResult F}
    (h : primary rows arm = some row) : row ∈ rows ∧ row.arm = arm ∧ row.evaluation.kind = .chronological := by
  have hp := List.find?_some h
  simp only [Bool.and_eq_true, decide_eq_true_eq] at hp
  exact ⟨List.mem_of_find?_eq_some h, hp⟩

theorem matrix_iff {rows : List (ReplayResult F)} (h : evaluationMatrixIsComplete rows = true) (arm : DefenseArm)
    (d : EvaluationDescriptor) : (∃ row ∈ rows, row.arm = arm ∧ row.evaluation = d) ↔ d ∈ requiredDescriptors := by
  have hset := of_decide_eq_true h
  rw [Finset.ext_iff] at hset
  have harm : arm ∈ DefenseArm.all := by cases arm <;> decide
  have := hset (arm, d)
  simp only [List.mem_toFinset, List.mem_map, List.mem_flatMap, Prod.mk.injEq] at this
  constructor
  · rintro ⟨row, hrow, harm', hd⟩
    rcases this.1 ⟨row, hrow, harm', hd⟩ with ⟨_, _, d', hd', _, rfl⟩
    exact hd'
  · intro hd
    exact this.2 ⟨arm, harm, d, hd, rfl, rfl⟩

theorem chronological_eq {rows : List (ReplayResult F)} (h : evaluationMatrixIsComplete rows = true)
    {row : ReplayResult F} (hrow : row ∈ rows) (hkind : row.evaluation.kind = .chronological) :
    row.evaluation = ⟨.chronological, "development"⟩ := by
  have hone : ∀ d ∈ requiredDescriptors, d.kind = .chronological → d = ⟨.chronological, "development"⟩ := by decide
  exact hone _ ((matrix_iff h row.arm _).1 ⟨row, hrow, rfl, rfl⟩) hkind

theorem primary_unique {rows : List (ReplayResult F)} (h : evaluationMatrixIsComplete rows = true)
    (hnodup : (rows.map fun row => (row.arm, row.evaluation)).Nodup) {row row' : ReplayResult F} {arm : DefenseArm}
    (hp : primary rows arm = some row) (hrow' : row' ∈ rows) (harm : row'.arm = arm)
    (hkind : row'.evaluation.kind = .chronological) : row' = row := by
  rcases primary_spec hp with ⟨hrow, hrowArm, hrowKind⟩
  refine List.inj_on_of_nodup_map hnodup hrow' hrow ?_
  rw [Prod.mk.injEq, harm, hrowArm, chronological_eq h hrow' hkind, chronological_eq h hrow hrowKind]
  exact ⟨rfl, rfl⟩

end Primary

/-- what `chooseChampion` returns -/
theorem chooseChampion_cases (config : GateConfig F) (rows : List (ReplayResult F)) :
    chooseChampion config rows = (.noPromotion, none) ∨
    ∃ hybrid rules gbdt, evaluationMatrixIsComplete rows = true ∧ primary rows .layeredHybrid = some hybrid ∧
      primary rows .rulesOnly = some rules ∧ primary rows .gbdtOnly = some gbdt ∧
      ((armCodes config rows .layeredHybrid = [] ∧
          hybridQualifies config hybrid.metrics [rules.metrics, gbdt.metrics] = true ∧
          chooseChampion config rows = (.promoted, some .layeredHybrid)) ∨
        ∃ best, bestComparator ([rules, gbdt].filter fun row => (armCodes config rows row.arm).isEmpty) = some best ∧
          chooseChampion config rows = (.retained, some best.arm)) := by
  unfold chooseChampion
  split
  next hybrid rules gbdt hcomplete hhybrid hrules hgbdt =>
    dsimp only
    split_ifs with hpass
    · rw [Bool.and_eq_true, List.isEmpty_iff] at hpass
      exact Or.inr ⟨hybrid, rules, gbdt, hcomplete, hhybrid, hrules, hgbdt, Or.inl ⟨hpass.1, hpass.2, rfl⟩⟩
    · cases hbest : bestComparator ([rules, gbdt].filter fun row => (armCodes config rows row.arm).isEmpty) with
      | some best =>
        exact Or.inr ⟨hybrid, rules, gbdt, hcomplete, hhybrid, hrules, hgbdt, Or.inr ⟨best, hbest, rfl⟩⟩
      | none => exact Or.inl rfl
  next => exact Or.inl rfl

/-- an arm without failed gate codes -/
def ChampionDecision.Passed (decision : ChampionDecision) (arm : DefenseArm) : Prop :=
  ⟨arm, true, []⟩ ∈ decision.armGateResults

/-- the chronological result of a comparator -/
def IsComparator (row : ReplayResult F) : Prop := row.arm ≠ .layeredHybrid ∧ row.evaluation.kind = .chronological

theorem evaluatePromotionGates_spec [Sha256] {results : List (ReplayResult F)} {config : GateConfig F}
    {decision : ChampionDecision} (h : evaluatePromotionGates results config = .ok decision) :
    ∃ rows, rows.Perm results ∧ (rows.map fun row => (row.arm, row.evaluation)).Nodup ∧
      (decision.status, decision.champion) = chooseChampion config rows ∧
      ∀ arm, decision.Passed arm ↔ armCodes config rows arm = [] := by
  simp only [evaluatePromotionGates, except_bind_eq_ok] at h
  rcases h with ⟨rows, hrows, hdecision⟩
  rcases validatedResults_spec hrows with ⟨hsorted, hnodup⟩
  have hperm : rows.Perm results := hsorted ▸ sortBy_perm resultKey results
  refine ⟨rows, hperm, (hperm.map _).nodup_iff.2 hnodup, ?_, ?_⟩
  · cases Except.ok.inj hdecision
    rfl
  · intro arm
    cases Except.ok.inj hdecision
    simp only [ChampionDecision.Passed, List.mem_map, ArmGateResult.mk.injEq]
    constructor
    · rintro ⟨arm', _, rfl, hempty, _⟩
      exact List.isEmpty_iff.1 hempty
    · intro hcodes
      refine ⟨arm, by cases arm <;> decide, rfl, by rw [hcodes]; rfl, by rw [hcodes]; rfl⟩

theorem rowCodes_nil {config : GateConfig F} {rows : List (ReplayResult F)} {row : ReplayResult F} (hrow : row ∈ rows)
    (h : armCodes config rows row.arm = []) : rowCodes config row = [] := by
  simp only [armCodes, hardFailureCodes, List.append_eq_nil_iff, List.flatMap_eq_nil_iff] at h
  exact h.1.1.1.1.2 row (List.mem_filter.2 ⟨hrow, decide_eq_true rfl⟩)

omit [PyFloat F] in
theorem comparator_arm {row : ReplayResult F} (h : IsComparator row) : row.arm = .rulesOnly ∨ row.arm = .gbdtOnly := by
  rcases h with ⟨harm, _⟩
  cases hrow : row.arm with
  | rulesOnly => exact Or.inl rfl
  | gbdtOnly => exact Or.inr rfl
  | layeredHybrid => exact absurd hrow harm

omit [PyFloat F] in
theorem mem_comparators {rows : List (ReplayResult F)} (hcomplete : evaluationMatrixIsComplete rows = true)
    (hnodup : (rows.map fun row => (row.arm, row.evaluation)).Nodup) {rules gbdt : ReplayResult F}
    (hrules : primary rows .rulesOnly = some rules) (hgbdt : primary rows .gbdtOnly = some gbdt) (row : ReplayResult F) :
    row ∈ [rules, gbdt] ↔ row ∈ rows ∧ IsComparator row := by
  rw [List.mem_pair]
  constructor
  · rintro (rfl | rfl)
    · rcases primary_spec hrules with ⟨hrow, harm, hkind⟩
      exact ⟨hrow, by rw [harm]; decide, hkind⟩
    · rcases primary_spec hgbdt with ⟨hrow, harm, hkind⟩
      exact ⟨hrow, by rw [harm]; decide, hkind⟩
  · rintro ⟨hrow, hcomparator⟩
    rcases comparator_arm hcomparator with harm | harm
    · exact Or.inl (primary_unique hcomplete hnodup hrules hrow harm hcomparator.2)
    · exact Or.inr (primary_unique hcomplete hnodup hgbdt hrow harm hcomparator.2)

theorem promoted_dominated {config : GateConfig F} {rows : List (ReplayResult F)}
    (hcomplete : evaluationMatrixIsComplete rows = true)
    (hnodup : (rows.map fun row => (row.arm, row.evaluation)).Nodup) {hybrid rules gbdt c : ReplayResult F}
    (hrules : primary rows .rulesOnly = some rules) (hgbdt : primary rows .gbdtOnly = some gbdt)
    (hqualifies : hybridQualifies config hybrid.metrics [rules.metrics, gbdt.metrics] = true) (hc : c ∈ rows)
    (hcomparator : IsComparator c) (hdom : Dominates c hybrid) :
    c.value = hybrid.value ∧
      ∃ best ∈ rows, IsComparator best ∧ best.value = hybrid.value + 1 / 100 ∧ hybrid.cases < best.cases := by
  have hmem := mem_comparators hcomplete hnodup hrules hgbdt
  have hmap : hybridQualifies config hybrid.metrics ([rules, gbdt].map ReplayResult.metrics) = true := hqualifies
  rcases qualifies_dominated hmap ((hmem c).2 ⟨hc, hcomparator⟩) hdom with ⟨hvalue, best, hbest, hcent, hcases⟩
  rcases (hmem best).1 hbest with ⟨hbestRow, hbestComparator⟩
  exact ⟨hvalue, best, hbestRow, hbestComparator, hcent, hcases⟩

/-- a retained comparator, over a result matrix in any order -/
theorem retained_minimal {config : GateConfig F} {rows : List (ReplayResult F)}
    (hcomplete : evaluationMatrixIsComplete rows = true)
    (hnodup : (rows.map fun row => (row.arm, row.evaluation)).Nodup) {rules gbdt best : ReplayResult F}
    (hrules : primary rows .rulesOnly = some rules) (hgbdt : primary rows .gbdtOnly = some gbdt)
    (hbest : bestComparator ([rules, gbdt].filter fun row => (armCodes config rows row.arm).isEmpty) = some best) :
    best ∈ rows ∧ IsComparator best ∧ armCodes config rows best.arm = [] ∧
      ∀ c ∈ rows, IsComparator c → armCodes config rows c.arm = [] → c.value < 10 ^ 26 → ¬ Dominates c best := by
  have hmem := mem_comparators hcomplete hnodup hrules hgbdt
  rcases bestComparator_minimal hbest with ⟨hbestMem, hminimal⟩
  rcases List.mem_filter.1 hbestMem with ⟨hbestPair, hbestPasses⟩
  rcases (hmem best).1 hbestPair with ⟨hbestRow, hbestComparator⟩
  refine ⟨hbestRow, hbestComparator, List.isEmpty_iff.1 hbestPasses, ?_⟩
  intro c hc hcomparator hpass hsmall hdom
  have hcMem : c ∈ [rules, gbdt].filter fun row => (armCodes config rows row.arm).isEmpty :=
    List.mem_filter.2 ⟨(hmem c).2 ⟨hc, hcomparator⟩, List.isEmpty_iff.2 hpass⟩
  exact absurd (retainedKey_lt hsmall hdom) (not_lt.2 (hminimal c hcMem))

/-- **Soundness of promotion.** A promoted hybrid is complete and passes every gate of every view, and a comparator can
dominate it only with exactly its value, one cent below a comparator with more review cases; a retained comparator passes
and no passing comparator of at most 28 digits dominates it; the order of the results is irrelevant. -/
theorem promotion_sound [Sha256] {results : List (ReplayResult F)} {config : GateConfig F} {decision : ChampionDecision}
    (h : evaluatePromotionGates results config = .ok decision) :
    (decision.status = .promoted →
      decision.champion = some .layeredHybrid ∧ decision.Passed .layeredHybrid ∧
      (∀ arm d, (∃ row ∈ results, row.arm = arm ∧ row.evaluation = d) ↔ d ∈ requiredDescriptors) ∧
      (∀ row ∈ results, row.arm = .layeredHybrid → rowCodes config row = []) ∧
      ∀ hybrid ∈ results, hybrid.arm = .layeredHybrid → hybrid.evaluation.kind = .chronological →
        ∀ c ∈ results, IsComparator c → Dominates c hybrid →
          c.value = hybrid.value ∧
            ∃ best ∈ results, IsComparator best ∧ best.value = hybrid.value + 1 / 100 ∧ hybrid.cases < best.cases) ∧
    (decision.status = .retained →
      ∃ row ∈ results, IsComparator row ∧ decision.champion = some row.arm ∧ decision.Passed row.arm ∧
        ∀ c ∈ results, IsComparator c → decision.Passed c.arm → c.value < 10 ^ 26 → ¬ Dominates c row) ∧
    ∀ results', results.Perm results' → evaluatePromotionGates results' config = .ok decision := by
  rcases evaluatePromotionGates_spec h with ⟨rows, hperm, hnodup, hchampion, hpassed⟩
  have horder : ∀ results', results.Perm results' → evaluatePromotionGates results' config = .ok decision := by
    intro results' hperm'
    rw [← evaluatePromotionGates_perm hperm' config]
    exact h
  simp only [← hperm.mem_iff, hpassed]
  rcases chooseChampion_cases config rows with hnone | ⟨hybrid, rules, gbdt, hcomplete, hhybrid, hrules, hgbdt, hcase⟩
  · obtain ⟨hstatus, _⟩ := Prod.mk.inj (hchampion.trans hnone)
    exact ⟨fun hs => absurd (hstatus.symm.trans hs) (by decide), fun hs => absurd (hstatus.symm.trans hs) (by decide), horder⟩
  rcases hcase with ⟨hcodes, hqualifies, hchoice⟩ | ⟨best, hbest, hchoice⟩
  · obtain ⟨hstatus, hwinner⟩ := Prod.mk.inj (hchampion.trans hchoice)
    refine ⟨fun _ => ⟨hwinner, hcodes, fun arm d => matrix_iff hcomplete arm d, ?_, ?_⟩,
      fun hs => absurd (hstatus.symm.trans hs) (by decide), horder⟩
    · intro row hrow harm
      exact rowCodes_nil hrow (by rw [harm]; exact hcodes)
    · intro row hrow harm hkind c hc hcomparator hdom
      obtain rfl := primary_unique hcomplete hnodup hhybrid hrow harm hkind
      exact promoted_dominated hcomplete hnodup hrules hgbdt hqualifies hc hcomparator hdom
  · obtain ⟨hstatus, hwinner⟩ := Prod.mk.inj (hchampion.trans hchoice)
    rcases retained_minimal hcomplete hnodup hrules hgbdt hbest with ⟨hrow, hcomparator, hcodes, hminimal⟩
    exact ⟨fun hs => absurd (hstatus.symm.trans hs) (by decide),
      fun _ => ⟨best, hrow, hcomparator, hwinner, hcodes, hminimal⟩, horder⟩

/-! ## A dominated promotion -/

namespace Sample

def slices : List (SlicePerformance ℚ) :=
  (["cold_actor", "cold_counterparty", "cold_pair", "returning_prior_campaign", "warm_within_campaign"].map
      (⟨"entity_cohort", ·, some 1⟩)) ++
    (families.map (⟨"family", ·, some 1⟩)) ++ (["a2a", "agentic", "card"].map (⟨"rail", ·, some 1⟩)) ++
    (["availability_delay", "baseline", "benign_amount_shift", "cold_id_remap", "compressed_bursts", "missing_optional",
      "prevalence_dilution"].map (⟨"regime", ·, some 1⟩))

/-- two rows, of which some are reviewed -/
def metrics (cents : Fin 2) (cases : ℕ) : PromotionMetrics ℚ :=
  ⟨2, some 0, some 1, ⟨cents.val, -2⟩, cases, 0, ⟨some 0, true⟩, cases / 2, slices, by revert cents; decide +kernel⟩

/-- one result of an arm, whose candidate is the pooled one or that of a held family -/
def result (arm : DefenseArm) (d : EvaluationDescriptor) : ReplayResult ℚ :=
  let held := if d.kind = .heldFamily then some d.value else none
  let bundle := held.getD "pooled"
  { arm := arm
    evaluation := d
    evaluationLineageDigest := d.value
    candidateRole := ⟨if held.isSome then .heldFamilyLofo else .pooled, held, bundle, bundle, bundle, "thresholds", bundle⟩
    decisionEventIds := ["1", "2"]
    decisionRowsDigest := "rows"
    commonIntegrityDigest := "integrity"
    thresholdReportDigest := "report"
    thresholdSetDigest := "thresholds"
    bundleManifestDigest := bundle
    caseCallbackDigest := "callback"
    evaluationContextDigest := "context"
    hiddenPublicProofId := if d.kind = .hidden then some "hpf_00000000000000000000000000000000" else none
    metrics := match arm with
      | .rulesOnly => metrics 1 2
      | .gbdtOnly => metrics 0 0
      | .layeredHybrid => metrics 0 1
    assurance := ⟨true, true, true, true, true, true⟩
    failure := false
    resultDigest := "result" }

def results : List (ReplayResult ℚ) := DefenseArm.all.flatMap fun arm => requiredDescriptors.map (result arm)

/-- the frozen limits, every case reviewed -/
def config : @GateConfig ℚ PyFloat.rational :=
  let _ := PyFloat.rational
  ⟨⟨2 / 100, 1 / 1000, 1, 1 / 2, 1 / 10, 50, 5 / 100, ⟨1, -2⟩⟩, by decide +kernel⟩

@[reducible] def digest : Sha256 := ⟨fun _ => "", fun _ => ""⟩

end Sample

theorem sample_promoted :
    let _ := PyFloat.rational
    let _ := Sample.digest
    ∃ decision, evaluatePromotionGates Sample.results Sample.config = .ok decision ∧ decision.status = .promoted ∧
      decision.Passed .gbdtOnly := by
  let _ := PyFloat.rational
  let _ := Sample.digest
  have hgates : (match evaluatePromotionGates Sample.results Sample.config with
    | .ok decision => decision.status = .promoted && decision.armGateResults.contains ⟨.gbdtOnly, true, []⟩
    | .error _ => false) = true := by decide +kernel
  cases h : evaluatePromotionGates Sample.results Sample.config with
  | error e =>
    rw [h] at hgates
    cases hgates
  | ok decision =>
    rw [h] at hgates
    simp only [Bool.and_eq_true, decide_eq_true_eq, List.contains_iff_mem] at hgates
    exact ⟨decision, h, hgates⟩

theorem promotion_sound_sample :
    let _ := PyFloat.rational
    let _ := Sample.digest
    ∃ decision, evaluatePromotionGates Sample.results Sample.config = .ok decision ∧
      evaluatePromotionGates Sample.results.reverse Sample.config = .ok decision := by
  let _ := PyFloat.rational
  let _ := Sample.digest
  obtain ⟨decision, h, _⟩ := sample_promoted
  exact ⟨decision, h, (promotion_sound h).2.2 _ (List.reverse_perm _).symm⟩

/-- a promoted hybrid that a passing comparator dominates -/
theorem dominated_promotion :
    let _ := PyFloat.rational
    let _ := Sample.digest
    ∃ decision, evaluatePromotionGates Sample.results Sample.config = .ok decision ∧ decision.status = .promoted ∧
      ∃ hybrid ∈ Sample.results, hybrid.arm = .layeredHybrid ∧ hybrid.evaluation.kind = .chronological ∧
        ∃ c ∈ Sample.results, IsComparator c ∧ decision.Passed c.arm ∧ Dominates c hybrid := by
  obtain ⟨decision, h, hpromoted, hpassed⟩ := sample_promoted
  refine ⟨decision, h, hpromoted, Sample.result .layeredHybrid ⟨.chronological, "development"⟩, ?_, rfl, rfl,
    Sample.result .gbdtOnly ⟨.chronological, "development"⟩, ?_, ⟨by decide, rfl⟩, hpassed, ?_⟩
  · simp [Sample.results, DefenseArm.all, requiredDescriptors]
  · simp [Sample.results, DefenseArm.all, requiredDescriptors]
  · exact ⟨le_rfl, by decide, Or.inr (by decide)⟩

end Gates

end Apar
