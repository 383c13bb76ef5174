/-
What the revalidation of evaluator truth (`_validate_lifecycles`) accepts.

- `validateLifecycles_ok`: it accepts truth whose payments are distinct and whose rows each describe the lifecycle of
  their payment, all in one currency.
- `moneySum_cents`: a sum of whole cents is exact, or fails.
-/
import Apar.Core.DecimalProducts
import Apar.Evaluation.Netting

namespace Apar

open Exec

def isSettlement (kind : EventKind) : Bool := settlementEvents.contains kind

def isReversing (kind : EventKind) : Bool := reversingEvents.contains kind

/-! ## Money -/

theorem moneySum_nil : moneySum [] = .ok ⟨0, -2⟩ := rfl

theorem moneySubtract_self {q : Decimal} (hq : q.exp = -2) : moneySubtract q q = .ok ⟨0, -2⟩ := by
  have hsub : Decimal.sub .decimal128 q q = ⟨0, -2⟩ := by
    unfold Decimal.sub Decimal.add
    simp [hq, Decimal.scaled, Decimal.neg, Decimal.fix, DecimalContext.decimal128]
  unfold moneySubtract
  rw [hsub]
  rfl

theorem moneySubtract_zero {q : Decimal} (hq : q.exp = -2) (hfits : DecimalContext.decimal128.Fits (-2) q.value) :
    moneySubtract q ⟨0, -2⟩ = .ok q := by
  have hsub : Decimal.sub .decimal128 q ⟨0, -2⟩ = q := by
    unfold Decimal.sub Decimal.add
    have hshape : (⟨q.scaled (-2) + (Decimal.neg ⟨0, -2⟩).scaled (-2), -2⟩ : Decimal) = q := by
      rw [Decimal.scaled, hq, ← hq]
      simp [Decimal.scaled, Decimal.neg]
    simp only [hq, Decimal.exp_neg, min_self]
    rw [hshape]
    exact Decimal.fix_of_fits hq.ge hfits
  unfold moneySubtract
  rw [hsub]
  have := Decimal.quantize_self (hq ▸ hfits : DecimalContext.decimal128.Fits q.exp q.value)
  rw [hq] at this
  rw [this]

/-- an addition of whole cents is exact, or fails -/
theorem moneyAdd_cents {a b : Decimal} (ha : a.exp = -2) (hb : b.exp = -2) (d : Decimal) :
    moneyAdd a b = .ok d ↔ d = ⟨a.coeff + b.coeff, -2⟩ ∧ (a.coeff + b.coeff).natAbs < 10 ^ 34 := by
  unfold moneyAdd
  constructor
  · intro h
    cases hq : Decimal.quantize .decimal128 (Decimal.add .decimal128 a b) (-2) with
    | none =>
      rw [hq] at h
      cases h
    | some q =>
      rw [hq, Except.ok.injEq] at h
      subst h
      have hexact := Decimal.quantize_add ha hb hq
      have hfits := (Decimal.quantize_spec hq).2
      rw [hexact] at hfits
      exact ⟨hexact, Decimal.fits_mk.1 hfits 34 rfl⟩
  · rintro ⟨rfl, hlt⟩
    have hfits : DecimalContext.decimal128.Fits (-2) (⟨a.coeff + b.coeff, -2⟩ : Decimal).value := by
      refine Decimal.fits_mk.2 fun p hp => ?_
      cases hp
      exact hlt
    have hadd : Decimal.add .decimal128 a b = ⟨a.coeff + b.coeff, -2⟩ := by
      have hshape : Decimal.add .decimal128 a b = Decimal.fix .decimal128 ⟨a.coeff + b.coeff, -2⟩ := by
        simp [Decimal.add, ha, hb, Decimal.scaled]
      rw [hshape]
      exact Decimal.fix_of_fits le_rfl hfits
    have hself := Decimal.quantize_self (d := ⟨a.coeff + b.coeff, -2⟩) hfits
    rw [hadd]
    simp only at hself
    rw [hself]

theorem moneySubtract_eq_add (a b : Decimal) : moneySubtract a b = moneyAdd a b.neg := rfl

/-- no sum of a first part of whole cents needs more digits than decimal128 keeps -/
def CentsFit (start : ℤ) (xs : List Decimal) : Prop :=
  ∀ ys, ys <+: xs → ys ≠ [] → (start + (ys.map Decimal.coeff).sum).natAbs < 10 ^ 34

/-- **A sum of whole cents is exact, or fails.** -/
theorem moneySum_cents {xs : List Decimal} (h : ∀ x ∈ xs, x.exp = -2) (d : Decimal) :
    moneySum xs = .ok d ↔ d = ⟨(xs.map Decimal.coeff).sum, -2⟩ ∧ CentsFit 0 xs := by
  have hfold : ∀ start, xs.foldlM moneyAdd ⟨start, -2⟩ = .ok d ↔
      d = ⟨start + (xs.map Decimal.coeff).sum, -2⟩ ∧ CentsFit start xs := by
    induction xs with
    | nil =>
      intro start
      simp only [List.foldlM_nil, except_pure_eq_ok, List.map_nil, List.sum_nil, add_zero, CentsFit, List.prefix_nil]
      exact ⟨fun h => ⟨h.symm, fun _ hys hne => absurd hys hne⟩, fun h => h.1.symm⟩
    | cons x xs ih =>
      intro start
      have hstep := moneyAdd_cents (a := ⟨start, -2⟩) rfl (h x (by simp))
      simp only [List.foldlM_cons, except_bind_eq_ok, hstep]
      have hih := ih (fun y hy => h y (by simp [hy]))
      constructor
      · rintro ⟨_, ⟨rfl, hlt⟩, hrest⟩
        obtain ⟨rfl, hfit⟩ := (hih _).1 hrest
        refine ⟨by rw [List.map_cons, List.sum_cons, add_assoc], ?_⟩
        rintro ys hys hne
        rcases ys with - | ⟨y, ys⟩
        · exact absurd rfl hne
        · obtain ⟨rfl, htail⟩ := List.cons_prefix_cons.1 hys
          rcases ys with - | ⟨z, ys⟩
          · simpa using hlt
          · have := hfit _ htail (List.cons_ne_nil _ _)
            rwa [List.map_cons, List.sum_cons, ← add_assoc]
      · rintro ⟨rfl, hfit⟩
        refine ⟨_, ⟨rfl, ?_⟩, (hih _).2 ⟨by rw [List.map_cons, List.sum_cons, add_assoc], ?_⟩⟩
        · simpa using hfit [x] (by simp) (by simp)
        · intro ys hys hne
          have := hfit (x :: ys) (List.cons_prefix_cons.2 ⟨rfl, hys⟩) (by simp)
          rwa [List.map_cons, List.sum_cons, ← add_assoc] at this
  have := hfold 0
  rwa [zero_add] at this

/-- the net of outstanding settlements, as the revalidation of a row recomputes it -/
structure Revalidated (settlements reversals : List Decimal) (truthNet : Decimal) : Prop where
  accepted : ∃ settled reversed net, moneySum settlements = .ok settled ∧ moneySum reversals = .ok reversed ∧
    moneySubtract settled reversed = .ok net ∧ Decimal.ble 0 net = true ∧ net.numEq truthNet = true

/-! ## One row -/

variable {observations : List ObservedEvent}

/-- what a row that `_validate_lifecycles` accepts satisfies -/
theorem validateLifecycle_eq_ok {truth : TruthRow} {currency : String} {lifecycle : List ObservedEvent}
    (hl : sortBy observedKey (observations.filter fun e => e.paymentId = truth.paymentId) = lifecycle)
    (hids : truth.lifecycleEventIds = lifecycle.map ObservedEvent.eventId)
    (hcurrency : (lifecycle.map ObservedEvent.currency).dedup = [currency])
    (hfirst : ((lifecycle.filter fun e => settlementEvents.contains e.eventType).head?.map ObservedEvent.eventTime) =
      truth.firstSettlementAt) {c : String} :
    validateLifecycle observations truth = .ok c ↔ c = currency ∧
      Revalidated ((lifecycle.filter fun e => isSettlement e.eventType).map ObservedEvent.amount)
        ((lifecycle.filter fun e => isReversing e.eventType).map ObservedEvent.amount) truth.netSettledValue := by
  have hcover : (lifecycle.map ObservedEvent.eventId).all (lifecycle.map ObservedEvent.eventId).contains = true :=
    List.all_eq_true.2 fun i hi => List.contains_iff_mem.2 hi
  unfold validateLifecycle
  simp only [hl, hcurrency]
  simp only [except_bind_eq_ok, check_eq_ok, hids, hcover, Bool.and_self, hfirst, decide_true, true_and, except_pure_eq_ok,
    exists_const]
  constructor
  · rintro ⟨settled, hs, reversed, hr, net, hd, hble, heq, rfl⟩
    exact ⟨rfl, settled, reversed, net, hs, hr, hd, hble, heq⟩
  · rintro ⟨rfl, settled, reversed, net, hs, hr, hd, hble, heq⟩
    exact ⟨settled, hs, reversed, hr, net, hd, hble, heq, rfl⟩

/-- a payment's observations, in canonical order -/
def lifecycleOf (observations : List ObservedEvent) (paymentId : String) : List ObservedEvent :=
  sortBy observedKey (observations.filter fun e => e.paymentId = paymentId)

/-- a truth row describes a lifecycle -/
structure Describes (truth : TruthRow) (lifecycle : List ObservedEvent) (currency : String) : Prop where
  ids : truth.lifecycleEventIds = lifecycle.map ObservedEvent.eventId
  nonempty : lifecycle ≠ []
  currency : ∀ e ∈ lifecycle, e.currency = currency
  firstSettlement : ((lifecycle.filter fun e => isSettlement e.eventType).head?.map ObservedEvent.eventTime) =
    truth.firstSettlementAt
  net : Revalidated ((lifecycle.filter fun e => isSettlement e.eventType).map ObservedEvent.amount)
    ((lifecycle.filter fun e => isReversing e.eventType).map ObservedEvent.amount) truth.netSettledValue

theorem dedup_eq_singleton {α : Type} [DecidableEq α] {xs : List α} {a : α} :
    xs.dedup = [a] ↔ xs ≠ [] ∧ ∀ x ∈ xs, x = a := by
  constructor
  · intro h
    refine ⟨?_, fun x hx => ?_⟩
    · rintro rfl
      cases h
    · have hmem := List.mem_dedup.2 hx
      rwa [h, List.mem_singleton] at hmem
  · rintro ⟨hne, hall⟩
    obtain ⟨x, hx⟩ := List.exists_mem_of_ne_nil _ hne
    refine List.perm_singleton.1 ((List.perm_ext_iff_of_nodup (List.nodup_dedup xs) (List.nodup_singleton a)).2 fun y => ?_)
    rw [List.mem_dedup, List.mem_singleton]
    exact ⟨hall y, fun hy => hy ▸ hall x hx ▸ hx⟩

/-- a row is accepted exactly when it describes its payment's lifecycle -/
theorem validateLifecycle_ok {truth : TruthRow} {c : String} :
    validateLifecycle observations truth = .ok c ↔ Describes truth (lifecycleOf observations truth.paymentId) c := by
  constructor
  · intro h
    have hlifecycle := h
    unfold validateLifecycle at h
    simp only [except_bind_eq_ok, check_eq_ok, decide_eq_true_eq] at h
    obtain ⟨_, -, _, hids, h⟩ := h
    split at h
    · rename_i currency hcurrency
      simp only [except_bind_eq_ok, check_eq_ok, decide_eq_true_eq] at h
      obtain ⟨_, hfirst, -⟩ := h
      obtain ⟨rfl, hnet⟩ := (validateLifecycle_eq_ok rfl hids hcurrency hfirst).1 hlifecycle
      obtain ⟨hne, hall⟩ := dedup_eq_singleton.1 hcurrency
      exact ⟨hids, fun hnil => hne (List.map_eq_nil_iff.2 hnil), fun e he => hall _ (List.mem_map_of_mem he), hfirst, hnet⟩
    · cases h
  · rintro ⟨hids, hne, hcurrency, hfirst, hnet⟩
    refine (validateLifecycle_eq_ok rfl hids (dedup_eq_singleton.2 ⟨mt List.map_eq_nil_iff.1 hne, ?_⟩) hfirst).2 ⟨rfl, hnet⟩
    intro x hx
    obtain ⟨e, he, rfl⟩ := List.mem_map.1 hx
    exact hcurrency e he

/-! ## All rows -/

theorem dedup_length_le_one {α : Type} [DecidableEq α] {xs : List α} :
    xs.dedup.length ≤ 1 ↔ ∀ x ∈ xs, ∀ y ∈ xs, x = y := by
  rw [← List.card_toFinset, Finset.card_le_one]
  simp only [List.mem_toFinset]

/-- **Accepted truth.** Payments are distinct and every row describes its payment's lifecycle, all in one currency. -/
theorem validateLifecycles_ok {truth : List TruthRow} {c : Option String} :
    validateLifecycles truth observations = .ok c ↔ (truth.map TruthRow.paymentId).Nodup ∧ (truth = [] → c = none) ∧
      ∀ t ∈ truth, ∃ currency, c = some currency ∧ Describes t (lifecycleOf observations t.paymentId) currency := by
  simp only [validateLifecycles, except_bind_eq_ok, check_eq_ok, decide_eq_true_eq, except_pure_eq_ok, mapM_eq_ok,
    dedup_length_le_one, validateLifecycle_ok]
  constructor
  · rintro ⟨_, hnodup, currencies, hrows, _, hone, rfl⟩
    refine ⟨hnodup, ?_, fun t ht => ?_⟩
    · rintro rfl
      cases hrows
      rfl
    · obtain ⟨currency, hcurrency, hdescribes⟩ := forall₂_mem_left hrows ht
      cases hhead : currencies.head? with
      | none => rw [List.head?_eq_none_iff.1 hhead] at hcurrency; cases hcurrency
      | some first => exact ⟨first, rfl, hone _ hcurrency _ (List.mem_of_head? hhead) ▸ hdescribes⟩
  · rintro ⟨hnodup, hempty, hrows⟩
    refine ⟨(), hnodup, truth.map fun _ => c.getD "", ?_, (), ?_, ?_⟩
    · refine List.forall₂_map_right_iff.2 (List.forall₂_same.2 fun t ht => ?_)
      obtain ⟨currency, rfl, hdescribes⟩ := hrows t ht
      exact hdescribes
    · intro x hx y hy
      obtain ⟨_, -, rfl⟩ := List.mem_map.1 hx
      obtain ⟨_, -, rfl⟩ := List.mem_map.1 hy
      rfl
    · cases truth with
      | nil => exact (hempty rfl).symm
      | cons t truth =>
        obtain ⟨currency, rfl, -⟩ := hrows t (by simp)
        rfl

end Apar
