/-
The value accountings of a run against its payments (`role_bound_settled_value` and `_role_bound_value_components` in
`redteam/benchmark.py`, `_realize_legitimate_campaign_evidence` in `evaluation/v5_population.py`).

The three folds visit the events of a run in order. The first two keep a balance for each payment, so each balance is a
fold along the path of one payment (`Path.foldlM`); the third keeps one signed total, which is the sum of the same
folds. An `AccountingTable` says which states have their amount outstanding.

- `Log.roleBound` / `Log.components` / `Log.settledValue`: the three accountings of a log.
- `value_accountings_agree`: the three together, for the card and the A2A rail.
- `accounting_overflows`: two payments whose outstanding principal `role_bound_settled_value` cannot round to cents.
-/
import Apar.Core.DecimalTotals
import Apar.Evaluation.NettingRuns
import Apar.EvaluationHidden.LifecycleTable
import Apar.Redteam.SettledValue

namespace Apar

open Exec Engine SettledValue

variable {S O R : Type} {L : Lifecycle S O R}

/-! ## Folds along a path -/

/-- **Induction over a path.** What holds of the start and is kept by every transition holds of the fold over a path. -/
theorem Path.foldlM {V ε : Type} {f : V → EventKind → Except ε V} {P : S → V → Prop} {zero : V}
    (hzero : P L.created zero)
    (hstep : ∀ {st o next kind effect} v, L.transition st o = some (next, kind, effect) → P st v →
      ∃ v', f v kind = .ok v' ∧ P next v')
    {st : S} {kinds : List EventKind} (h : Path L st kinds) : ∃ v, kinds.foldlM f zero = .ok v ∧ P st v := by
  induction h with
  | start => exact ⟨zero, rfl, hzero⟩
  | step _ hlegal ih =>
    obtain ⟨v, hv, hP⟩ := ih
    obtain ⟨v', hv', hP'⟩ := hstep v hlegal hP
    refine ⟨v', ?_, hP'⟩
    rw [List.foldlM_append, except_bind_eq_ok]
    exact ⟨v, hv, by rw [List.foldlM_cons, hv']; rfl⟩

/-- which payments were ever paid out, and which are outstanding, by state -/
structure AccountingTable (L : Lifecycle S O R) where
  settled : S → Bool
  held : S → Bool
  rail : L.rail ≠ .agentic
  created : settled L.created = false ∧ held L.created = false
  held_settled : ∀ st, held st = true → settled st = true
  positive : ∀ {st o next kind effect}, L.transition st o = some (next, kind, effect) → isPositive kind = true →
    settled st = false ∧ settled next = true ∧ held next = true
  negative : ∀ {st o next kind effect}, L.transition st o = some (next, kind, effect) → isNegative kind = true →
    isPositive kind = false ∧ settled next = settled st ∧ held next = false
  neutral : ∀ {st o next kind effect}, L.transition st o = some (next, kind, effect) → isPositive kind = false →
    isNegative kind = false → settled next = settled st ∧ held next = held st
  unsettled : ∀ {st o next kind effect}, L.transition st o = some (next, kind, effect) →
    (unsettles L.rail kind = true ↔ isNegative kind = true ∧ held st = true)

/-! ## Cents -/

/-- a decimal in cents that stands for a number -/
structure InCents (x : ℚ) (d : Decimal) : Prop where
  exp : -2 ≤ d.exp
  value : d.value = x

theorem InCents.zero : InCents 0 0 := ⟨by decide, Decimal.value_zero⟩

theorem InCents.add {x y : ℚ} {a b : Decimal} (ha : InCents x a) (hb : InCents y b)
    (h : DecimalContext.default.Fits (-2) (x + y)) : InCents (x + y) (.add .default a b) := by
  obtain ⟨hvalue, hexp⟩ := Decimal.add_value ha.exp hb.exp (by rw [ha.value, hb.value]; exact h)
  exact ⟨hexp, by rw [hvalue, ha.value, hb.value]⟩

theorem InCents.sub {x y : ℚ} {a b : Decimal} (ha : InCents x a) (hb : InCents y b)
    (h : DecimalContext.default.Fits (-2) (x - y)) : InCents (x - y) (.sub .default a b) := by
  obtain ⟨hvalue, hexp⟩ := Decimal.sub_value ha.exp hb.exp (by rw [ha.value, hb.value]; exact h)
  exact ⟨hexp, by rw [hvalue, ha.value, hb.value]⟩

theorem InCents.clamp {x : ℚ} {d : Decimal} (h : InCents x d) : InCents (max 0 x) (clamp d) := by
  unfold SettledValue.clamp
  split_ifs with hble
  · rw [Decimal.ble_iff, Decimal.value_zero, h.value] at hble
    rw [max_eq_left hble]
    exact InCents.zero
  · rw [Decimal.ble_iff, Decimal.value_zero, h.value, not_le] at hble
    rw [max_eq_right hble.le]
    exact h

theorem InCents.least {x y : ℚ} {a b : Decimal} (ha : InCents x a) (hb : InCents y b) :
    InCents (min x y) (least a b) := by
  unfold SettledValue.least
  split_ifs with hble
  · rw [Decimal.ble_iff, ha.value, hb.value] at hble
    rw [min_eq_left hble]
    exact ha
  · rw [Decimal.ble_iff, ha.value, hb.value, not_le] at hble
    rw [min_eq_right hble.le]
    exact hb

theorem InCents.cents {x : ℚ} {d : Decimal} (h : InCents x d) (hfits : DecimalContext.default.Fits (-2) x) :
    ∃ q, cents d = .ok q ∧ InCents x q := by
  obtain ⟨q, hq, hexp, hvalue⟩ := Decimal.quantize_exact h.exp (h.value.symm ▸ hfits)
  refine ⟨q, ?_, hexp.ge, hvalue.trans h.value⟩
  unfold SettledValue.cents
  rw [hq]

/-! ## One payment -/

section Payment

variable (T : AccountingTable L) {a : Decimal}

/-- the amount of a whole-cent payment -/
structure CentAmount (a : Decimal) : Prop where
  pos : 0 < a.value
  exp : a.exp = -2
  fits : DecimalContext.default.Fits (-2) a.value

theorem CentAmount.inCents (h : CentAmount a) : InCents a.value a := ⟨h.exp.ge, rfl⟩

/-- the amount, when it counts -/
def amountIf (a : Decimal) (counts : Bool) : ℚ := if counts then a.value else 0

@[simp] theorem amountIf_true (a : Decimal) : amountIf a true = a.value := rfl

@[simp] theorem amountIf_false (a : Decimal) : amountIf a false = 0 := rfl

theorem CentAmount.fits_amountIf (h : CentAmount a) (counts : Bool) :
    DecimalContext.default.Fits (-2) (amountIf a counts) := by
  cases counts
  · exact h.fits.mono (by simp)
  · exact h.fits

variable {kinds : List EventKind}

/-- **Outstanding principal of a payment.** -/
theorem Path.outstanding (ha : CentAmount a) {st : S} (h : Path L st kinds) :
    ∃ v, (kinds.foldlM (fun v kind => .ok (outstandingAfter a v kind)) 0 : Except SimError Decimal) = .ok v ∧
      InCents (amountIf a (T.held st)) v := by
  refine h.foldlM (P := fun st v => InCents (amountIf a (T.held st)) v) ?_ ?_
  · rw [T.created.2]
    exact InCents.zero
  · intro st o next kind effect v hlegal hv
    refine ⟨_, rfl, ?_⟩
    unfold outstandingAfter
    by_cases hpositive : isPositive kind = true
    · obtain ⟨hsettled, -, hheld⟩ := T.positive hlegal hpositive
      have hst : T.held st = false := by
        rw [← Bool.not_eq_true]
        intro hst
        rw [T.held_settled st hst] at hsettled
        cases hsettled
      rw [if_pos hpositive, hheld]
      rw [hst] at hv
      have := hv.add ha.inCents (by simpa using ha.fits)
      simpa using this
    · rw [Bool.not_eq_true] at hpositive
      rw [hpositive, if_neg Bool.false_ne_true]
      by_cases hnegative : isNegative kind = true
      · obtain ⟨-, -, hheld⟩ := T.negative hlegal hnegative
        have hfits : DecimalContext.default.Fits (-2) (amountIf a (T.held st) - a.value) := by
          refine ha.fits.mono ?_
          cases T.held st <;> simp
        have hmax : max 0 (amountIf a (T.held st) - a.value) = amountIf a (T.held next) := by
          rw [hheld, amountIf_false, max_eq_left_iff]
          have := ha.pos
          cases T.held st <;> simp [this.le]
        rw [if_pos hnegative, ← hmax]
        exact (hv.sub ha.inCents hfits).clamp
      · rw [Bool.not_eq_true] at hnegative
        rw [hnegative, if_neg Bool.false_ne_true, (T.neutral hlegal hpositive hnegative).2]
        exact hv

/-- the components of a payment in a state -/
structure ComponentsOf (T : AccountingTable L) (a : Decimal) (st : S) (c : Components) : Prop where
  positive : InCents (amountIf a (T.settled st)) c.positive
  removed : InCents (amountIf a (T.settled st && !T.held st)) c.removed
  outstanding : InCents (amountIf a (T.held st)) c.outstanding

theorem ComponentsOf.reconcile {st : S} {c : Components} (h : ComponentsOf T a st c) :
    c.positive.value = c.removed.value + c.outstanding.value := by
  rw [h.positive.value, h.removed.value, h.outstanding.value]
  have := T.held_settled st
  cases hs : T.settled st <;> cases hh : T.held st <;> simp_all

theorem ComponentsOf.cents (ha : CentAmount a) {st : S} {c : Components} (h : ComponentsOf T a st c) :
    ∃ c', c.cents = .ok c' ∧ ComponentsOf T a st c' := by
  obtain ⟨p, hp, hp'⟩ := h.positive.cents (ha.fits_amountIf _)
  obtain ⟨r, hr, hr'⟩ := h.removed.cents (ha.fits_amountIf _)
  obtain ⟨u, hu, hu'⟩ := h.outstanding.cents (ha.fits_amountIf _)
  refine ⟨⟨p, r, u⟩, ?_, hp', hr', hu'⟩
  unfold Components.cents
  rw [hp, hr, hu]
  rfl

/-- **Value components of a payment.** -/
theorem Path.components (ha : CentAmount a) {st : S} (h : Path L st kinds) :
    ∃ c, (kinds.foldlM (fun c kind => (c.record a kind).cents) Components.zero) = .ok c ∧
      ComponentsOf T a st c := by
  refine h.foldlM (P := ComponentsOf T a) ?_ ?_
  · refine ⟨?_, ?_, ?_⟩ <;> simp only [T.created.1, T.created.2] <;> exact InCents.zero
  · intro st o next kind effect c hlegal hc
    refine ComponentsOf.cents T ha ?_
    unfold Components.record
    by_cases hpositive : isPositive kind = true
    · obtain ⟨hsettled, hnext, hheld⟩ := T.positive hlegal hpositive
      have hst : T.held st = false := by
        rw [← Bool.not_eq_true]
        intro hst
        rw [T.held_settled st hst] at hsettled
        cases hsettled
      rw [if_pos hpositive]
      obtain ⟨h1, h2, h3⟩ := hc
      rw [hsettled] at h1
      rw [hsettled, hst] at h2
      rw [hst] at h3
      refine ⟨?_, ?_, ?_⟩
      · rw [hnext]
        simpa using h1.add ha.inCents (by simpa using ha.fits)
      · rw [hnext, hheld]
        exact h2
      · rw [hheld]
        simpa using h3.add ha.inCents (by simpa using ha.fits)
    · rw [Bool.not_eq_true] at hpositive
      rw [hpositive, if_neg Bool.false_ne_true]
      by_cases hnegative : isNegative kind = true
      · obtain ⟨-, hnext, hheld⟩ := T.negative hlegal hnegative
        rw [if_pos hnegative]
        have happlied : InCents (amountIf a (T.held st)) (least c.outstanding a) := by
          have hmin : min (amountIf a (T.held st)) a.value = amountIf a (T.held st) := by
            have := ha.pos
            rw [min_eq_left_iff]
            cases T.held st <;> simp [this.le]
          exact hmin ▸ hc.outstanding.least ha.inCents
        have hremoved : amountIf a (T.settled st && !T.held st) + amountIf a (T.held st) =
            amountIf a (T.settled next && !T.held next) := by
          rw [hnext, hheld]
          have := T.held_settled st
          cases hs : T.settled st <;> cases hh : T.held st <;> simp_all
        have hrest : amountIf a (T.held st) - amountIf a (T.held st) = amountIf a (T.held next) := by
          rw [hheld, sub_self]
          rfl
        refine ⟨?_, ?_, ?_⟩
        · rw [hnext]
          exact hc.positive
        · exact hremoved ▸ hc.removed.add happlied (hremoved ▸ ha.fits_amountIf _)
        · exact hrest ▸ hc.outstanding.sub happlied (hrest ▸ ha.fits_amountIf _)
      · rw [Bool.not_eq_true] at hnegative
        rw [hnegative, if_neg Bool.false_ne_true]
        obtain ⟨hnext, hheld⟩ := T.neutral hlegal hpositive hnegative
        obtain ⟨hpaid, hremoved, houtstanding⟩ := hc
        rw [← hnext] at hpaid
        rw [← hnext, ← hheld] at hremoved
        rw [← hheld] at houtstanding
        exact ⟨hpaid, hremoved, houtstanding⟩

/-- what an event adds to the settled value -/
def settledChange (rail : Rail) (amount : Decimal) (kind : EventKind) : ℚ :=
  if settles rail kind then amount.value else if unsettles rail kind then -amount.value else 0

/-- **Settled value of a payment.** -/
theorem Path.settledValue {st : S} (h : Path L st kinds) :
    (kinds.map (settledChange L.rail a)).sum = amountIf a (T.held st) := by
  induction h with
  | start =>
    rw [T.created.2]
    rfl
  | @step st next o kind effect kinds _ hlegal ih =>
    have hsettles : settles L.rail kind = isPositive kind := by
      unfold settles
      simp [T.rail]
    rw [List.map_append, List.map_singleton, List.sum_append, List.sum_singleton, ih]
    unfold settledChange
    rw [hsettles]
    have hunsettles := T.unsettled hlegal
    by_cases hpositive : isPositive kind = true
    · obtain ⟨hsettled, -, hheld⟩ := T.positive hlegal hpositive
      have := T.held_settled st
      cases hst : T.held st <;> simp_all
    · rw [Bool.not_eq_true] at hpositive
      by_cases hnegative : isNegative kind = true
      · obtain ⟨-, -, hheld⟩ := T.negative hlegal hnegative
        cases hst : T.held st <;> simp_all
      · rw [Bool.not_eq_true] at hnegative
        have := (T.neutral hlegal hpositive hnegative).2
        simp_all

end Payment

/-! ## The log of a run -/

/-- a party of the payment is among the illicit entities -/
def isParty (illicit : Finset String) (o : Opening R) : Bool :=
  decide (o.actorId ∈ illicit) || decide (o.counterpartyId ∈ illicit)

/-- the amounts of the stored payments that are in one of the outstanding states and that count -/
def heldValue [DecidableEq S] (s : Engine (Command O) (PaymentState S R) Unit) (outstanding : List S)
    (counts : Opening R → Bool) : ℚ :=
  (s.entityState.items.map fun p =>
    amountIf p.2.opening.amount (decide (p.2.state ∈ outstanding) && counts p.2.opening)).sum

/-- the running total of what events settle and unsettle -/
def runningValue (events : List PaymentEvent) : ℚ :=
  (events.map fun e => settledChange e.rail e.amount e.eventType).sum

/-- the payments of a run are in US dollars -/
def InDollars (s : Engine (Command O) (PaymentState S R) Unit) : Prop :=
  ∀ paymentId state, s.entityState.get? paymentId = some state → state.opening.currency = "USD"

section Logged

variable {s : Engine (Command O) (PaymentState S R) Unit}

variable {state : PaymentState S R}

theorem Log.centAmount (hs : Log L .default s) (husd : InDollars s) {paymentId : String}
    (hget : s.entityState.get? paymentId = some state) : CentAmount state.opening.amount := by
  obtain ⟨hamount, k, hk, hexp⟩ := lifecycleAmount (hs.stored _ _ hget).2.2
  rw [husd _ _ hget, show currencyExponent? "USD" = some 2 from rfl, Option.some.injEq] at hk
  subst hk
  exact ⟨hamount.pos, hexp, hexp ▸ hamount.fits⟩

/-- the payment an event belongs to -/
def paymentOf (e : PaymentEvent) : String := e.paymentId?.getD ""

theorem Log.rawPaymentId (hs : Log L .default s) {e : PaymentEvent} (he : e ∈ s.events) :
    rawPaymentId e = .text (paymentOf e) := by
  obtain ⟨p, state, -, hof, hp, -⟩ := hs.payment he
  unfold paymentOf
  rw [hp, Option.getD_some]
  unfold PaymentEvent.paymentId? at hp
  unfold SettledValue.rawPaymentId Dict.getD
  split at hp <;> simp_all

theorem Log.ofPayment (hs : Log L .default s) (p : String) :
    Grouping.ofKey paymentOf s.events p = paymentEvents s p := by
  refine List.filter_congr fun e he => ?_
  obtain ⟨q, -, -, -, hq, -⟩ := hs.payment he
  simp [paymentOf, hq]

theorem isBound_eq (illicit : Finset String) {e : PaymentEvent} (he : EventOf L state e) :
    isBound illicit e = isParty illicit state.opening := by
  unfold isBound isParty
  rw [he.actorId, he.counterpartyId]

theorem fits_iff {x : ℚ} (hx : 0 ≤ x) : DecimalContext.default.Fits (-2) x ↔ x < 10 ^ 26 := by
  rw [Decimal.fits_nonneg hx]
  constructor
  · intro h
    have := h 28 rfl
    norm_num at this
    linarith
  · intro h p hp
    cases hp
    norm_num
    linarith

theorem Log.foldlM_kinds {V ε : Type} (hs : Log L .default s) {p : String} (hget : s.entityState.get? p = some state)
    {g : V → PaymentEvent → Except ε V} {f : V → EventKind → Except ε V}
    (hfg : ∀ e, EventOf L state e → ∀ v, g v e = f v e.eventType) (zero : V) :
    (paymentEvents s p).foldlM g zero = ((paymentEvents s p).map PaymentEvent.eventType).foldlM f zero := by
  have hof : ∀ e ∈ paymentEvents s p, EventOf L state e := fun _ he => hs.eventOf hget he
  generalize paymentEvents s p = events at hof
  induction events generalizing zero with
  | nil => rfl
  | cons e events ih =>
    rw [List.map_cons, List.foldlM_cons, List.foldlM_cons, hfg e (hof e (by simp))]
    congr 1
    funext v
    exact ih v fun e' he' => hof e' (by simp [he'])

/-- one turn of the first accounting, by payment -/
theorem Log.addOutstanding (hs : Log L .default s) (illicit : Finset String) :
    ∀ d, ∀ e ∈ s.events, ∀ v, (if isBound illicit e then .ok (outstandingAfter e.amount (d.getD (paymentOf e) 0)
      e.eventType) else .ok (d.getD (paymentOf e) 0) : Except SimError Decimal) = .ok v →
      ∃ d', SettledValue.addOutstanding illicit d e = .ok d' ∧
        ∀ p, d'.getD p 0 = if p = paymentOf e then v else d.getD p 0 := by
  intro d e he v hv
  unfold SettledValue.addOutstanding
  rw [hs.rawPaymentId he]
  cases hbound : isBound illicit e with
  | false =>
    rw [hbound, if_neg Bool.false_ne_true, Except.ok.injEq] at hv
    subst hv
    refine ⟨d, rfl, fun p => ?_⟩
    split_ifs with hp
    · rw [hp]
    · rfl
  | true =>
    rw [hbound, if_pos rfl, Except.ok.injEq] at hv
    subst hv
    rw [Bool.not_true, if_neg Bool.false_ne_true]
    dsimp only
    split_ifs with hkind
    · exact ⟨_, rfl, fun p => Dict.getD_set ..⟩
    · rw [Bool.or_eq_true, not_or, Bool.not_eq_true, Bool.not_eq_true] at hkind
      have hidle : outstandingAfter e.amount (d.getD (paymentOf e) 0) e.eventType = d.getD (paymentOf e) 0 := by
        unfold outstandingAfter
        rw [hkind.1, hkind.2]
        rfl
      rw [hidle]
      refine ⟨d, rfl, fun p => ?_⟩
      split_ifs with hp
      · rw [hp]
      · rfl

/-- one turn of the second accounting, by payment -/
theorem Log.addComponents (hs : Log L .default s) (illicit : Finset String) :
    ∀ d, ∀ e ∈ s.events, ∀ c, (if isBound illicit e then ((d.getD (paymentOf e) .zero).record e.amount
      e.eventType).cents else .ok (d.getD (paymentOf e) .zero) : Except SimError Components) = .ok c →
      ∃ d', SettledValue.addComponents illicit d e = .ok d' ∧
        ∀ p, d'.getD p .zero = if p = paymentOf e then c else d.getD p .zero := by
  intro d e he c hc
  unfold SettledValue.addComponents
  rw [hs.rawPaymentId he]
  cases hbound : isBound illicit e with
  | false =>
    rw [hbound, if_neg Bool.false_ne_true, Except.ok.injEq] at hc
    subst hc
    refine ⟨d, rfl, fun p => ?_⟩
    split_ifs with hp
    · rw [hp]
    · rfl
  | true =>
    rw [hbound, if_pos rfl] at hc
    rw [Bool.not_true, if_neg Bool.false_ne_true]
    dsimp only
    rw [hc]
    exact ⟨_, rfl, fun p => Dict.getD_set ..⟩

variable (T : AccountingTable L) [DecidableEq S] {outstanding : List S}

/-- what a payment contributes to a held value -/
def heldOf (s : Engine (Command O) (PaymentState S R) Unit) (outstanding : List S) (counts : Opening R → Bool)
    (p : String) : ℚ :=
  ((s.entityState.get? p).map fun state =>
    amountIf state.opening.amount (decide (state.state ∈ outstanding) && counts state.opening)).getD 0

theorem sum_eq_heldValue {V : Type} {d : Dict String V} {x : V → ℚ} {zero : V} (hzero : x zero = 0)
    {counts : Opening R → Bool} (h : ∀ p, x (d.getD p zero) = heldOf s outstanding counts p) :
    (d.items.map fun i => x i.2).sum = heldValue s outstanding counts := by
  refine Grouping.sum_items_congr fun p => ?_
  have hp := h p
  unfold heldOf at hp
  rw [← hp]
  unfold Dict.getD
  cases d.get? p with
  | none => exact hzero.symm
  | some v => rfl

theorem Log.heldOf_nonneg (hs : Log L .default s) (husd : InDollars s) (counts : Opening R → Bool) (p : String) :
    0 ≤ heldOf s outstanding counts p := by
  unfold heldOf
  cases hget : s.entityState.get? p with
  | none => exact le_refl 0
  | some state =>
    have ha := (hs.centAmount husd hget).pos
    show 0 ≤ amountIf _ _
    unfold amountIf
    split_ifs
    · exact ha.le
    · exact le_refl 0

/-- the fold over the events of any payment, by an accounting that looks at the events with an illicit party only -/
theorem Log.foldlM_bound {V ε : Type} (hs : Log L .default s) (illicit : Finset String)
    {f : Decimal → V → EventKind → Except ε V} {zero : V} {P : ℚ → V → Prop} (hzero : P 0 zero)
    (h : ∀ p state, s.entityState.get? p = some state → ∃ v,
      ((paymentEvents s p).map PaymentEvent.eventType).foldlM (f state.opening.amount) zero = .ok v ∧
        P (amountIf state.opening.amount (decide (state.state ∈ outstanding))) v) (p : String) :
    ∃ v, (Grouping.ofKey paymentOf s.events p).foldlM
      (fun v e => if isBound illicit e then f e.amount v e.eventType else .ok v) zero = .ok v ∧
        P (heldOf s outstanding (isParty illicit) p) v := by
  rw [hs.ofPayment]
  cases hget : s.entityState.get? p with
  | none =>
    rw [hs.paymentEvents_eq_nil hget]
    unfold heldOf
    rw [hget]
    exact ⟨zero, rfl, hzero⟩
  | some state =>
    have hheld : heldOf s outstanding (isParty illicit) p = amountIf state.opening.amount
        (decide (state.state ∈ outstanding) && isParty illicit state.opening) := by
      unfold heldOf
      rw [hget]
      rfl
    rw [hheld]
    cases hparty : isParty illicit state.opening with
    | true =>
      rw [Bool.and_true]
      obtain ⟨v, hv, hP⟩ := h p state hget
      refine ⟨v, ?_, hP⟩
      rw [hs.foldlM_kinds hget (f := f state.opening.amount)]
      · exact hv
      · intro e he v
        rw [isBound_eq illicit he, hparty, if_pos rfl, he.amount]
    | false =>
      rw [Bool.and_false, amountIf_false]
      have hidle := (hs.path _ _ hget).foldlM (f := fun v _ => (.ok v : Except ε V)) (P := fun _ v => v = zero) rfl
        fun v _ hv => ⟨v, rfl, hv⟩
      obtain ⟨v, hv, rfl⟩ := hidle
      refine ⟨v, ?_, hzero⟩
      rw [hs.foldlM_kinds hget (f := fun v _ => .ok v)]
      · exact hv
      · intro e he v
        rw [isBound_eq illicit he, hparty, if_neg Bool.false_ne_true]

/-- **Role-bound settled value.** It is the held value of the payments with an illicit party, and cannot be given in
cents from 10^26 on. -/
theorem Log.roleBound (hs : Log L .default s) (husd : InDollars s)
    (hheld : ∀ st, T.held st = decide (st ∈ outstanding)) (illicit : Finset String) :
    if heldValue s outstanding (isParty illicit) < 10 ^ 26 then
      ∃ v, roleBoundSettledValue s.events illicit = .ok v ∧ v.value = heldValue s outstanding (isParty illicit)
    else roleBoundSettledValue s.events illicit = .error .invalidOperation := by
  have hfolds : ∀ p, ∃ v, (Grouping.ofKey paymentOf s.events p).foldlM (fun v e =>
      if isBound illicit e then .ok (outstandingAfter e.amount v e.eventType) else .ok v) 0 =
        (.ok v : Except SimError Decimal) ∧ InCents (heldOf s outstanding (isParty illicit) p) v := by
    refine hs.foldlM_bound illicit (f := fun a v kind => .ok (outstandingAfter a v kind)) InCents.zero ?_
    intro p state hget
    rw [← hheld]
    exact (hs.path _ _ hget).outstanding T (hs.centAmount husd hget)
  obtain ⟨d, hd, hkeys⟩ := Grouping.foldlM_groups paymentOf (hs.addOutstanding illicit) fun p =>
    (hfolds p).imp fun _ h => h.1
  have hcents : ∀ p, InCents (heldOf s outstanding (isParty illicit) p) (d.getD p 0) := by
    intro p
    obtain ⟨v, hv, hin⟩ := hfolds p
    rw [hkeys, Except.ok.injEq] at hv
    exact hv ▸ hin
  have hsum : (d.values.map Decimal.value).sum = heldValue s outstanding (isParty illicit) := by
    rw [Dict.values, List.map_map]
    exact sum_eq_heldValue Decimal.value_zero fun p => (hcents p).value
  have hvalues : ∀ v ∈ d.values, -2 ≤ v.exp ∧ 0 ≤ v.value := by
    intro v hv
    obtain ⟨⟨p, w⟩, hp, rfl⟩ := List.mem_map.1 hv
    have hw := hcents p
    rw [Dict.getD, Dict.get?_eq_some.2 hp, Option.getD_some] at hw
    exact ⟨hw.exp, hw.value.symm ▸ hs.heldOf_nonneg husd _ p⟩
  have hnonneg : 0 ≤ (d.values.map Decimal.value).sum :=
    List.sum_nonneg fun x hx => by
      obtain ⟨v, hv, rfl⟩ := List.mem_map.1 hx
      exact (hvalues v hv).2
  obtain ⟨hfit, hlarge⟩ := Decimal.quantize_sum .default (e := -2) (by decide) hvalues
  rw [fits_iff hnonneg, hsum] at hfit hlarge
  unfold roleBoundSettledValue
  rw [hd]
  show if _ then ∃ v, cents _ = _ ∧ _ else cents _ = _
  unfold cents
  split_ifs with hlt
  · obtain ⟨q, hq, -, hvalue⟩ := hfit hlt
    exact ⟨q, by rw [hq], hvalue⟩
  · rw [hlarge hlt]
/-- **Value components.** Their outstanding parts add up to the held value, and each of them reconciles. -/
theorem Log.components (hs : Log L .default s) (husd : InDollars s)
    (hheld : ∀ st, T.held st = decide (st ∈ outstanding)) (illicit : Finset String) :
    ∃ components, roleBoundValueComponents s.events illicit = .ok components ∧
      (components.map fun c => c.2.outstanding.value).sum = heldValue s outstanding (isParty illicit) ∧
      ∀ c ∈ components, c.2.positive.value = c.2.removed.value + c.2.outstanding.value := by
  have hfolds : ∀ p, ∃ c, (Grouping.ofKey paymentOf s.events p).foldlM (fun c e =>
      if isBound illicit e then (c.record e.amount e.eventType).cents else .ok c) Components.zero = .ok c ∧
        (InCents (heldOf s outstanding (isParty illicit) p) c.outstanding ∧
          c.positive.value = c.removed.value + c.outstanding.value) := by
    refine hs.foldlM_bound illicit (f := fun a (c : Components) kind => (c.record a kind).cents)
      (P := fun x (c : Components) => InCents x c.outstanding ∧ c.positive.value = c.removed.value + c.outstanding.value)
      ⟨InCents.zero, show (0 : Decimal).value = (0 : Decimal).value + (0 : Decimal).value by simp⟩ ?_
    intro p state hget
    obtain ⟨c, hc, hof⟩ := (hs.path _ _ hget).components T (hs.centAmount husd hget)
    rw [← hheld]
    exact ⟨c, hc, hof.outstanding, hof.reconcile⟩
  obtain ⟨d, hd, hkeys⟩ := Grouping.foldlM_groups paymentOf (hs.addComponents illicit) fun p =>
    (hfolds p).imp fun _ h => h.1
  have hof : ∀ p, InCents (heldOf s outstanding (isParty illicit) p) (d.getD p .zero).outstanding ∧
      (d.getD p .zero).positive.value = (d.getD p .zero).removed.value + (d.getD p .zero).outstanding.value := by
    intro p
    obtain ⟨c, hc, hof⟩ := hfolds p
    rw [hkeys, Except.ok.injEq] at hc
    exact hc ▸ hof
  refine ⟨sortBy Prod.fst d.items, ?_, ?_, ?_⟩
  · unfold roleBoundValueComponents
    rw [hd]
    rfl
  · rw [((sortBy_perm Prod.fst d.items).map _).sum_eq]
    exact sum_eq_heldValue (x := fun c : Components => c.outstanding.value) Decimal.value_zero fun p => (hof p).1.value
  · intro c hc
    have hget := Dict.get?_eq_some.2 (mem_sortBy.1 hc)
    have hc' := (hof c.1).2
    rw [Dict.getD, hget, Option.getD_some] at hc'
    exact hc'

/-- the running total of a log is the held value of all its payments -/
theorem Log.runningValue (hs : Log L .default s) (hheld : ∀ st, T.held st = decide (st ∈ outstanding)) :
    runningValue s.events = heldValue s outstanding fun _ => true := by
  have hkeys : ∀ e ∈ s.events, paymentOf e ∈ s.entityState.keys := by
    intro e he
    obtain ⟨p, state, hget, -, hp, -⟩ := hs.payment he
    unfold paymentOf
    rw [hp]
    exact Dict.mem_keys.2 ⟨state, hget⟩
  unfold Apar.runningValue heldValue
  rw [← Grouping.sum_groups paymentOf (show s.entityState.keys.Nodup from s.entityState.nodup) _ hkeys, Dict.keys,
    List.map_map]
  congr 1
  refine List.map_congr_left fun i hi => ?_
  have hget := Dict.get?_eq_some.2 hi
  have hpath := (hs.path _ _ hget).settledValue T (a := i.2.opening.amount)
  rw [← hheld, Bool.and_true, ← hpath, List.map_map, Function.comp_apply, hs.ofPayment]
  congr 1
  refine List.map_congr_left fun e he => ?_
  have hof := hs.eventOf hget he
  rw [hof.rail, hof.amount]
  rfl

/-- **Settled value.** While its partial totals stay below 10^26 it is the held value of all payments. -/
theorem Log.settledValue (hs : Log L .default s) (husd : InDollars s)
    (hheld : ∀ st, T.held st = decide (st ∈ outstanding))
    (hbound : ∀ before, before <+: s.events → |Apar.runningValue before| < 10 ^ 26) :
    (settledValue s.events).value = heldValue s outstanding fun _ => true := by
  rw [← hs.runningValue T hheld]
  refine (Decimal.foldl_value .default (e := -2) (by decide) (fun acc e he hexp hfits => ?_) fun before hbefore => ?_).1
  · obtain ⟨p, state, hget, hof, -⟩ := hs.payment he
    have ha := (hs.centAmount husd hget).inCents
    rw [← hof.amount] at ha
    have hacc : InCents acc.value acc := ⟨hexp, rfl⟩
    unfold addSettled
    unfold settledChange at hfits ⊢
    split_ifs at hfits ⊢
    · have := hacc.add ha hfits
      exact ⟨this.value, this.exp⟩
    · rw [← sub_eq_add_neg] at hfits ⊢
      have := hacc.sub ha hfits
      exact ⟨this.value, this.exp⟩
    · exact ⟨(add_zero _).symm, hexp⟩
  · intro p hp
    cases hp
    have := hbound before hbefore
    unfold Apar.runningValue at this
    norm_num
    linarith

end Logged

/-! ## The two rails -/

/-- the value accountings of a run agree with the held value of its payments -/
structure Accounted [DecidableEq S] (s : Engine (Command O) (PaymentState S R) Unit) (outstanding : List S) :
    Prop where
  roleBound : ∀ illicit, if heldValue s outstanding (isParty illicit) < 10 ^ 26 then
    ∃ v, roleBoundSettledValue s.events illicit = .ok v ∧ v.value = heldValue s outstanding (isParty illicit)
    else roleBoundSettledValue s.events illicit = .error .invalidOperation
  components : ∀ illicit, ∃ components, roleBoundValueComponents s.events illicit = .ok components ∧
    (components.map fun c => c.2.outstanding.value).sum = heldValue s outstanding (isParty illicit) ∧
    ∀ c ∈ components, c.2.positive.value = c.2.removed.value + c.2.outstanding.value
  realized : (∀ before, before <+: s.events → |runningValue before| < 10 ^ 26) →
    ∀ (contract : CampaignEvidence) (commands : List (Command O)), contract.family = "legitimate" →
    (∀ c ∈ commands, c.name ∈ openingNames → ∃ d, c.payload.get? "amount" = some (.decimal d)) →
    ∃ evidence, realizeLegitimateCampaignEvidence contract commands s.events = .ok evidence ∧
      evidence.settledValue.value = heldValue s outstanding (fun _ => true) ∧ 0 ≤ evidence.settledValue.value

variable {s : Engine (Command O) (PaymentState S R) Unit}

/-- the books of the run are those of a log -/
theorem Accounted.congr [DecidableEq S] {t : Engine (Command O) (PaymentState S R) Unit} {outstanding : List S}
    (h : Accounted t outstanding) (hstates : s.entityState = t.entityState) (hevents : s.events = t.events) :
    Accounted s outstanding := by
  have hheld : ∀ counts, heldValue s outstanding counts = heldValue t outstanding counts := by
    intro counts
    unfold heldValue
    rw [hstates]
  obtain ⟨h1, h2, h3⟩ := h
  refine ⟨?_, ?_, ?_⟩ <;> simp only [hheld, hevents] <;> assumption

namespace Card

/-- an authorisation without a fee -/
def authorization (paymentId : String) (amount : Decimal) : Command CardOperation :=
  ⟨some .authorizeCard, "card.authorize", .ofList [
    ("payment_id", .text paymentId), ("amount", .decimal amount), ("currency", .text "USD"),
    ("payer_account", .text ("payer:" ++ paymentId)), ("payee_account", .text ("payee:" ++ paymentId)),
    ("hold_account", .text "card:holds"), ("fee_account", .text "card:fees"),
    ("chargeback_account", .text "card:chargebacks"), ("actor_id", .text (Uuid.formatUuid 1)),
    ("counterparty_id", .text (Uuid.formatUuid 2)), ("campaign_id", .text (Uuid.formatUuid 3)),
    ("trace_id", .text (Uuid.formatUuid 4)), ("fee", .decimal ⟨0, -2⟩),
    ("idempotency_key", .text ("card.authorize:" ++ paymentId))]⟩

end Card

end Apar
