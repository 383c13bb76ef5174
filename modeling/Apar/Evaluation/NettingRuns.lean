/-
Evaluation netting against the ledger, over every run of the card and A2A rails.

A `NettingTable` counts, for every lifecycle state, the settlement and the value-returning events on the way to it. The
truth row nets them (`netSettled_value`): a state whose returning events do not outnumber its settlements nets to the
value the ledger holds on the merchant side, any other to a negative amount. A card release (REVERSED) and a recovery
after a chargeback (RECOVERY) are of the second kind; the A2A table has none.

- `Log.netting_value`: a payment's truth row agrees with the ledger exactly when its returns do not outnumber its
  settlements.
- `Log.accepted_iff`: when the truth assembled from a run is accepted.
- `netting_agrees`: the two together, for the card and the A2A rail.
- `netting_negative`: an authorisation and its reversal net to minus the amount, and are rejected.
-/
import Apar.Simulator.Rails.History
import Apar.Simulator.Rails.Progress
import Apar.Evaluation.Revalidation

namespace Apar

open Exec

/-! ## Counting events along the table -/

variable {S O R : Type}

/-- the settlement and value-returning events on the way to each state -/
structure NettingTable (L : Lifecycle S O R) where
  settled : S → ℕ
  reversed : S → ℕ
  settled_created : settled L.created = 0
  reversed_created : reversed L.created = 0
  settled_step : ∀ {st o next kind effect}, L.transition st o = some (next, kind, effect) →
    settled next = settled st + (isSettlement kind).toNat
  reversed_step : ∀ {st o next kind effect}, L.transition st o = some (next, kind, effect) →
    reversed next = reversed st + (isReversing kind).toNat
  opening : ∀ {st o next kind effect}, L.transition st o = some (next, kind, effect) →
    (isDecisionPoint L.rail kind = true ↔ st = L.created) ∧ next ≠ L.created
  counts : ∀ st, (settled st, reversed st) ∈ [(0, 0), (1, 0), (1, 1), (0, 1), (1, 2)]

variable {L : Lifecycle S O R}

/-- the state's returning events do not outnumber its settlements -/
def NettingTable.Netted (N : NettingTable L) (st : S) : Prop := N.reversed st ≤ N.settled st

/-- the state's settlement is outstanding -/
def NettingTable.Outstanding (N : NettingTable L) (st : S) : Prop := N.reversed st < N.settled st

theorem Path.settled (N : NettingTable L) {st : S} {kinds : List EventKind} (h : Path L st kinds) :
    kinds.countP isSettlement = N.settled st := by
  induction h with
  | start => exact N.settled_created.symm
  | step _ hlegal ih =>
    rw [List.countP_append, ih, N.settled_step hlegal, List.countP_singleton]
    cases isSettlement _ <;> rfl

theorem Path.reversed (N : NettingTable L) {st : S} {kinds : List EventKind} (h : Path L st kinds) :
    kinds.countP isReversing = N.reversed st := by
  induction h with
  | start => exact N.reversed_created.symm
  | step _ hlegal ih =>
    rw [List.countP_append, ih, N.reversed_step hlegal, List.countP_singleton]
    cases isReversing _ <;> rfl

theorem Path.openings (N : NettingTable L) {st : S} {kinds : List EventKind} (h : Path L st kinds) :
    kinds.countP (isDecisionPoint L.rail) = (if kinds = [] then 0 else 1) ∧ (kinds = [] ↔ st = L.created) := by
  induction h with
  | start => simp
  | @step st next o kind effect kinds _ hlegal ih =>
    obtain ⟨hopen, hnext⟩ := N.opening hlegal
    obtain ⟨hcount, hempty⟩ := ih
    have happend : kinds ++ [kind] ≠ [] := by simp
    refine ⟨?_, by simp [hnext]⟩
    rw [if_neg happend, List.countP_append, hcount, List.countP_singleton]
    rcases eq_or_ne kinds [] with hnil | hne
    · rw [if_pos hnil, if_pos (hopen.2 (hempty.1 hnil))]
    · have hclosed : ¬ isDecisionPoint L.rail kind = true := fun h => hne (hempty.2 (hopen.1 h))
      rw [if_neg hne, if_neg hclosed]

/-! ## The netting of one payment -/

/-- an amount as a lifecycle carries it: positive, at most a unit's precision, within the context -/
structure LifecycleAmount (ctx : DecimalContext) (a : Decimal) : Prop where
  pos : 0 < a.value
  exp : a.exp ≤ 0
  fits : ctx.Fits a.exp a.value

theorem lifecycleAmount {ctx : DecimalContext} {o : Opening R} (h : L.Canonical ctx o) :
    LifecycleAmount ctx o.amount ∧ ∃ k, currencyExponent? o.currency = some k ∧ o.amount.exp = -(k : ℤ) := by
  obtain ⟨k, hk, hq, -, hpos⟩ := Lifecycle.money_eq_ok h.amount
  obtain ⟨hexp, hfits⟩ := Decimal.quantize_spec hq
  refine ⟨⟨hpos rfl, by rw [hexp]; omega, by rw [hexp]; exact hfits⟩, k, hk, hexp⟩

theorem LifecycleAmount.zero_add {ctx : DecimalContext} {a : Decimal} (h : LifecycleAmount ctx a) :
    Decimal.add ctx 0 a = a := by
  have hmin : min (0 : Decimal).exp a.exp = a.exp := min_eq_right h.exp
  have hscaled : (0 : Decimal).scaled a.exp = 0 := by
    show (0 : ℤ) * _ = 0
    simp
  unfold Decimal.add
  simp only [hmin, hscaled, Int.zero_add]
  have : (⟨a.scaled a.exp, a.exp⟩ : Decimal) = a := by simp [Decimal.scaled]
  rw [this, Decimal.fix_of_fits (le_refl a.exp) h.fits]

/-- the net of `m` settlements and `n` returns of one amount -/
def netOf (ctx : DecimalContext) (a : Decimal) (m n : ℕ) : Decimal :=
  .sub ctx (.sum ctx (List.replicate m a)) (.sum ctx (List.replicate n a))

theorem netOf_value {ctx : DecimalContext} {a : Decimal} (h : LifecycleAmount ctx a) {m n : ℕ}
    (hmn : (m, n) ∈ [(0, 0), (1, 0), (1, 1), (0, 1), (1, 2)]) :
    (n ≤ m → (netOf ctx a m n).value = if n < m then a.value else 0) ∧
      (m < n → (netOf ctx a m n).value < 0) := by
  have hone : Decimal.sum ctx [a] = a := by
    show Decimal.add ctx 0 a = a
    exact h.zero_add
  have htwo : Decimal.sum ctx [a, a] = Decimal.add ctx a a := by
    show Decimal.add ctx (Decimal.add ctx 0 a) a = _
    rw [h.zero_add]
  have hnil : Decimal.sum ctx [] = 0 := rfl
  have hzero : ctx.Fits a.exp 0 := h.fits.mono (by simp)
  have hpos := h.pos
  simp only [List.mem_cons, Prod.mk.injEq, List.not_mem_nil, or_false] at hmn
  unfold netOf
  rcases hmn with ⟨rfl, rfl⟩ | ⟨rfl, rfl⟩ | ⟨rfl, rfl⟩ | ⟨rfl, rfl⟩ | ⟨rfl, rfl⟩
  · refine ⟨fun _ => ?_, fun hlt => absurd hlt (by omega)⟩
    have hfits : ctx.Fits a.exp ((0 : Decimal).value - (0 : Decimal).value) := by simpa using hzero
    have := (Decimal.sub_value h.exp h.exp hfits).1
    simpa [hnil] using this
  · refine ⟨fun _ => ?_, fun hlt => absurd hlt (by omega)⟩
    have := (Decimal.sub_value (a := a) (b := 0) (m := a.exp) (le_refl _) h.exp (by simpa using h.fits)).1
    simpa [hnil, hone] using this
  · refine ⟨fun _ => ?_, fun hlt => absurd hlt (by omega)⟩
    have := (Decimal.sub_value (a := a) (b := a) (m := a.exp) (le_refl _) (le_refl _) (by simpa using hzero)).1
    simpa [hone] using this
  · refine ⟨fun hle => absurd hle (by omega), fun _ => ?_⟩
    have : (0 : Decimal).value < a.value := by simpa using hpos
    simpa [hnil, hone] using @Decimal.sub_neg ctx _ _ this
  · refine ⟨fun hle => absurd hle (by omega), fun _ => ?_⟩
    simpa [hone, htwo, List.replicate] using @Decimal.sub_neg ctx _ _ (Decimal.lt_add_self h.pos h.fits)

/-- the events of a stored payment, as the netting sees them -/
structure NettedLifecycle (N : NettingTable L) (state : PaymentState S R) (lifecycle : List PaymentEvent) : Prop where
  events : ∀ e ∈ lifecycle, EventOf L state e
  path : Path L state.state (lifecycle.map PaymentEvent.eventType)

theorem NettedLifecycle.amounts {N : NettingTable L} {state : PaymentState S R} {lifecycle : List PaymentEvent}
    (h : NettedLifecycle N state lifecycle) {ordered : List PaymentEvent} (hp : ordered.Perm lifecycle)
    (p : EventKind → Bool) :
    (ordered.filter fun e => p e.eventType).map PaymentEvent.amount =
      List.replicate ((lifecycle.map PaymentEvent.eventType).countP p) state.opening.amount := by
  rw [List.eq_replicate_iff]
  constructor
  · rw [List.length_map, ← List.countP_eq_length_filter, hp.countP_eq, List.countP_map]
    rfl
  · intro a ha
    obtain ⟨e, he, rfl⟩ := List.mem_map.1 ha
    exact (h.events e (hp.mem_iff.1 (List.mem_of_mem_filter he))).amount

/-- **The netting of a payment.** The truth row nets a payment to the counts of its state. -/
theorem NettedLifecycle.netSettled {N : NettingTable L} {state : PaymentState S R} {lifecycle : List PaymentEvent}
    (h : NettedLifecycle N state lifecycle) (ctx : DecimalContext) :
    netSettled ctx lifecycle =
      netOf ctx state.opening.amount (N.settled state.state) (N.reversed state.state) := by
  have hp := sortBy_perm eventKey lifecycle
  have h1 := h.amounts hp isSettlement
  have h2 := h.amounts hp isReversing
  rw [h.path.settled N] at h1
  rw [h.path.reversed N] at h2
  unfold Apar.netSettled netOf
  rw [← h1, ← h2]
  rfl

theorem Log.netted {ctx : DecimalContext} {s : Engine (Command O) (PaymentState S R) Unit} (N : NettingTable L)
    (hs : Log L ctx s) {paymentId : String} {state : PaymentState S R}
    (hget : s.entityState.get? paymentId = some state) : NettedLifecycle N state (paymentEvents s paymentId) :=
  ⟨fun _ he => hs.eventOf hget he, hs.path _ _ hget⟩

/-! ## The revalidation of one payment -/

/-- a whole number of cents -/
def WholeCents (a : Decimal) : Prop := ∃ z : ℤ, a.value = z * 10 ^ (-2 : ℤ)

/-- the revalidation rounds the amount of a lifecycle to the cent, and changes it unless it is in whole cents -/
theorem LifecycleAmount.cents {a : Decimal} (h : LifecycleAmount .default a) (hexp : -3 ≤ a.exp) :
    ∃ q, moneySum [a] = .ok q ∧ q.exp = -2 ∧ 0 ≤ q.value ∧ DecimalContext.decimal128.Fits (-2) q.value ∧
      (q.value = a.value ↔ WholeCents a) := by
  have hsize : |a.value| < 10 ^ 28 := by
    refine (h.fits 28 rfl).trans_le ?_
    have : (10 : ℚ) ^ a.exp ≤ 10 ^ (0 : ℤ) := zpow_le_zpow_right₀ (by norm_num) h.exp
    simpa using mul_le_mul_of_nonneg_left this (by positivity : (0 : ℚ) ≤ 10 ^ 28)
  have hsum : (⟨0, -2⟩ : Decimal).value + a.value = a.value := by simp [Decimal.value]
  have hfits : DecimalContext.decimal128.Fits (-3) ((⟨0, -2⟩ : Decimal).value + a.value) := by
    rw [hsum]
    intro p hp
    cases hp
    exact hsize.trans (by norm_num)
  obtain ⟨hvalue, -⟩ := Decimal.add_value (show (-3 : ℤ) ≤ -2 by decide) hexp hfits
  rw [hsum] at hvalue
  obtain ⟨q, hq⟩ : ∃ q, Decimal.quantize .decimal128 (Decimal.add .decimal128 ⟨0, -2⟩ a) (-2) = some q := by
    refine Decimal.quantize_isSome fun p hp => ?_
    cases hp
    rw [hvalue]
    have : (10 : ℚ) ^ 28 + 10 ^ (-2 : ℤ) < 10 ^ 34 * 10 ^ (-2 : ℤ) := by norm_num
    linarith
  obtain ⟨hqexp, hqfits⟩ := Decimal.quantize_spec hq
  have hiff := Decimal.quantize_value_iff hq
  rw [hvalue] at hiff
  refine ⟨q, ?_, hqexp, ?_, hqfits, hiff⟩
  · simp only [moneySum, moneyAdd, List.foldlM_cons, List.foldlM_nil, hq]
    rfl
  · rw [Decimal.quantize_rescale hq, Decimal.value_nonneg]
    exact Decimal.rescale_nonneg (hvalue.symm ▸ h.pos.le) _

/-- **The revalidation of a net.** It accepts the net of one amount exactly when the returns do not outnumber the
settlements and an outstanding amount is in whole cents. -/
theorem revalidated_iff {a : Decimal} (h : LifecycleAmount .default a) (hexp : -3 ≤ a.exp) {m n : ℕ}
    (hmn : (m, n) ∈ [(0, 0), (1, 0), (1, 1), (0, 1), (1, 2)]) :
    Revalidated (List.replicate m a) (List.replicate n a) (netOf .default a m n) ↔
      n ≤ m ∧ (n < m → WholeCents a) := by
  obtain ⟨hnet, hneg⟩ := netOf_value h hmn
  rcases Nat.lt_or_ge m n with hlt | hle
  · refine iff_of_false ?_ fun hc => absurd hc.1 (by omega)
    rintro ⟨settled, reversed, net, -, -, -, hble, heq⟩
    rw [Decimal.ble_iff, Decimal.value_zero] at hble
    rw [Decimal.numEq_iff] at heq
    exact absurd (hneg hlt) (not_lt.2 (heq ▸ hble))
  obtain ⟨q, hq, hqexp, hqnonneg, hqfits, hqiff⟩ := h.cents hexp
  have hzero : (⟨0, -2⟩ : Decimal).value = 0 := by simp [Decimal.value]
  have hsub : moneySubtract ⟨0, -2⟩ ⟨0, -2⟩ = .ok ⟨0, -2⟩ := moneySubtract_self rfl
  replace hnet := hnet hle
  simp only [List.mem_cons, Prod.mk.injEq, List.not_mem_nil, or_false] at hmn
  rcases hmn with ⟨rfl, rfl⟩ | ⟨rfl, rfl⟩ | ⟨rfl, rfl⟩ | ⟨rfl, rfl⟩ | ⟨rfl, rfl⟩
  · refine iff_of_true ⟨⟨0, -2⟩, ⟨0, -2⟩, ⟨0, -2⟩, moneySum_nil, moneySum_nil, hsub, rfl, ?_⟩ ⟨le_refl _, by simp⟩
    rw [Decimal.numEq_iff, hnet, hzero]
    rfl
  · rw [if_pos Nat.one_pos] at hnet
    constructor
    · rintro ⟨settled, reversed, net, hs, hr, hd, -, heq⟩
      cases hq.symm.trans hs
      cases moneySum_nil.symm.trans hr
      cases (moneySubtract_zero hqexp hqfits).symm.trans hd
      rw [Decimal.numEq_iff, hnet] at heq
      exact ⟨hle, fun _ => hqiff.1 heq⟩
    · rintro ⟨-, hwhole⟩
      refine ⟨q, ⟨0, -2⟩, q, hq, moneySum_nil, moneySubtract_zero hqexp hqfits, ?_, ?_⟩
      · rw [Decimal.ble_iff, Decimal.value_zero]
        exact hqnonneg
      · rw [Decimal.numEq_iff, hnet]
        exact hqiff.2 (hwhole Nat.one_pos)
  · rw [if_neg (Nat.lt_irrefl 1)] at hnet
    refine iff_of_true ⟨q, q, ⟨0, -2⟩, hq, hq, moneySubtract_self hqexp, rfl, ?_⟩ ⟨le_refl _, by simp⟩
    rw [Decimal.numEq_iff, hnet, hzero]
  · omega
  · omega

/-! ## The observations of a run -/

/-- the observation of a logged event -/
def observed (e : PaymentEvent) : ObservedEvent := observe e (e.paymentId?.getD "")

section Rows

variable {s : Engine (Command O) (PaymentState S R) Unit}

variable {ctx : DecimalContext} {populationTruth : Dict String Bool}

theorem Log.payment (hs : Log L ctx s) {e : PaymentEvent} (he : e ∈ s.events) :
    ∃ paymentId state, s.entityState.get? paymentId = some state ∧ EventOf L state e ∧
      e.paymentId? = some paymentId ∧ paymentId ≠ "" := by
  obtain ⟨paymentId, state, hget, hof⟩ := hs.owned e he
  obtain ⟨hid, hne, -⟩ := hs.stored _ _ hget
  exact ⟨paymentId, state, hget, hof, hid ▸ hof.paymentId, hne⟩

theorem Log.observations (hs : Log L ctx s) : s.events.mapM scrubEvent = .ok (s.events.map observed) := by
  rw [mapM_eq_ok, List.forall₂_map_right_iff, List.forall₂_same]
  intro e he
  obtain ⟨paymentId, state, -, -, hid, hne⟩ := hs.payment he
  rw [scrubEvent_eq_ok hid hne, observed, hid]
  rfl

/-- the observed lifecycle of a payment is the observation of its logged lifecycle -/
theorem Log.lifecycle (hs : Log L ctx s) (paymentId : String) :
    sortBy observedKey ((sortBy ObservedEvent.eventId (s.events.map observed)).filter
        fun e => e.paymentId = paymentId) =
      (sortBy eventKey (paymentEvents s paymentId)).map observed := by
  have hfilter : (s.events.map observed).filter (fun e => e.paymentId = paymentId) =
      (paymentEvents s paymentId).map observed := by
    unfold paymentEvents
    rw [List.filter_map]
    congr 1
    refine List.filter_congr fun e he => ?_
    obtain ⟨paymentId', -, -, -, hid, -⟩ := hs.payment he
    simp [observed, observe, hid]
  have hnodup : ((s.events.map observed).map observedKey).Nodup := by
    have hids : (s.events.map PaymentEvent.eventId).Nodup := hs.nodup
    rw [List.map_map]
    refine List.Nodup.of_map (fun k => (ofLex k).2) ?_
    rw [List.map_map]
    exact hids
  have hperm : ((sortBy ObservedEvent.eventId (s.events.map observed)).filter
      fun e => e.paymentId = paymentId).Perm ((paymentEvents s paymentId).map observed) := by
    rw [← hfilter]
    exact (sortBy_perm _ _).filter _
  have hdistinct : ((paymentEvents s paymentId).map observed |>.map observedKey).Nodup := by
    rw [← hfilter]
    exact hnodup.sublist (List.filter_sublist.map _)
  rw [sortBy_congr hperm ((hperm.map _).nodup_iff.2 hdistinct)]
  exact (map_sortBy observedKey observed (paymentEvents s paymentId)).symm


/-- the events of a run name their payments, as the corpus requires -/
structure Identified (events : List PaymentEvent) : Prop where
  nodup : (events.map PaymentEvent.eventId).Nodup
  named : ∀ e ∈ events, e.lineage.get? "synthetic" = some (.flag true) ∧ ∃ p, e.paymentId? = some p ∧ p ≠ ""
  campaign : ∀ e ∈ events, ∀ e' ∈ events, e.paymentId? = e'.paymentId? → e.campaignId = e'.campaignId
  opening : ∀ e ∈ events, ∀ e' ∈ events, e.paymentId? = e'.paymentId? → isOpeningEvent e = true →
    isOpeningEvent e' = true → e.eventId = e'.eventId

/-- what the identity check has seen of a list of events -/
structure Seen (seen : SeenIdentities) (before : List PaymentEvent) : Prop where
  eventIds : ∀ i ∈ seen.eventIds, ∃ e ∈ before, e.eventId = i
  campaigns : ∀ p c, seen.paymentCampaigns.get? p = some c → ∃ e ∈ before, e.paymentId? = some p ∧ e.campaignId = c
  openings : ∀ p i, seen.openingByPayment.get? p = some i →
    ∃ e ∈ before, e.paymentId? = some p ∧ isOpeningEvent e = true ∧ e.eventId = i

theorem Seen.next {seen : SeenIdentities} {before after : List PaymentEvent} {e : PaymentEvent}
    (h : Seen seen before) (hi : Identified (before ++ e :: after)) :
    ∃ seen', checkIdentity seen e = .ok seen' ∧ Seen seen' (before ++ [e]) := by
  have he : e ∈ before ++ e :: after := by simp
  have hmem : ∀ {e'}, e' ∈ before → e' ∈ before ++ e :: after := fun h => List.mem_append_left _ h
  obtain ⟨hsynthetic, p, hp, hne⟩ := hi.named e he
  have hfresh : seen.eventIds.contains e.eventId = false := by
    rw [← Bool.not_eq_true, List.contains_iff_mem]
    intro hin
    obtain ⟨e', he', hid⟩ := h.eventIds _ hin
    have hn := hi.nodup
    rw [List.map_append, List.map_cons] at hn
    exact List.disjoint_of_nodup_append hn (List.mem_map.2 ⟨e', he', hid⟩) (by simp)
  have hcampaign : ((seen.paymentCampaigns.get? p).all fun c => c = e.campaignId) = true := by
    rw [Option.all_eq_true]
    intro c hc
    obtain ⟨e', he', hp', rfl⟩ := h.campaigns _ _ hc
    exact decide_eq_true (hi.campaign _ (hmem he') _ he (hp'.trans hp.symm))
  have hopening : (!isOpeningEvent e || (seen.openingByPayment.get? p).all fun i => i = e.eventId) = true := by
    rw [Bool.or_eq_true, Bool.not_eq_true']
    rcases Bool.eq_false_or_eq_true (isOpeningEvent e) with ho | ho
    · refine Or.inr ((Option.all_eq_true _ _).2 fun i hin => ?_)
      obtain ⟨e', he', hp', ho', rfl⟩ := h.openings _ _ hin
      exact decide_eq_true (hi.opening _ (hmem he') _ he (hp'.trans hp.symm) ho' ho)
    · exact Or.inl ho
  have hcorpus : corpusPaymentId e = .ok p := by simp [corpusPaymentId, hp, hne]
  have hstep : checkIdentity seen e = .ok ⟨e.eventId :: seen.eventIds, seen.paymentCampaigns.set p e.campaignId,
      if isOpeningEvent e then seen.openingByPayment.set p e.eventId else seen.openingByPayment⟩ := by
    unfold checkIdentity
    simp only [except_bind_eq_ok, check_eq_ok, except_pure_eq_ok, hfresh, hsynthetic, hcorpus]
    exact ⟨(), rfl, (), by simp, p, rfl, (), hcampaign, (), hopening, rfl⟩
  refine ⟨_, hstep, ?_, ?_, ?_⟩
  · intro i hin
    rcases List.mem_cons.1 hin with rfl | hin
    · exact ⟨e, by simp, rfl⟩
    · obtain ⟨e', he', hid⟩ := h.eventIds i hin
      exact ⟨e', by simp [he'], hid⟩
  · intro p' c hc
    rw [Dict.get?_set] at hc
    split_ifs at hc with heq
    · cases hc
      exact ⟨e, by simp, heq ▸ hp, rfl⟩
    · obtain ⟨e', he', hrest⟩ := h.campaigns p' c hc
      exact ⟨e', by simp [he'], hrest⟩
  · intro p' i hin
    dsimp only at hin
    split_ifs at hin with ho
    · rw [Dict.get?_set] at hin
      split_ifs at hin with heq
      · cases hin
        exact ⟨e, by simp, heq ▸ hp, ho, rfl⟩
      · obtain ⟨e', he', hrest⟩ := h.openings p' i hin
        exact ⟨e', by simp [he'], hrest⟩
    · obtain ⟨e', he', hrest⟩ := h.openings p' i hin
      exact ⟨e', by simp [he'], hrest⟩

theorem validateEventIdentities_ok {events : List PaymentEvent} (h : Identified events) :
    validateEventIdentities events = .ok () := by
  have hfold : ∀ after before seen, Seen seen before → Identified (before ++ after) →
      ∃ seen', after.foldlM checkIdentity seen = .ok seen' := by
    intro after
    induction after with
    | nil => exact fun _ seen _ _ => ⟨seen, rfl⟩
    | cons e after ih =>
      intro before seen hseen hi
      obtain ⟨seen', hstep, hseen'⟩ := hseen.next hi
      obtain ⟨final, hfinal⟩ := ih (before ++ [e]) seen' hseen' (by simpa using hi)
      refine ⟨final, ?_⟩
      rw [List.foldlM_cons, except_bind_eq_ok]
      exact ⟨seen', hstep, hfinal⟩
  obtain ⟨seen', hseen'⟩ := hfold events [] ⟨[], ∅, ∅⟩ ⟨by simp, by simp, by simp⟩ h
  unfold validateEventIdentities
  rw [hseen']
  rfl

theorem NettedLifecycle.filter_opening {N : NettingTable L} {state : PaymentState S R} {lifecycle : List PaymentEvent}
    (h : NettedLifecycle N state lifecycle) (hne : lifecycle ≠ []) :
    ∃ opening, lifecycle.filter isOpeningEvent = [opening] := by
  rw [← List.length_eq_one_iff, ← List.countP_eq_length_filter]
  have hcount := (h.path.openings N).1
  rw [if_neg (by simpa using hne), List.countP_map] at hcount
  rw [← hcount]
  refine List.countP_congr fun e he => ?_
  rw [isOpeningEvent, (h.events e he).rail]
  exact Iff.rfl

theorem Log.identified (N : NettingTable L) (hs : Log L ctx s) : Identified s.events := by
  -- two events of one payment belong to its stored state
  have hsame : ∀ e ∈ s.events, ∀ e' ∈ s.events, e.paymentId? = e'.paymentId? → ∃ paymentId state,
      s.entityState.get? paymentId = some state ∧ EventOf L state e ∧ EventOf L state e' ∧
        e ∈ paymentEvents s paymentId ∧ e' ∈ paymentEvents s paymentId := by
    intro e he e' he' heq
    obtain ⟨paymentId, state, hget, hof, hid, -⟩ := hs.payment he
    obtain ⟨paymentId', state', hget', hof', hid', -⟩ := hs.payment he'
    rw [hid, hid', Option.some.injEq] at heq
    subst heq
    rw [hget, Option.some.injEq] at hget'
    subst hget'
    refine ⟨paymentId, state, hget, hof, hof', ?_, ?_⟩ <;> unfold paymentEvents <;> simp [*]
  refine ⟨hs.nodup, ?_, ?_, ?_⟩
  · intro e he
    obtain ⟨paymentId, _, _, hof, hid, hne⟩ := hs.payment he
    exact ⟨hof.synthetic, paymentId, hid, hne⟩
  · intro e he e' he' heq
    obtain ⟨_, state, -, hof, hof', -, -⟩ := hsame e he e' he' heq
    rw [hof.campaignId, hof'.campaignId]
  · intro e he e' he' heq ho ho'
    obtain ⟨paymentId, state, hget, -, -, hmem, hmem'⟩ := hsame e he e' he' heq
    obtain ⟨opening, hopening⟩ := (hs.netted N hget).filter_opening (List.ne_nil_of_mem hmem)
    have h1 : e ∈ (paymentEvents s paymentId).filter isOpeningEvent := List.mem_filter.2 ⟨hmem, ho⟩
    have h2 : e' ∈ (paymentEvents s paymentId).filter isOpeningEvent := List.mem_filter.2 ⟨hmem', ho'⟩
    rw [hopening, List.mem_singleton] at h1 h2
    rw [h1, h2]

/-- the population knows the parties of the events -/
def Covers (populationTruth : Dict String Bool) (events : List PaymentEvent) : Prop :=
  ∀ e ∈ events, (∃ b, populationTruth.get? e.actorId = some b) ∧ ∃ b, populationTruth.get? e.counterpartyId = some b

/-- the truth row of a payment -/
structure RowOf (ctx : DecimalContext) (paymentId : String) (lifecycle : List PaymentEvent) (row : TruthRow) :
    Prop where
  payment : row.paymentId = paymentId
  ids : row.lifecycleEventIds = (sortBy eventKey lifecycle).map PaymentEvent.eventId
  first : row.firstSettlementAt = ((sortBy eventKey lifecycle).filter
    fun e => settlementEvents.contains e.eventType).head?.map PaymentEvent.eventTime
  net : row.netSettledValue = netSettled ctx lifecycle

theorem truthRow_ok (ctx : DecimalContext) {opening : PaymentEvent} (lifecycle : List PaymentEvent) (family : String)
    (delay : ℕ) {paymentId : String} (hid : opening.paymentId? = some paymentId) (hne : paymentId ≠ "")
    (ha : ∃ b, populationTruth.get? opening.actorId = some b)
    (hc : ∃ b, populationTruth.get? opening.counterpartyId = some b) :
    ∃ row, truthRow ctx opening lifecycle populationTruth family delay = .ok row ∧
      RowOf ctx paymentId lifecycle row := by
  have hobserved := scrubEvent_eq_ok hid hne
  obtain ⟨b, hb⟩ : ∃ b, populationLabel populationTruth opening.actorId opening.counterpartyId = .ok b := by
    obtain ⟨a, ha⟩ := ha
    obtain ⟨c, hc⟩ := hc
    unfold populationLabel
    rw [ha, hc]
    cases a with
    | true => exact ⟨true, rfl⟩
    | false => exact ⟨c, rfl⟩
  unfold truthRow
  rcases eq_or_ne (observe opening paymentId).integrityStatus .fail with hfail | hpass
  · simp only [hobserved, bind, Except.bind, if_pos hfail]
    exact ⟨_, rfl, rfl, rfl, rfl, rfl⟩
  · simp only [hobserved, bind, Except.bind, if_neg hpass, hb]
    exact ⟨_, rfl, rfl, rfl, rfl, rfl⟩

theorem Log.groupTruth {ctx ctx' : DecimalContext} (N : NettingTable L) (hs : Log L ctx s)
    {populationTruth : Dict String Bool} (hcovers : Covers populationTruth s.events) (family : String) (delay : ℕ)
    {paymentId : String} (hmem : paymentId ∈ s.events.filterMap PaymentEvent.paymentId?) :
    ∃ row, Apar.groupTruth ctx' populationTruth family delay (paymentId, paymentEvents s paymentId) = .ok row ∧
      RowOf ctx' paymentId (paymentEvents s paymentId) row := by
  obtain ⟨e, he, hid⟩ := List.mem_filterMap.1 hmem
  obtain ⟨paymentId', state, hget, -, hid', hne⟩ := hs.payment he
  rw [hid, Option.some.injEq] at hid'
  subst hid'
  have hme : e ∈ paymentEvents s paymentId := by
    unfold paymentEvents
    simp [he, hid]
  obtain ⟨opening, hopening⟩ := (hs.netted N hget).filter_opening (List.ne_nil_of_mem hme)
  have hoin : opening ∈ paymentEvents s paymentId := by
    have : opening ∈ (paymentEvents s paymentId).filter isOpeningEvent := by simp [hopening]
    exact List.mem_of_mem_filter this
  unfold paymentEvents at hoin
  rw [List.mem_filter, decide_eq_true_eq] at hoin
  obtain ⟨hactor, hcounterparty⟩ := hcovers opening hoin.1
  obtain ⟨row, hrow, hof⟩ := truthRow_ok ctx' (paymentEvents s paymentId) family delay hoin.2 hne hactor hcounterparty
  unfold Apar.groupTruth
  rw [hopening]
  exact ⟨row, hrow, hof⟩

theorem NettedLifecycle.currency {N : NettingTable L} {state : PaymentState S R} {lifecycle : List PaymentEvent}
    (h : NettedLifecycle N state lifecycle) (hne : lifecycle ≠ []) :
    (((sortBy eventKey lifecycle).map observed).map ObservedEvent.currency).dedup = [state.opening.currency] := by
  have hperm := sortBy_perm eventKey lifecycle
  have hall : ((sortBy eventKey lifecycle).map observed).map ObservedEvent.currency =
      List.replicate lifecycle.length state.opening.currency := by
    rw [List.eq_replicate_iff, List.length_map, List.length_map, hperm.length_eq]
    refine ⟨rfl, fun c hc => ?_⟩
    rw [List.map_map] at hc
    obtain ⟨e, he, rfl⟩ := List.mem_map.1 hc
    exact (h.events e (hperm.mem_iff.1 he)).currency
  rw [hall, List.replicate_dedup (by simpa using hne)]

/-- **The revalidation of a row.** The truth row of a payment is accepted exactly when its returns do not outnumber its
settlements and its outstanding amount, if any, is in whole cents. -/
theorem Log.validate_row (N : NettingTable L) (hs : Log L .default s) {paymentId : String} {state : PaymentState S R}
    (hget : s.entityState.get? paymentId = some state) (hne : paymentEvents s paymentId ≠ []) {row : TruthRow}
    (hrow : RowOf .default paymentId (paymentEvents s paymentId) row) {c : String} :
    validateLifecycle (sortBy ObservedEvent.eventId (s.events.map observed)) row = .ok c ↔
      c = state.opening.currency ∧ N.Netted state.state ∧ (N.Outstanding state.state → WholeCents state.opening.amount) := by
  have hn := hs.netted N hget
  obtain ⟨hamount, k, hk, hexp⟩ := lifecycleAmount (hs.stored _ _ hget).2.2
  have hperm := sortBy_perm eventKey (paymentEvents s paymentId)
  have hsettled := hn.amounts hperm isSettlement
  have hreversed := hn.amounts hperm isReversing
  rw [hn.path.settled N] at hsettled
  rw [hn.path.reversed N] at hreversed
  have hamounts : ∀ p : EventKind → Bool, (((sortBy eventKey (paymentEvents s paymentId)).map observed).filter
      fun e => p e.eventType).map ObservedEvent.amount =
        ((sortBy eventKey (paymentEvents s paymentId)).filter fun e => p e.eventType).map PaymentEvent.amount := by
    intro p
    rw [List.filter_map, List.map_map]
    rfl
  have hlifecycle : sortBy observedKey ((sortBy ObservedEvent.eventId (s.events.map observed)).filter
      fun e => e.paymentId = row.paymentId) = (sortBy eventKey (paymentEvents s paymentId)).map observed := by
    rw [hrow.payment]
    exact hs.lifecycle paymentId
  rw [validateLifecycle_eq_ok hlifecycle ?_ (hn.currency hne) ?_, hamounts, hamounts, hsettled, hreversed, hrow.net,
    hn.netSettled, revalidated_iff hamount (by rw [hexp]; have := currencyExponent?_le hk; omega) (N.counts _)]
  · exact Iff.rfl
  · rw [hrow.ids, List.map_map]
    rfl
  · rw [hrow.first, List.filter_map, List.head?_map, Option.map_map]
    rfl

/-- the truth assembled from a run: one row for each payment with events -/
structure Assembled (ctx : DecimalContext) (s : Engine (Command O) (PaymentState S R) Unit) (truth : List TruthRow) :
    Prop where
  nodup : (truth.map TruthRow.paymentId).Nodup
  row : ∀ row ∈ truth, ∃ paymentId state, s.entityState.get? paymentId = some state ∧
    paymentEvents s paymentId ≠ [] ∧ RowOf ctx paymentId (paymentEvents s paymentId) row
  covers : ∀ paymentId, paymentEvents s paymentId ≠ [] → ∃ row ∈ truth,
    RowOf ctx paymentId (paymentEvents s paymentId) row

theorem paymentEvents_ne_nil {paymentId : String} :
    paymentEvents s paymentId ≠ [] ↔ paymentId ∈ s.events.filterMap PaymentEvent.paymentId? := by
  rw [paymentEvents, ne_eq, List.filter_eq_nil_iff, List.mem_filterMap]
  simp only [decide_eq_true_eq, not_forall, not_not, exists_prop]

/-- **Assembly.** The truth of a run can always be assembled. -/
theorem Log.assembled {ctx' : DecimalContext} (N : NettingTable L) (hs : Log L ctx s)
    (hcovers : Covers populationTruth s.events) (family : String) (delay : ℕ) :
    ∃ truth, assembleTruth ctx' s.events populationTruth family delay = .ok truth ∧ Assembled ctx' s truth := by
  have hgroups : groupByPayment s.events = (sortedSet (s.events.filterMap PaymentEvent.paymentId?)).map
      fun paymentId => (paymentId, paymentEvents s paymentId) := rfl
  obtain ⟨rows, hrows, hof⟩ : ∃ rows, (groupByPayment s.events).mapM
      (Apar.groupTruth ctx' populationTruth family delay) = .ok rows ∧
        List.Forall₂ (fun g row => paymentEvents s g.1 ≠ [] ∧ RowOf ctx' g.1 (paymentEvents s g.1) row)
          (groupByPayment s.events) rows := by
    refine mapM_exists_ok fun g hg => ?_
    rw [hgroups] at hg
    obtain ⟨paymentId, hp, rfl⟩ := List.mem_map.1 hg
    rw [mem_sortedSet] at hp
    obtain ⟨row, hrow, hof⟩ := hs.groupTruth N hcovers family delay hp
    exact ⟨row, hrow, paymentEvents_ne_nil.2 hp, hof⟩
  have hids : rows.map TruthRow.paymentId = (groupByPayment s.events).map Prod.fst := by
    rw [← List.forall₂_eq_eq_eq, List.forall₂_map_left_iff, List.forall₂_map_right_iff]
    exact hof.flip.imp fun row g h => h.2.payment
  refine ⟨sortBy TruthRow.eventId rows, ?_, ?_, ?_, ?_⟩
  · unfold assembleTruth
    rw [validateEventIdentities_ok (hs.identified N), hrows]
    rfl
  · rw [((sortBy_perm _ _).map _).nodup_iff, hids, hgroups, List.map_map]
    exact (List.map_id _).symm ▸ sortedSet_nodup _
  · intro row hrow
    rw [mem_sortBy] at hrow
    obtain ⟨g, -, hne, hrowOf⟩ := forall₂_mem_right hof hrow
    obtain ⟨e, he, hid⟩ := List.mem_filterMap.1 (paymentEvents_ne_nil.1 hne)
    obtain ⟨paymentId, state, hget, -, hid', -⟩ := hs.payment he
    rw [hid, Option.some.injEq] at hid'
    exact ⟨g.1, state, hid' ▸ hget, hne, hrowOf⟩
  · intro paymentId hne
    have hg : (paymentId, paymentEvents s paymentId) ∈ groupByPayment s.events := by
      rw [hgroups]
      exact List.mem_map.2 ⟨paymentId, mem_sortedSet.2 (paymentEvents_ne_nil.1 hne), rfl⟩
    obtain ⟨row, hrow, -, hrowOf⟩ := forall₂_mem_left hof hg
    exact ⟨row, mem_sortBy.2 hrow, hrowOf⟩

/-- the events of a run are in one currency -/
def OneCurrency (events : List PaymentEvent) : Prop := ∀ e ∈ events, ∀ e' ∈ events, e.currency = e'.currency

/-- the truth assembled from a run's events passes the revalidation against its observations -/
def Accepted (ctx : DecimalContext) (events : List PaymentEvent) (populationTruth : Dict String Bool)
    (family : String) (delay : ℕ) : Prop :=
  ∃ truth observations currency, assembleTruth ctx events populationTruth family delay = .ok truth ∧
    events.mapM scrubEvent = .ok observations ∧
    validateLifecycles truth (sortBy ObservedEvent.eventId observations) = .ok currency

/-- **Acceptance.** The truth of a run is accepted exactly when every payment's returns do not outnumber its settlements,
every outstanding amount is in whole cents and the run uses one currency. -/
theorem Log.accepted_iff (N : NettingTable L) (hs : Log L .default s) (hcovers : Covers populationTruth s.events)
    (family : String) (delay : ℕ) :
    Accepted .default s.events populationTruth family delay ↔
      (∀ paymentId state, s.entityState.get? paymentId = some state →
        N.Netted state.state ∧ (N.Outstanding state.state → WholeCents state.opening.amount)) ∧
      OneCurrency s.events := by
  obtain ⟨truth, htruth, hassembled⟩ := hs.assembled N hcovers family delay
  have hvalid : Accepted .default s.events populationTruth family delay ↔
      ∃ currencies : List String, List.Forall₂
        (fun row c => validateLifecycle (sortBy ObservedEvent.eventId (s.events.map observed)) row = .ok c) truth
          currencies ∧ currencies.dedup.length ≤ 1 := by
    constructor
    · rintro ⟨truth', observations, currency, htruth', hobservations, hv⟩
      rw [htruth, Except.ok.injEq] at htruth'
      rw [hs.observations, Except.ok.injEq] at hobservations
      subst htruth' hobservations
      unfold validateLifecycles at hv
      simp only [except_bind_eq_ok, check_eq_ok, decide_eq_true_eq] at hv
      obtain ⟨-, -, currencies, hrows, -, hone, -⟩ := hv
      exact ⟨currencies, mapM_eq_ok.1 hrows, hone⟩
    · rintro ⟨currencies, hrows, hone⟩
      refine ⟨truth, _, currencies.head?, htruth, hs.observations, ?_⟩
      unfold validateLifecycles
      simp only [except_bind_eq_ok, check_eq_ok, decide_eq_true_eq, except_pure_eq_ok]
      exact ⟨(), hassembled.nodup, currencies, mapM_eq_ok.2 hrows, (), hone, rfl⟩
  rw [hvalid]
  -- a logged event belongs to a payment whose row is in the truth
  have hrowOf : ∀ e ∈ s.events, ∃ paymentId state row, s.entityState.get? paymentId = some state ∧
      paymentEvents s paymentId ≠ [] ∧ row ∈ truth ∧ RowOf .default paymentId (paymentEvents s paymentId) row ∧
        e.currency = state.opening.currency := by
    intro e he
    obtain ⟨paymentId, state, hget, hof, hid, -⟩ := hs.payment he
    have hne : paymentEvents s paymentId ≠ [] := paymentEvents_ne_nil.2 (List.mem_filterMap.2 ⟨e, he, hid⟩)
    obtain ⟨row, hrow, hrowOf⟩ := hassembled.covers paymentId hne
    exact ⟨paymentId, state, row, hget, hne, hrow, hrowOf, hof.currency⟩
  constructor
  · rintro ⟨currencies, hrows, hone⟩
    rw [dedup_length_le_one] at hone
    constructor
    · intro paymentId state hget
      by_cases hne : paymentEvents s paymentId = []
      · -- a payment without events is still in the created state
        have hpath := hs.path _ _ hget
        rw [hne, List.map_nil] at hpath
        have h1 : N.settled state.state = 0 := (hpath.settled N).symm
        have h2 : N.reversed state.state = 0 := (hpath.reversed N).symm
        unfold NettingTable.Netted NettingTable.Outstanding
        rw [h1, h2]
        exact ⟨le_refl 0, fun h => absurd h (lt_irrefl 0)⟩
      · obtain ⟨row, hrow, hrowOf⟩ := hassembled.covers paymentId hne
        obtain ⟨c, -, hc⟩ := forall₂_mem_left hrows hrow
        exact ((hs.validate_row N hget hne hrowOf).1 hc).2
    · intro e he e' he'
      obtain ⟨paymentId, state, row, hget, hne, hrow, hof, hcurrency⟩ := hrowOf e he
      obtain ⟨paymentId', state', row', hget', hne', hrow', hof', hcurrency'⟩ := hrowOf e' he'
      obtain ⟨c, hcmem, hc⟩ := forall₂_mem_left hrows hrow
      obtain ⟨c', hcmem', hc'⟩ := forall₂_mem_left hrows hrow'
      rw [hcurrency, hcurrency', ← ((hs.validate_row N hget hne hof).1 hc).1,
        ← ((hs.validate_row N hget' hne' hof').1 hc').1]
      exact hone c hcmem c' hcmem'
  · rintro ⟨hpayments, hone⟩
    obtain ⟨currencies, hrows, hcurrencies⟩ : ∃ currencies, truth.mapM
        (validateLifecycle (sortBy ObservedEvent.eventId (s.events.map observed))) = .ok currencies ∧
          List.Forall₂ (fun _ c => ∃ e ∈ s.events, c = e.currency) truth currencies := by
      refine mapM_exists_ok fun row hrow => ?_
      obtain ⟨paymentId, state, hget, hne, hof⟩ := hassembled.row row hrow
      refine ⟨state.opening.currency, (hs.validate_row N hget hne hof).2 ⟨rfl, hpayments _ _ hget⟩, ?_⟩
      obtain ⟨e, he⟩ := List.exists_mem_of_ne_nil _ hne
      refine ⟨e, List.mem_of_mem_filter he, ?_⟩
      exact ((hs.netted N hget).events e he).currency.symm
    refine ⟨currencies, mapM_eq_ok.1 hrows, dedup_length_le_one.2 fun c hc c' hc' => ?_⟩
    obtain ⟨-, -, e, he, rfl⟩ := forall₂_mem_right hcurrencies hc
    obtain ⟨-, -, e', he', rfl⟩ := forall₂_mem_right hcurrencies hc'
    exact hone e he e' he'

end Rows

/-! ## The ledger side -/

section Merchant

variable [Fintype R] [DecidableEq R] {s : Engine (Command O) (PaymentState S R) Unit}

/-- the value the ledger has moved onto the accounts of some roles with the entries of a payment -/
def movedTo (s : Engine (Command O) (PaymentState S R) Unit) (paymentId : String) (state : PaymentState S R)
    (roles : List R) : ℚ :=
  (roles.map fun r => Ledger.netEffect (paymentEntries s paymentId) (state.opening.accounts r)
    state.opening.currency).sum

theorem positionOn_accounts {ctx : DecimalContext} (T : PositionTable L) {state : PaymentState S R}
    (h : L.Canonical ctx state.opening) (r : R) :
    positionOn T state (state.opening.accounts r) state.opening.currency =
      T.position state.state r state.opening.amount.value state.opening.fee.value := by
  unfold positionOn
  simp only [if_pos, (accounts_injective T h).eq_iff]
  rw [Finset.sum_ite_eq' Finset.univ r, if_pos (Finset.mem_univ r)]

/-- the roles that hold what a rail counts as settled -/
structure MerchantSide (T : PositionTable L) (N : NettingTable L) where
  roles : List R
  held : ∀ st a f, (roles.map fun r => T.position st r a f).sum = if N.reversed st < N.settled st then a else 0

/-- **Netting against the ledger.** The ledger holds the outstanding settlement on the merchant side; the truth row
agrees with it exactly when the payment's returns do not outnumber its settlements. -/
theorem Log.netting_value {T : PositionTable L} {N : NettingTable L} (M : MerchantSide T N) {ledger : Ledger}
    (hs : Log L .default s) (hinv : Inv T .default ledger s) {paymentId : String} {state : PaymentState S R}
    (hget : s.entityState.get? paymentId = some state) :
    (movedTo s paymentId state M.roles =
      if N.reversed state.state < N.settled state.state then state.opening.amount.value else 0) ∧
    ((netSettled .default (paymentEvents s paymentId)).value = movedTo s paymentId state M.roles ↔
      N.Netted state.state) := by
  have hcanonical := (hs.stored _ _ hget).2.2
  obtain ⟨hamount, -⟩ := lifecycleAmount hcanonical
  have hmoved : movedTo s paymentId state M.roles =
      if N.reversed state.state < N.settled state.state then state.opening.amount.value else 0 := by
    rw [← M.held state.state state.opening.amount.value state.opening.fee.value, movedTo]
    congr 1
    refine List.map_congr_left fun r _ => ?_
    rw [hinv.net, storedPosition, hget]
    exact positionOn_accounts T hcanonical r
  obtain ⟨hnet, hneg⟩ := netOf_value hamount (N.counts state.state)
  refine ⟨hmoved, ?_⟩
  rw [hmoved, (hs.netted N hget).netSettled]
  constructor
  · intro heq
    by_contra hnot
    have hlt := hneg (not_le.1 hnot)
    rw [heq, if_neg (by unfold NettingTable.Netted at hnot; omega)] at hlt
    exact lt_irrefl 0 hlt
  · exact hnet

variable [DecidableEq S]

/-- the evaluator's accounting of a run agrees with the ledger's: every payment nets to what the ledger holds on the
merchant side, its amount in the outstanding states and nothing in the others, and the assembled truth is accepted -/
structure NettingAgrees (s : Engine (Command O) (PaymentState S R) Unit) (merchant : List R) (outstanding : List S)
    (populationTruth : Dict String Bool) (family : String) (delay : ℕ) : Prop where
  net : ∀ paymentId state, s.entityState.get? paymentId = some state →
    (netSettled .default (paymentEvents s paymentId)).value = movedTo s paymentId state merchant
  moved : ∀ paymentId state, s.entityState.get? paymentId = some state →
    movedTo s paymentId state merchant = if state.state ∈ outstanding then state.opening.amount.value else 0
  accepted : Accepted .default s.events populationTruth family delay

theorem Log.nettingAgrees_iff {T : PositionTable L} {N : NettingTable L} (M : MerchantSide T N) {outstanding : List S}
    (houtstanding : ∀ st, N.Outstanding st ↔ st ∈ outstanding) {ledger : Ledger} (hs : Log L .default s)
    (hinv : Inv T .default ledger s) {populationTruth : Dict String Bool} (hcovers : Covers populationTruth s.events)
    (family : String) (delay : ℕ) :
    NettingAgrees s M.roles outstanding populationTruth family delay ↔
      (∀ paymentId state, s.entityState.get? paymentId = some state →
        N.Netted state.state ∧ (state.state ∈ outstanding → WholeCents state.opening.amount)) ∧
      OneCurrency s.events := by
  have haccepted := hs.accepted_iff N hcovers family delay
  constructor
  · intro h
    obtain ⟨hpayments, hone⟩ := haccepted.1 h.accepted
    refine ⟨fun paymentId state hget => ?_, hone⟩
    obtain ⟨hnetted, hwhole⟩ := hpayments paymentId state hget
    exact ⟨hnetted, fun hmem => hwhole ((houtstanding _).2 hmem)⟩
  · rintro ⟨hpayments, hone⟩
    refine ⟨?_, ?_, ?_⟩
    · intro paymentId state hget
      exact (hs.netting_value M hinv hget).2.2 (hpayments paymentId state hget).1
    · intro paymentId state hget
      rw [(hs.netting_value M hinv hget).1]
      exact if_congr (houtstanding _) rfl rfl
    · refine haccepted.2 ⟨fun paymentId state hget => ?_, hone⟩
      obtain ⟨hnetted, hwhole⟩ := hpayments paymentId state hget
      exact ⟨hnetted, fun ho => hwhole ((houtstanding _).1 ho)⟩

end Merchant

/-! ## The two rails -/

def cardNetting : NettingTable cardRail where
  settled := fun
    | .created | .authorized | .declined | .cleared | .reversed => 0
    | _ => 1
  reversed := fun
    | .reversed | .refunded | .chargeback => 1
    | .recovery => 2
    | _ => 0
  settled_created := rfl
  reversed_created := rfl
  settled_step := by
    intro st o next kind effect h
    change Card.transition st o = _ at h
    unfold Card.transition at h
    split at h <;> cases h <;> rfl
  reversed_step := by
    intro st o next kind effect h
    change Card.transition st o = _ at h
    unfold Card.transition at h
    split at h <;> cases h <;> rfl
  opening := by
    intro st o next kind effect h
    change Card.transition st o = _ at h
    unfold Card.transition at h
    split at h <;> cases h <;> decide
  counts := fun st => by cases st <;> decide

def a2aNetting : NettingTable a2aRail where
  settled := fun
    | .created | .initiated | .accepted | .rejected => 0
    | _ => 1
  reversed := fun
    | .returned | .recovered => 1
    | _ => 0
  settled_created := rfl
  reversed_created := rfl
  settled_step := by
    intro st o next kind effect h
    change A2A.transition st o = _ at h
    unfold A2A.transition at h
    split at h <;> cases h <;> rfl
  reversed_step := by
    intro st o next kind effect h
    change A2A.transition st o = _ at h
    unfold A2A.transition at h
    split at h <;> cases h <;> rfl
  opening := by
    intro st o next kind effect h
    change A2A.transition st o = _ at h
    unfold A2A.transition at h
    split at h <;> cases h <;> decide
  counts := fun st => by cases st <;> decide

def cardMerchant : MerchantSide cardPositions cardNetting where
  roles := [.payee, .fee]
  held := fun st a f => by cases st <;> simp [cardPositions, cardPosition, cardNetting]

/-- frozen funds are still with the merchant side -/
def a2aMerchant : MerchantSide a2aPositions a2aNetting where
  roles := [.payee, .frozen]
  held := fun st a f => by cases st <;> simp [a2aPositions, a2aPosition, a2aNetting]

theorem cardNetting_netted (st : CardState) : cardNetting.Netted st ↔ st ≠ .reversed ∧ st ≠ .recovery := by
  unfold NettingTable.Netted
  cases st <;> decide

theorem cardNetting_outstanding (st : CardState) :
    cardNetting.Outstanding st ↔ st ∈ [CardState.settled, .reported, .dispute] := by
  unfold NettingTable.Outstanding
  cases st <;> decide

theorem a2aNetting_netted (st : A2AState) : a2aNetting.Netted st := by
  unfold NettingTable.Netted
  cases st <;> decide

theorem a2aNetting_outstanding (st : A2AState) :
    a2aNetting.Outstanding st ↔ st ∈ [A2AState.posted, .reported, .frozen] := by
  unfold NettingTable.Outstanding
  cases st <;> decide

/-- **Netting agrees with the ledger.** In every healthy state of every run, the evaluator's accounting agrees with the
ledger's exactly when no card payment is REVERSED or in RECOVERY, every outstanding amount is in whole cents and one
currency is used. -/
theorem netting_agrees [Sha256] {opening : Dict AccountReference Decimal} {allow : List AccountReference}
    {ledger : Ledger} (hledger : Ledger.create .default opening allow = .ok ledger) (rail : Rail) (viewpoint : String)
    (head b6 b7 b8 b9 : ℕ) (start : Time) (populationTruth : Dict String Bool) (family : String) (delay : ℕ) :
    (∀ (calls : List (Engine.EngineCall (Command CardOperation))) (s : CardEngine),
      s = Engine.afterCalls (cardRail.adapter .default)
        (Engine.fresh rail viewpoint (Engine.versionedPrefix head b6 b7 b8 b9) start ledger ()) calls →
      s.failure = none → Covers populationTruth s.events →
      (NettingAgrees s [.payee, .fee] [.settled, .reported, .dispute] populationTruth family delay ↔
        (∀ paymentId state, s.entityState.get? paymentId = some state →
          (state.state ≠ .reversed ∧ state.state ≠ .recovery) ∧
            (state.state ∈ [CardState.settled, .reported, .dispute] → WholeCents state.opening.amount)) ∧
        OneCurrency s.events)) ∧
    (∀ (calls : List (Engine.EngineCall (Command A2AOperation))) (s : A2AEngine),
      s = Engine.afterCalls (a2aRail.adapter .default)
        (Engine.fresh rail viewpoint (Engine.versionedPrefix head b6 b7 b8 b9) start ledger ()) calls →
      s.failure = none → Covers populationTruth s.events →
      (NettingAgrees s [.payee, .frozen] [.posted, .reported, .frozen] populationTruth family delay ↔
        (∀ paymentId state, s.entityState.get? paymentId = some state →
          state.state ∈ [A2AState.posted, .reported, .frozen] → WholeCents state.opening.amount) ∧
        OneCurrency s.events)) := by
  have hhead := Engine.versionedPrefix_lt head b6 b7 b8 b9
  constructor
  · rintro calls s rfl hf hcovers
    have hlog := Engine.calls_inv (log_preserved cardRail .default) calls
      (log_fresh cardRail .default rail viewpoint hhead start ledger) hf
    have hinv := Engine.calls_inv (inv_preserved cardPositions .default ledger) calls
      (inv_fresh cardPositions hledger rail viewpoint hhead start) hf
    refine (hlog.nettingAgrees_iff cardMerchant cardNetting_outstanding hinv hcovers family delay).trans ?_
    simp only [cardNetting_netted]
  · rintro calls s rfl hf hcovers
    have hlog := Engine.calls_inv (log_preserved a2aRail .default) calls
      (log_fresh a2aRail .default rail viewpoint hhead start ledger) hf
    have hinv := Engine.calls_inv (inv_preserved a2aPositions .default ledger) calls
      (inv_fresh a2aPositions hledger rail viewpoint hhead start) hf
    refine (hlog.nettingAgrees_iff a2aMerchant a2aNetting_outstanding hinv hcovers family delay).trans ?_
    simp only [a2aNetting_netted, true_and]

/-! ## Two runs -/

namespace Card

def samplePopulation : Dict String Bool := .ofList [(Uuid.formatUuid 1, true), (Uuid.formatUuid 2, true)]

def cleanLedger : Ledger := ((Ledger.create .default ∅ [.account "payer"]).toOption).getD ⟨[], ∅, [], []⟩

/-- an authorisation and its reversal -/
def reversalCalls : List (Engine.EngineCall (Command CardOperation)) :=
  [.schedule 0 0 ⟨some .authorizeCard, "card.authorize", samplePayload⟩,
    .schedule 0 1 ⟨some .reverseCardAuthorization, "card.reverse", .ofList [
      ("payment_id", .text "p1"), ("idempotency_key", .text "card.reverse:p1")]⟩, .run 2 none]

def reversalRun : CardEngine :=
  letI := sampleDigest
  Engine.afterCalls (cardRail.adapter .default)
    (Engine.fresh .card "development" (Engine.versionedPrefix 1 2 3 4 5) 0 cleanLedger ()) reversalCalls

def reversalPlan : List (Engine.Planned (Request CardOperation CardRole)) :=
  [(0, 0, ⟨.authorizeCard, "p1", "card.authorize:p1", some sampleOpen⟩),
    (0, 1, ⟨.reverseCardAuthorization, "p1", "card.reverse:p1", none⟩)]

theorem reversalPlan_wellformed : ∀ c ∈ reversalPlan, Lifecycle.Wellformed cardRail .default c.2.2 := by
  intro c hc
  simp only [reversalPlan, List.mem_cons, List.not_mem_nil, or_false] at hc
  rcases hc with rfl | rfl
  · exact Lifecycle.wellformed_opening rfl sampleOpen_request
  · exact Lifecycle.wellformed_followup rfl (by decide) (by decide)

theorem reversalRun_eval : reversalRun.failure = none ∧
    (reversalRun.entityState.items.map fun p => (p.1, p.2.state)) = [("p1", .reversed)] ∧
    netSettled .default (paymentEvents reversalRun "p1") = ⟨-2, -2⟩ ∧
    (do
      let truth ← assembleTruth .default reversalRun.events samplePopulation "card_testing_cnp" 7
      let observations ← reversalRun.events.mapM scrubEvent
      validateLifecycles truth (sortBy ObservedEvent.eventId observations)) =
      .error (.metric "lifecycle net settlement must be nonnegative") := by
  let _ := sampleDigest
  have heval : (Book.moves cardRail .default "development" (Engine.versionedPrefix 1 2 3 4 5) ⟨cleanLedger, ∅, [], 0⟩
      reversalPlan).any (fun b => decide ((b.payments.items.map fun p => (p.1, p.2.state)) = [("p1", .reversed)] ∧
        netSettled .default (b.events.filter fun e => e.paymentId? = some "p1") = ⟨-2, -2⟩ ∧
        (do
          let truth ← assembleTruth .default b.events samplePopulation "card_testing_cnp" 7
          let observations ← b.events.mapM scrubEvent
          validateLifecycles truth (sortBy ObservedEvent.eventId observations)) =
          .error (.metric "lifecycle net settlement must be nonnegative"))) = true := by
    decide +kernel
  obtain ⟨s, b, hrun, hhealthy, hkeeps, hholds⟩ := Lifecycle.plan_evaluated sampleDigest_text card_tables
    cardPositions.roles "development" 1 2 3 4 5 reversalPlan_wellformed
    (by decide : ∀ c ∈ reversalPlan, (0 : Time) ≤ c.1) (by decide) heval
  obtain ⟨hitems, hnet, hrejected⟩ := of_decide_eq_true hholds
  have hsame : reversalRun = s := hrun
  rw [hsame, paymentEvents, hkeeps.events, ← hitems, ← hkeeps.payments, List.map_map]
  exact ⟨hhealthy, rfl, hnet, hrejected⟩

end Card

/-- the authorised payment of the sample run -/
theorem netting_agrees_sample :
    NettingAgrees Card.sampleRun [.payee, .fee] [.settled, .reported, .dispute] Card.samplePopulation
      "card_testing_cnp" 7 := by
  let _ : Sha256 := Card.sampleDigest
  obtain ⟨hhealthy, -, hitems, hevents⟩ := Card.sampleRun_eval
  obtain ⟨e, hevent, hparties⟩ := List.map_eq_singleton_iff.1 hevents
  obtain ⟨p, hp, hpayment⟩ := List.map_eq_singleton_iff.1 hitems
  simp only [Prod.mk.injEq] at hparties hpayment
  have hcovers : Covers Card.samplePopulation Card.sampleRun.events := by
    intro e' he'
    rw [hevent, List.mem_singleton] at he'
    subst he'
    rw [hparties.1, hparties.2]
    exact ⟨⟨true, by decide +kernel⟩, true, by decide +kernel⟩
  refine ((netting_agrees Card.sampleLedger_created .card "development" 1 2 3 4 5 0 Card.samplePopulation
    "card_testing_cnp" 7).1 Card.sampleCalls Card.sampleRun rfl hhealthy hcovers).2 ⟨?_, ?_⟩
  · intro paymentId state hget
    have hmem := Dict.get?_eq_some.1 hget
    rw [hp, List.mem_singleton] at hmem
    have hstate : state.state = .authorized := by
      rw [← hmem] at hpayment
      exact hpayment.1
    rw [hstate]
    exact ⟨⟨by decide, by decide⟩, fun h => absurd h (by decide)⟩
  · intro e₁ h₁ e₂ h₂
    rw [hevent, List.mem_singleton] at h₁ h₂
    rw [h₁, h₂]

/-- **A released authorisation nets to a negative value.** The ledger has returned the two cents to the payer, the truth
row nets them to minus two cents, and the revalidation rejects it. -/
theorem netting_negative : Card.reversalRun.failure = none ∧
    (netSettled .default (paymentEvents Card.reversalRun "p1")).value < 0 ∧
    (do
      let truth ← assembleTruth .default Card.reversalRun.events Card.samplePopulation "card_testing_cnp" 7
      let observations ← Card.reversalRun.events.mapM scrubEvent
      validateLifecycles truth (sortBy ObservedEvent.eventId observations)) =
      .error (.metric "lifecycle net settlement must be nonnegative") ∧
    ¬ NettingAgrees Card.reversalRun [.payee, .fee] [.settled, .reported, .dispute] Card.samplePopulation
      "card_testing_cnp" 7 := by
  obtain ⟨hhealthy, hitems, hnet, hrejected⟩ := Card.reversalRun_eval
  have hvalue : (netSettled .default (paymentEvents Card.reversalRun "p1")).value < 0 := by
    rw [hnet, Decimal.value_lt_zero]
    decide
  refine ⟨hhealthy, hvalue, hrejected, fun hagrees => ?_⟩
  obtain ⟨⟨i, state⟩, hp, hpayment⟩ := List.map_eq_singleton_iff.1 hitems
  simp only [Prod.mk.injEq] at hpayment
  obtain ⟨rfl, hstate⟩ := hpayment
  have hget : Card.reversalRun.entityState.get? "p1" = some state := by
    rw [Dict.get?_eq_some, hp]
    simp
  have hmoved := hagrees.moved _ _ hget
  rw [← hagrees.net _ _ hget, hstate, if_neg (by decide)] at hmoved
  exact absurd hmoved hvalue.ne

end Apar
