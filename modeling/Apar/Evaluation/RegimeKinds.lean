/-
The condition of each regime, and that it is exact.

- `campaignStart`, `nearestMicrosecond`: the arithmetic of compressed bursts; `nearestMicrosecond_mono`.
- `cents`: the arithmetic of benign amounts; `NetsInCents`.
- `MergesApart`: controls whose payments no observation of the base corpus names.
- `regime_lifecycles`: the derived corpus is accepted exactly under the condition of its kind.
-/
import Apar.Evaluation.RegimeLifecycles

namespace Apar

open Exec

namespace Regimes

variable {g : ObservedEvent → ObservedEvent} {corpus changed : FrozenCorpus} {c : Option String}

/-! ## Regimes that keep times and amounts -/

/-- a rewriting of neither times nor amounts keeps a corpus accepted -/
theorem validate_kept (hok : corpus.validate = .ok c) (hobs : changed.observations = corpus.observations.map g)
    (htruth : changed.truth = corpus.truth) (hg : ∀ e ∈ corpus.observations, Same e (g e))
    (htime : ∀ e ∈ corpus.observations, (g e).eventTime = e.eventTime)
    (hamount : ∀ e ∈ corpus.observations, (g e).amount = e.amount) : ∃ c', changed.validate = .ok c' := by
  have r : Rewritten g id corpus changed := ⟨hobs, by rw [htruth, List.map_id], hg, fun _ _ => rfl, fun _ _ => rfl⟩
  refine (r.validate_iff hok).2 fun t ht => ?_
  obtain ⟨currency, -, hd⟩ := describes_of_validate hok ht
  have hmem : ∀ {e}, e ∈ lifecycleOf corpus.observationById.values t.paymentId → e ∈ corpus.observations :=
    fun he => mem_observationById (mem_lifecycleOf.1 he).1
  refine (r.describes_iff ht hd).2 ⟨?_, ?_, ?_⟩
  · intro a ha b hb hab
    have ha' := mem_observationById (List.mem_of_mem_filter ha)
    have hb' := mem_observationById (List.mem_of_mem_filter hb)
    unfold observedKey at hab ⊢
    rwa [htime a ha', htime b hb', (hg a ha').eventId, (hg b hb').eventId]
  · show _ = t.firstSettlementAt
    rw [← hd.firstSettlement]
    cases hhead : ((lifecycleOf corpus.observationById.values t.paymentId).filter
        fun e => isSettlement e.eventType).head? with
    | none => rfl
    | some e => exact congrArg some (htime e (hmem (List.mem_of_mem_filter (List.mem_of_head? hhead))))
  · have hsame : ∀ p : ObservedEvent → Bool, (((lifecycleOf corpus.observationById.values t.paymentId).filter p).map
        fun e => (g e).amount) = ((lifecycleOf corpus.observationById.values t.paymentId).filter p).map
          ObservedEvent.amount :=
      fun p => List.map_congr_left fun e he => hamount e (hmem (List.mem_of_mem_filter he))
    rw [hsame, hsame]
    exact hd.net

/-! ## Compressed bursts -/

/-- the first event of a campaign -/
def campaignStart (corpus : FrozenCorpus) (campaign : String) : Option Time :=
  ((corpus.observations.filter fun e => corpus.truth.any fun t =>
    t.paymentId = e.paymentId && t.campaignId = campaign).map ObservedEvent.eventTime).min?

/-- microseconds times a ratio, in 28 digits and to the nearest microsecond -/
def nearestMicrosecond (numerator denominator micros : ℤ) : ℤ :=
  Decimal.halfEven (Decimal.roundTo 28 (Decimal.roundTo 28 (micros * numerator) / denominator))

/-- no two events of a payment round to one microsecond with their ids against the order of their times -/
def CompressesInOrder (numerator denominator : ℤ) (corpus : FrozenCorpus) : Prop :=
  ∀ t ∈ corpus.truth, ∀ start, campaignStart corpus t.campaignId = some start →
    ∀ a ∈ paymentEventsOf corpus t.paymentId, ∀ b ∈ paymentEventsOf corpus t.paymentId, a.eventTime < b.eventTime →
      nearestMicrosecond numerator denominator (a.eventTime - start) =
        nearestMicrosecond numerator denominator (b.eventTime - start) → a.eventId < b.eventId

theorem nearestMicrosecond_mono {n d x y : ℤ} (hn : 0 < n) (hd : 0 < d) (hx : 0 ≤ x) (h : x ≤ y) :
    nearestMicrosecond n d x ≤ nearestMicrosecond n d y := by
  have hn' : (0 : ℚ) < n := by exact_mod_cast hn
  have hd' : (0 : ℚ) < d := by exact_mod_cast hd
  have hx' : (0 : ℚ) ≤ (x : ℚ) * n := mul_nonneg (by exact_mod_cast hx) hn'.le
  have hxy : (x : ℚ) * n ≤ (y : ℚ) * n := mul_le_mul_of_nonneg_right (by exact_mod_cast h) hn'.le
  have hproduct := Decimal.roundTo_mono (p := 28) (by norm_num) hx' hxy
  have hnonneg := Decimal.roundTo_nonneg (p := 28) hx'
  exact Decimal.halfEven_mono (Decimal.roundTo_mono (by norm_num) (div_nonneg hnonneg hd'.le)
    (div_le_div_of_nonneg_right hproduct hd'.le))

theorem compressed_eq {n d micros z : ℤ} (h : compressed n d micros = .ok z) : z = nearestMicrosecond n d micros := by
  unfold compressed at h
  cases hq : Decimal.div 28 (Decimal.mul .default ⟨micros, 0⟩ ⟨n, 0⟩) ⟨d, 0⟩ with
  | none =>
    rw [hq] at h
    cases h
  | some q =>
    rw [hq] at h
    dsimp only at h
    cases hr : q.quantize .default 0 with
    | none =>
      rw [hr] at h
      cases h
    | some r =>
      rw [hr, Except.ok.injEq] at h
      have hint : ∀ z : ℤ, (⟨z, 0⟩ : Decimal).value = z := fun z => by simp [Decimal.value]
      rw [← h, Decimal.quantize_rescale hr]
      show q.rescale 0 = _
      rw [Decimal.rescale_eq, Decimal.value_div (by norm_num) hq, Decimal.value_mul, hint, hint, hint, zpow_zero, div_one]
      rfl

/-- the least of a list, after one more number -/
theorem min?_concat (xs : List Time) (x : Time) : (xs ++ [x]).min? = some (xs.min?.elim x (min · x)) := by
  cases xs with
  | nil => rfl
  | cons y ys => rw [List.cons_append, List.min?_cons', List.min?_cons', List.foldl_append]; rfl

/-- the anchors are the first events of the campaigns -/
theorem anchors_eq {campaignByPayment : Dict String String} {observations : List ObservedEvent}
    {anchors : Dict String Time} (h : observations.foldlM (anchor campaignByPayment) ∅ = .ok anchors)
    (campaign : String) : anchors.get? campaign =
      ((observations.filter fun e => campaignByPayment.get? e.paymentId = some campaign).map
        ObservedEvent.eventTime).min? := by
  induction observations using List.reverseRecOn generalizing anchors with
  | nil =>
    cases h
    rfl
  | append_singleton observations e ih =>
    rw [List.foldlM_append, except_bind_eq_ok] at h
    obtain ⟨before, hbefore, h⟩ := h
    simp only [List.foldlM_cons, List.foldlM_nil, except_bind_eq_ok, except_pure_eq_ok] at h
    obtain ⟨_, h, rfl⟩ := h
    have ih := ih hbefore
    rw [List.filter_append, List.map_append]
    unfold anchor at h
    cases hc : campaignByPayment.get? e.paymentId with
    | none =>
      rw [hc] at h
      cases h
    | some own =>
      rw [hc] at h
      dsimp only at h
      by_cases hown : own = campaign
      · subst hown
        rw [List.filter_singleton, decide_eq_true hc, cond_true, List.map_singleton, min?_concat, ← ih]
        cases hget : before.get? own with
        | none =>
          rw [hget, Except.ok.injEq] at h
          rw [← h, Dict.get?_set_self]
          rfl
        | some t =>
          rw [hget, Except.ok.injEq] at h
          rw [← h]
          split_ifs with hlt
          · rw [Dict.get?_set_self]
            exact congrArg some (min_eq_right hlt.le).symm
          · rw [hget]
            exact congrArg some (min_eq_left (not_lt.1 hlt)).symm
      · have hno : decide (campaignByPayment.get? e.paymentId = some campaign) = false := by
          rw [hc]
          simpa using hown
        rw [List.filter_singleton, hno, cond_false, List.map_nil, List.append_nil, ← ih]
        cases hget : before.get? own with
        | none =>
          rw [hget, Except.ok.injEq] at h
          rw [← h, Dict.get?_set_of_ne _ _ (Ne.symm hown)]
        | some t =>
          rw [hget, Except.ok.injEq] at h
          rw [← h]
          split_ifs
          · rw [Dict.get?_set_of_ne _ _ (Ne.symm hown)]
          · rfl

theorem truthByPayment_items {truth : List TruthRow} {d : Dict String TruthRow} (h : truthByPayment truth = .ok d) :
    d.items = truth.map fun t => (t.paymentId, t) := by
  unfold truthByPayment at h
  induction truth using List.reverseRecOn generalizing d with
  | nil =>
    cases h
    rfl
  | append_singleton truth t ih =>
    rw [List.foldlM_append, except_bind_eq_ok] at h
    obtain ⟨before, hbefore, h⟩ := h
    simp only [List.foldlM_cons, List.foldlM_nil, except_bind_eq_ok, except_pure_eq_ok, check_eq_ok,
      decide_eq_true_eq] at h
    obtain ⟨_, ⟨_, hnew, rfl⟩, rfl⟩ := h
    rw [List.map_append, ← ih hbefore]
    exact Assoc.set_of_not_mem hnew

theorem campaignByPayment_get? {truth : List TruthRow} {d : Dict String TruthRow} (h : truthByPayment truth = .ok d)
    {paymentId campaign : String} :
    (Dict.ofList (d.items.map fun p => (p.1, p.2.campaignId))).get? paymentId = some campaign ↔
      ∃ t ∈ truth, t.paymentId = paymentId ∧ t.campaignId = campaign := by
  have hn : ((d.items.map fun p => (p.1, p.2.campaignId)).map Prod.fst).Nodup := by
    rw [List.map_map]
    exact d.nodup
  rw [Dict.get?_eq_some, Dict.items_ofList hn, truthByPayment_items h]
  simp only [List.mem_map, exists_exists_and_eq_and, Prod.mk.injEq]

theorem shifted_eq {n d : ℤ} {anchors : Dict String Time} {value value' : Time} {campaign : String}
    (h : shifted n d anchors value campaign = .ok value') :
    ∃ start, anchors.get? campaign = some start ∧ value' = start + nearestMicrosecond n d (value - start) := by
  unfold shifted at h
  cases hstart : anchors.get? campaign with
  | none =>
    rw [hstart] at h
    cases h
  | some start =>
    rw [hstart] at h
    simp only [except_bind_eq_ok] at h
    obtain ⟨z, hz, h⟩ := h
    unfold shiftTime at h
    split_ifs at h
    rw [Except.ok.injEq] at h
    exact ⟨start, rfl, by rw [← h, compressed_eq hz]⟩

theorem shiftedOption_eq {shift : Time → Except SimError Time} {t t' : Option Time} (h : shiftedOption shift t = .ok t') :
    (t = none ∧ t' = none) ∨ ∃ x y, t = some x ∧ t' = some y ∧ shift x = .ok y := by
  cases t with
  | none =>
    cases h
    exact .inl ⟨rfl, rfl⟩
  | some x =>
    change some <$> shift x = .ok t' at h
    cases hx : shift x with
    | error e =>
      rw [hx] at h
      cases h
    | ok y =>
      rw [hx] at h
      cases h
      exact .inr ⟨x, y, rfl, rfl, hx⟩

/-- what compression does to observations and truth -/
structure Compressed (n d : ℤ) (g : ObservedEvent → ObservedEvent) (h : TruthRow → TruthRow)
    (corpus changed : FrozenCorpus) : Prop extends Rewritten g h corpus changed where
  amount : ∀ e ∈ corpus.observations, (g e).amount = e.amount
  net : ∀ t ∈ corpus.truth, (h t).netSettledValue = t.netSettledValue
  eventTime : ∀ t ∈ corpus.truth, ∀ e ∈ corpus.observations, e.paymentId = t.paymentId →
    ∃ start, campaignStart corpus t.campaignId = some start ∧ start ≤ e.eventTime ∧
      (g e).eventTime = start + nearestMicrosecond n d (e.eventTime - start)
  firstSettlement : ∀ t ∈ corpus.truth, ∀ start, campaignStart corpus t.campaignId = some start →
    (h t).firstSettlementAt = t.firstSettlementAt.map fun x => start + nearestMicrosecond n d (x - start)

theorem compressedBursts_ok {n d : ℤ} (hok : corpus.validate = .ok c) (h : compressedBursts corpus n d = .ok changed) :
    ∃ g h, Compressed n d g h corpus changed := by
  simp only [compressedBursts, except_bind_eq_ok, except_pure_eq_ok] at h
  obtain ⟨byPayment, hby, anchors, hanchors, observations, hobs, truth, htruth, rfl⟩ := h
  obtain ⟨g, rfl, hg⟩ := mapM_eq_map hobs
  obtain ⟨k, rfl, hk⟩ := mapM_eq_map htruth
  have hnodup := (validateLifecycles_ok.1 hok).1
  simp only [except_bind_eq_ok, except_pure_eq_ok] at hg hk
  have hstart : ∀ campaign, anchors.get? campaign = campaignStart corpus campaign := by
    intro campaign
    rw [anchors_eq hanchors]
    unfold campaignStart
    refine congrArg (fun es => (List.map ObservedEvent.eventTime es).min?) (List.filter_congr fun e _ => ?_)
    rw [Bool.eq_iff_iff, decide_eq_true_eq, campaignByPayment_get? hby]
    simp
  -- an observation of a truth's payment is shifted from the start of its campaign
  have hevent : ∀ t ∈ corpus.truth, ∀ e ∈ corpus.observations, e.paymentId = t.paymentId →
      ∃ start, campaignStart corpus t.campaignId = some start ∧
        (g e).eventTime = start + nearestMicrosecond n d (e.eventTime - start) := by
    intro t ht e he hpay
    obtain ⟨eventTime, htime, availableAt, -, decisionAt, -, heq⟩ := hg e he
    have hcampaign : (Dict.ofList (byPayment.items.map fun p => (p.1, p.2.campaignId))).getD e.paymentId "" =
        t.campaignId := by
      rw [Dict.getD, (campaignByPayment_get? hby).2 ⟨t, ht, hpay.symm, rfl⟩, Option.getD_some]
    rw [hcampaign] at htime
    obtain ⟨start, hget, hvalue⟩ := shifted_eq htime
    refine ⟨start, (hstart _).symm.trans hget, ?_⟩
    rw [← heq]
    exact hvalue
  refine ⟨g, k, ⟨rfl, rfl, ?_, ?_, ?_⟩, ?_, ?_, ?_, ?_⟩
  · intro e he
    obtain ⟨_, -, _, -, _, -, heq⟩ := hg e he
    rw [← heq]
    exact ⟨rfl, rfl, rfl, rfl⟩
  · intro t ht
    obtain ⟨_, -, _, -, heq⟩ := hk t ht
    rw [← heq]
  · intro t ht
    obtain ⟨_, -, _, -, heq⟩ := hk t ht
    rw [← heq]
  · intro e he
    obtain ⟨_, -, _, -, _, -, heq⟩ := hg e he
    rw [← heq]
  · intro t ht
    obtain ⟨_, -, _, -, heq⟩ := hk t ht
    rw [← heq]
  · intro t ht e he hpay
    obtain ⟨start, hcampaign, hvalue⟩ := hevent t ht e he hpay
    refine ⟨start, hcampaign, ?_, hvalue⟩
    refine (List.min?_eq_some_iff.1 hcampaign).2 _ (List.mem_map_of_mem (List.mem_filter.2 ⟨he, ?_⟩))
    rw [List.any_eq_true]
    exact ⟨t, ht, by simp [hpay]⟩
  · intro t ht start hcampaign
    obtain ⟨firstSettlementAt, hfirst, _, -, heq⟩ := hk t ht
    rw [← heq]
    show firstSettlementAt = _
    rcases shiftedOption_eq hfirst with ⟨hnone, rfl⟩ | ⟨x, y, hsome, rfl, hxy⟩
    · rw [hnone]
      rfl
    · obtain ⟨start', hget, rfl⟩ := shifted_eq hxy
      rw [hstart, hcampaign, Option.some.injEq] at hget
      rw [hsome, hget]
      rfl

/-- **Compressed bursts** keep a corpus accepted exactly when they keep the order of every payment's events. -/
theorem Compressed.validate_iff {n d : ℤ} (hn : 0 < n) (hd : 0 < d) {h : TruthRow → TruthRow}
    (r : Compressed n d g h corpus changed) (hok : corpus.validate = .ok c) :
    (∃ c', changed.validate = .ok c') ↔ CompressesInOrder n d corpus := by
  rw [r.toRewritten.validate_iff hok]
  refine forall₂_congr fun t ht => ?_
  obtain ⟨currency, -, hdescribes⟩ := describes_of_validate hok ht
  have hlifecycle : ∀ {e}, e ∈ lifecycleOf corpus.observationById.values t.paymentId →
      e ∈ corpus.observations ∧ e.paymentId = t.paymentId :=
    fun he => ⟨mem_observationById (mem_lifecycleOf.1 he).1, (mem_lifecycleOf.1 he).2⟩
  have hevents : ∀ {e}, e ∈ paymentEventsOf corpus t.paymentId →
      e ∈ corpus.observations ∧ e.paymentId = t.paymentId :=
    fun he => ⟨mem_observationById (List.mem_of_mem_filter he), of_decide_eq_true (List.mem_filter.1 he).2⟩
  rw [r.toRewritten.describes_iff ht hdescribes]
  -- times move together and amounts stay
  have hfirst : (((lifecycleOf corpus.observationById.values t.paymentId).filter fun e =>
      isSettlement e.eventType).head?.map fun e => (g e).eventTime) = (h t).firstSettlementAt := by
    have hown := hdescribes.firstSettlement
    cases hhead : ((lifecycleOf corpus.observationById.values t.paymentId).filter
        fun e => isSettlement e.eventType).head? with
    | none =>
      obtain ⟨e, he⟩ := List.exists_mem_of_ne_nil _ hdescribes.nonempty
      obtain ⟨start, hstart, -, -⟩ := r.eventTime t ht e (hlifecycle he).1 (hlifecycle he).2
      rw [hhead] at hown
      rw [r.firstSettlement t ht start hstart, ← hown]
      rfl
    | some e =>
      obtain ⟨he, hpay⟩ := hlifecycle (List.mem_of_mem_filter (List.mem_of_head? hhead))
      obtain ⟨start, hstart, -, hvalue⟩ := r.eventTime t ht e he hpay
      rw [hhead] at hown
      rw [r.firstSettlement t ht start hstart, ← hown, Option.map_some, Option.map_some, Option.map_some, hvalue]
  have hamounts : ∀ p : ObservedEvent → Bool, (((lifecycleOf corpus.observationById.values t.paymentId).filter p).map
      fun e => (g e).amount) = ((lifecycleOf corpus.observationById.values t.paymentId).filter p).map
        ObservedEvent.amount :=
    fun p => List.map_congr_left fun e he => r.amount e (hlifecycle (List.mem_of_mem_filter he)).1
  rw [hamounts, hamounts, r.net t ht, hfirst]
  simp only [hdescribes.net, and_true]
  -- equal rounded times leave the order to the ids
  have hkey : ∀ {e}, e ∈ paymentEventsOf corpus t.paymentId → ∀ {start}, campaignStart corpus t.campaignId = some start →
      start ≤ e.eventTime ∧ observedKey (g e) = toLex (start + nearestMicrosecond n d (e.eventTime - start), e.eventId) := by
    intro e he start hstart
    obtain ⟨start', hstart', hle, hvalue⟩ := r.eventTime t ht e (hevents he).1 (hevents he).2
    rw [hstart, Option.some.injEq] at hstart'
    subst hstart'
    unfold observedKey
    rw [hvalue, (r.same e (hevents he).1).eventId]
    exact ⟨hle, rfl⟩
  constructor
  · intro hordered start hstart a ha b hb hlt hmeet
    have hab : observedKey a ≤ observedKey b := Prod.Lex.toLex_le_toLex.2 (.inl hlt)
    have hkeys := hordered a ha b hb hab
    rw [(hkey ha hstart).2, (hkey hb hstart).2, hmeet, Prod.Lex.toLex_le_toLex] at hkeys
    rcases hkeys with hkeys | hkeys
    · exact absurd hkeys (lt_irrefl _)
    · refine lt_of_le_of_ne hkeys.2 fun hid => ?_
      have hsame := List.inj_on_of_nodup_map (paymentEventsOf_nodup t.paymentId) ha hb hid
      rw [hsame] at hlt
      exact absurd hlt (lt_irrefl _)
  · intro hmeet a ha b hb hab
    obtain ⟨start, hstart, -, -⟩ := r.eventTime t ht a (hevents ha).1 (hevents ha).2
    obtain ⟨hstarta, hkeya⟩ := hkey ha hstart
    rw [hkeya, (hkey hb hstart).2, Prod.Lex.toLex_le_toLex]
    unfold observedKey at hab
    rcases Prod.Lex.toLex_le_toLex.1 hab with hlt | ⟨heq, hid⟩
    · have hmono := nearestMicrosecond_mono hn hd (sub_nonneg.2 hstarta) (sub_le_sub_right hlt.le start)
      rcases hmono.lt_or_eq with hless | hequal
      · exact .inl (add_lt_add_right hless start)
      · exact .inr ⟨congrArg (start + ·) hequal, (hmeet start hstart a ha b hb hlt hequal).le⟩
    · have heq : a.eventTime = b.eventTime := heq
      exact .inr ⟨by rw [heq], hid⟩

/-! ## Benign amounts -/

/-- an amount scaled in the default context and rounded to cents -/
def cents (scale amount : Decimal) : ℤ :=
  Decimal.halfEven (DecimalContext.default.round (amount.value * scale.value) / 10 ^ (-2 : ℤ))

/-- no sum of a first part of the cents reaches `10 ^ 34` -/
def SumsFit (xs : List ℤ) : Prop := ∀ ys, ys <+: xs → ys.sum.natAbs < 10 ^ 34

/-- the scaled amounts of every benign payment add up, in cents, to its scaled net -/
def NetsInCents (scale : Decimal) (corpus : FrozenCorpus) : Prop :=
  ∀ t ∈ corpus.truth, t.isFraud = false →
    let lifecycle := lifecycleOf corpus.observationById.values t.paymentId
    let settled := (lifecycle.filter fun e => isSettlement e.eventType).map fun e => cents scale e.amount
    let reversed := (lifecycle.filter fun e => isReversing e.eventType).map fun e => cents scale e.amount
    SumsFit settled ∧ SumsFit reversed ∧ settled.sum - reversed.sum = cents scale t.netSettledValue

theorem scaled_eq {scale value d : Decimal} (h : scaled scale value = .ok d) :
    d = ⟨cents scale value, -2⟩ ∧ (cents scale value).natAbs < 10 ^ 28 := by
  unfold scaled at h
  cases hq : (Decimal.mul .default value scale).quantize .default (-2) with
  | none =>
    rw [hq] at h
    cases h
  | some q =>
    rw [hq, Except.ok.injEq] at h
    subst h
    have hvalue : (Decimal.mul .default value scale).rescale (-2) = cents scale value := by
      rw [Decimal.rescale_eq, Decimal.value_mul]
      rfl
    have hrescale := Decimal.quantize_rescale hq
    rw [hvalue] at hrescale
    have hfits := (Decimal.quantize_spec hq).2
    rw [hrescale] at hfits
    exact ⟨hrescale, Decimal.fits_mk.1 hfits 28 rfl⟩

/-- a net of cents is accepted exactly when the cents add up to it -/
theorem revalidated_cents {settled reversed : List ℤ} {net : ℤ} (hnet : 0 ≤ net) (hfits : net.natAbs < 10 ^ 34) :
    Revalidated (settled.map fun z => ⟨z, -2⟩) (reversed.map fun z => ⟨z, -2⟩) ⟨net, -2⟩ ↔
      SumsFit settled ∧ SumsFit reversed ∧ settled.sum - reversed.sum = net := by
  have hsum : ∀ (xs : List ℤ) (d : Decimal), moneySum (xs.map fun z => ⟨z, -2⟩) = .ok d ↔
      d = ⟨xs.sum, -2⟩ ∧ SumsFit xs := by
    intro xs d
    have hcoeff : ∀ ys : List ℤ, (ys.map fun z => (⟨z, -2⟩ : Decimal)).map Decimal.coeff = ys := fun ys => by
      rw [List.map_map]
      exact List.map_id ys
    rw [moneySum_cents (by simp), hcoeff]
    refine and_congr_right fun _ => ?_
    constructor
    · intro hfit ys hys
      rcases eq_or_ne ys [] with rfl | hne
      · simp
      · have := hfit (ys.map fun z => ⟨z, -2⟩) (hys.map _) (by simpa using hne)
        rwa [hcoeff, zero_add] at this
    · intro hfit ys hys _
      obtain ⟨zs, hzs, rfl⟩ := List.prefix_map_iff.1 hys
      rw [hcoeff, zero_add]
      exact hfit zs hzs
  have hsub : ∀ (x y : ℤ) (d : Decimal), moneySubtract ⟨x, -2⟩ ⟨y, -2⟩ = .ok d ↔
      d = ⟨x - y, -2⟩ ∧ (x - y).natAbs < 10 ^ 34 := by
    intro x y d
    rw [moneySubtract_eq_add, moneyAdd_cents rfl rfl]
    rfl
  have heq : ∀ x y : ℤ, (⟨x, -2⟩ : Decimal).numEq ⟨y, -2⟩ = true ↔ x = y := by
    intro x y
    have hpow : (10 : ℚ) ^ (-2 : ℤ) ≠ 0 := by positivity
    rw [Decimal.numEq_iff, Decimal.value, Decimal.value, mul_left_inj' hpow]
    exact Int.cast_inj
  constructor
  · rintro ⟨s, r, n, hs, hr, hd, -, hn⟩
    obtain ⟨rfl, hfit⟩ := (hsum _ _).1 hs
    obtain ⟨rfl, hfit'⟩ := (hsum _ _).1 hr
    obtain ⟨rfl, -⟩ := (hsub _ _ _).1 hd
    exact ⟨hfit, hfit', (heq _ _).1 hn⟩
  · rintro ⟨hfit, hfit', hdiff⟩
    refine ⟨⟨settled.sum, -2⟩, ⟨reversed.sum, -2⟩, ⟨net, -2⟩, (hsum _ _).2 ⟨rfl, hfit⟩, (hsum _ _).2 ⟨rfl, hfit'⟩, ?_, ?_,
      (heq _ _).2 rfl⟩
    · exact (hsub _ _ _).2 ⟨by rw [hdiff], by rwa [hdiff]⟩
    · rw [Decimal.ble_iff, Decimal.value_zero, Decimal.value_nonneg]
      exact hnet

/-- what scaling does to observations and truth -/
structure Scaled (scale : Decimal) (g : ObservedEvent → ObservedEvent) (h : TruthRow → TruthRow)
    (corpus changed : FrozenCorpus) : Prop extends Rewritten g h corpus changed where
  eventTime : ∀ e ∈ corpus.observations, (g e).eventTime = e.eventTime
  firstSettlement : ∀ t ∈ corpus.truth, (h t).firstSettlementAt = t.firstSettlementAt
  amount : ∀ t ∈ corpus.truth, ∀ e ∈ corpus.observations, e.paymentId = t.paymentId →
    (g e).amount = if t.isFraud then e.amount else ⟨cents scale e.amount, -2⟩
  net : ∀ t ∈ corpus.truth, (h t).netSettledValue =
    if t.isFraud then t.netSettledValue else ⟨cents scale t.netSettledValue, -2⟩
  fits : ∀ t ∈ corpus.truth, t.isFraud = false → (cents scale t.netSettledValue).natAbs < 10 ^ 28

theorem benignAmountShift_ok {scale : Decimal} (hok : corpus.validate = .ok c)
    (h : benignAmountShift corpus scale = .ok changed) : ∃ g h, Scaled scale g h corpus changed := by
  simp only [benignAmountShift, except_bind_eq_ok, except_pure_eq_ok] at h
  obtain ⟨observations, hobs, truth, htruth, rfl⟩ := h
  obtain ⟨g, rfl, hg⟩ := mapM_eq_map hobs
  obtain ⟨k, rfl, hk⟩ := mapM_eq_map htruth
  have hnodup := (validateLifecycles_ok.1 hok).1
  -- a payment of a truth row is benign exactly when the row is
  have hbenign : ∀ t ∈ corpus.truth, ∀ e : ObservedEvent, e.paymentId = t.paymentId →
      (((corpus.truth.filter fun row => !row.isFraud).map TruthRow.paymentId).contains e.paymentId = true ↔
        t.isFraud = false) := by
    intro t ht e hpay
    rw [List.contains_iff_mem, hpay, List.mem_map]
    constructor
    · rintro ⟨t', ht', hsame⟩
      obtain ⟨ht', hfraud⟩ := List.mem_filter.1 ht'
      rw [List.inj_on_of_nodup_map hnodup ht' ht hsame] at hfraud
      simpa using hfraud
    · exact fun hfraud => ⟨t, List.mem_filter.2 ⟨ht, by simp [hfraud]⟩, rfl⟩
  have hkeeps : ∀ e ∈ corpus.observations, ∃ amount, g e = { e with amount := amount } := by
    intro e he
    have hrow := hg e he
    split_ifs at hrow
    · simp only [except_bind_eq_ok, except_pure_eq_ok] at hrow
      obtain ⟨amount, -, heq⟩ := hrow
      exact ⟨amount, heq.symm⟩
    · exact ⟨e.amount, (except_pure_eq_ok.1 hrow).symm⟩
  have htruths : ∀ t ∈ corpus.truth, k t = { t with netSettledValue :=
      if t.isFraud then t.netSettledValue else ⟨cents scale t.netSettledValue, -2⟩ } ∧
        (t.isFraud = false → (cents scale t.netSettledValue).natAbs < 10 ^ 28) := by
    intro t ht
    have hrow := hk t ht
    split_ifs at hrow ⊢ with hfraud
    · exact ⟨(except_pure_eq_ok.1 hrow).symm, fun hno => absurd hfraud (by simp [hno])⟩
    · simp only [except_bind_eq_ok, except_pure_eq_ok] at hrow
      obtain ⟨net, hnet, heq⟩ := hrow
      obtain ⟨rfl, hfits⟩ := scaled_eq hnet
      exact ⟨heq.symm, fun _ => hfits⟩
  refine ⟨g, k, ⟨rfl, rfl, ?_, ?_, ?_⟩, ?_, ?_, ?_, ?_, fun t ht => (htruths t ht).2⟩
  · intro e he
    obtain ⟨amount, heq⟩ := hkeeps e he
    rw [heq]
    exact ⟨rfl, rfl, rfl, rfl⟩
  · intro t ht
    rw [(htruths t ht).1]
  · intro t ht
    rw [(htruths t ht).1]
  · intro e he
    obtain ⟨amount, heq⟩ := hkeeps e he
    rw [heq]
  · intro t ht
    rw [(htruths t ht).1]
  · intro t ht e he hpay
    have hrow := hg e he
    have hiff := hbenign t ht e hpay
    cases hfraud : t.isFraud with
    | true =>
      rw [if_neg (by rw [hiff, hfraud]; exact Bool.noConfusion), except_pure_eq_ok] at hrow
      rw [← hrow]
      rfl
    | false =>
      rw [if_pos (hiff.2 hfraud)] at hrow
      simp only [except_bind_eq_ok, except_pure_eq_ok] at hrow
      obtain ⟨amount, hamount, heq⟩ := hrow
      rw [← heq, (scaled_eq hamount).1]
      rfl
  · intro t ht
    rw [(htruths t ht).1]

/-- **Scaled benign amounts** keep a corpus accepted exactly when they net in cents. -/
theorem Scaled.validate_iff {scale : Decimal} (hscale : 0 < scale.value) {h : TruthRow → TruthRow}
    (r : Scaled scale g h corpus changed) (hok : corpus.validate = .ok c) :
    (∃ c', changed.validate = .ok c') ↔ NetsInCents scale corpus := by
  rw [r.toRewritten.validate_iff hok]
  refine forall₂_congr fun t ht => ?_
  obtain ⟨currency, -, hdescribes⟩ := describes_of_validate hok ht
  have hlifecycle : ∀ {e}, e ∈ lifecycleOf corpus.observationById.values t.paymentId →
      e ∈ corpus.observations ∧ e.paymentId = t.paymentId :=
    fun he => ⟨mem_observationById (mem_lifecycleOf.1 he).1, (mem_lifecycleOf.1 he).2⟩
  have hordered : Ordered g (paymentEventsOf corpus t.paymentId) := by
    intro a ha b hb hab
    have ha' := mem_observationById (List.mem_of_mem_filter ha)
    have hb' := mem_observationById (List.mem_of_mem_filter hb)
    unfold observedKey at hab ⊢
    rwa [r.eventTime a ha', r.eventTime b hb', (r.same a ha').eventId, (r.same b hb').eventId]
  have hfirst : (((lifecycleOf corpus.observationById.values t.paymentId).filter fun e =>
      isSettlement e.eventType).head?.map fun e => (g e).eventTime) = (h t).firstSettlementAt := by
    rw [r.firstSettlement t ht, ← hdescribes.firstSettlement]
    cases hhead : ((lifecycleOf corpus.observationById.values t.paymentId).filter
        fun e => isSettlement e.eventType).head? with
    | none => rfl
    | some e =>
      exact congrArg some (r.eventTime e (hlifecycle (List.mem_of_mem_filter (List.mem_of_head? hhead))).1)
  have hamounts : ∀ p : ObservedEvent → Bool, (((lifecycleOf corpus.observationById.values t.paymentId).filter p).map
      fun e => (g e).amount) = ((lifecycleOf corpus.observationById.values t.paymentId).filter p).map
        fun e => if t.isFraud then e.amount else ⟨cents scale e.amount, -2⟩ := fun p => by
    refine List.map_congr_left fun e he => ?_
    obtain ⟨he, hpay⟩ := hlifecycle (List.mem_of_mem_filter he)
    exact r.amount t ht e he hpay
  rw [r.toRewritten.describes_iff ht hdescribes, hamounts, hamounts, r.net t ht, hfirst]
  simp only [hordered, true_and]
  cases hfraud : t.isFraud with
  | true => simpa using hdescribes.net
  | false =>
    have hcents : ∀ es : List ObservedEvent, (es.map fun e => (⟨cents scale e.amount, -2⟩ : Decimal)) =
        (es.map fun e => cents scale e.amount).map fun z => ⟨z, -2⟩ := fun es => by
      rw [List.map_map]
      rfl
    have hnet : 0 ≤ cents scale t.netSettledValue := by
      obtain ⟨-, -, n, -, -, -, hble, heq⟩ := hdescribes.net
      rw [Decimal.ble_iff, Decimal.value_zero] at hble
      rw [Decimal.numEq_iff] at heq
      have hround : 0 ≤ DecimalContext.default.round (t.netSettledValue.value * scale.value) :=
        DecimalContext.round_nonneg (mul_nonneg (heq ▸ hble) hscale.le)
      have hmono := Decimal.halfEven_mono (div_nonneg hround (by positivity : (0 : ℚ) ≤ 10 ^ (-2 : ℤ)))
      have hzero : Decimal.halfEven 0 = 0 := Decimal.halfEven_intCast 0
      rwa [hzero] at hmono
    have hfits : (cents scale t.netSettledValue).natAbs < 10 ^ 34 :=
      (r.fits t ht hfraud).trans_le (Nat.pow_le_pow_right (by norm_num) (by norm_num))
    simp only [Bool.false_eq_true, if_false, forall_const]
    rw [hcents, hcents, revalidated_cents hnet hfits]

/-! ## Prevalence dilution -/

/-- no observation of the base corpus names the payment of a requested control -/
def MergesApart (controlCampaignIds : List String) (corpus control : FrozenCorpus) : Prop :=
  ∀ e ∈ corpus.observationById.values, ∀ t ∈ control.truth, t.campaignId ∈ controlCampaignIds →
    e.paymentId ≠ t.paymentId

/-- a corpus with controls merged in -/
structure Merged (selected : List TruthRow) (controls : List ObservedEvent) (corpus changed : FrozenCorpus) : Prop where
  observations : changed.observations = sortBy ObservedEvent.eventId (corpus.observations ++ controls)
  truth : changed.truth.Perm (corpus.truth ++ selected)
  payments : (selected.map TruthRow.paymentId).Nodup
  apart : ∀ t ∈ corpus.truth, t.paymentId ∉ selected.map TruthRow.paymentId
  controlPayment : ∀ e ∈ controls, e.paymentId ∈ selected.map TruthRow.paymentId
  lifecycle : ∀ t ∈ selected, ∀ id, id ∈ t.lifecycleEventIds ↔
    ∃ e ∈ controls, e.paymentId = t.paymentId ∧ e.eventId = id
  ids : (controls.map ObservedEvent.eventId).Nodup
  fresh : ∀ e ∈ corpus.observations, e.eventId ∉ controls.map ObservedEvent.eventId

theorem prevalenceDilution_ok {controlCampaignIds : List String} {control : FrozenCorpus}
    (h : prevalenceDilution corpus controlCampaignIds (some control) = .ok changed) :
    Merged (control.truth.filter fun row => controlCampaignIds.contains row.campaignId)
      (control.observations.filter fun e => ((control.truth.filter fun row =>
        controlCampaignIds.contains row.campaignId).map TruthRow.paymentId).contains e.paymentId) corpus changed := by
  simp only [prevalenceDilution, except_bind_eq_ok, check_eq_ok, except_pure_eq_ok] at h
  obtain ⟨_, -, _, -, _, hpayments, _, hlifecycle, _, hids, _, hapart, _, -, rfl⟩ := h
  rw [decide_eq_true_eq] at hpayments
  simp only [Bool.and_eq_true, decide_eq_true_eq, Bool.not_eq_true', List.any_eq_false] at hids
  simp only [Bool.not_eq_true', List.any_eq_false] at hapart
  refine ⟨rfl, sortBy_perm _ _, hpayments, ?_, ?_, ?_, hids.1, ?_⟩
  · intro t ht hmem
    exact hapart t ht (List.contains_iff_mem.2 hmem)
  · intro e he
    exact List.contains_iff_mem.1 (List.mem_filter.1 he).2
  · intro t ht id
    have hset := of_decide_eq_true (List.all_eq_true.1 hlifecycle t ht)
    rw [← List.mem_toFinset, ← hset, List.mem_toFinset, List.mem_map]
    simp only [List.mem_filter, decide_eq_true_eq, and_assoc]
  · intro e he hmem
    exact hids.2 e he (List.contains_iff_mem.2 hmem)

/-- the merged observations of a payment -/
theorem Merged.payment_perm {selected : List TruthRow} {controls : List ObservedEvent}
    (m : Merged selected controls corpus changed) (paymentId : String) :
    (paymentEventsOf changed paymentId).Perm
      (paymentEventsOf corpus paymentId ++ controls.filter fun e => e.paymentId = paymentId) := by
  have hperm : changed.observationById.values.Perm (corpus.observationById.values ++ controls) := by
    have hn : ((corpus.observationById.values ++ controls).map ObservedEvent.eventId).Nodup := by
      rw [List.map_append, List.nodup_append]
      refine ⟨Indexing.values_nodup corpus.observations, m.ids, ?_⟩
      rintro id hid _ hid' rfl
      obtain ⟨e, he, rfl⟩ := List.mem_map.1 hid
      exact m.fresh e (mem_observationById he) hid'
    refine (List.perm_ext_iff_of_nodup (List.Nodup.of_map _ (Indexing.values_nodup _))
      (List.Nodup.of_map _ hn)).2 fun e => ?_
    -- rows of one id stay in order under the stable sort
    have hfilter : changed.observations.filter (fun e' => e'.eventId = e.eventId) =
        corpus.observations.filter (fun e' => e'.eventId = e.eventId) ++
          controls.filter fun e' => e'.eventId = e.eventId := by
      rw [m.observations, filter_sortBy, List.filter_append]
      refine sortBy_of_sorted (List.pairwise_of_forall_mem_list fun a ha b hb => ?_)
      have hid : ∀ x ∈ corpus.observations.filter (fun e' => e'.eventId = e.eventId) ++
          controls.filter (fun e' => e'.eventId = e.eventId), x.eventId = e.eventId := by
        intro x hx
        rw [← List.filter_append] at hx
        exact of_decide_eq_true (List.mem_filter.1 hx).2
      rw [hid a ha, hid b hb]
    rw [observationById_eq, Indexing.mem_values, hfilter, List.mem_append, Indexing.mem_values]
    by_cases hmem : e.eventId ∈ controls.map ObservedEvent.eventId
    · -- the id is a control's: no observation of the base corpus has it
      obtain ⟨e', he', hid⟩ := List.mem_map.1 hmem
      have hbase : corpus.observations.filter (fun e' => e'.eventId = e.eventId) = [] := by
        refine List.filter_eq_nil_iff.2 fun x hx => ?_
        rw [decide_eq_true_eq]
        exact fun heq => m.fresh x hx (heq ▸ hmem)
      have hown : controls.filter (fun x => x.eventId = e.eventId) = [e'] := by
        rw [← hid]
        exact Indexing.filter_of_nodup m.ids he'
      rw [hbase, hown]
      simp only [List.nil_append, List.getLast?_singleton, List.getLast?_nil, reduceCtorEq, false_or, Option.some.injEq]
      constructor
      · rintro rfl
        exact he'
      · exact fun he => List.inj_on_of_nodup_map m.ids he' he hid
    · have hcontrols : controls.filter (fun e' => e'.eventId = e.eventId) = [] := by
        refine List.filter_eq_nil_iff.2 fun x hx => ?_
        rw [decide_eq_true_eq]
        exact fun heq => hmem (heq ▸ List.mem_map_of_mem hx)
      rw [hcontrols, List.append_nil]
      exact (or_iff_left fun he => hmem (List.mem_map_of_mem he)).symm
  unfold paymentEventsOf
  rw [← List.filter_append]
  exact hperm.filter _

/-- **Merged controls** keep a corpus accepted exactly when they are apart from its observations. -/
theorem Merged.validate_iff {controlCampaignIds : List String} {control : FrozenCorpus} {c' : Option String}
    (h : prevalenceDilution corpus controlCampaignIds (some control) = .ok changed) (hok : corpus.validate = .ok c)
    (hcontrol : control.validate = .ok c') (hcurrency : ∀ x y, c = some x → c' = some y → x = y) :
    (∃ c'', changed.validate = .ok c'') ↔ MergesApart controlCampaignIds corpus control := by
  have m := prevalenceDilution_ok h
  obtain ⟨hnodup, hempty, hrows⟩ := validateLifecycles_ok.1 hok
  obtain ⟨selected, hselected⟩ : ∃ selected,
      (control.truth.filter fun row => controlCampaignIds.contains row.campaignId) = selected := ⟨_, rfl⟩
  have hmem : ∀ t, t ∈ selected ↔ t ∈ control.truth ∧ t.campaignId ∈ controlCampaignIds := by
    intro t
    rw [← hselected, List.mem_filter, List.contains_iff_mem]
  rw [hselected] at m
  obtain ⟨controls, hcontrols⟩ : ∃ controls, (control.observations.filter fun e =>
      (selected.map TruthRow.paymentId).contains e.paymentId) = controls := ⟨_, rfl⟩
  rw [hcontrols] at m
  have hids : ∀ {truth : FrozenCorpus} (paymentId : String) (rest : List ObservedEvent),
      (paymentEventsOf truth paymentId).Perm rest → (rest.map ObservedEvent.eventId).Nodup →
      lifecycleOf truth.observationById.values paymentId = sortBy observedKey rest := by
    intro truth paymentId rest hp hn
    refine sortBy_congr hp ((hp.map observedKey).nodup_iff.2 ?_)
    refine List.Nodup.of_map (fun k => (ofLex k).2) ?_
    rw [List.map_map]
    exact hn
  -- a base row keeps its lifecycle
  have hbase : ∀ t ∈ corpus.truth, lifecycleOf changed.observationById.values t.paymentId =
      lifecycleOf corpus.observationById.values t.paymentId := by
    intro t ht
    have hnone : controls.filter (fun e => e.paymentId = t.paymentId) = [] := by
      refine List.filter_eq_nil_iff.2 fun e he => ?_
      rw [decide_eq_true_eq]
      exact fun heq => m.apart t ht (heq ▸ m.controlPayment e he)
    have hp := m.payment_perm t.paymentId
    rw [hnone, List.append_nil] at hp
    exact hids _ _ hp (paymentEventsOf_nodup t.paymentId)
  -- a control's lifecycle in its own corpus is of the controls that were merged
  have hown : ∀ t ∈ selected, ∃ currency, c' = some currency ∧
      Describes t (sortBy observedKey (controls.filter fun e => e.paymentId = t.paymentId)) currency := by
    intro t ht
    obtain ⟨currency, hc, hd⟩ := describes_of_validate hcontrol ((hmem t).1 ht).1
    refine ⟨currency, hc, ?_⟩
    have hperm : (paymentEventsOf control t.paymentId).Perm (controls.filter fun e => e.paymentId = t.paymentId) := by
      refine (List.perm_ext_iff_of_nodup (List.Nodup.of_map _ (paymentEventsOf_nodup t.paymentId))
        ((List.Nodup.of_map _ m.ids).filter _)).2 fun e => ?_
      have hin : ∀ e', e' ∈ paymentEventsOf control t.paymentId → e' ∈ controls ∧ e'.paymentId = t.paymentId := by
        intro e' he'
        obtain ⟨he', hpay⟩ := List.mem_filter.1 he'
        rw [decide_eq_true_eq] at hpay
        refine ⟨?_, hpay⟩
        rw [← hcontrols, List.mem_filter, List.contains_iff_mem, hpay]
        exact ⟨mem_observationById he', List.mem_map_of_mem ht⟩
      rw [List.mem_filter, decide_eq_true_eq]
      refine ⟨hin e, ?_⟩
      rintro ⟨he, hpay⟩
      have hid : e.eventId ∈ t.lifecycleEventIds := (m.lifecycle t ht _).2 ⟨e, he, hpay, rfl⟩
      rw [hd.ids, List.mem_map] at hid
      obtain ⟨e', he', hsame⟩ := hid
      have he' : e' ∈ paymentEventsOf control t.paymentId := mem_sortBy.1 he'
      rwa [List.inj_on_of_nodup_map m.ids he (hin e' he').1 hsame.symm]
    have hlifecycle := hids _ _ hperm (m.ids.sublist (List.filter_sublist.map _))
    rwa [hlifecycle] at hd
  unfold FrozenCorpus.validate MergesApart
  simp only [validateLifecycles_ok]
  constructor
  · rintro ⟨c'', -, -, hall⟩ e he t ht hcampaign hpay
    have hsel : t ∈ selected := (hmem t).2 ⟨ht, hcampaign⟩
    obtain ⟨currency, -, hd⟩ := hall t (m.truth.mem_iff.2 (List.mem_append_right _ hsel))
    -- the base observation would have a control's id
    have hlife : e ∈ lifecycleOf changed.observationById.values t.paymentId := by
      rw [lifecycleOf, mem_sortBy]
      refine (m.payment_perm t.paymentId).mem_iff.2 (List.mem_append_left _ ?_)
      exact List.mem_filter.2 ⟨he, decide_eq_true hpay⟩
    have hid : e.eventId ∈ t.lifecycleEventIds := hd.ids ▸ List.mem_map_of_mem hlife
    obtain ⟨e', he', -, hsame⟩ := (m.lifecycle t hsel _).1 hid
    exact m.fresh e (mem_observationById he) (hsame ▸ List.mem_map_of_mem he')
  · intro hapart
    have hcontrolled : ∀ t ∈ selected, lifecycleOf changed.observationById.values t.paymentId =
        sortBy observedKey (controls.filter fun e => e.paymentId = t.paymentId) := by
      intro t ht
      have hnone : paymentEventsOf corpus t.paymentId = [] := by
        refine List.filter_eq_nil_iff.2 fun e he => ?_
        rw [decide_eq_true_eq]
        exact hapart e he t ((hmem t).1 ht).1 ((hmem t).1 ht).2
      have hp := m.payment_perm t.paymentId
      rw [hnone, List.nil_append] at hp
      exact hids _ _ hp (m.ids.sublist (List.filter_sublist.map _))
    refine ⟨if changed.truth = [] then none else c.or c', ?_, fun hnil => if_pos hnil, ?_⟩
    · rw [(m.truth.map TruthRow.paymentId).nodup_iff, List.map_append, List.nodup_append]
      refine ⟨hnodup, m.payments, ?_⟩
      rintro id hid _ hid' rfl
      obtain ⟨t, ht, rfl⟩ := List.mem_map.1 hid
      exact m.apart t ht hid'
    · intro t ht
      rw [if_neg (List.ne_nil_of_mem ht)]
      rcases List.mem_append.1 (m.truth.mem_iff.1 ht) with ht | ht
      · obtain ⟨currency, rfl, hd⟩ := hrows t ht
        exact ⟨currency, rfl, by rwa [hbase t ht]⟩
      · obtain ⟨currency, rfl, hd⟩ := hown t ht
        refine ⟨currency, ?_, by rwa [hcontrolled t ht]⟩
        cases c with
        | none => rfl
        | some x => exact congrArg some (hcurrency x currency rfl rfl)

/-! ## Every regime -/

/-- the condition of a regime's kind -/
def RegimeSpec.KeepsLifecycles (spec : RegimeSpec) (corpus : FrozenCorpus) (control : Option FrozenCorpus) : Prop :=
  match spec.kind with
  | .prevalenceDilution => ∀ k, control = some k → MergesApart (spec.controlCampaignIds.getD []) corpus k
  | .compressedBursts =>
    CompressesInOrder (spec.compressionNumerator.getD 1) (spec.compressionDenominator.getD 4) corpus
  | .benignAmountShift => NetsInCents (spec.scale.getD ⟨125, -2⟩) corpus
  | _ => True

theorem remapped_ok {mapping : Dict String String} {e e' : ObservedEvent} (h : remapped mapping e = .ok e') :
    Same e e' ∧ e'.eventTime = e.eventTime ∧ e'.amount = e.amount := by
  simp only [remapped, except_bind_eq_ok, except_pure_eq_ok] at h
  obtain ⟨actorId, -, counterpartyId, -, refs, -, rfl⟩ := h
  exact ⟨⟨rfl, rfl, rfl, rfl⟩, rfl, rfl⟩

/-- **A derived corpus is accepted** exactly under the condition of its regime. -/
theorem regime_lifecycles (uuid5 : String → String) (fuel : ℕ) {spec : RegimeSpec} {control : Option FrozenCorpus}
    (hok : corpus.validate = .ok c) (h : deriveRegime uuid5 fuel corpus spec control = .ok changed)
    (hcontrol : ∀ k, control = some k → ∃ c', k.validate = .ok c' ∧ ∀ x y, c = some x → c' = some y → x = y) :
    (∃ c', changed.validate = .ok c') ↔ spec.KeepsLifecycles corpus control := by
  have hvalid := spec.valid
  simp only [deriveRegime, except_bind_eq_ok] at h
  obtain ⟨_, -, h⟩ := h
  unfold RegimeSpec.KeepsLifecycles
  unfold RegimeFields.parametersMatchKind at hvalid
  cases hkind : spec.kind with
  | prevalenceDilution =>
    simp only [hkind] at h
    cases control with
    | none => cases h
    | some k =>
      obtain ⟨c', hk, hsame⟩ := hcontrol k rfl
      rw [Merged.validate_iff h hok hk hsame]
      simp
  | missingOptional =>
    simp only [hkind, except_pure_eq_ok] at h
    subst h
    exact iff_of_true (validate_kept hok rfl rfl (fun _ _ => ⟨rfl, rfl, rfl, rfl⟩) (fun _ _ => rfl) fun _ _ => rfl) trivial
  | availabilityDelay =>
    simp only [hkind, except_bind_eq_ok, except_pure_eq_ok] at h
    obtain ⟨_, -, observations, hobs, rfl⟩ := h
    obtain ⟨g, rfl, hg⟩ := mapM_eq_map hobs
    have hkept : ∀ e ∈ corpus.observations, ∃ availableAt, g e = { e with availableAt := availableAt } := by
      intro e he
      have hrow := hg e he
      split_ifs at hrow
      · exact ⟨e.availableAt, (except_pure_eq_ok.1 hrow).symm⟩
      · simp only [except_bind_eq_ok, except_pure_eq_ok] at hrow
        obtain ⟨availableAt, -, heq⟩ := hrow
        exact ⟨availableAt, heq.symm⟩
    refine iff_of_true (validate_kept hok rfl rfl ?_ ?_ ?_) trivial
    · intro e he
      obtain ⟨availableAt, heq⟩ := hkept e he
      rw [heq]
      exact ⟨rfl, rfl, rfl, rfl⟩
    · intro e he
      obtain ⟨availableAt, heq⟩ := hkept e he
      rw [heq]
    · intro e he
      obtain ⟨availableAt, heq⟩ := hkept e he
      rw [heq]
  | compressedBursts =>
    simp only [hkind] at h
    simp only [hkind, except_bind_eq_ok, check_eq_ok, Bool.and_eq_true, decide_eq_true_eq] at hvalid
    obtain ⟨_, hsupplied, _, ⟨hn, hd⟩, -⟩ := hvalid
    obtain ⟨g, k, r⟩ := compressedBursts_ok hok h
    have hdefault : ∀ {x : Option ℤ} (d : ℤ), 0 < x.getD 0 → x.getD d = x.getD 0 := by
      intro x d hx
      cases x with
      | none => exact absurd hx (lt_irrefl _)
      | some x => rfl
    refine r.validate_iff ?_ ?_ hok
    · rwa [hdefault 1 hn]
    · rwa [hdefault 4 hd]
  | benignAmountShift =>
    simp only [hkind] at h
    simp only [hkind, except_bind_eq_ok, check_eq_ok] at hvalid
    obtain ⟨_, -, hscale⟩ := hvalid
    obtain ⟨g, k, r⟩ := benignAmountShift_ok hok h
    refine r.validate_iff ?_ hok
    cases hs : spec.scale with
    | none => simp [Decimal.value]
    | some d =>
      rw [hs, Option.all_some, Bool.not_eq_true', ← Bool.not_eq_true, Decimal.ble_iff, Decimal.value_zero, not_le] at hscale
      exact hscale
  | coldIdRemap =>
    simp only [hkind, coldIdRemap, except_bind_eq_ok, except_pure_eq_ok] at h
    obtain ⟨mapping, -, observations, hobs, rfl⟩ := h
    obtain ⟨g, rfl, hg⟩ := mapM_eq_map hobs
    exact iff_of_true (validate_kept hok rfl rfl (fun e he => (remapped_ok (hg e he)).1)
      (fun e he => (remapped_ok (hg e he)).2.1) fun e he => (remapped_ok (hg e he)).2.2) trivial

/-! ## A burst of a microsecond -/

namespace Sample

def event (eventId : String) (eventType : EventKind) (eventTime : Time) : ObservedEvent :=
  ⟨eventId, "payment", .card, eventType, ⟨1000, -2⟩, "EUR", eventTime, eventTime, some eventTime, "actor", "merchant", ∅,
    .notApplicable, none, decide (eventType = .authorization)⟩

/-- an authorization and its settlement, some microseconds later -/
def burst (opening settlement : String) (micros : Time) : FrozenCorpus :=
  ⟨[event opening .authorization 0, event settlement .settlement micros],
    [⟨opening, "payment", "campaign", "card_testing_cnp", false, .populationTruth, micros, some micros, ⟨1000, -2⟩,
      [opening, settlement]⟩], ⟨"profile", ["run"], ["digest"], 2, 1⟩⟩

def spec : RegimeSpec :=
  ⟨{ kind := .compressedBursts, compressionNumerator := some 1, compressionDenominator := some 4 }, by decide⟩

def derive (c : FrozenCorpus) : Except SimError FrozenCorpus := deriveRegime id 0 c spec none

end Sample

theorem regime_lifecycles_sample : ∃ changed, Sample.derive (Sample.burst "event-a" "event-b" 10000002) = .ok changed ∧
    CompressesInOrder 1 4 (Sample.burst "event-a" "event-b" 10000002) := by
  have hok : (Sample.burst "event-a" "event-b" 10000002).validate = .ok (some "EUR") := by decide +kernel
  have hderived : (match Sample.derive (Sample.burst "event-a" "event-b" 10000002) with
    | .ok changed => changed.validate.toOption.isSome
    | .error _ => false) = true := by decide +kernel
  cases h : Sample.derive (Sample.burst "event-a" "event-b" 10000002) with
  | error x =>
    rw [h] at hderived
    cases hderived
  | ok changed =>
    rw [h] at hderived
    have hkeeps := regime_lifecycles id 0 hok h (by simp)
    refine ⟨changed, rfl, hkeeps.1 ?_⟩
    cases hv : changed.validate with
    | error x =>
      simp only [hv] at hderived
      cases hderived
    | ok c => exact ⟨c, rfl⟩

/-- a settlement one microsecond after an opening of a later id changes places with it -/
theorem compressed_out_of_order : (Sample.burst "event-b" "event-a" 1).validate = .ok (some "EUR") ∧
    ∃ changed, Sample.derive (Sample.burst "event-b" "event-a" 1) = .ok changed ∧
      changed.validate = .error (.metric "truth lifecycle IDs must use canonical lifecycle order") := by
  refine ⟨by decide +kernel, ?_⟩
  have hderived : (match Sample.derive (Sample.burst "event-b" "event-a" 1) with
    | .ok changed => decide (changed.validate = .error (.metric "truth lifecycle IDs must use canonical lifecycle order"))
    | .error _ => false) = true := by decide +kernel
  cases h : Sample.derive (Sample.burst "event-b" "event-a" 1) with
  | error x =>
    rw [h] at hderived
    cases hderived
  | ok changed =>
    rw [h] at hderived
    exact ⟨changed, rfl, of_decide_eq_true hderived⟩

end Regimes

end Apar
