/-
Chronological splits are what they are called.

- `make_spec`: a split without a held-out family partitions campaigns and decisions by window.
- `leaveOneFamilyOut_spec`: leaving a family out removes its rows from the fitting windows, and nothing else.
- `make_holdOut`: splitting with a held-out family is leaving it out of the split without it.
- `split_chronological`: the properties of every split.
-/
import Apar.Evaluation.SplitWindows

namespace Apar

open Exec
open Regimes (FrozenCorpus)

namespace Splits

/-! ## Lookups -/

theorem lookup_ok {α : Type} {d : Dict String α} {key : String} {a : α} : lookup d key = .ok a ↔ d.get? key = some a := by
  rw [lookup]
  cases d.get? key with
  | none => exact ⟨nofun, nofun⟩
  | some b => exact ⟨fun h => by cases h; rfl, fun h => by cases h; rfl⟩

theorem eachPartition_eq_ok {α : Type} {f : PartitionName → Except SimError α} {g : PartitionName → α} :
    eachPartition f = .ok g ↔ ∀ name, f name = .ok (g name) := by
  simp only [eachPartition, except_bind_eq_ok, except_pure_eq_ok]
  constructor
  · rintro ⟨a, ha, b, hb, c, hc, d, hd, rfl⟩ name
    cases name
    · exact ha
    · exact hb
    · exact hc
    · exact hd
  · intro h
    refine ⟨_, h .train, _, h .calibratorFit, _, h .threshold, _, h .development, ?_⟩
    funext name
    cases name <;> rfl

theorem filterAuxM_ok {α ε : Type} {p : α → Except ε Bool} {q : α → Bool} {xs : List α} (h : ∀ x ∈ xs, p x = .ok (q x))
    (acc : List α) : List.filterAuxM p xs acc = .ok ((xs.filter q).reverse ++ acc) := by
  induction xs generalizing acc with
  | nil => rfl
  | cons x xs ih =>
    rw [List.filterAuxM, h x List.mem_cons_self]
    show List.filterAuxM p xs (cond (q x) (x :: acc) acc) = _
    rw [ih fun y hy => h y (List.mem_cons_of_mem _ hy)]
    cases hq : q x with
    | true => simp [hq]
    | false => simp [hq]

theorem filterM_ok {α ε : Type} {p : α → Except ε Bool} {q : α → Bool} {xs : List α} (h : ∀ x ∈ xs, p x = .ok (q x)) :
    xs.filterM p = .ok (xs.filter q) := by
  rw [List.filterM, filterAuxM_ok h]
  show Except.ok _ = _
  rw [List.append_nil, List.reverse_reverse]

theorem withoutFamily_ok {families : Dict String String} {ids : List String} (h : ∀ id ∈ ids, ∃ f, families.get? id = some f)
    (family : String) :
    withoutFamily families family ids = .ok (ids.filter fun id => families.get? id ≠ some family) := by
  refine filterM_ok fun id hid => ?_
  rcases h id hid with ⟨f, hf⟩
  rw [lookup_ok.2 hf, hf]
  show Except.ok _ = Except.ok _
  simp

theorem ofFamily_ok {families : Dict String String} {ids : List String} (h : ∀ id ∈ ids, ∃ f, families.get? id = some f)
    (family : String) :
    ofFamily families family ids = .ok (ids.filter fun id => families.get? id = some family) := by
  refine filterM_ok fun id hid => ?_
  rcases h id hid with ⟨f, hf⟩
  rw [lookup_ok.2 hf, hf]
  show Except.ok _ = Except.ok _
  simp

/-! ## Building -/

section Build

variable [Sha256]

variable {fields : SplitFields}

theorem buildSplit_fields {split : EvaluationSplit} (h : buildSplit fields = .ok split) :
    split.toSplitFields = fields := by
  simp only [buildSplit, except_bind_eq_ok, except_pure_eq_ok] at h
  obtain ⟨_, _, _, _, rfl⟩ := h
  rfl

omit [Sha256] in
theorem prevalenceOf_ok {name : PartitionName} (h : ∀ id ∈ fields.rowIds name, ∃ b, fields.rowIsFraud.get? id = some b)
    : ∃ rate, prevalenceOf fields name = .ok rate := by
  obtain ⟨fraud, hfraud, -⟩ : ∃ fraud, (fields.rowIds name).mapM (lookup fields.rowIsFraud) = .ok fraud ∧
      List.Forall₂ (fun _ _ => True) (fields.rowIds name) fraud :=
    mapM_exists_ok fun id hid => (h id hid).imp fun b hb => ⟨lookup_ok.2 hb, trivial⟩
  rw [prevalenceOf, hfraud]
  show ∃ rate, (if fraud = [] then (.ok 0 : Except SimError Decimal) else _) = .ok rate
  by_cases hnil : fraud = []
  · exact ⟨0, if_pos hnil⟩
  · rw [if_neg hnil]
    cases hdiv : Decimal.div 28 ⟨fraud.count true, 0⟩ ⟨fraud.length, 0⟩ with
    | some rate => exact ⟨rate, rfl⟩
    | none =>
      -- only a division by zero has no quotient
      have hlength : (fraud.length : ℤ) ≠ 0 := by simpa using hnil
      unfold Decimal.div at hdiv
      rw [if_neg hlength] at hdiv
      dsimp only at hdiv
      split_ifs at hdiv

omit [Sha256] in
theorem valueOf_ok {name : PartitionName}
    (h : ∀ id ∈ fields.rowIds name, ∃ v, fields.rowNetSettledValues.get? id = some v) :
    ∃ total, valueOf fields name = .ok total := by
  obtain ⟨values, hvalues, -⟩ : ∃ values, (fields.rowIds name).mapM (lookup fields.rowNetSettledValues) = .ok values ∧
      List.Forall₂ (fun _ _ => True) (fields.rowIds name) values :=
    mapM_exists_ok fun id hid => (h id hid).imp fun v hv => ⟨lookup_ok.2 hv, trivial⟩
  rw [valueOf, hvalues]
  exact ⟨_, rfl⟩

theorem buildSplit_ok (hfraud : ∀ name, ∀ id ∈ fields.rowIds name, ∃ b, fields.rowIsFraud.get? id = some b)
    (hvalue : ∀ name, ∀ id ∈ fields.rowIds name, ∃ v, fields.rowNetSettledValues.get? id = some v) :
    ∃ split, buildSplit fields = .ok split := by
  choose rates hrates using fun name => prevalenceOf_ok (hfraud name)
  choose totals htotals using fun name => valueOf_ok (hvalue name)
  rw [buildSplit, eachPartition_eq_ok.2 hrates, eachPartition_eq_ok.2 htotals]
  exact ⟨_, rfl⟩

/-- what follows a build may depend on its fields only -/
theorem buildSplit_bind {α : Type} {fields' : SplitFields} {g : EvaluationSplit → Except SimError α}
    (hrows : fields'.rowIds = fields.rowIds) (hfraud : fields'.rowIsFraud = fields.rowIsFraud)
    (hvalues : fields'.rowNetSettledValues = fields.rowNetSettledValues)
    (h : ∀ s s' : EvaluationSplit, s.toSplitFields = fields → s'.toSplitFields = fields' → g s = g s') :
    buildSplit fields >>= g = buildSplit fields' >>= g := by
  have hp : prevalenceOf fields' = prevalenceOf fields := by
    funext name
    rw [prevalenceOf, prevalenceOf, hrows, hfraud]
  have hv : valueOf fields' = valueOf fields := by
    funext name
    rw [valueOf, valueOf, hrows, hvalues]
  rw [buildSplit, buildSplit, hp, hv]
  cases eachPartition (prevalenceOf fields) with
  | error e => rfl
  | ok prevalence =>
    cases eachPartition (valueOf fields) with
    | error e => rfl
    | ok values => exact h _ _ rfl rfl

end Build

/-! ## Chronological splits -/

/-- the dictionaries of a split are those of the truth rows, which its rows resolve to -/
structure Labelled (corpus : FrozenCorpus) (split : EvaluationSplit) : Prop where
  truth : (corpus.truth.map TruthRow.eventId).Nodup
  resolved : ∀ name, ∀ id ∈ split.rowIds name, ∃ t ∈ corpus.truth, t.eventId = id
  training : ∀ id ∈ split.trainingRowIds, id ∈ split.rowIds .train
  families : split.rowFamilies = Dict.ofList (corpus.truth.map fun t => (t.eventId, t.family))
  campaigns : split.rowCampaigns = Dict.ofList (corpus.truth.map fun t => (t.eventId, t.campaignId))
  isFraud : split.rowIsFraud = Dict.ofList (corpus.truth.map fun t => (t.eventId, t.isFraud))
  values : split.rowNetSettledValues = Dict.ofList (corpus.truth.map fun t => (t.eventId, t.netSettledValue))

/-- what holds of every split of a corpus -/
structure Chronological (corpus : FrozenCorpus) (split : EvaluationSplit) : Prop where
  /-- the rows of a window are decisions, in order of decision time and event id -/
  ordered : ∀ name, ∃ rows : List ObservedEvent, split.rowIds name = rows.map ObservedEvent.eventId ∧
    (∀ r ∈ rows, r ∈ corpus.observations ∧ r.isDecisionPoint = true ∧ ∃ t, r.decisionAt = some t) ∧
    rows.Pairwise fun a b => toLex (decisionKey a, a.eventId) < toLex (decisionKey b, b.eventId)
  /-- the campaigns of a window are those of its rows -/
  campaigns : ∀ name c, c ∈ split.campaigns name ↔
    ∃ t ∈ corpus.truth, t.campaignId = c ∧ t.eventId ∈ split.rowIds name
  /-- no campaign has rows in two windows -/
  oneWindow : ∀ t ∈ corpus.truth, ∀ u ∈ corpus.truth, t.campaignId = u.campaignId → ∀ name name',
    t.eventId ∈ split.rowIds name → u.eventId ∈ split.rowIds name' → name = name'
  /-- training labels are mature -/
  mature : ∀ id ∈ split.trainingRowIds, id ∈ split.rowIds .train ∧
    ∀ t ∈ corpus.truth, t.eventId = id → t.labelMatureAt ≤ split.config.trainEnd
  /-- entity cohorts are the naive recomputation -/
  cohorts : ∀ r ∈ corpus.observations, r.isDecisionPoint = true →
    split.entityCohorts.get? r.eventId = some (naiveCohorts corpus r) ∧ naiveCohorts corpus r ≠ []

/-- the windows have every decision and every campaign once -/
structure Partitions (corpus : FrozenCorpus) (split : EvaluationSplit) : Prop where
  rows : (PartitionName.all.flatMap split.rowIds).Perm
    ((corpus.observations.filter ObservedEvent.isDecisionPoint).map ObservedEvent.eventId)
  rows_nodup : (PartitionName.all.flatMap split.rowIds).Nodup
  campaigns : (PartitionName.all.flatMap split.campaigns).Perm (corpus.truth.map TruthRow.campaignId).dedup

/-- a family left out of the fitting windows, and nothing else -/
structure LeftOut (family : String) (split loo : EvaluationSplit) : Prop where
  fitting : ∀ name, name.fitting = true →
    loo.rowIds name = (split.rowIds name).filter fun id => split.rowFamilies.get? id ≠ some family
  fittingCampaigns : ∀ name, name.fitting = true → ∀ c, c ∈ loo.campaigns name ↔
    c ∈ split.campaigns name ∧ ∃ id ∈ loo.rowIds name, split.rowCampaigns.get? id = some c
  development : loo.rowIds .development = split.rowIds .development
  developmentCampaigns : loo.campaigns .development = split.campaigns .development
  training : loo.trainingRowIds = split.trainingRowIds.filter fun id => split.rowFamilies.get? id ≠ some family
  cohorts : loo.entityCohorts = split.entityCohorts
  trainEnd : loo.config.trainEnd = split.config.trainEnd

section Splitting

variable [Sha256] {corpus : FrozenCorpus} {split : EvaluationSplit}

omit [Sha256] in
theorem Labelled.get? (h : Labelled corpus split) {α : Type} (f : TruthRow → α) {name : PartitionName} {id : String}
    (hid : id ∈ split.rowIds name) : ∃ a, (Dict.ofList (corpus.truth.map fun t => (t.eventId, f t))).get? id = some a := by
  rcases h.resolved name id hid with ⟨t, ht, htid⟩
  exact ⟨f t, (get?_truth h.truth f).2 ⟨t, ht, htid, rfl⟩⟩

variable {family : String}

/-- **Leaving a family out removes its rows from the fitting windows, and nothing else.** -/
theorem leaveOneFamilyOut_spec (h : Labelled corpus split) (hf : family ∈ families) :
    ∃ loo, makeLeaveOneFamilyOut split family = .ok loo ∧ LeftOut family split loo := by
  have hfamily : ∀ name, ∀ id ∈ split.rowIds name, ∃ f, split.rowFamilies.get? id = some f := by
    intro name id hid
    rw [h.families]
    exact h.get? _ hid
  -- the rows that stay
  let rowIds : PartitionName → List String := fun name =>
    if name.fitting then (split.rowIds name).filter fun id => split.rowFamilies.get? id ≠ some family
    else split.rowIds name
  have hkept : ∀ name, ∀ id ∈ rowIds name, id ∈ split.rowIds name := by
    intro name id hid
    cases hfit : name.fitting with
    | true =>
      simp only [rowIds, hfit, if_true] at hid
      exact List.mem_of_mem_filter hid
    | false => simpa only [rowIds, hfit, Bool.false_eq_true, if_false] using hid
  have hrows : eachPartition (fun name =>
      if name.fitting then withoutFamily split.rowFamilies family (split.rowIds name) else pure (split.rowIds name)) =
      .ok rowIds := by
    refine eachPartition_eq_ok.2 fun name => ?_
    cases hfit : name.fitting with
    | true =>
      simp only [rowIds, hfit, if_true]
      exact withoutFamily_ok (hfamily name) family
    | false =>
      simp only [rowIds, hfit, Bool.false_eq_true, if_false]
      rfl
  have hretained : ∀ name, ∃ retained, (rowIds name).mapM (lookup split.rowCampaigns) = .ok retained ∧
      List.Forall₂ (fun id c => split.rowCampaigns.get? id = some c) (rowIds name) retained := by
    intro name
    refine mapM_exists_ok fun id hid => ?_
    have hget : ∃ c, split.rowCampaigns.get? id = some c := by
      rw [h.campaigns]
      exact h.get? _ (hkept name id hid)
    exact hget.imp fun c hc => ⟨lookup_ok.2 hc, hc⟩
  choose retained hretain hretained using hretained
  have hcampaigns : eachPartition (fun name =>
      if name.fitting then do
        let retained ← (rowIds name).mapM (lookup split.rowCampaigns)
        pure ((split.campaigns name).filter fun c => c ∈ retained)
      else pure (split.campaigns name)) =
      .ok fun name => if name.fitting then (split.campaigns name).filter fun c => c ∈ retained name
        else split.campaigns name := by
    refine eachPartition_eq_ok.2 fun name => ?_
    cases name.fitting with
    | true =>
      simp only [if_true, hretain]
      rfl
    | false => rfl
  have htraining := withoutFamily_ok (fun id hid => hfamily .train id (h.training id hid)) family
  have hheld := ofFamily_ok (hfamily .development) family
  have hbuild : ∃ loo, buildSplit
      { split.toSplitFields with
        config := split.config.holdOut family hf
        campaigns := fun name => if name.fitting then (split.campaigns name).filter fun c => c ∈ retained name
          else split.campaigns name
        rowIds := rowIds
        trainingRowIds := split.trainingRowIds.filter fun id => split.rowFamilies.get? id ≠ some family
        heldOutEvaluationRowIds := (split.rowIds .development).filter fun id =>
          split.rowFamilies.get? id = some family } = .ok loo := by
    refine buildSplit_ok (fun name id hid => ?_) fun name id hid => ?_
    · show ∃ b, split.rowIsFraud.get? id = some b
      rw [h.isFraud]
      exact h.get? _ (hkept name id hid)
    · show ∃ v, split.rowNetSettledValues.get? id = some v
      rw [h.values]
      exact h.get? _ (hkept name id hid)
  rcases hbuild with ⟨loo, hloo⟩
  have hfields := buildSplit_fields hloo
  refine ⟨loo, ?_, ?_⟩
  · rw [makeLeaveOneFamilyOut, dif_pos hf, hrows]
    show (eachPartition _ >>= _) = _
    rw [hcampaigns]
    show (withoutFamily _ _ _ >>= _) = _
    rw [htraining]
    show (ofFamily _ _ _ >>= _) = _
    rw [hheld]
    exact hloo
  · refine ⟨?_, ?_, ?_, ?_, ?_, ?_, ?_⟩
    · intro name hfit
      rw [hfields]
      exact if_pos hfit
    · intro name hfit c
      rw [hfields]
      show c ∈ (if name.fitting = true then _ else _) ↔ _
      rw [if_pos hfit, List.mem_filter, decide_eq_true_eq]
      refine and_congr_right fun _ => ?_
      constructor
      · intro hc
        exact forall₂_mem_right (hretained name) hc
      · rintro ⟨id, hid, hc⟩
        rcases forall₂_mem_left (hretained name) hid with ⟨c', hc', hget⟩
        rw [hget] at hc
        exact Option.some.inj hc ▸ hc'
    · rw [hfields]
      rfl
    · rw [hfields]
      rfl
    · rw [hfields]
    · rw [hfields]
    · rw [hfields]
      rfl

omit [Sha256] in
theorem LeftOut.sublist {loo : EvaluationSplit} (h : LeftOut family split loo) (name : PartitionName) :
    ∃ p : String → Bool, loo.rowIds name = (split.rowIds name).filter p := by
  cases hfit : name.fitting with
  | true => exact ⟨_, h.fitting name hfit⟩
  | false =>
    cases name with
    | development => exact ⟨fun _ => true, by rw [h.development, List.filter_true]⟩
    | _ => cases hfit

omit [Sha256] in
/-- what holds of a split holds of it without a family -/
theorem Chronological.leftOut {loo : EvaluationSplit} (hc : Chronological corpus split) (hl : Labelled corpus split)
    (h : LeftOut family split loo) : Chronological corpus loo := by
  have hsub : ∀ name, ∀ id ∈ loo.rowIds name, id ∈ split.rowIds name := by
    intro name id hid
    rcases h.sublist name with ⟨p, hp⟩
    rw [hp] at hid
    exact List.mem_of_mem_filter hid
  refine ⟨?_, ?_, ?_, ?_, ?_⟩
  · intro name
    rcases hc.ordered name with ⟨rows, hrows, hmem, hsorted⟩
    rcases h.sublist name with ⟨p, hp⟩
    refine ⟨rows.filter fun r => p r.eventId, ?_, ?_, hsorted.filter _⟩
    · rw [hp, hrows, List.filter_map]
      rfl
    · exact fun r hr => hmem r (List.mem_of_mem_filter hr)
  · intro name c
    cases hfit : name.fitting with
    | true =>
      rw [h.fittingCampaigns name hfit]
      constructor
      · rintro ⟨_, id, hid, hget⟩
        rw [hl.campaigns] at hget
        rcases (get?_truth hl.truth _).1 hget with ⟨t, ht, rfl, hcampaign⟩
        exact ⟨t, ht, hcampaign, hid⟩
      · rintro ⟨t, ht, rfl, hid⟩
        refine ⟨(hc.campaigns name _).2 ⟨t, ht, rfl, hsub name _ hid⟩, t.eventId, hid, ?_⟩
        rw [hl.campaigns]
        exact (get?_truth hl.truth _).2 ⟨t, ht, rfl, rfl⟩
    | false =>
      cases name with
      | development =>
        rw [h.developmentCampaigns, h.development]
        exact hc.campaigns _ c
      | _ => cases hfit
  · intro t ht u hu hcampaign name name' hid hid'
    exact hc.oneWindow t ht u hu hcampaign name name' (hsub name _ hid) (hsub name' _ hid')
  · intro id hid
    rw [h.training, List.mem_filter] at hid
    refine ⟨?_, ?_⟩
    · rw [h.fitting .train rfl, List.mem_filter]
      exact ⟨(hc.mature id hid.1).1, hid.2⟩
    · rw [h.trainEnd]
      exact (hc.mature id hid.1).2
  · rw [h.cohorts]
    exact hc.cohorts

/-- **A split without a held-out family.** -/
theorem make_spec {config : SplitConfig} (hnone : config.heldOutFamily = none)
    (h : makeEvaluationSplit corpus config = .ok split) :
    Chronological corpus split ∧ Partitions corpus split ∧ Labelled corpus split := by
  unfold makeEvaluationSplit at h
  rw [hnone] at h
  simp only [except_bind_eq_ok, except_pure_eq_ok] at h
  obtain ⟨rows, hrows, windows, hwindows, cohorts, hcohorts, _, _, built, hbuilt, rfl⟩ := h
  have hj := decisionRows_spec hrows
  have hw := partitionByCampaign_spec hwindows
  have hfields := buildSplit_fields hbuilt
  have hp : (sortBy (fun r : ObservedEvent × TruthRow => toLex (decisionKey r.1, r.1.eventId)) rows).Perm rows :=
    sortBy_perm _ rows
  have hsorted := sortBy_sorted (fun r : ObservedEvent × TruthRow => toLex (decisionKey r.1, r.1.eventId)) rows
  -- a row id of a window is that of a row whose campaign has the window
  have hmem : ∀ name id, id ∈ built.rowIds name ↔
      ∃ r ∈ rows, windowOf windows r.2.campaignId = some name ∧ r.1.eventId = id := by
    intro name id
    rw [hfields]
    show id ∈ (windowRows _ _ _).map _ ↔ _
    rw [List.mem_map]
    simp only [mem_windowRows hw.nodup, mem_sortBy, and_assoc]
  have htruth : ∀ t ∈ corpus.truth, ∀ name, t.eventId ∈ built.rowIds name ↔ windowOf windows t.campaignId = some name := by
    intro t ht name
    rw [hmem]
    constructor
    · rintro ⟨r, hr, hwindow, hid⟩
      rcases hj.mem r hr with ⟨hrt, hrid⟩
      rwa [truth_inj hj.truth hrt ht (hrid.trans hid)] at hwindow
    · intro hwindow
      rcases hj.all t ht with ⟨r, hr, rfl⟩
      exact ⟨r, hr, hwindow, (hj.mem r hr).2.symm⟩
  have hwindowed : ∀ name, ((windowRows windows
      (sortBy (fun r : ObservedEvent × TruthRow => toLex (decisionKey r.1, r.1.eventId)) rows) name).map
        fun r => r.1.eventId).Nodup := by
    intro name
    refine List.Nodup.sublist (List.Sublist.map _ List.filter_sublist) ?_
    exact ((hp.map fun r => r.1.eventId).nodup_iff).2 hj.nodup
  have hids : (PartitionName.all.flatMap built.rowIds).Perm (rows.map fun r => r.1.eventId) := by
    rw [hfields]
    have := (perm_windowRows hw hp).map fun r => r.1.eventId
    rwa [List.map_flatMap] at this
  refine ⟨⟨?_, ?_, ?_, ?_, ?_⟩, ⟨?_, ?_, ?_⟩, ⟨hj.truth, ?_, ?_, ?_, ?_, ?_, ?_⟩⟩
  · intro name
    refine ⟨(windowRows windows (sortBy (fun r => toLex (decisionKey r.1, r.1.eventId)) rows) name).map Prod.fst,
      ?_, ?_, ?_⟩
    · rw [hfields, List.map_map]
      rfl
    · intro d hd
      rcases List.mem_map.1 hd with ⟨r, hr, rfl⟩
      have hr' : r ∈ rows := mem_sortBy.1 ((mem_windowRows hw.nodup).1 hr).1
      have hobs : r.1 ∈ corpus.observations.filter ObservedEvent.isDecisionPoint :=
        hj.decisions ▸ List.mem_map_of_mem hr'
      exact ⟨(List.mem_filter.1 hobs).1, (List.mem_filter.1 hobs).2, hw.decided r hr'⟩
    · rw [List.pairwise_map]
      have hle := hsorted.filter fun r => windows.any fun c => c.campaignId = r.2.campaignId && c.window = name
      have hne : (windowRows windows
          (sortBy (fun r : ObservedEvent × TruthRow => toLex (decisionKey r.1, r.1.eventId)) rows) name).Pairwise
          fun a b => a.1.eventId ≠ b.1.eventId := List.pairwise_map.1 (hwindowed name)
      refine (hle.and hne).imp fun {a b} hab => lt_of_le_of_ne hab.1 fun heq => hab.2 ?_
      exact congrArg (fun k => (ofLex k).2) heq
  · intro name c
    rw [hfields]
    show c ∈ windowCampaigns windows name ↔ _
    rw [mem_windowCampaigns hw.nodup]
    constructor
    · intro hwindow
      rcases (windowOf_eq_some hw.nodup).1 hwindow with ⟨w, hwmem, rfl, _⟩
      rcases (hw.mem w.campaignId).1 (List.mem_map_of_mem hwmem) with ⟨r, hr, hcampaign⟩
      refine ⟨r.2, (hj.mem r hr).1, hcampaign, ?_⟩
      have := (htruth r.2 (hj.mem r hr).1 name).2 (hcampaign ▸ hwindow)
      rwa [hfields] at this
    · rintro ⟨t, ht, rfl, hid⟩
      rw [← hfields] at hid
      exact (htruth t ht name).1 hid
  · intro t ht u hu hcampaign name name' hid hid'
    have h1 := (htruth t ht name).1 hid
    have h2 := (htruth u hu name').1 hid'
    rw [← hcampaign, h1] at h2
    exact Option.some.inj h2
  · intro id hid
    rw [hfields] at hid
    rcases List.mem_map.1 hid with ⟨r, hr, rfl⟩
    rw [List.mem_filter, decide_eq_true_eq, mem_windowRows hw.nodup, mem_sortBy] at hr
    refine ⟨(hmem .train _).2 ⟨r, hr.1.1, hr.1.2, rfl⟩, fun t ht htid => ?_⟩
    rcases hj.mem r hr.1.1 with ⟨hrt, hrid⟩
    rw [truth_inj hj.truth ht hrt (htid.trans hrid.symm), hfields]
    exact hr.2
  · intro d hd hdecision
    have hd' : d ∈ rows.map Prod.fst := by
      rw [hj.decisions]
      exact List.mem_filter.2 ⟨hd, hdecision⟩
    rcases List.mem_map.1 hd' with ⟨r, hr, rfl⟩
    refine ⟨?_, naiveCohorts_ne_nil corpus r.1⟩
    rw [hfields]
    refine entityCohorts_spec hj hp (hsorted.imp fun {a b} hab => ?_) hcohorts hr
    rcases Prod.Lex.toLex_le_toLex.1 hab with hlt | ⟨heq, _⟩
    · exact hlt.le
    · exact heq.le
  · rwa [← hj.decisions, List.map_map]
  · exact hids.nodup_iff.2 hj.nodup
  · rw [hfields]
    refine (perm_windowCampaigns windows).trans ((List.perm_ext_iff_of_nodup hw.nodup (List.nodup_dedup _)).2 fun c => ?_)
    rw [hw.mem, List.mem_dedup, List.mem_map]
    constructor
    · rintro ⟨r, hr, hcampaign⟩
      exact ⟨r.2, (hj.mem r hr).1, hcampaign⟩
    · rintro ⟨t, ht, hcampaign⟩
      rcases hj.all t ht with ⟨r, hr, rfl⟩
      exact ⟨r, hr, hcampaign⟩
  · intro name id hid
    rcases (hmem name id).1 hid with ⟨r, hr, _, rfl⟩
    exact ⟨r.2, hj.mem r hr⟩
  · intro id hid
    rw [hfields] at hid ⊢
    rcases List.mem_map.1 hid with ⟨r, hr, rfl⟩
    exact List.mem_map_of_mem (List.mem_of_mem_filter hr)
  · rw [hfields]
  · rw [hfields]
  · rw [hfields]
  · rw [hfields]

theorem leaveOneFamilyOut_congr {fields fields' : SplitFields} {s s' : EvaluationSplit} (hs : s.toSplitFields = fields)
    (hs' : s'.toSplitFields = fields')
    (h : ∀ hf : family ∈ families, { fields with config := fields.config.holdOut family hf, heldOutEvaluationRowIds := [] } =
      { fields' with config := fields'.config.holdOut family hf, heldOutEvaluationRowIds := [] }) :
    makeLeaveOneFamilyOut s family = makeLeaveOneFamilyOut s' family := by
  subst hs hs'
  unfold makeLeaveOneFamilyOut
  split_ifs with hf
  · have heq := h hf
    simp only [SplitFields.mk.injEq] at heq
    obtain ⟨hconfig, hcampaigns, hrows, htraining, hcohorts, hfamilies, hrowCampaigns, hfraud, hvalues, _⟩ := heq
    dsimp only
    rw [hconfig, hcampaigns, hrows, htraining, hcohorts, hfamilies, hrowCampaigns, hfraud, hvalues]
  · rfl

omit [Sha256] in
theorem bind_congr_ok {α β ε : Type} {x : Except ε α} {f g : α → Except ε β} (h : ∀ a, x = .ok a → f a = g a) :
    x >>= f = x >>= g := by
  cases x with
  | error e => rfl
  | ok a => exact h a rfl

/-- **Splitting with a held-out family is leaving it out of the split without it.** -/
theorem make_holdOut (corpus : FrozenCorpus) (config : SplitConfig) (hf : family ∈ families) :
    makeEvaluationSplit corpus (config.holdOut family hf) =
      makeEvaluationSplit corpus config.unheld >>= fun split => makeLeaveOneFamilyOut split family := by
  unfold makeEvaluationSplit
  simp only [bind_assoc]
  refine bind_congr_ok fun rows hrows => bind_congr_ok fun windows hwindows => bind_congr_ok fun cohorts _ => ?_
  have hj := decisionRows_spec hrows
  have hw : Windowed rows windows := partitionByCampaign_spec hwindows
  have hheld : ∀ ids : List String, (∀ id ∈ ids, ∃ r ∈ rows, r.1.eventId = id) → ∃ held,
      ofFamily (Dict.ofList (corpus.truth.map fun t => (t.eventId, t.family))) family ids = .ok held := by
    intro ids hids
    refine ⟨_, ofFamily_ok (fun id hid => ?_) family⟩
    rcases hids id hid with ⟨r, hr, rfl⟩
    exact ⟨r.2.family, (get?_truth hj.truth _).2 ⟨r.2, (hj.mem r hr).1, (hj.mem r hr).2, rfl⟩⟩
  rcases hheld ((windowRows windows (sortBy (fun r => toLex (decisionKey r.1, r.1.eventId)) rows) .development).map
      fun r => r.1.eventId) (fun id hid => by
        rcases List.mem_map.1 hid with ⟨r, hr, rfl⟩
        exact ⟨r, mem_sortBy.1 ((mem_windowRows hw.nodup).1 hr).1, rfl⟩) with ⟨held, hheld⟩
  show (ofFamily _ _ _ >>= _) = _
  rw [hheld]
  show (buildSplit _ >>= _) = ((buildSplit _ >>= pure) >>= _)
  rw [bind_pure]
  refine buildSplit_bind rfl rfl rfl fun s s' hs hs' => ?_
  exact leaveOneFamilyOut_congr hs hs' fun _ => rfl

/-- **Chronological splits.** In every split, the rows of a window are in order of decision time and event id, no campaign
has rows in two windows, training labels are mature, and entity cohorts are the naive recomputation, never empty. Without a
held-out family, the windows partition the decisions and the campaigns. With one, the split is the one without it, with the
family left out of it: of the fitting windows its rows go, the development rows and the cohorts stay. -/
theorem split_chronological (corpus : FrozenCorpus) (config : SplitConfig) :
    (∀ split, makeEvaluationSplit corpus config = .ok split →
      Chronological corpus split ∧ (config.heldOutFamily = none → Partitions corpus split)) ∧
    ∀ family (hf : family ∈ families),
      makeEvaluationSplit corpus (config.holdOut family hf) =
        makeEvaluationSplit corpus config.unheld >>= (fun split => makeLeaveOneFamilyOut split family) ∧
      ∀ split, makeEvaluationSplit corpus config.unheld = .ok split →
        (∀ t ∈ corpus.truth, split.rowFamilies.get? t.eventId = some t.family) ∧
        ∃ loo, makeLeaveOneFamilyOut split family = .ok loo ∧ LeftOut family split loo := by
  have hunheld : ∀ split, makeEvaluationSplit corpus config.unheld = .ok split →
      Chronological corpus split ∧ Partitions corpus split ∧ Labelled corpus split := fun split h => make_spec rfl h
  refine ⟨fun split h => ?_, fun family hf => ⟨make_holdOut corpus config hf, fun split h => ?_⟩⟩
  · cases hconfig : config.heldOutFamily with
    | none =>
      have hspec := make_spec hconfig h
      exact ⟨hspec.1, fun _ => hspec.2.1⟩
    | some family =>
      refine ⟨?_, nofun⟩
      have hf := config.declared family hconfig
      have hsame : config = config.holdOut family hf := by
        cases config
        cases hconfig
        rfl
      rw [hsame, make_holdOut corpus config hf, except_bind_eq_ok] at h
      rcases h with ⟨base, hbase, hloo⟩
      rcases hunheld base hbase with ⟨hc, _, hl⟩
      rcases leaveOneFamilyOut_spec hl hf with ⟨loo, hmake, hleft⟩
      obtain rfl := Except.ok.inj (hloo.symm.trans hmake)
      exact hc.leftOut hl hleft
  · have hl := (hunheld split h).2.2
    refine ⟨fun t ht => ?_, leaveOneFamilyOut_spec hl hf⟩
    rw [hl.families]
    exact (get?_truth hl.truth _).2 ⟨t, ht, rfl, rfl⟩

end Splitting

/-! ## A split of a fraudulent and a benign payment -/

/-- a decision about a payment of an actor to `"m"` -/
def sampleDecision (eventId paymentId actorId : String) (at_ : Time) : ObservedEvent where
  eventId := eventId
  paymentId := paymentId
  rail := .card
  eventType := .authorization
  amount := ⟨1000, -2⟩
  currency := "USD"
  eventTime := at_
  availableAt := at_
  decisionAt := some at_
  actorId := actorId
  counterpartyId := "m"
  optionalRefs := ∅
  integrityStatus := .notApplicable
  integrityReason := none
  isDecisionPoint := true

def sampleTruth (eventId paymentId campaignId family : String) (isFraud : Bool) (labelMatureAt : Time) : TruthRow where
  eventId := eventId
  paymentId := paymentId
  campaignId := campaignId
  family := family
  isFraud := isFraud
  labelSource := .populationTruth
  labelMatureAt := labelMatureAt
  firstSettlementAt := none
  netSettledValue := ⟨1000, -2⟩
  lifecycleEventIds := [eventId]

/-- a payment in training and one in development, by different actors -/
def sampleCorpus : FrozenCorpus where
  observations := [sampleDecision "e1" "p1" "a" 1, sampleDecision "e2" "p2" "b" 7]
  truth := [sampleTruth "e1" "p1" "c1" "card_testing_cnp" true 2, sampleTruth "e2" "p2" "c2" "app_scam_mule" false 9]
  manifest := ⟨"fixture", [], [], 2, 2⟩

def sampleConfig : SplitConfig where
  trainEnd := 2
  calibratorFitEnd := 4
  thresholdEnd := 6
  developmentEnd := 8
  heldOutFamily := none
  increasing := by decide
  declared := declared_none

theorem split_chronological_sample : ∃ split,
    @makeEvaluationSplit ⟨fun _ => "", fun _ => ""⟩ sampleCorpus sampleConfig = .ok split ∧
      Chronological sampleCorpus split ∧ Partitions sampleCorpus split := by
  have hok : (@makeEvaluationSplit ⟨fun _ => "", fun _ => ""⟩ sampleCorpus sampleConfig).toBool = true := by decide +kernel
  obtain ⟨split, h⟩ : ∃ split, @makeEvaluationSplit ⟨fun _ => "", fun _ => ""⟩ sampleCorpus sampleConfig = .ok split := by
    cases hmake : @makeEvaluationSplit ⟨fun _ => "", fun _ => ""⟩ sampleCorpus sampleConfig with
    | ok split => exact ⟨split, rfl⟩
    | error e =>
      rw [hmake] at hok
      cases hok
  have hspec := (@split_chronological ⟨fun _ => "", fun _ => ""⟩ sampleCorpus sampleConfig).1 split h
  exact ⟨split, h, hspec.1, hspec.2 rfl⟩

end Splits

end Apar
