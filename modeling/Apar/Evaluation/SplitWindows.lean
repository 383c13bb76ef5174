/-
What the steps of `make_evaluation_split` establish.

- `decisionRows_spec`: each decision is joined with its truth row, and every truth row with its decision.
- `partitionByCampaign_spec`: every campaign has one window, so the windows partition the rows (`perm_windowRows`).
- `entityCohorts_spec`: the sweep annotates a row as the naive recomputation over the observations known before it does.
-/
import Apar.Core.Indexing
import Apar.Evaluation.Splits

namespace Apar

open Exec
open Regimes (FrozenCorpus)

namespace Splits

/-! ## Decision rows -/

/-- decisions joined with their truth rows, one to one -/
structure Joined (corpus : FrozenCorpus) (rows : List (ObservedEvent × TruthRow)) : Prop where
  truth : (corpus.truth.map TruthRow.eventId).Nodup
  decisions : rows.map Prod.fst = corpus.observations.filter ObservedEvent.isDecisionPoint
  nodup : (rows.map fun r => r.1.eventId).Nodup
  mem : ∀ r ∈ rows, r.2 ∈ corpus.truth ∧ r.2.eventId = r.1.eventId
  all : ∀ t ∈ corpus.truth, ∃ r ∈ rows, r.2 = t

theorem get?_truth {α : Type} {truth : List TruthRow} {key : TruthRow → String} (hn : (truth.map key).Nodup)
    (f : TruthRow → α) {k : String} {a : α} :
    (Dict.ofList (truth.map fun t => (key t, f t))).get? k = some a ↔ ∃ t ∈ truth, key t = k ∧ f t = a := by
  have hkeys : ((truth.map fun t => (key t, f t)).map Prod.fst).Nodup := by
    rw [List.map_map]
    exact hn
  rw [Dict.get?_eq_some, Dict.items_ofList hkeys, List.mem_map]
  simp only [Prod.mk.injEq]

theorem truth_inj {truth : List TruthRow} {key : TruthRow → String} (hn : (truth.map key).Nodup) {t u : TruthRow}
    (ht : t ∈ truth) (hu : u ∈ truth) (h : key t = key u) : t = u :=
  List.inj_on_of_nodup_map hn ht hu h

/-- **Decisions and truth rows correspond.** -/
theorem decisionRows_spec {corpus : FrozenCorpus} {rows : List (ObservedEvent × TruthRow)}
    (h : decisionRows corpus = .ok rows) : Joined corpus rows := by
  unfold decisionRows at h
  simp only [except_bind_eq_ok, check_eq_ok, decide_eq_true_eq] at h
  obtain ⟨_, htruth, _, hnodup, _, hsame, hrows⟩ := h
  rw [mapM_eq_ok] at hrows
  have hrow : List.Forall₂ (fun d r => d = r.1 ∧ r.2 ∈ corpus.truth ∧ r.2.eventId = d.eventId)
      (corpus.observations.filter ObservedEvent.isDecisionPoint) rows := by
    refine hrows.imp fun d r hr => ?_
    split at hr
    next => cases hr
    next t ht =>
      cases hr
      rcases (get?_truth htruth id).1 ht with ⟨t', ht', hid, rfl⟩
      exact ⟨rfl, ht', hid⟩
  have hfst : rows.map Prod.fst = corpus.observations.filter ObservedEvent.isDecisionPoint := by
    have : List.Forall₂ Eq (corpus.observations.filter ObservedEvent.isDecisionPoint) (rows.map Prod.fst) := by
      rw [List.forall₂_map_right_iff]
      exact hrow.imp fun d r hr => hr.1
    exact (List.forall₂_eq_eq_eq ▸ this).symm
  refine ⟨htruth, hfst, ?_, ?_, ?_⟩
  · have : (rows.map fun r => r.1.eventId) = (rows.map Prod.fst).map ObservedEvent.eventId := by
      rw [List.map_map]
      rfl
    rw [this, hfst]
    exact hnodup
  · intro r hr
    rcases forall₂_mem_right hrow hr with ⟨d, _, rfl, hmem⟩
    exact hmem
  · intro t ht
    have hid : t.eventId ∈ ((corpus.observations.filter ObservedEvent.isDecisionPoint).map ObservedEvent.eventId).toFinset := by
      rw [hsame, List.mem_toFinset]
      exact List.mem_map_of_mem ht
    rcases List.mem_map.1 (List.mem_toFinset.1 hid) with ⟨d, hd, hdid⟩
    rcases forall₂_mem_left hrow hd with ⟨r, hr, _, hmem, hrid⟩
    exact ⟨r, hr, truth_inj htruth hmem ht (hrid.trans hdid)⟩

/-! ## Windows -/

/-- the window of a campaign -/
def windowOf (windows : List CampaignWindow) (campaign : String) : Option PartitionName :=
  (windows.find? fun c => c.campaignId = campaign).map CampaignWindow.window

/-- every campaign of the rows has one window -/
structure Windowed (rows : List (ObservedEvent × TruthRow)) (windows : List CampaignWindow) : Prop where
  nodup : (windows.map CampaignWindow.campaignId).Nodup
  mem : ∀ c, c ∈ windows.map CampaignWindow.campaignId ↔ ∃ r ∈ rows, r.2.campaignId = c
  decided : ∀ r ∈ rows, ∃ t, r.1.decisionAt = some t

theorem partitionByCampaign_spec {rows : List (ObservedEvent × TruthRow)} {config : SplitConfig}
    {windows : List CampaignWindow} (h : partitionByCampaign rows config = .ok windows) : Windowed rows windows := by
  rw [partitionByCampaign, mapM_eq_ok] at h
  have hgroup : List.Forall₂ (fun (group : String × List (ObservedEvent × TruthRow)) (c : CampaignWindow) =>
      group.1 = c.campaignId ∧ ∀ r ∈ group.2, ∃ t, r.1.decisionAt = some t)
      (Grouping.groupBy (fun r : ObservedEvent × TruthRow => r.2.campaignId) rows).items windows := by
    refine h.imp fun group c hc => ?_
    simp only [except_bind_eq_ok] at hc
    obtain ⟨times, htimes, window, _, hc⟩ := hc
    cases hc
    refine ⟨rfl, fun r hr => ?_⟩
    rcases forall₂_mem_left (mapM_eq_ok.1 htimes) hr with ⟨t, _, ht⟩
    rw [decisionTime] at ht
    split at ht
    next => cases ht
    next t' heq => exact ⟨t', heq⟩
  have hkeys : windows.map CampaignWindow.campaignId =
      (Grouping.groupBy (fun r : ObservedEvent × TruthRow => r.2.campaignId) rows).keys := by
    have : List.Forall₂ Eq (Grouping.groupBy (fun r : ObservedEvent × TruthRow => r.2.campaignId) rows).keys
        (windows.map CampaignWindow.campaignId) := by
      rw [Dict.keys, List.forall₂_map_left_iff, List.forall₂_map_right_iff]
      exact hgroup.imp fun _ _ hc => hc.1
    exact (List.forall₂_eq_eq_eq ▸ this).symm
  have hmem : ∀ c, c ∈ (Grouping.groupBy (fun r : ObservedEvent × TruthRow => r.2.campaignId) rows).keys ↔
      ∃ r ∈ rows, r.2.campaignId = c := by
    intro c
    rw [Dict.mem_keys]
    simp only [Grouping.get?_groupBy]
    rw [← List.mem_map]
    by_cases hc : c ∈ rows.map fun r : ObservedEvent × TruthRow => r.2.campaignId
    · simp [hc]
    · simp [hc]
  refine ⟨?_, fun c => by rw [hkeys]; exact hmem c, fun r hr => ?_⟩
  · rw [hkeys]
    exact (Grouping.groupBy (fun r : ObservedEvent × TruthRow => r.2.campaignId) rows).nodup
  · have hget : (Grouping.groupBy (fun r : ObservedEvent × TruthRow => r.2.campaignId) rows).get? r.2.campaignId =
        some (Grouping.ofKey (fun r : ObservedEvent × TruthRow => r.2.campaignId) rows r.2.campaignId) := by
      rw [Grouping.get?_groupBy, if_pos (List.mem_map_of_mem hr)]
    rcases forall₂_mem_left hgroup (Dict.get?_eq_some.1 hget) with ⟨_, _, _, hdecided⟩
    exact hdecided r (Grouping.mem_ofKey.2 ⟨hr, rfl⟩)

section Windows

variable {rows : List (ObservedEvent × TruthRow)} {windows : List CampaignWindow}

theorem windowOf_eq_some (hn : (windows.map CampaignWindow.campaignId).Nodup) {campaign : String} {name : PartitionName} :
    windowOf windows campaign = some name ↔ ∃ c ∈ windows, c.campaignId = campaign ∧ c.window = name := by
  rw [windowOf, Option.map_eq_some_iff]
  constructor
  · rintro ⟨c, hc, rfl⟩
    exact ⟨c, List.mem_of_find?_eq_some hc, by simpa using List.find?_some hc, rfl⟩
  · rintro ⟨c, hc, hid, hname⟩
    cases hfind : windows.find? fun c => c.campaignId = campaign with
    | none => exact absurd hid (by simpa using List.find?_eq_none.1 hfind c hc)
    | some c' =>
      have hc' : c'.campaignId = campaign := by simpa using List.find?_some hfind
      have := List.inj_on_of_nodup_map hn (List.mem_of_find?_eq_some hfind) hc (hc'.trans hid.symm)
      exact ⟨c', rfl, this ▸ hname⟩

theorem windowRows_eq (hn : (windows.map CampaignWindow.campaignId).Nodup) (name : PartitionName) :
    windowRows windows rows name = Grouping.ofKey (fun r => windowOf windows r.2.campaignId) rows (some name) := by
  refine List.filter_congr fun r _ => ?_
  rw [Bool.eq_iff_iff, List.any_eq_true, decide_eq_true_eq, windowOf_eq_some hn]
  simp only [Bool.and_eq_true, decide_eq_true_eq]

theorem mem_windowRows (hn : (windows.map CampaignWindow.campaignId).Nodup) {name : PartitionName}
    {r : ObservedEvent × TruthRow} :
    r ∈ windowRows windows rows name ↔ r ∈ rows ∧ windowOf windows r.2.campaignId = some name := by
  rw [windowRows_eq hn, Grouping.mem_ofKey]

theorem Windowed.exists_window (h : Windowed rows windows) {r : ObservedEvent × TruthRow} (hr : r ∈ rows) :
    ∃ name, windowOf windows r.2.campaignId = some name := by
  rcases List.mem_map.1 ((h.mem _).2 ⟨r, hr, rfl⟩) with ⟨c, hc, hid⟩
  exact ⟨c.window, (windowOf_eq_some h.nodup).2 ⟨c, hc, hid, rfl⟩⟩

/-- **The windows partition the rows.** -/
theorem perm_windowRows (h : Windowed rows windows) {ordered : List (ObservedEvent × TruthRow)} (hp : ordered.Perm rows) :
    (PartitionName.all.flatMap (windowRows windows ordered)).Perm rows := by
  have hflat : PartitionName.all.flatMap (windowRows windows ordered) =
      (PartitionName.all.map some).flatMap
        (Grouping.ofKey (fun r : ObservedEvent × TruthRow => windowOf windows r.2.campaignId) ordered) := by
    rw [List.flatMap_map]
    exact List.flatMap_congr fun name _ => windowRows_eq h.nodup name
  rw [hflat]
  refine (Grouping.perm_groups _ ?_ fun r hr => ?_).trans hp
  · exact List.Nodup.map (Option.some_injective _) PartitionName.all_nodup
  · rcases h.exists_window (hp.mem_iff.1 hr) with ⟨name, hname⟩
    rw [hname]
    exact List.mem_map_of_mem (PartitionName.mem_all name)

/-- **The windows partition the campaigns.** -/
theorem perm_windowCampaigns (windows : List CampaignWindow) :
    (PartitionName.all.flatMap (windowCampaigns windows)).Perm (windows.map CampaignWindow.campaignId) := by
  have hgroups : (PartitionName.all.flatMap (Grouping.ofKey CampaignWindow.window windows)).Perm windows :=
    Grouping.perm_groups _ PartitionName.all_nodup fun c _ => PartitionName.mem_all c.window
  refine List.Perm.trans ?_ (hgroups.map CampaignWindow.campaignId)
  rw [List.map_flatMap]
  exact List.Perm.flatMap_left _ fun name _ => (sortBy_perm _ _).map _

theorem mem_windowCampaigns (hn : (windows.map CampaignWindow.campaignId).Nodup) {name : PartitionName} {campaign : String} :
    campaign ∈ windowCampaigns windows name ↔ windowOf windows campaign = some name := by
  rw [windowOf_eq_some hn, windowCampaigns, List.mem_map]
  constructor
  · rintro ⟨c, hc, hid⟩
    rw [mem_sortBy, List.mem_filter] at hc
    exact ⟨c, hc.1, hid, by simpa using hc.2⟩
  · rintro ⟨c, hc, hid, hname⟩
    exact ⟨c, by rw [mem_sortBy, List.mem_filter]; exact ⟨hc, by simpa using hname⟩, hid⟩

end Windows

/-! ## Entity cohorts -/

/-- the campaign of a payment -/
def campaignOfPayment (corpus : FrozenCorpus) (paymentId : String) : Option String :=
  (corpus.truth.find? fun t => t.paymentId = paymentId).map TruthRow.campaignId

/-- the campaign of a decision -/
def campaignOfEvent (corpus : FrozenCorpus) (eventId : String) : Option String :=
  (corpus.truth.find? fun t => t.eventId = eventId).map TruthRow.campaignId

/-- the observations known strictly before a decision -/
def knownBefore (corpus : FrozenCorpus) (row : ObservedEvent) : List ObservedEvent :=
  corpus.observations.filter fun o => observationTime o < decisionKey row

/-- an observation of the same actor, counterparty or pair -/
def related (row o : ObservedEvent) : Bool :=
  o.actorId = row.actorId || o.counterpartyId = row.counterpartyId ||
    (o.actorId = row.actorId && o.counterpartyId = row.counterpartyId)

/-- the entity cohorts of a decision, recomputed from the observations known before it -/
def naiveCohorts (corpus : FrozenCorpus) (row : ObservedEvent) : List EntityCohort :=
  let known := knownBefore corpus row
  let campaign := campaignOfEvent corpus row.eventId
  (if known.any fun o => o.actorId = row.actorId then [] else [.coldActor]) ++
    (if known.any fun o => o.counterpartyId = row.counterpartyId then [] else [.coldCounterparty]) ++
    (if known.any fun o => o.actorId = row.actorId && o.counterpartyId = row.counterpartyId then [] else [.coldPair]) ++
    (if known.any fun o => related row o && campaignOfPayment corpus o.paymentId = campaign then [.warmWithinCampaign]
    else []) ++
    (if known.any fun o => related row o && campaignOfPayment corpus o.paymentId ≠ campaign then [.returningPriorCampaign]
    else [])

theorem naiveCohorts_ne_nil (corpus : FrozenCorpus) (row : ObservedEvent) : naiveCohorts corpus row ≠ [] := by
  intro hnil
  simp only [naiveCohorts, List.append_eq_nil_iff] at hnil
  obtain ⟨⟨⟨⟨hactor, _⟩, _⟩, hwarm⟩, hreturning⟩ := hnil
  split_ifs at hactor with hknown
  rcases List.any_eq_true.1 hknown with ⟨o, ho, hsame⟩
  have hrelated : related row o = true := by simp [related, hsame]
  -- the campaign of a related observation is the decision's or another
  by_cases hcampaign : campaignOfPayment corpus o.paymentId = campaignOfEvent corpus row.eventId
  · rw [if_pos (List.any_eq_true.2 ⟨o, ho, by simp [hrelated, hcampaign]⟩)] at hwarm
    cases hwarm
  · rw [if_pos (List.any_eq_true.2 ⟨o, ho, by simp [hrelated, hcampaign]⟩)] at hreturning
    cases hreturning

theorem mem_foldl_insert {η : Type} (value : η → String) (seen : List η) (start : Finset String) (c : String) :
    c ∈ seen.foldl (fun set s => insert (value s) set) start ↔ c ∈ start ∨ ∃ s ∈ seen, value s = c := by
  induction seen generalizing start with
  | nil => simp
  | cons s seen ih =>
    rw [List.foldl_cons, ih, Finset.mem_insert]
    simp only [List.mem_cons, exists_eq_or_imp]
    tauto

theorem mem_totalBy {κ : Type} [DecidableEq κ] (key : ObservedEvent × String → κ) (seen : List (ObservedEvent × String))
    (k : κ) (c : String) :
    c ∈ (Grouping.totalBy key (fun set s => insert s.2 set) (∅ : Finset String) seen).getD k ∅ ↔
      ∃ s ∈ seen, key s = k ∧ s.2 = c := by
  rw [Dict.getD, Grouping.get?_totalBy]
  split_ifs with hk
  · rw [Option.getD_some, mem_foldl_insert]
    simp [Grouping.mem_ofKey, and_assoc]
  · simp only [Option.getD_none, Finset.notMem_empty, false_iff]
    rintro ⟨s, hs, hkey, _⟩
    exact hk (hkey ▸ List.mem_map_of_mem hs)

theorem foldl_observe (seen : List (ObservedEvent × String)) :
    seen.foldl CampaignIndex.observe .empty =
      ⟨Grouping.totalBy (fun s => s.1.actorId) (fun set s => insert s.2 set) ∅ seen,
        Grouping.totalBy (fun s => s.1.counterpartyId) (fun set s => insert s.2 set) ∅ seen,
        Grouping.totalBy (fun s => (s.1.actorId, s.1.counterpartyId)) (fun set s => insert s.2 set) ∅ seen⟩ := by
  induction seen using List.reverseRecOn with
  | nil => rfl
  | append_singleton seen s ih =>
    rw [List.foldl_concat, ih]
    simp only [CampaignIndex.observe, Grouping.totalBy, List.foldl_concat]

theorem totalBy_eq_empty {κ : Type} [DecidableEq κ] (key : ObservedEvent × String → κ)
    (seen : List (ObservedEvent × String)) (k : κ) :
    (Grouping.totalBy key (fun set s => insert s.2 set) (∅ : Finset String) seen).getD k ∅ = ∅ ↔ ¬ ∃ s ∈ seen, key s = k := by
  rw [Finset.eq_empty_iff_forall_notMem]
  simp only [mem_totalBy]
  constructor
  · rintro h ⟨s, hs, hk⟩
    exact h s.2 ⟨s, hs, hk, rfl⟩
  · rintro h c ⟨s, hs, hk, _⟩
    exact h ⟨s, hs, hk⟩

theorem totalBy_sdiff {κ : Type} [DecidableEq κ] (key : ObservedEvent × String → κ)
    (seen : List (ObservedEvent × String)) (k : κ) (c : String) :
    (Grouping.totalBy key (fun set s => insert s.2 set) (∅ : Finset String) seen).getD k ∅ \ {c} ≠ ∅ ↔
      ∃ s ∈ seen, key s = k ∧ s.2 ≠ c := by
  rw [← Finset.nonempty_iff_ne_empty, Finset.Nonempty]
  simp only [Finset.mem_sdiff, Finset.mem_singleton, mem_totalBy]
  constructor
  · rintro ⟨_, ⟨s, hs, hk, rfl⟩, hne⟩
    exact ⟨s, hs, hk, hne⟩
  · rintro ⟨s, hs, hk, hne⟩
    exact ⟨s.2, ⟨s, hs, hk, rfl⟩, hne⟩

theorem ite_singleton_congr {p : Prop} [Decidable p] {b : Bool} (label : EntityCohort) (h : p ↔ b = true) :
    (if p then [label] else []) = if b then [label] else [] := if_congr h rfl rfl

theorem ite_nil_congr {p : Prop} [Decidable p] {b : Bool} (label : EntityCohort) (h : p ↔ ¬ b = true) :
    (if p then [label] else []) = if b then [] else [label] := by
  by_cases hb : b = true
  · rw [if_pos hb, if_neg fun hp => h.1 hp hb]
  · rw [if_neg hb, if_pos (h.2 hb)]

/-- **What the indexes say of a row**, in terms of the observations they were filled with. -/
theorem labels_eq (seen : List (ObservedEvent × String)) (row : ObservedEvent) (campaign : String) :
    (seen.foldl CampaignIndex.observe .empty).labels row campaign =
      (if seen.any fun s => s.1.actorId = row.actorId then [] else [.coldActor]) ++
        (if seen.any fun s => s.1.counterpartyId = row.counterpartyId then [] else [.coldCounterparty]) ++
        (if seen.any fun s => s.1.actorId = row.actorId && s.1.counterpartyId = row.counterpartyId then []
        else [.coldPair]) ++
        (if seen.any fun s => related row s.1 && s.2 = campaign then [.warmWithinCampaign] else []) ++
        (if seen.any fun s => related row s.1 && s.2 ≠ campaign then [.returningPriorCampaign] else []) := by
  rw [foldl_observe, CampaignIndex.labels]
  dsimp only
  congr 1
  · congr 1
    · congr 1
      · congr 1
        · apply ite_nil_congr
          rw [totalBy_eq_empty]
          simp
        · apply ite_nil_congr
          rw [totalBy_eq_empty]
          simp
      · apply ite_nil_congr
        rw [totalBy_eq_empty]
        simp
    · apply ite_singleton_congr
      simp only [mem_totalBy, List.any_eq_true, related, Bool.and_eq_true, Bool.or_eq_true, decide_eq_true_eq,
        Prod.mk.injEq]
      constructor
      · rintro (⟨s, hs, hkey, hc⟩ | ⟨s, hs, hkey, hc⟩ | ⟨s, hs, hkey, hc⟩)
        · exact ⟨s, hs, Or.inl (Or.inl hkey), hc⟩
        · exact ⟨s, hs, Or.inl (Or.inr hkey), hc⟩
        · exact ⟨s, hs, Or.inr hkey, hc⟩
      · rintro ⟨s, hs, (hkey | hkey) | hkey, hc⟩
        · exact Or.inl ⟨s, hs, hkey, hc⟩
        · exact Or.inr (Or.inl ⟨s, hs, hkey, hc⟩)
        · exact Or.inr (Or.inr ⟨s, hs, hkey, hc⟩)
  · apply ite_singleton_congr
    simp only [totalBy_sdiff, List.any_eq_true, related, Bool.and_eq_true, Bool.or_eq_true, decide_eq_true_eq,
      Prod.mk.injEq]
    constructor
    · rintro (⟨s, hs, hkey, hc⟩ | ⟨s, hs, hkey, hc⟩ | ⟨s, hs, hkey, hc⟩)
      · exact ⟨s, hs, Or.inl (Or.inl hkey), hc⟩
      · exact ⟨s, hs, Or.inl (Or.inr hkey), hc⟩
      · exact ⟨s, hs, Or.inr hkey, hc⟩
    · rintro ⟨s, hs, (hkey | hkey) | hkey, hc⟩
      · exact Or.inl ⟨s, hs, hkey, hc⟩
      · exact Or.inr (Or.inl ⟨s, hs, hkey, hc⟩)
      · exact Or.inr (Or.inr ⟨s, hs, hkey, hc⟩)

/-- **The cohorts of a decision are the naive recomputation.** -/
theorem entityCohorts_spec {corpus : FrozenCorpus} {rows ordered : List (ObservedEvent × TruthRow)}
    (hj : Joined corpus rows) (hp : ordered.Perm rows)
    (hsorted : ordered.Pairwise fun a b => decisionKey a.1 ≤ decisionKey b.1) {cohorts : Dict String (List EntityCohort)}
    (h : entityCohorts corpus.observations ordered corpus.truth = .ok cohorts) {r : ObservedEvent × TruthRow}
    (hr : r ∈ rows) : cohorts.get? r.1.eventId = some (naiveCohorts corpus r.1) := by
  unfold entityCohorts at h
  simp only [except_bind_eq_ok, check_eq_ok, decide_eq_true_eq, except_pure_eq_ok] at h
  obtain ⟨_, hpayments, seen, hseen, rfl⟩ := h
  rw [mapM_eq_ok] at hseen
  have hresolved : List.Forall₂ (fun o s => o = s.1 ∧ campaignOfPayment corpus o.paymentId = some s.2)
      corpus.observations seen := by
    refine hseen.imp fun o s hs => ?_
    split at hs
    next => cases hs
    next t ht =>
      cases hs
      rcases (get?_truth hpayments id).1 ht with ⟨t', ht', hid, rfl⟩
      refine ⟨rfl, ?_⟩
      rw [campaignOfPayment, ← hid, Indexing.find?_of_nodup_keys hpayments ht']
      rfl
  have hhistory : (sortBy (fun s => toLex (observationTime s.1, s.1.eventId)) seen).Pairwise
      fun a b => observationTime a.1 ≤ observationTime b.1 := by
    refine (sortBy_sorted _ seen).imp fun {a b} hab => ?_
    rcases Prod.Lex.toLex_le_toLex.1 hab with hlt | ⟨heq, _⟩
    · exact hlt.le
    · exact heq.le
  rw [Cohorts.sweep_sorted _ _ _ hhistory hsorted]
  have hkeys : ((ordered.map fun r => (r.1.eventId,
      ((Cohorts.past (fun s : ObservedEvent × String => observationTime s.1)
        (sortBy (fun s => toLex (observationTime s.1, s.1.eventId)) seen) (decisionKey r.1)).foldl
          CampaignIndex.observe .empty).labels r.1 r.2.campaignId)).map Prod.fst).Nodup := by
    rw [List.map_map]
    exact ((hp.map fun r => r.1.eventId).nodup_iff).2 hj.nodup
  rw [Dict.get?_eq_some, Dict.items_ofList hkeys, List.mem_map]
  refine ⟨r, hp.mem_iff.2 hr, ?_⟩
  rw [labels_eq]
  have hany : ∀ p : ObservedEvent × String → Bool, ∀ q : ObservedEvent → Bool,
      (∀ o c, campaignOfPayment corpus o.paymentId = some c → p (o, c) = q o) →
      (Cohorts.past (fun s : ObservedEvent × String => observationTime s.1)
        (sortBy (fun s => toLex (observationTime s.1, s.1.eventId)) seen) (decisionKey r.1)).any p =
      (knownBefore corpus r.1).any q := by
    intro p q hpq
    rw [Bool.eq_iff_iff, List.any_eq_true, List.any_eq_true]
    constructor
    · rintro ⟨s, hs, hps⟩
      rw [Cohorts.mem_past, mem_sortBy] at hs
      rcases forall₂_mem_right hresolved hs.1 with ⟨o, ho, rfl, hc⟩
      refine ⟨s.1, ?_, (hpq s.1 s.2 hc) ▸ hps⟩
      rw [knownBefore, List.mem_filter, decide_eq_true_eq]
      exact ⟨ho, hs.2⟩
    · rintro ⟨o, ho, hqo⟩
      rw [knownBefore, List.mem_filter, decide_eq_true_eq] at ho
      rcases forall₂_mem_left hresolved ho.1 with ⟨s, hs, rfl, hc⟩
      refine ⟨s, ?_, (hpq s.1 s.2 hc).symm ▸ hqo⟩
      rw [Cohorts.mem_past, mem_sortBy]
      exact ⟨hs, ho.2⟩
  have hcampaign : campaignOfEvent corpus r.1.eventId = some r.2.campaignId := by
    rcases hj.mem r hr with ⟨hmem, hid⟩
    rw [campaignOfEvent, ← hid, Indexing.find?_of_nodup_keys hj.truth hmem]
    rfl
  rw [naiveCohorts, hcampaign, hany _ (fun o => o.actorId = r.1.actorId) fun _ _ _ => rfl,
    hany _ (fun o => o.counterpartyId = r.1.counterpartyId) fun _ _ _ => rfl,
    hany _ (fun o => o.actorId = r.1.actorId && o.counterpartyId = r.1.counterpartyId) fun _ _ _ => rfl,
    hany _ (fun o => related r.1 o && campaignOfPayment corpus o.paymentId = some r.2.campaignId)
      fun o c hc => by simp [hc],
    hany _ (fun o => related r.1 o && campaignOfPayment corpus o.paymentId ≠ some r.2.campaignId)
      fun o c hc => by simp [hc]]

end Splits

end Apar
