/-
The windows of the sentinel features (`features/sentinel.py`).

A windowed column counts, sums or tells apart the rows of the row's actor, or of its counterparty, that were decided before the
row and at most so many seconds before it. The rows under the row's own event id are left out of every column, and the distinct
counterparties of the last day are those of all time.

- `emitRow_values`: the values of a projection are those of its assignments.
- `value_of_put`: a column of the catalog holds what its one assignment gave it.
- `sentinel_windows`: the columns hold what their names say exactly when `WindowsFit`.
-/
import Apar.Features.RuleSources

namespace Apar

namespace Sentinel

open Exec Cohorts

/-- the names of `feature-catalog-v5.json` -/
def featureCatalogV5 : List String :=
  ["amount", "txn_hour_sin", "txn_hour_cos", "rail_card", "rail_a2a", "rail_agentic", "integrity_pass", "actor_count_1m",
    "actor_count_10m", "actor_count_1h", "actor_amount_zscore_24h", "graph_actor_fanout", "graph_counterparty_fanin",
    "actor_count_5m", "actor_count_24h", "actor_count_7d", "actor_amount_1h", "actor_amount_24h", "actor_prior_decline_1h",
    "actor_prior_challenge_1h", "actor_prior_return_24h", "counterparty_count_1h", "counterparty_count_24h",
    "counterparty_amount_24h", "counterparty_prior_refund_24h", "actor_seconds_since_first", "actor_seconds_since_last",
    "pair_seconds_since_last", "pair_prior_count", "actor_distinct_counterparties_24h", "counterparty_distinct_actors_24h",
    "actor_amount_zscore_24h", "counterparty_amount_zscore_24h", "graph_shared_neighbor_count", "graph_repeated_edge",
    "graph_two_hop_reach", "graph_component_size", "graph_edge_density", "graph_burst_motif", "graph_prior_suspicious_count",
    "dq_missing_optional_count", "dq_current_availability_lag_ms", "dq_mean_history_lag_ms", "dq_late_event_count",
    "dq_history_count", "dq_history_age_seconds", "dq_degraded_state"]

/-! ## What the columns must hold -/

section Windows

variable {F : Type} (rows : List (V5DecisionRow F)) (row : V5DecisionRow F)

/-- decided before the row -/
def V5DecisionRow.before (row r : V5DecisionRow F) : Bool := r.decisionAt.instant < row.decisionAt.instant

/-- the rows of the actor in a window that ends with the row -/
def actorWindow (seconds : ℤ) : List (V5DecisionRow F) :=
  (sortBy decisionKey rows).filter fun r => r.actorId = row.actorId && row.before r && row.within r seconds

/-- the rows of the counterparty in a window that ends with the row -/
def counterpartyWindow (seconds : ℤ) : List (V5DecisionRow F) :=
  (sortBy decisionKey rows).filter fun r => r.counterpartyId = row.counterpartyId && row.before r && row.within r seconds

/-- the number of names among the rows -/
def distinct (name : V5DecisionRow F → String) (rows : List (V5DecisionRow F)) : ℕ := (rows.map name).toFinset.card

open PyFloat in
/-- every windowed column holds what it counts, sums or tells apart in its window -/
structure Windowed [PyFloat F] (values : Dict String F) : Prop where
  actorCount : ∀ w ∈ velocityWindows, values.get? ("actor_count_" ++ w.2) = some (ofInt (actorWindow rows row w.1).length)
  actorAmount1h : values.get? "actor_amount_1h" = some (sum (amounts (actorWindow rows row 3600)))
  actorAmount24h : values.get? "actor_amount_24h" = some (sum (amounts (actorWindow rows row 86400)))
  actorZscore : ∃ zscore, amountZscore row (actorWindow rows row 86400) = .ok zscore ∧
    values.get? "actor_amount_zscore_24h" = some zscore
  actorCounterparties : values.get? "actor_distinct_counterparties_24h" =
    some (ofInt (distinct V5DecisionRow.counterpartyId (actorWindow rows row 86400)))
  counterpartyCount1h : values.get? "counterparty_count_1h" = some (ofInt (counterpartyWindow rows row 3600).length)
  counterpartyCount24h : values.get? "counterparty_count_24h" = some (ofInt (counterpartyWindow rows row 86400).length)
  counterpartyAmount24h : values.get? "counterparty_amount_24h" = some (sum (amounts (counterpartyWindow rows row 86400)))
  counterpartyActors : values.get? "counterparty_distinct_actors_24h" =
    some (ofInt (distinct V5DecisionRow.actorId (counterpartyWindow rows row 86400)))

/-- no row in a window has the row's event id, and the actor has dealt with nobody before the last day whom it has not dealt with
since -/
structure WindowsFit : Prop where
  actorIds : ∀ r ∈ rows, r.actorId = row.actorId → row.before r = true → row.within r 604800 = true → r.eventId ≠ row.eventId
  counterpartyIds : ∀ r ∈ rows, r.counterpartyId = row.counterpartyId → row.before r = true → row.within r 86400 = true →
    r.eventId ≠ row.eventId
  recent : ∀ r ∈ rows, r.actorId = row.actorId → row.before r = true → r.eventId ≠ row.eventId →
    ∃ r' ∈ rows, r'.actorId = row.actorId ∧ row.before r' = true ∧ row.within r' 86400 = true ∧
      r'.counterpartyId = r.counterpartyId

end Windows

/-! ## The values of a projection -/

section Values

variable {F : Type} [PyFloat F] {catalog : SentinelFeatureCatalog}

theorem emitRow_values {h : History F} {row : V5DecisionRow F} {e : Emission F} (he : emitRow catalog h row = .ok e) :
    ∃ zscore, amountZscore row (((h.actorEvents.getD row.actorId []).filter row.follows).filter fun r => row.within r 86400) =
        .ok zscore ∧
      e.values = (emissionDraft catalog h row zscore).values ∧
      e.vector = catalog.featureNames.map fun name => e.values.getD name (PyFloat.ofInt 0) := by
  simp only [emitRow, except_bind_eq_ok, except_pure_eq_ok] at he
  obtain ⟨d, hd, _, -, provenance, -, rfl⟩ := he
  simp only [pairFeatures, except_bind_eq_ok, except_pure_eq_ok] at hd
  obtain ⟨zscore, hzscore, rfl⟩ := hd
  refine ⟨zscore, hzscore, ?_, rfl⟩
  simp only [emissionDraft, emissionPuts, List.foldl_append]
  rfl

omit [PyFloat F] in
theorem values_apply (d : Draft F) (p : Put F) (name : String) :
    (Put.apply catalog d p).values.get? name =
      if p.name ∈ catalog.featureNames ∧ name = p.name then some p.value else d.values.get? name := by
  unfold Put.apply setHistoricalFeature
  by_cases hname : p.name ∈ catalog.featureNames
  · rw [if_neg (not_not.2 hname), Dict.get?_set]
    simp [hname]
  · rw [if_pos hname, if_neg (fun h => hname h.1)]

omit [PyFloat F] in
/-- a column holds what its one assignment gave it -/
theorem values_puts {puts : List (Put F)} (hn : (puts.map Put.name).Nodup) {p : Put F} (hp : p ∈ puts)
    (hname : p.name ∈ catalog.featureNames) (d : Draft F) :
    (puts.foldl (Put.apply catalog) d).values.get? p.name = some p.value := by
  induction puts using List.reverseRecOn with
  | nil => cases hp
  | append_singleton puts q ih =>
    rw [List.foldl_append, List.foldl_cons, List.foldl_nil, values_apply]
    rw [List.map_append, List.nodup_append] at hn
    rcases List.mem_append.1 hp with hp | hp
    · have hne : p.name ≠ q.name := hn.2.2 _ (List.mem_map_of_mem hp) _ (by simp)
      rw [if_neg (fun h => hne h.2), ih hn.1 hp]
    · obtain rfl := List.mem_singleton.1 hp
      rw [if_pos ⟨hname, rfl⟩]

theorem nodup_emissionPuts (h : History F) (row : V5DecisionRow F) (zscore : F) :
    ((emissionPuts h row zscore).map Put.name).Nodup := by
  show (["actor_count_1m", "actor_count_5m", "actor_count_1h", "actor_count_24h", "actor_count_7d", "actor_amount_1h",
    "actor_amount_24h", "actor_seconds_since_first", "actor_seconds_since_last", "actor_distinct_counterparties_24h",
    "graph_actor_fanout", "counterparty_count_1h", "counterparty_count_24h", "counterparty_amount_24h",
    "counterparty_distinct_actors_24h", "graph_counterparty_fanin", "pair_prior_count", "pair_seconds_since_last",
    "graph_repeated_edge", "actor_amount_zscore_24h", "graph_shared_neighbor_count", "graph_two_hop_reach",
    "graph_burst_motif", "graph_component_size", "graph_edge_density"] : List String).Nodup
  decide

theorem value_of_put {h : History F} {row : V5DecisionRow F} {zscore : F} {p : Put F} (hp : p ∈ emissionPuts h row zscore)
    (hname : p.name ∈ catalog.featureNames) : (emissionDraft catalog h row zscore).values.get? p.name = some p.value :=
  values_puts (nodup_emissionPuts h row zscore) hp hname _

end Values

/-! ## The rows that a projection reads -/

section Rows

variable {F : Type} {rows : List (V5DecisionRow F)} {row : V5DecisionRow F} {h : History F}

/-- the row is not under the row's own event id -/
def V5DecisionRow.other (row r : V5DecisionRow F) : Bool := r.eventId != row.eventId

/-- the rows of the sorted past -/
abbrev pastRows (rows : List (V5DecisionRow F)) (row : V5DecisionRow F) : List (V5DecisionRow F) :=
  past (fun r => r.decisionAt.instant) (sortBy decisionKey rows) row.decisionAt.instant

theorem follows_eq_before_other (row r : V5DecisionRow F) : row.follows r = (row.before r && row.other r) := rfl

theorem actor_read (hof : h.Of (pastRows rows row)) :
    (h.actorEvents.getD row.actorId []).filter row.follows =
      (sortBy decisionKey rows).filter fun r => r.actorId = row.actorId && row.before r && row.other r := by
  rw [hof.actors, pastRows, past, List.filter_filter, List.filter_filter]
  refine List.filter_congr fun r _ => ?_
  rw [follows_eq_before_other, V5DecisionRow.before]
  by_cases hactor : r.actorId = row.actorId <;> by_cases hbefore : r.decisionAt.instant < row.decisionAt.instant <;>
    simp [hactor, hbefore]

theorem actor_window_read (hof : h.Of (pastRows rows row)) (seconds : ℤ) :
    ((h.actorEvents.getD row.actorId []).filter row.follows).filter (fun r => row.within r seconds) =
      (actorWindow rows row seconds).filter row.other := by
  rw [actor_read hof, actorWindow, List.filter_filter, List.filter_filter]
  refine List.filter_congr fun r _ => ?_
  cases row.within r seconds <;> cases row.other r <;> simp

theorem counterparty_read (hof : h.Of (pastRows rows row)) :
    (h.counterpartyEvents.getD row.counterpartyId []).filter (fun r => row.follows r && row.within r 86400) =
      (counterpartyWindow rows row 86400).filter row.other := by
  rw [hof.counterparties, counterpartyWindow, pastRows, past, List.filter_filter, List.filter_filter, List.filter_filter]
  refine List.filter_congr fun r _ => ?_
  rw [follows_eq_before_other, V5DecisionRow.before]
  by_cases hcp : r.counterpartyId = row.counterpartyId <;>
    by_cases hbefore : r.decisionAt.instant < row.decisionAt.instant <;>
    cases row.within r 86400 <;> cases row.other r <;> simp [hcp, hbefore]

variable {r : V5DecisionRow F} {seconds : ℤ}

theorem mem_actorWindow : r ∈ actorWindow rows row seconds ↔
    r ∈ rows ∧ r.actorId = row.actorId ∧ row.before r = true ∧ row.within r seconds = true := by
  simp [actorWindow, mem_sortBy, and_assoc]

theorem mem_counterpartyWindow : r ∈ counterpartyWindow rows row seconds ↔
    r ∈ rows ∧ r.counterpartyId = row.counterpartyId ∧ row.before r = true ∧ row.within r seconds = true := by
  simp [counterpartyWindow, mem_sortBy, and_assoc]

theorem within_mono {seconds' : ℤ} (hle : seconds ≤ seconds') (h : row.within r seconds = true) :
    row.within r seconds' = true := by
  unfold V5DecisionRow.within at h ⊢
  rw [decide_eq_true_eq] at h ⊢
  exact h.trans (mul_le_mul_of_nonneg_right hle (by norm_num))

theorem other_eq_true : row.other r = true ↔ r.eventId ≠ row.eventId := by simp [V5DecisionRow.other]

theorem counterparty_window_read (hof : h.Of (pastRows rows row)) {seconds : ℤ} (hle : seconds ≤ 86400) :
    ((h.counterpartyEvents.getD row.counterpartyId []).filter (fun r => row.follows r && row.within r 86400)).filter
        (fun r => row.within r seconds) = (counterpartyWindow rows row seconds).filter row.other := by
  rw [counterparty_read hof, counterpartyWindow, counterpartyWindow, List.filter_filter, List.filter_filter, List.filter_filter]
  refine List.filter_congr fun r _ => ?_
  cases hwithin : row.within r seconds with
  | false => simp
  | true =>
    rw [within_mono hle hwithin]
    cases row.other r <;> simp

theorem WindowsFit.actor (hfit : WindowsFit rows row) (hle : seconds ≤ 604800) :
    (actorWindow rows row seconds).filter row.other = actorWindow rows row seconds := by
  rw [List.filter_eq_self]
  intro r hr
  obtain ⟨hmem, hactor, hbefore, hwithin⟩ := mem_actorWindow.1 hr
  exact other_eq_true.2 (hfit.actorIds r hmem hactor hbefore (within_mono hle hwithin))

theorem WindowsFit.counterparty (hfit : WindowsFit rows row) (hle : seconds ≤ 86400) :
    (counterpartyWindow rows row seconds).filter row.other = counterpartyWindow rows row seconds := by
  rw [List.filter_eq_self]
  intro r hr
  obtain ⟨hmem, hcp, hbefore, hwithin⟩ := mem_counterpartyWindow.1 hr
  exact other_eq_true.2 (hfit.counterpartyIds r hmem hcp hbefore (within_mono hle hwithin))

end Rows

/-! ## The columns of the catalog -/

section Columns

variable {F : Type} [PyFloat F] {catalog : SentinelFeatureCatalog} {rows : List (V5DecisionRow F)} {row : V5DecisionRow F}
  {h : History F} {zscore : F}

open PyFloat

/-- what the windowed columns hold -/
structure Held (catalog : SentinelFeatureCatalog) (rows : List (V5DecisionRow F)) (row : V5DecisionRow F) (zscore : F)
    (values : Dict String F) : Prop where
  actorCount : ∀ w ∈ velocityWindows,
    values.get? ("actor_count_" ++ w.2) = some (ofInt ((actorWindow rows row w.1).filter row.other).length)
  actorAmount1h : values.get? "actor_amount_1h" = some (sum (amounts ((actorWindow rows row 3600).filter row.other)))
  actorAmount24h : values.get? "actor_amount_24h" = some (sum (amounts ((actorWindow rows row 86400).filter row.other)))
  actorZscore : values.get? "actor_amount_zscore_24h" = some zscore
  actorCounterparties : values.get? "actor_distinct_counterparties_24h" = some (ofInt (distinct V5DecisionRow.counterpartyId
    ((sortBy decisionKey rows).filter fun r => r.actorId = row.actorId && row.before r && row.other r)))
  counterpartyCount1h : values.get? "counterparty_count_1h" =
    some (ofInt ((counterpartyWindow rows row 3600).filter row.other).length)
  counterpartyCount24h : values.get? "counterparty_count_24h" =
    some (ofInt ((counterpartyWindow rows row 86400).filter row.other).length)
  counterpartyAmount24h : values.get? "counterparty_amount_24h" =
    some (sum (amounts ((counterpartyWindow rows row 86400).filter row.other)))
  counterpartyActors : values.get? "counterparty_distinct_actors_24h" =
    some (ofInt (distinct V5DecisionRow.actorId ((counterpartyWindow rows row 86400).filter row.other)))

/-- **What the windowed columns of a projection hold.** -/
theorem held_of_puts (hof : h.Of (pastRows rows row)) (hcatalog : catalog.featureNames = featureCatalogV5) :
    Held catalog rows row zscore (emissionDraft catalog h row zscore).values := by
  have hput : ∀ {name : String} {value : F} {sources : List (V5DecisionRow F)},
      (⟨name, value, sources⟩ : Put F) ∈ emissionPuts h row zscore → name ∈ featureCatalogV5 →
      (emissionDraft catalog h row zscore).values.get? name = some value :=
    fun hp hname => value_of_put hp (hcatalog ▸ hname)
  have hactor := actor_window_read hof
  have hcp {seconds : ℤ} := @counterparty_window_read F rows row h hof seconds
  refine ⟨?_, ?_, ?_, ?_, ?_, ?_, ?_, ?_, ?_⟩
  · intro w hw
    rw [← hactor]
    refine hput (List.mem_append_left _ (List.mem_append_left _ (List.mem_map.2 ⟨w, hw, rfl⟩))) ?_
    exact (by decide : ∀ w ∈ velocityWindows, "actor_count_" ++ w.2 ∈ featureCatalogV5) w hw
  · rw [← hactor]
    exact hput (List.mem_append_left _ (List.mem_append_right _ (List.mem_of_getElem? (i := 0) rfl))) (by decide)
  · rw [← hactor]
    exact hput (List.mem_append_left _ (List.mem_append_right _ (List.mem_of_getElem? (i := 1) rfl))) (by decide)
  · exact hput (List.mem_append_right _ (List.mem_append_right _ (List.mem_append_left _ (List.mem_of_getElem? (i := 3) rfl))))
      (by decide)
  · rw [← actor_read hof]
    exact hput (List.mem_append_left _ (List.mem_append_right _ (List.mem_of_getElem? (i := 4) rfl))) (by decide)
  · rw [← hcp (by norm_num)]
    exact hput (List.mem_append_right _ (List.mem_append_left _ (List.mem_of_getElem? (i := 0) rfl))) (by decide)
  · rw [← counterparty_read hof]
    exact hput (List.mem_append_right _ (List.mem_append_left _ (List.mem_of_getElem? (i := 1) rfl))) (by decide)
  · rw [← counterparty_read hof]
    exact hput (List.mem_append_right _ (List.mem_append_left _ (List.mem_of_getElem? (i := 2) rfl))) (by decide)
  · rw [← hcp le_rfl]
    exact hput (List.mem_append_right _ (List.mem_append_left _ (List.mem_of_getElem? (i := 3) rfl))) (by decide)

/-- the integers up to a bound have floats of their own -/
def ExactUpTo (F : Type) [PyFloat F] (bound : ℕ) : Prop :=
  ∀ m n : ℕ, m ≤ bound → n ≤ bound → (ofInt m : F) = ofInt n → m = n

variable {p q : V5DecisionRow F → Bool}

omit [PyFloat F] in
theorem length_filter_le_rows : (((sortBy decisionKey rows).filter p).filter q).length ≤ rows.length :=
  ((List.length_filter_le _ _).trans (List.length_filter_le _ _)).trans (sortBy_perm decisionKey rows).length_eq.le

omit [PyFloat F] in
theorem distinct_le {name : V5DecisionRow F → String} :
    ((((sortBy decisionKey rows).filter p).map name).toFinset.card) ≤ rows.length := by
  refine (List.toFinset_card_le _).trans ?_
  rw [List.length_map]
  exact (List.length_filter_le _ _).trans (sortBy_perm decisionKey rows).length_eq.le

/-- two counts that a column tells apart only when they differ -/
theorem all_of_counts (hexact : ExactUpTo F rows.length)
    (h : (some (ofInt (((sortBy decisionKey rows).filter p).filter q).length) : Option F) =
      some (ofInt ((sortBy decisionKey rows).filter p).length)) :
    ∀ r ∈ (sortBy decisionKey rows).filter p, q r = true := by
  have hlength := hexact _ _ length_filter_le_rows
    ((List.length_filter_le _ _).trans (sortBy_perm decisionKey rows).length_eq.le) (Option.some.inj h)
  exact List.length_filter_eq_length_iff.1 hlength

/-- **The columns hold what their names say exactly when the windows fit.** -/
theorem windowed_iff {values : Dict String F} (hexact : ExactUpTo F rows.length)
    (hzscore : amountZscore row ((actorWindow rows row 86400).filter row.other) = .ok zscore)
    (hheld : Held catalog rows row zscore values) : Windowed rows row values ↔ WindowsFit rows row := by
  constructor
  · intro hwindowed
    have hweek := hwindowed.actorCount (604800, "7d") (by decide)
    rw [hheld.actorCount (604800, "7d") (by decide)] at hweek
    have hactors := all_of_counts hexact hweek
    have hday := hwindowed.counterpartyCount24h
    rw [hheld.counterpartyCount24h] at hday
    have hcounterparties := all_of_counts hexact hday
    refine ⟨fun r hr hactor hbefore hwithin => ?_, fun r hr hcp hbefore hwithin => ?_, fun r hr hactor hbefore hother => ?_⟩
    · exact other_eq_true.1 (hactors r (mem_actorWindow.2 ⟨hr, hactor, hbefore, hwithin⟩))
    · exact other_eq_true.1 (hcounterparties r (mem_counterpartyWindow.2 ⟨hr, hcp, hbefore, hwithin⟩))
    · -- the counterparties of all time are no more than those of the last day
      have hdistinct := hwindowed.actorCounterparties
      rw [hheld.actorCounterparties] at hdistinct
      have hcard := hexact _ _ distinct_le distinct_le (Option.some.inj hdistinct)
      have hsubset : ((actorWindow rows row 86400).map V5DecisionRow.counterpartyId).toFinset ⊆
          (((sortBy decisionKey rows).filter fun r => r.actorId = row.actorId && row.before r && row.other r).map
            V5DecisionRow.counterpartyId).toFinset := by
        intro name hname
        rw [List.mem_toFinset, List.mem_map] at hname ⊢
        obtain ⟨r', hr', rfl⟩ := hname
        obtain ⟨hmem, hsame, hbefore', hwithin'⟩ := mem_actorWindow.1 hr'
        have hother' := hactors r' (mem_actorWindow.2 ⟨hmem, hsame, hbefore', within_mono (by norm_num) hwithin'⟩)
        exact ⟨r', List.mem_filter.2 ⟨mem_sortBy.2 hmem, by simp [hsame, hbefore', hother']⟩, rfl⟩
      have heq := Finset.eq_of_subset_of_card_le hsubset hcard.le
      have hname : r.counterpartyId ∈ ((actorWindow rows row 86400).map V5DecisionRow.counterpartyId).toFinset := by
        rw [heq, List.mem_toFinset]
        exact List.mem_map.2 ⟨r, List.mem_filter.2 ⟨mem_sortBy.2 hr, by simp [hactor, hbefore, other_eq_true.2 hother]⟩, rfl⟩
      obtain ⟨r', hr', hsame⟩ := List.mem_map.1 (List.mem_toFinset.1 hname)
      obtain ⟨hmem, hactor', hbefore', hwithin'⟩ := mem_actorWindow.1 hr'
      exact ⟨r', hmem, hactor', hbefore', hwithin', hsame⟩
  · intro hfit
    have hwindows : ∀ w ∈ velocityWindows, w.1 ≤ 604800 := by decide
    have hall : distinct V5DecisionRow.counterpartyId
        ((sortBy decisionKey rows).filter fun r => r.actorId = row.actorId && row.before r && row.other r) =
        distinct V5DecisionRow.counterpartyId (actorWindow rows row 86400) := by
      unfold distinct
      refine congrArg Finset.card (Finset.ext fun name => ?_)
      simp only [List.mem_toFinset, List.mem_map]
      constructor
      · rintro ⟨r, hr, rfl⟩
        simp only [List.mem_filter, mem_sortBy, Bool.and_eq_true, decide_eq_true_eq] at hr
        obtain ⟨hmem, ⟨hactor, hbefore⟩, hother⟩ := hr
        obtain ⟨r', hmem', hactor', hbefore', hwithin', hsame⟩ := hfit.recent r hmem hactor hbefore (other_eq_true.1 hother)
        exact ⟨r', mem_actorWindow.2 ⟨hmem', hactor', hbefore', hwithin'⟩, hsame⟩
      · rintro ⟨r, hr, rfl⟩
        rw [← hfit.actor (by norm_num)] at hr
        obtain ⟨hr, hother⟩ := List.mem_filter.1 hr
        obtain ⟨hmem, hactor, hbefore, -⟩ := mem_actorWindow.1 hr
        exact ⟨r, List.mem_filter.2 ⟨mem_sortBy.2 hmem, by simp [hactor, hbefore, hother]⟩, rfl⟩
    have h24h : (actorWindow rows row 86400).filter row.other = actorWindow rows row 86400 := hfit.actor (by norm_num)
    have hcp24h : (counterpartyWindow rows row 86400).filter row.other = counterpartyWindow rows row 86400 :=
      hfit.counterparty le_rfl
    refine ⟨fun w hw => ?_, ?_, ?_, ⟨zscore, ?_, hheld.actorZscore⟩, ?_, ?_, ?_, ?_, ?_⟩
    · rw [hheld.actorCount w hw, hfit.actor (hwindows w hw)]
    · rw [hheld.actorAmount1h, hfit.actor (by norm_num)]
    · rw [hheld.actorAmount24h, h24h]
    · rwa [h24h] at hzscore
    · rw [hheld.actorCounterparties, hall]
    · rw [hheld.counterpartyCount1h, hfit.counterparty (by norm_num)]
    · rw [hheld.counterpartyCount24h, hcp24h]
    · rw [hheld.counterpartyAmount24h, hcp24h]
    · rw [hheld.counterpartyActors, hcp24h]

end Columns

/-! ## A batch -/

/-- **A row's windowed columns hold what their names say exactly when its windows fit.** -/
theorem sentinel_windows {F : Type} [PyFloat F] [Sha256] (catalogSha256 : String) (rows : List (V5DecisionRow F))
    (hexact : ExactUpTo F rows.length) (b : SentinelFeatureBatch F)
    (hb : buildSentinelFeatures rows ⟨featureCatalogV5, catalogSha256⟩ = .ok b) :
    b.matrix = b.rows.map (fun values => featureCatalogV5.map fun name => values.getD name (PyFloat.ofInt 0)) ∧
      List.Forall₂ (fun row values => Windowed rows row values ↔ WindowsFit rows row) (sortBy decisionKey rows) b.rows := by
  obtain ⟨emissions, hemissions, hrows, hmatrix, -⟩ := buildSentinelFeatures_rows hb
  constructor
  · rw [hmatrix, hrows, List.map_map]
    refine List.map_congr_left fun e he => ?_
    obtain ⟨row, -, hprojected⟩ := forall₂_mem_right hemissions he
    obtain ⟨zscore, -, -, hvector⟩ := emitRow_values hprojected
    exact hvector
  · rw [hrows, List.forall₂_map_right_iff]
    refine hemissions.imp fun row e hprojected => ?_
    have hof := History.of_foldl (pastRows rows row)
    obtain ⟨zscore, hzscore, hvalues, -⟩ := emitRow_values hprojected
    rw [actor_window_read hof] at hzscore
    rw [hvalues]
    exact windowed_iff hexact hzscore (held_of_puts hof rfl)

/-! ## Two decisions, two days apart -/

theorem exactUpTo_rational (bound : ℕ) : @ExactUpTo ℚ midnight bound := by
  intro m n _ _ h
  have hcast : ((m : ℤ) : ℚ) = ((n : ℤ) : ℚ) := h
  exact_mod_cast hcast

/-- two decisions of an actor, so many days apart, with two shops or one -/
def twoDecisions (shop : String) (days : ℤ) : List (V5DecisionRow ℚ) := [sampleRow "e0" "shop" 0, sampleRow "e1" shop days]

theorem built_of_isSome {x : Except SentinelError (SentinelFeatureBatch ℚ)} (h : x.toOption.isSome = true) : ∃ b, x = .ok b := by
  cases x with
  | error e => cases h
  | ok b => exact ⟨b, rfl⟩

/-- the windows of two decisions with one shop, a day apart, fit -/
theorem counterparty_of_one_day :
    let _ := midnight
    let _ := lengthDigest
    WindowsFit (twoDecisions "shop" 1) (sampleRow "e1" "shop" 1) ∧
    ∃ b, buildSentinelFeatures (twoDecisions "shop" 1) ⟨featureCatalogV5, "catalog"⟩ = .ok b ∧
      List.Forall₂ (fun row values => Windowed (twoDecisions "shop" 1) row values ↔ WindowsFit (twoDecisions "shop" 1) row)
        (sortBy decisionKey (twoDecisions "shop" 1)) b.rows := by
  let _ := midnight
  let _ := lengthDigest
  obtain ⟨b, hb⟩ := built_of_isSome (x := buildSentinelFeatures (twoDecisions "shop" 1) ⟨featureCatalogV5, "catalog"⟩)
    (by decide +kernel)
  refine ⟨⟨?_, ?_, ?_⟩, b, hb, (sentinel_windows "catalog" (twoDecisions "shop" 1) (exactUpTo_rational _) b hb).2⟩
  · simp only [twoDecisions, List.mem_cons, List.not_mem_nil, or_false, forall_eq_or_imp, forall_eq]
    decide
  · simp only [twoDecisions, List.mem_cons, List.not_mem_nil, or_false, forall_eq_or_imp, forall_eq]
    decide
  · intro r hr _ hbefore _
    refine ⟨sampleRow "e0" "shop" 0, by simp [twoDecisions], rfl, by decide, by decide, ?_⟩
    simp only [twoDecisions, List.mem_cons, List.not_mem_nil, or_false] at hr
    rcases hr with rfl | rfl <;> rfl

/-- **A counterparty of two days ago is counted in the last day.** -/
theorem counterparty_of_two_days :
    let _ := midnight
    let _ := lengthDigest
    ∃ b values, buildSentinelFeatures (twoDecisions "other" 2) ⟨featureCatalogV5, "catalog"⟩ = .ok b ∧
      (sortBy decisionKey (twoDecisions "other" 2))[1]? = some (sampleRow "e1" "other" 2) ∧ b.rows[1]? = some values ∧
      values.get? "actor_distinct_counterparties_24h" = some 1 ∧
      actorWindow (twoDecisions "other" 2) (sampleRow "e1" "other" 2) 86400 = [] ∧
      ¬ Windowed (twoDecisions "other" 2) (sampleRow "e1" "other" 2) values := by
  let _ := midnight
  let _ := lengthDigest
  have hwindow : actorWindow (twoDecisions "other" 2) (sampleRow "e1" "other" 2) 86400 = [] := by
    rw [actorWindow, List.filter_eq_nil_iff]
    intro r hr
    rw [mem_sortBy] at hr
    simp only [twoDecisions, List.mem_cons, List.not_mem_nil, or_false] at hr
    rcases hr with rfl | rfl <;> decide
  have hsorted : (sortBy decisionKey (twoDecisions "other" 2))[1]? = some (sampleRow "e1" "other" 2) := by
    rw [sortBy_of_sorted]
    · rfl
    · simp only [twoDecisions, List.pairwise_cons, List.mem_singleton, forall_eq, List.not_mem_nil, false_imp_iff, implies_true,
        List.Pairwise.nil, and_true]
      exact (Prod.Lex.toLex_le_toLex.2 (.inl (by decide)))
  have hread : ((buildSentinelFeatures (twoDecisions "other" 2) ⟨featureCatalogV5, "catalog"⟩).toOption.bind fun b =>
      b.rows[1]?.bind fun values => values.get? "actor_distinct_counterparties_24h") = some 1 := by decide +kernel
  obtain ⟨b, hb, hread⟩ := Option.bind_eq_some_iff.1 hread
  obtain ⟨values, hvalues, hread⟩ := Option.bind_eq_some_iff.1 hread
  have hbuilt : buildSentinelFeatures (twoDecisions "other" 2) ⟨featureCatalogV5, "catalog"⟩ = .ok b := by
    cases hx : buildSentinelFeatures (twoDecisions "other" 2) ⟨featureCatalogV5, "catalog"⟩ with
    | error e =>
      rw [hx] at hb
      cases hb
    | ok b' =>
      rw [hx] at hb
      exact congrArg Except.ok (Option.some.inj hb)
  refine ⟨b, values, hbuilt, hsorted, hvalues, hread, hwindow, fun hwindowed => ?_⟩
  have hcolumn := hwindowed.actorCounterparties
  rw [hread, hwindow] at hcolumn
  exact absurd (Option.some.inj hcolumn) (by decide)

end Sentinel

end Apar
