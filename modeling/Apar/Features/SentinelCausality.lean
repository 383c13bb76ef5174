/-
What a sentinel feature row depends on.

- `buildSentinelFeatures_rows`: a returned batch is pointwise: the emission of a row is the projection of the row from
  the history of the rows strictly before it.
- `emitRow_sources`: every source of a row is a row of its history.
- `sentinel_causal`: the batch does not depend on the order of the rows; rows decided at `T` or later leave the
  emissions of the others up to `T` as they are; every source was decided strictly before the row it feeds.
-/
import Apar.Core.Indexing
import Apar.Features.Sentinel

namespace Apar

open Exec Cohorts

namespace Sentinel

variable {F : Type}

/-! ## The history holds the rows that were added -/

/-- every row of the indexes satisfies a property -/
structure History.Within (P : V5DecisionRow F → Prop) (h : History F) : Prop where
  actors : ∀ a, ∀ r ∈ h.actorEvents.getD a [], P r
  counterparties : ∀ c, ∀ r ∈ h.counterpartyEvents.getD c [], P r
  pairs : ∀ p, ∀ r ∈ h.pairEvents.getD p [], P r
  prior : ∀ r ∈ h.allPriorRows, P r

variable {P : V5DecisionRow F → Prop} {row : V5DecisionRow F} {sources rows rows' : List (V5DecisionRow F)}

theorem index_add {κ : Type} [DecidableEq κ] {index : Dict κ (List (V5DecisionRow F))}
    (h : ∀ k, ∀ r ∈ index.getD k [], P r) (hrow : P row) (key k : κ) :
    ∀ r ∈ (index.set key (index.getD key [] ++ [row])).getD k [], P r := by
  intro r hr
  rw [Dict.getD_set] at hr
  split_ifs at hr with hk
  · rcases List.mem_append.1 hr with hr | hr
    · exact h key r hr
    · exact List.mem_singleton.1 hr ▸ hrow
  · exact h k r hr

theorem History.Within.add {P : V5DecisionRow F → Prop} {h : History F} (hw : h.Within P) {row : V5DecisionRow F}
    (hrow : P row) : (h.add row).Within P where
  actors := index_add hw.actors hrow row.actorId
  counterparties := index_add hw.counterparties hrow row.counterpartyId
  pairs := index_add hw.pairs hrow (row.actorId, row.counterpartyId)
  prior := by
    intro r hr
    rcases List.mem_append.1 hr with hr | hr
    · exact hw.prior r hr
    · exact List.mem_singleton.1 hr ▸ hrow

theorem History.Within.foldl {P : V5DecisionRow F → Prop} {rows : List (V5DecisionRow F)} {h : History F}
    (hw : h.Within P) (hrows : ∀ r ∈ rows, P r) : (rows.foldl History.add h).Within P := by
  induction rows generalizing h with
  | nil => exact hw
  | cons row rows ih => exact ih (hw.add (hrows row (by simp))) fun r hr => hrows r (by simp [hr])

theorem History.within_empty : ({} : History F).Within P := by
  constructor <;> intros <;> simp_all [Dict.getD]

/-! ## The sources of a row are rows of its history -/

/-- every source is filed under its own event id and satisfies a property -/
def Draft.Within (P : V5DecisionRow F → Prop) (d : Draft F) : Prop :=
  ∀ id r, d.sourceRows.get? id = some r → r.eventId = id ∧ P r

theorem sources_within (hsources : ∀ r ∈ sources, P r) {s : Dict String (V5DecisionRow F)}
    (hs : ∀ id r, s.get? id = some r → r.eventId = id ∧ P r) :
    ∀ id r, (sources.foldl (fun s r => s.set r.eventId r) s).get? id = some r → r.eventId = id ∧ P r := by
  induction sources generalizing s with
  | nil => exact hs
  | cons source sources ih =>
    refine ih (fun r hr => hsources r (by simp [hr])) ?_
    intro id r hr
    rw [Dict.get?_set] at hr
    split_ifs at hr with hid
    · cases hr
      exact ⟨hid.symm, hsources _ (by simp)⟩
    · exact hs id r hr

theorem Draft.Within.set {d : Draft F} (hd : d.Within P) (catalog : SentinelFeatureCatalog) (name : String) (value : F)
    (hsources : ∀ r ∈ sources, P r) : (setHistoricalFeature catalog name value sources d).Within P := by
  unfold setHistoricalFeature
  split_ifs with hname hrule
  · exact sources_within hsources hd
  · exact hd
  · exact hd

/-- a selection of rows that satisfy a property satisfies it -/
theorem filter_within (h : ∀ r ∈ rows, P r) (p : V5DecisionRow F → Bool) :
    ∀ r ∈ rows.filter p, P r := fun r hr => h r (List.mem_of_mem_filter hr)

variable [PyFloat F]

section features

variable {P : V5DecisionRow F → Prop} {h : History F} (hw : h.Within P) (catalog : SentinelFeatureCatalog)
  (row : V5DecisionRow F) {d : Draft F}

include hw

theorem actorFeatures_within (hd : d.Within P) : (actorFeatures catalog h row d).Within P := by
  have hprior := filter_within (hw.actors row.actorId) row.follows
  have hvelocity : ∀ (windows : List (ℤ × String)) {d : Draft F}, d.Within P → (windows.foldl (fun d w =>
      let windowRows := ((h.actorEvents.getD row.actorId []).filter row.follows).filter fun r => row.within r w.1
      setHistoricalFeature catalog ("actor_count_" ++ w.2) (PyFloat.ofInt windowRows.length) windowRows d) d).Within P := by
    intro windows
    induction windows with
    | nil => exact id
    | cons w windows ih => exact fun hd => ih (hd.set catalog _ _ (filter_within hprior _))
  exact (((((((hvelocity velocityWindows hd).set catalog _ _ (filter_within hprior _)).set catalog _ _
    (filter_within hprior _)).set catalog _ _ (hw.actors row.actorId)).set catalog _ _ hprior).set catalog _ _
    hprior).set catalog _ _ hprior)

theorem counterpartyFeatures_within (hd : d.Within P) : (counterpartyFeatures catalog h row d).Within P := by
  have hprior := filter_within (hw.counterparties row.counterpartyId) fun r => row.follows r && row.within r 86400
  exact ((((hd.set catalog _ _ (filter_within hprior _)).set catalog _ _ hprior).set catalog _ _ hprior).set catalog _ _
    hprior).set catalog _ _ hprior

theorem pairFeatures_within (hd : d.Within P) {d' : Draft F} (h' : pairFeatures catalog h row d = .ok d') :
    d'.Within P := by
  have hprior := filter_within (hw.pairs (row.actorId, row.counterpartyId)) row.follows
  have hrows := filter_within (filter_within (hw.actors row.actorId) row.follows) fun r => row.within r 86400
  simp only [pairFeatures, except_bind_eq_ok, except_pure_eq_ok] at h'
  obtain ⟨zscore, -, rfl⟩ := h'
  exact (((hd.set catalog _ _ hprior).set catalog _ _ hprior).set catalog _ _ hprior).set catalog _ _ hrows

theorem graphFeatures_within (hd : d.Within P) : (graphFeatures catalog h row d).Within P := by
  have hgraph := filter_within (hw.counterparties row.counterpartyId) fun r =>
    decide (r.decisionAt.instant < row.decisionAt.instant)
  have hburst := filter_within (filter_within (hw.actors row.actorId) row.follows) fun r => row.within r 60
  exact ((((hd.set catalog _ _ hgraph).set catalog _ _ hgraph).set catalog _ _ hburst).set catalog _ _ hw.prior).set
    catalog _ _ hw.prior

end features

variable {catalog : SentinelFeatureCatalog}

/-- the provenance of an emission names its row, and sources that its history holds -/
theorem emitRow_sources {h : History F} (hw : h.Within P) {e : Emission F} (he : emitRow catalog h row = .ok e) :
    e.provenance.eventId = row.eventId ∧ e.provenance.decisionAt = row.decisionAt ∧
      ∀ id ∈ e.provenance.sourceEventIds, ∃ r, r.eventId = id ∧ P r := by
  simp only [emitRow, except_bind_eq_ok, except_pure_eq_ok] at he
  obtain ⟨d, hd, _, -, provenance, hprovenance, rfl⟩ := he
  simp only [SentinelFeatureProvenance.make, except_bind_eq_ok, except_pure_eq_ok] at hprovenance
  obtain ⟨_, -, _, -, _, -, _, -, rfl⟩ := hprovenance
  refine ⟨rfl, rfl, ?_⟩
  have hempty : (⟨clockFeatures row row.predictiveFeatures, ∅⟩ : Draft F).Within P := by
    intro id r hr
    cases hr
  have hactor := actorFeatures_within hw catalog row hempty
  have hwithin := graphFeatures_within hw catalog row
    (pairFeatures_within hw catalog row (counterpartyFeatures_within hw catalog row hactor) hd)
  intro id hid
  obtain ⟨r, hr⟩ := Dict.mem_keys.1 (mem_sortedSet.1 hid)
  exact ⟨r, hwithin id r hr⟩

/-! ## A batch, row by row -/

/-- the values, the vector and the provenance that a batch holds for an event -/
def SentinelFeatureBatch.emission? (b : SentinelFeatureBatch F) (eventId : String) :
    Option (Dict String F × List F × SentinelFeatureProvenance) :=
  (b.rows.zip (b.matrix.zip b.provenance)).find? fun e => e.2.2.eventId = eventId

/-- the projection of a row from the history of the rows strictly before it -/
def projected (catalog : SentinelFeatureCatalog) (rows : List (V5DecisionRow F)) (row : V5DecisionRow F) :
    Except SentinelError (Emission F) :=
  emitted (fun r => r.decisionAt.instant) (emitRow catalog) History.add {} (sortBy decisionKey rows) row

omit [PyFloat F] in
theorem decisionKey_sorted (rows : List (V5DecisionRow F)) :
    (sortBy decisionKey rows).Pairwise fun a b => a.decisionAt.instant ≤ b.decisionAt.instant :=
  (sortBy_sorted decisionKey rows).imp fun h => Prod.Lex.monotone_fst _ _ h

theorem buildSentinelFeatures_rows [Sha256] {b : SentinelFeatureBatch F}
    (h : buildSentinelFeatures rows catalog = .ok b) :
    ∃ emissions, List.Forall₂ (fun row e => projected catalog rows row = .ok e) (sortBy decisionKey rows) emissions ∧
      b.rows = emissions.map Emission.values ∧ b.matrix = emissions.map Emission.vector ∧
      b.provenance = emissions.map Emission.provenance := by
  simp only [buildSentinelFeatures, except_bind_eq_ok, except_pure_eq_ok] at h
  obtain ⟨_, -, emissions, hemissions, rfl⟩ := h
  rw [runCohorts_sorted (emitRow catalog) History.add {} (decisionKey_sorted rows), mapM_eq_ok] at hemissions
  exact ⟨emissions, hemissions, rfl, rfl, rfl⟩

omit [PyFloat F] in
theorem mem_past_sorted {t : Time} {r : V5DecisionRow F}
    (h : r ∈ past (fun r => r.decisionAt.instant) (sortBy decisionKey rows) t) :
    r ∈ rows ∧ r.decisionAt.instant < t := by
  rw [mem_past, mem_sortBy] at h
  exact h

theorem projected_sources {e : Emission F} (h : projected catalog rows row = .ok e) :
    e.provenance.eventId = row.eventId ∧ e.provenance.decisionAt = row.decisionAt ∧
      ∀ id ∈ e.provenance.sourceEventIds, ∃ r ∈ rows, r.eventId = id ∧
        r.decisionAt.instant < row.decisionAt.instant := by
  have hw : (History.Within (fun r => r ∈ rows ∧ r.decisionAt.instant < row.decisionAt.instant)
      ((past (fun r => r.decisionAt.instant) (sortBy decisionKey rows) row.decisionAt.instant).foldl
        History.add {})) := History.within_empty.foldl fun r hr => mem_past_sorted hr
  obtain ⟨hid, htime, hsources⟩ := emitRow_sources hw h
  refine ⟨hid, htime, ?_⟩
  intro id hmem
  obtain ⟨r, hr, hrows, hbefore⟩ := hsources id hmem
  exact ⟨r, hrows, hr, hbefore⟩

theorem eventIds_of_projected {xs : List (V5DecisionRow F)} {emissions : List (Emission F)}
    (h : List.Forall₂ (fun row e => projected catalog rows row = .ok e) xs emissions) :
    emissions.map (fun e => e.provenance.eventId) = xs.map V5DecisionRow.eventId := by
  induction h with
  | nil => rfl
  | cons hxy _ ih => rw [List.map_cons, List.map_cons, (projected_sources hxy).1, ih]

/-- the emission of a row is looked up by its event id -/
theorem emission?_of_built [Sha256] {b : SentinelFeatureBatch F} (hn : (rows.map V5DecisionRow.eventId).Nodup)
    (h : buildSentinelFeatures rows catalog = .ok b) (hrow : row ∈ rows) :
    ∃ e, projected catalog rows row = .ok e ∧ b.emission? row.eventId = some (e.values, e.vector, e.provenance) := by
  obtain ⟨emissions, hemissions, hrows, hmatrix, hprovenance⟩ := buildSentinelFeatures_rows h
  obtain ⟨e, he, hproj⟩ := forall₂_mem_left hemissions (mem_sortBy.2 hrow)
  refine ⟨e, hproj, ?_⟩
  have hids := eventIds_of_projected hemissions
  have hnodup : (emissions.map fun e => e.provenance.eventId).Nodup := by
    rw [hids]
    exact (((sortBy_perm decisionKey rows).map _).nodup_iff).2 hn
  unfold SentinelFeatureBatch.emission?
  rw [hrows, hmatrix, hprovenance, List.zip_map', List.zip_map', List.find?_map]
  have hfind : emissions.find? ((fun e => decide (e.2.2.eventId = row.eventId)) ∘
      fun e : Emission F => (e.values, e.vector, e.provenance)) = some e := by
    have := Indexing.find?_of_nodup_keys hnodup he
    rwa [(projected_sources hproj).1] at this
  rw [hfind]
  rfl

omit [PyFloat F] in
theorem past_sorted_congr {t : Time} (hn : (rows.map V5DecisionRow.eventId).Nodup)
    (h : (past (fun r => r.decisionAt.instant) rows t).Perm (past (fun r => r.decisionAt.instant) rows' t)) :
    past (fun r => r.decisionAt.instant) (sortBy decisionKey rows) t =
      past (fun r => r.decisionAt.instant) (sortBy decisionKey rows') t := by
  unfold past at h ⊢
  rw [filter_sortBy, filter_sortBy]
  refine sortBy_congr h ?_
  refine List.Nodup.of_map (fun k : Time ×ₗ String => (ofLex k).2) ?_
  rw [List.map_map]
  exact hn.sublist (List.filter_sublist.map _)

omit [PyFloat F] in
theorem sortBy_decisionKey_congr (h : rows'.Perm rows) (hn : (rows.map V5DecisionRow.eventId).Nodup) :
    sortBy decisionKey rows' = sortBy decisionKey rows := by
  refine (sortBy_congr h.symm ?_).symm
  refine List.Nodup.of_map (fun k : Time ×ₗ String => (ofLex k).2) ?_
  rw [List.map_map]
  exact hn

/-- **Sentinel features are strictly causal and free of order.** -/
theorem sentinel_causal [Sha256] (catalog : SentinelFeatureCatalog) (rows : List (V5DecisionRow F))
    (hn : (rows.map V5DecisionRow.eventId).Nodup) :
    (∀ rows', rows'.Perm rows → buildSentinelFeatures rows' catalog = buildSentinelFeatures rows catalog) ∧
    (∀ (T : Time) (ext rows' : List (V5DecisionRow F)), (∀ r ∈ ext, T ≤ r.decisionAt.instant) →
      rows'.Perm (rows ++ ext) → (rows'.map V5DecisionRow.eventId).Nodup →
      ∀ b b', buildSentinelFeatures rows catalog = .ok b → buildSentinelFeatures rows' catalog = .ok b' →
        ∀ r ∈ rows, r.decisionAt.instant ≤ T →
          (b.emission? r.eventId).isSome ∧ b'.emission? r.eventId = b.emission? r.eventId) ∧
    (∀ b, buildSentinelFeatures rows catalog = .ok b → ∀ p ∈ b.provenance, ∃ row ∈ rows,
      row.eventId = p.eventId ∧ row.decisionAt = p.decisionAt ∧
        ∀ id ∈ p.sourceEventIds, ∃ r ∈ rows, r.eventId = id ∧ r.decisionAt.instant < row.decisionAt.instant) := by
  refine ⟨?_, ?_, ?_⟩
  · intro rows' hperm
    have horderable : orderable rows' = orderable rows := by
      unfold orderable
      rw [hperm.all_eq, hperm.all_eq]
    unfold buildSentinelFeatures
    rw [horderable, sortBy_decisionKey_congr hperm hn]
  · intro T ext rows' hext hperm hn' b b' hb hb' r hr hle
    have hpast : (past (fun r => r.decisionAt.instant) rows' r.decisionAt.instant).Perm
        (past (fun r => r.decisionAt.instant) rows r.decisionAt.instant) := by
      have := hperm.filter fun s => decide (s.decisionAt.instant < r.decisionAt.instant)
      rw [List.filter_append, (List.filter_eq_nil_iff (l := ext)).2, List.append_nil] at this
      · exact this
      · intro s hs
        simpa using hle.trans (hext s hs)
    have hsame : projected catalog rows' r = projected catalog rows r :=
      emitted_congr _ _ _ (past_sorted_congr hn' hpast)
    obtain ⟨e, he, hlook⟩ := emission?_of_built hn hb hr
    obtain ⟨e', he', hlook'⟩ := emission?_of_built hn' hb' (hperm.mem_iff.2 (List.mem_append_left _ hr))
    rw [hsame, he, Except.ok.injEq] at he'
    rw [hlook, hlook', he']
    exact ⟨rfl, rfl⟩
  · intro b hb p hp
    obtain ⟨emissions, hemissions, -, -, hprovenance⟩ := buildSentinelFeatures_rows hb
    rw [hprovenance] at hp
    obtain ⟨e, he, rfl⟩ := List.mem_map.1 hp
    obtain ⟨row, hrow, hproj⟩ := forall₂_mem_right hemissions he
    obtain ⟨hid, htime, hsources⟩ := projected_sources hproj
    exact ⟨row, mem_sortBy.1 hrow, hid.symm, htime.symm, hsources⟩

/-! ## A sample at midnight -/

/-- rational arithmetic, exact on the sample; at midnight the sine is 0 and the cosine 1 -/
@[reducible] def midnight : PyFloat ℚ where
  isFinite _ := true
  repr x := Decimal.intText x.num
  ofInt n := n
  ofDecimal d := d.value
  totalSeconds us := us / 1000000
  decimal x := ⟨x.num, 0⟩
  sum xs := xs.sum
  square x := some (x * x)
  lt a b := decide (a < b)
  sqrt x := x
  sin _ := 0
  cos _ := 1
  pi := 355 / 113
  trueDiv a b := a / b

/-- a digest of nothing but the length -/
@[reducible] def lengthDigest : Sha256 := ⟨fun _ => "", fun bytes => String.ofList (Nat.toDigits 16 bytes.length)⟩

def sampleRow (eventId counterpartyId : String) (day : ℤ) : V5DecisionRow ℚ :=
  ⟨eventId, "actor", counterpartyId, ⟨100, -2⟩, ⟨day * 86400000000, some 0⟩, ∅⟩

def sampleCatalog : SentinelFeatureCatalog := ⟨["actor_count_24h", "pair_prior_count", "txn_hour_cos"], "catalog"⟩

theorem sentinel_causal_sample :
    let _ := midnight
    let _ := lengthDigest
    let rows := [sampleRow "e1" "shop" 1, sampleRow "e0" "shop" 0]
    ∃ b b', buildSentinelFeatures rows sampleCatalog = .ok b ∧
      buildSentinelFeatures (sampleRow "e2" "shop" 1 :: rows) sampleCatalog = .ok b' ∧
      (b.emission? "e1").isSome ∧ b'.emission? "e1" = b.emission? "e1" := by
  let _ := midnight
  let _ := lengthDigest
  have hbuilt : ∀ {x : Except SentinelError (SentinelFeatureBatch ℚ)}, x.toOption.isSome = true → ∃ b, x = .ok b := by
    intro x h
    cases x with
    | error e => cases h
    | ok b => exact ⟨b, rfl⟩
  obtain ⟨b, hb⟩ := hbuilt (x := buildSentinelFeatures [sampleRow "e1" "shop" 1, sampleRow "e0" "shop" 0] sampleCatalog)
    (by decide +kernel)
  obtain ⟨b', hb'⟩ := hbuilt (x := buildSentinelFeatures
    [sampleRow "e2" "shop" 1, sampleRow "e1" "shop" 1, sampleRow "e0" "shop" 0] sampleCatalog) (by decide +kernel)
  have hn : ([sampleRow "e1" "shop" 1, sampleRow "e0" "shop" 0].map V5DecisionRow.eventId).Nodup := by decide
  obtain ⟨hsome, heq⟩ := (sentinel_causal sampleCatalog [sampleRow "e1" "shop" 1, sampleRow "e0" "shop" 0] hn).2.1
    86400000000 [sampleRow "e2" "shop" 1] [sampleRow "e2" "shop" 1, sampleRow "e1" "shop" 1, sampleRow "e0" "shop" 0]
    (fun r hr => List.mem_singleton.1 hr ▸ le_refl _) (List.perm_append_comm : ([sampleRow "e2" "shop" 1] ++ _).Perm _) (by decide)
    b b' hb hb' (sampleRow "e1" "shop" 1) (by simp) (le_refl _)
  exact ⟨b, b', hb, hb', hsome, heq⟩

end Sentinel

end Apar
