/-
Sentinel features see structure only. Two runs of the projection: on rows, and on the same rows under other names.

The event ids are renamed by `ρ`, the actor and counterparty ids by one map `ν`, both injective on the ids of the rows;
the predictive features outside the catalog are anything at all. Every index of the one history is paired with the index
of the renamed key in the other (`History.Alike`), in another order wherever event ids break a tie. Each feature reads
its rows through their number, amounts, times and distinct names, which pairing keeps, and sums are taken as exact, so
that their order plays no part (`ExactSums`).

- `emitRow_alike`: paired rows emit the same vector, and provenance equal up to `ρ`.
- `buildSentinelFeatures_renamed`: a batch of renamed rows returns where that of the rows does, with the same vector and
  the renamed provenance for every row.
-/
import Apar.Core.Paired
import Apar.Core.TwoRuns
import Apar.Features.SentinelCausality

namespace Apar

open Exec Cohorts

namespace Sentinel

variable {F : Type}

/-! ## Renamed rows -/

/-- a row under other names, with other features outside the catalog -/
structure V5DecisionRow.Renamed (catalog : SentinelFeatureCatalog) (ρ ν : String → String)
    (row row' : V5DecisionRow F) : Prop where
  eventId : row'.eventId = ρ row.eventId
  actorId : row'.actorId = ν row.actorId
  counterpartyId : row'.counterpartyId = ν row.counterpartyId
  amount : row'.amount = row.amount
  decisionAt : row'.decisionAt = row.decisionAt
  features : ∀ name ∈ catalog.featureNames,
    row'.predictiveFeatures.get? name = row.predictiveFeatures.get? name

/-- the actor and counterparty ids of the rows -/
def nodes (rows : List (V5DecisionRow F)) : Set String :=
  {n | ∃ r ∈ rows, n = r.actorId ∨ n = r.counterpartyId}

/-- rows of distinct event ids, each with its renamed row, under renamings injective on their ids -/
structure Renaming (catalog : SentinelFeatureCatalog) (ρ ν : String → String)
    (ps : List (V5DecisionRow F × V5DecisionRow F)) : Prop where
  renamed : ∀ p ∈ ps, p.1.Renamed catalog ρ ν p.2
  nodup : (ps.map fun p => p.1.eventId).Nodup
  events : Set.InjOn ρ {i | ∃ p ∈ ps, i = p.1.eventId}
  nodes : Set.InjOn ν (nodes (ps.map Prod.fst))

/-- sums do not depend on the order of their terms -/
def ExactSums (F : Type) [PyFloat F] : Prop := ∀ xs ys : List F, xs.Perm ys → PyFloat.sum xs = PyFloat.sum ys

variable {catalog : SentinelFeatureCatalog} {ρ ν : String → String} {ps : List (V5DecisionRow F × V5DecisionRow F)}

variable {p : V5DecisionRow F × V5DecisionRow F} {rows : List (V5DecisionRow F)}

theorem mem_nodes (hp : p ∈ ps) :
    p.1.actorId ∈ nodes (ps.map Prod.fst) ∧ p.1.counterpartyId ∈ nodes (ps.map Prod.fst) :=
  ⟨⟨p.1, List.mem_map.2 ⟨p, hp, rfl⟩, .inl rfl⟩, ⟨p.1, List.mem_map.2 ⟨p, hp, rfl⟩, .inr rfl⟩⟩

namespace Renaming

variable (hr : Renaming catalog ρ ν ps)

include hr

variable {p q : V5DecisionRow F × V5DecisionRow F}

theorem eventId_eq (hp : p ∈ ps) (hq : q ∈ ps) : p.2.eventId = q.2.eventId ↔ p.1.eventId = q.1.eventId := by
  rw [(hr.renamed p hp).eventId, (hr.renamed q hq).eventId]
  exact hr.events.eq_iff ⟨p, hp, rfl⟩ ⟨q, hq, rfl⟩

theorem actorId_eq (hp : p ∈ ps) (hq : q ∈ ps) : p.2.actorId = q.2.actorId ↔ p.1.actorId = q.1.actorId := by
  rw [(hr.renamed p hp).actorId, (hr.renamed q hq).actorId]
  exact hr.nodes.eq_iff (mem_nodes hp).1 (mem_nodes hq).1

theorem counterpartyId_eq (hp : p ∈ ps) (hq : q ∈ ps) :
    p.2.counterpartyId = q.2.counterpartyId ↔ p.1.counterpartyId = q.1.counterpartyId := by
  rw [(hr.renamed p hp).counterpartyId, (hr.renamed q hq).counterpartyId]
  exact hr.nodes.eq_iff (mem_nodes hp).2 (mem_nodes hq).2

theorem eq_of_eventId (hp : p ∈ ps) (hq : q ∈ ps) (h : p.1.eventId = q.1.eventId) :
    p = q := List.inj_on_of_nodup_map hr.nodup hp hq h

theorem nodup_fst : (ps.map Prod.fst).Nodup :=
  List.Nodup.of_map V5DecisionRow.eventId (by rw [List.map_map]; exact hr.nodup)

theorem nodup_renamed : (ps.map fun p => p.2.eventId).Nodup := by
  have hps : ps.Nodup := List.Nodup.of_map _ hr.nodup
  exact hps.map_on fun p hp q hq h => hr.eq_of_eventId hp hq ((hr.eventId_eq hp hq).1 h)

theorem nodup_snd : (ps.map Prod.snd).Nodup :=
  List.Nodup.of_map V5DecisionRow.eventId (by rw [List.map_map]; exact hr.nodup_renamed)

theorem follows_eq (hp : p ∈ ps) (hq : q ∈ ps) : p.1.follows q.1 = p.2.follows q.2 := by
  have hid := hr.eventId_eq hq hp
  unfold V5DecisionRow.follows
  rw [(hr.renamed p hp).decisionAt, (hr.renamed q hq).decisionAt]
  simp only [bne, beq_eq_decide]
  simp only [hid]

theorem within_eq (hp : p ∈ ps) (hq : q ∈ ps) (seconds : ℤ) : p.1.within q.1 seconds = p.2.within q.2 seconds := by
  unfold V5DecisionRow.within
  rw [(hr.renamed p hp).decisionAt, (hr.renamed q hq).decisionAt]

end Renaming

/-! ## Paired histories -/

/-- what a history holds of the rows that were added, index by index -/
structure History.Of (h : History F) (rows : List (V5DecisionRow F)) : Prop where
  actors : ∀ a, h.actorEvents.getD a [] = rows.filter fun r => r.actorId = a
  counterparties : ∀ c, h.counterpartyEvents.getD c [] = rows.filter fun r => r.counterpartyId = c
  pairs : ∀ a c, h.pairEvents.getD (a, c) [] = rows.filter fun r => r.actorId = a ∧ r.counterpartyId = c
  edges : h.allEdgesSeen = rows.length
  actorNodes : h.actorNodesSeen = (rows.map V5DecisionRow.actorId).toFinset
  cpNodes : h.cpNodesSeen = (rows.map V5DecisionRow.counterpartyId).toFinset
  prior : h.allPriorRows = rows

theorem index_filter {κ : Type} [DecidableEq κ] {index : Dict κ (List (V5DecisionRow F))} {key : V5DecisionRow F → κ}
    (h : ∀ k, index.getD k [] = rows.filter fun r => key r = k) (row : V5DecisionRow F) (k : κ) :
    (index.set (key row) (index.getD (key row) [] ++ [row])).getD k [] =
      (rows ++ [row]).filter fun r => key r = k := by
  rw [Dict.getD_set, List.filter_append, h, h]
  rcases eq_or_ne k (key row) with rfl | hk
  · simp
  · simp [hk, hk.symm]

theorem History.Of.add {h : History F} {rows : List (V5DecisionRow F)} (hof : h.Of rows) (row : V5DecisionRow F) :
    (h.add row).Of (rows ++ [row]) where
  actors := index_filter hof.actors row
  counterparties := index_filter hof.counterparties row
  pairs a c := by
    have hpairs : ∀ k : String × String, h.pairEvents.getD k [] =
        rows.filter fun r => (r.actorId, r.counterpartyId) = k := by
      rintro ⟨a, c⟩
      simp only [Prod.mk.injEq, hof.pairs]
    have := index_filter hpairs row (a, c)
    simp only [Prod.mk.injEq] at this
    exact this
  edges := by simp [History.add, hof.edges]
  actorNodes := by
    ext a
    simp [History.add, hof.actorNodes]
  cpNodes := by
    ext c
    simp [History.add, hof.cpNodes]
  prior := by simp [History.add, hof.prior]

theorem History.of_foldl (rows : List (V5DecisionRow F)) : (rows.foldl History.add ({} : History F)).Of rows := by
  induction rows using List.reverseRecOn with
  | nil => constructor <;> simp [Dict.getD]
  | append_singleton rows row ih =>
    rw [List.foldl_append]
    exact ih.add row

/-- two histories whose indexes are paired, key by renamed key -/
structure History.Alike (ν : String → String) (ps : List (V5DecisionRow F × V5DecisionRow F)) (h h' : History F) :
    Prop where
  actors : ∀ p ∈ ps, Paired ps (h.actorEvents.getD p.1.actorId []) (h'.actorEvents.getD p.2.actorId [])
  counterparties : ∀ p ∈ ps,
    Paired ps (h.counterpartyEvents.getD p.1.counterpartyId []) (h'.counterpartyEvents.getD p.2.counterpartyId [])
  pairs : ∀ p ∈ ps, Paired ps (h.pairEvents.getD (p.1.actorId, p.1.counterpartyId) [])
    (h'.pairEvents.getD (p.2.actorId, p.2.counterpartyId) [])
  edges : h'.allEdgesSeen = h.allEdgesSeen
  actorNodes : h'.actorNodesSeen.card = h.actorNodesSeen.card
  cpNodes : h'.cpNodesSeen.card = h.cpNodesSeen.card
  graphNodes : (h'.actorNodesSeen ∪ h'.cpNodesSeen).card = (h.actorNodesSeen ∪ h.cpNodesSeen).card
  prior : Paired ps h.allPriorRows h'.allPriorRows

/-- paired rows leave paired histories -/
theorem Renaming.history (hr : Renaming catalog ρ ν ps) {rows' : List (V5DecisionRow F)} (h : Paired ps rows rows') :
    History.Alike ν ps (rows.foldl History.add {}) (rows'.foldl History.add {}) := by
  have hof := History.of_foldl rows
  have hof' := History.of_foldl rows'
  refine
    { actors := ?_, counterparties := ?_, pairs := ?_, edges := ?_, actorNodes := ?_, cpNodes := ?_, graphNodes := ?_,
      prior := ?_ }
  · intro p hp
    rw [hof.actors, hof'.actors]
    exact h.filter fun q hq => by simp [hr.actorId_eq hq hp]
  · intro p hp
    rw [hof.counterparties, hof'.counterparties]
    exact h.filter fun q hq => by simp [hr.counterpartyId_eq hq hp]
  · intro p hp
    rw [hof.pairs, hof'.pairs]
    exact h.filter fun q hq => by simp [hr.actorId_eq hq hp, hr.counterpartyId_eq hq hp]
  · rw [hof.edges, hof'.edges, h.length_eq]
  · rw [hof.actorNodes, hof'.actorNodes]
    exact h.card_map (fun q hq => (hr.renamed q hq).actorId) (fun q hq => (mem_nodes hq).1) hr.nodes
  · rw [hof.cpNodes, hof'.cpNodes]
    exact h.card_map (fun q hq => (hr.renamed q hq).counterpartyId) (fun q hq => (mem_nodes hq).2) hr.nodes
  · rw [hof.actorNodes, hof'.actorNodes, hof.cpNodes, hof'.cpNodes,
      h.toFinset_map fun q hq => (hr.renamed q hq).actorId,
      h.toFinset_map fun q hq => (hr.renamed q hq).counterpartyId, ← Finset.image_union]
    refine Finset.card_image_of_injOn (hr.nodes.mono ?_)
    intro n hn
    simp only [Finset.coe_union, List.coe_toFinset, Set.mem_union, Set.mem_ofPred_eq, List.mem_map] at hn
    rcases hn with ⟨r, hmem, rfl⟩ | ⟨r, hmem, rfl⟩
    · obtain ⟨q, hq, rfl⟩ := h.mem_left hmem
      exact (mem_nodes hq).1
    · obtain ⟨q, hq, rfl⟩ := h.mem_left hmem
      exact (mem_nodes hq).2
  · rw [hof.prior, hof'.prior]
    exact h

/-! ## Paired drafts -/

/-- two drafts with the same values in the catalog and paired sources -/
structure Draft.Alike (catalog : SentinelFeatureCatalog) (ps : List (V5DecisionRow F × V5DecisionRow F))
    (d d' : Draft F) : Prop where
  values : ∀ name ∈ catalog.featureNames, d'.values.get? name = d.values.get? name
  sources : ∀ p ∈ ps, d.sourceRows.get? p.1.eventId = some p.1 ↔ d'.sourceRows.get? p.2.eventId = some p.2
  left : d.Within fun r => ∃ p ∈ ps, p.1 = r
  right : d'.Within fun r => ∃ p ∈ ps, p.2 = r

/-- a row is among the sources after others were filed if it was one of them or had been there -/
theorem get?_sources {row : V5DecisionRow F} (hrows : ∀ r ∈ rows, r.eventId = row.eventId → r = row)
    (s : Dict String (V5DecisionRow F)) :
    (rows.foldl (fun s r => s.set r.eventId r) s).get? row.eventId = some row ↔
      row ∈ rows ∨ s.get? row.eventId = some row := by
  induction rows generalizing s with
  | nil => simp
  | cons r rows ih =>
    rw [List.foldl_cons, ih (fun x hx => hrows x (by simp [hx])), Dict.get?_set, List.mem_cons]
    rcases eq_or_ne r row with rfl | hne
    · simp
    · have hid : row.eventId ≠ r.eventId := fun h => hne (hrows r (by simp) h.symm)
      rw [if_neg hid]
      simp [hne.symm]

/-- a feature with the same value and paired sources keeps drafts alike -/
theorem Renaming.set (hr : Renaming catalog ρ ν ps) {d d' : Draft F} (hd : Draft.Alike catalog ps d d') (name : String)
    {value value' : F} (hvalue : value' = value) {rows rows' : List (V5DecisionRow F)} (hrows : Paired ps rows rows') :
    Draft.Alike catalog ps (setHistoricalFeature catalog name value rows d)
      (setHistoricalFeature catalog name value' rows' d') := by
  subst hvalue
  refine ⟨?_, ?_, hd.left.set catalog _ _ fun r hmem => hrows.mem_left hmem,
    hd.right.set catalog _ _ fun r hmem => hrows.mem_right hmem⟩
  · intro other hother
    unfold setHistoricalFeature
    split_ifs with hname hrule
    · simp only [Dict.get?_set, hd.values other hother]
    · simp only [Dict.get?_set, hd.values other hother]
    · exact hd.values other hother
  · intro p hp
    unfold setHistoricalFeature
    split_ifs with hname hrule
    · have hleft : ∀ r ∈ rows, r.eventId = p.1.eventId → r = p.1 := by
        intro r hmem hid
        obtain ⟨q, hq, rfl⟩ := hrows.mem_left hmem
        rw [hr.eq_of_eventId hq hp hid]
      have hright : ∀ r ∈ rows', r.eventId = p.2.eventId → r = p.2 := by
        intro r hmem hid
        obtain ⟨q, hq, rfl⟩ := hrows.mem_right hmem
        rw [hr.eq_of_eventId hq hp ((hr.eventId_eq hq hp).1 hid)]
      rw [get?_sources hleft, get?_sources hright, hrows.mem_iff hr.nodup_fst hr.nodup_snd hp, hd.sources p hp]
    · exact hd.sources p hp
    · exact hd.sources p hp

/-! ## Features of paired rows -/

variable [PyFloat F]

section features

variable (hr : Renaming catalog ρ ν ps) {h h' : History F} (hh : History.Alike ν ps h h')
  {p : V5DecisionRow F × V5DecisionRow F} (hp : p ∈ ps) {d d' : Draft F} (hd : Draft.Alike catalog ps d d')

include hr

variable {rows rows' : List (V5DecisionRow F)}

theorem amounts_perm (hrows : Paired ps rows rows') : (amounts rows').Perm (amounts rows) :=
  hrows.map_perm fun q hq => by rw [(hr.renamed q hq).amount]

theorem sum_amounts (hsum : ExactSums F) (hrows : Paired ps rows rows') :
    PyFloat.sum (amounts rows') = PyFloat.sum (amounts rows) := hsum _ _ (amounts_perm hr hrows)

omit [PyFloat F] in
theorem instants_perm (hrows : Paired ps rows rows') :
    (rows'.map fun r => r.decisionAt.instant).Perm (rows.map fun r => r.decisionAt.instant) :=
  hrows.map_perm fun q hq => by rw [(hr.renamed q hq).decisionAt]

include hp

omit [PyFloat F] in
theorem follows_paired (hrows : Paired ps rows rows') :
    Paired ps (rows.filter p.1.follows) (rows'.filter p.2.follows) :=
  hrows.filter fun _ hq => hr.follows_eq hp hq

omit [PyFloat F] in
theorem within_paired (hrows : Paired ps rows rows') (seconds : ℤ) :
    Paired ps (rows.filter fun r => p.1.within r seconds) (rows'.filter fun r => p.2.within r seconds) :=
  hrows.filter fun _ hq => hr.within_eq hp hq seconds

theorem secondsSinceLast_eq (hrows : Paired ps rows rows') :
    secondsSinceLast p.2 rows' = secondsSinceLast p.1 rows := by
  unfold secondsSinceLast
  rw [(hr.renamed p hp).decisionAt, max?_of_perm (instants_perm hr hrows)]

omit [PyFloat F] hp in
theorem card_names {key key' : V5DecisionRow F → String} (hkey : ∀ q ∈ ps, key' q.2 = ν (key q.1))
    (hmem : ∀ q ∈ ps, key q.1 ∈ nodes (ps.map Prod.fst)) (hrows : Paired ps rows rows') :
    (rows'.map key').toFinset.card = (rows.map key).toFinset.card :=
  hrows.card_map hkey hmem hr.nodes

omit [PyFloat F] in
/-- the other actors of paired rows -/
theorem sharedNeighbours (hrows : Paired ps rows rows') :
    ((rows'.map fun r => r.actorId).toFinset.erase p.2.actorId).card =
      ((rows.map fun r => r.actorId).toFinset.erase p.1.actorId).card := by
  have himage := hrows.toFinset_map fun q hq => (hr.renamed q hq).actorId
  have hsub : ((rows.map fun r => r.actorId).toFinset : Set String) ⊆ nodes (ps.map Prod.fst) := by
    intro n hn
    obtain ⟨r, hmem, rfl⟩ := List.mem_map.1 (List.mem_toFinset.1 hn)
    obtain ⟨q, hq, rfl⟩ := hrows.mem_left hmem
    exact (mem_nodes hq).1
  have hactor := (hr.renamed p hp).actorId
  have herase : (rows'.map fun r => r.actorId).toFinset.erase p.2.actorId =
      ((rows.map fun r => r.actorId).toFinset.erase p.1.actorId).image ν := by
    ext n
    rw [himage, hactor]
    simp only [Finset.mem_erase, Finset.mem_image]
    constructor
    · rintro ⟨hne, m, hm, rfl⟩
      exact ⟨m, ⟨fun heq => hne (by rw [heq]), hm⟩, rfl⟩
    · rintro ⟨m, ⟨hne, hm⟩, rfl⟩
      exact ⟨fun heq => hne (hr.nodes (hsub hm) (mem_nodes hp).1 heq), m, hm, rfl⟩
  rw [herase]
  exact Finset.card_image_of_injOn (hr.nodes.mono fun n hn => hsub (Finset.mem_of_mem_erase hn))

theorem clockFeatures_get? {name : String} (hname : name ∈ catalog.featureNames) :
    (clockFeatures p.2 p.2.predictiveFeatures).get? name = (clockFeatures p.1 p.1.predictiveFeatures).get? name := by
  unfold clockFeatures
  simp only [Dict.get?_set, (hr.renamed p hp).features name hname, (hr.renamed p hp).decisionAt]

include hh hd

theorem actorFeatures_alike (hsum : ExactSums F) :
    Draft.Alike catalog ps (actorFeatures catalog h p.1 d) (actorFeatures catalog h' p.2 d') := by
  have hhistory := hh.actors p hp
  have hprior := follows_paired hr hp hhistory
  have hwithin := fun seconds => within_paired hr hp hprior seconds
  have hcps := card_names hr (fun q hq => (hr.renamed q hq).counterpartyId) (fun q hq => (mem_nodes hq).2) hprior
  have hvelocity : ∀ (windows : List (ℤ × String)) {d d' : Draft F}, Draft.Alike catalog ps d d' →
      Draft.Alike catalog ps
        (windows.foldl (fun d w =>
          let windowRows := ((h.actorEvents.getD p.1.actorId []).filter p.1.follows).filter fun r => p.1.within r w.1
          setHistoricalFeature catalog ("actor_count_" ++ w.2) (PyFloat.ofInt windowRows.length) windowRows d) d)
        (windows.foldl (fun d w =>
          let windowRows := ((h'.actorEvents.getD p.2.actorId []).filter p.2.follows).filter fun r => p.2.within r w.1
          setHistoricalFeature catalog ("actor_count_" ++ w.2) (PyFloat.ofInt windowRows.length) windowRows d) d') := by
    intro windows
    induction windows with
    | nil => exact id
    | cons w windows ih =>
      exact fun hd => ih (hr.set hd _ (by rw [(hwithin w.1).length_eq]) (hwithin w.1))
  have hfirst : (((h'.actorEvents.getD p.2.actorId []).map fun r => r.decisionAt.instant).min?).getD
      p.2.decisionAt.instant = (((h.actorEvents.getD p.1.actorId []).map fun r => r.decisionAt.instant).min?).getD
        p.1.decisionAt.instant := by
    rw [min?_of_perm (instants_perm hr hhistory), (hr.renamed p hp).decisionAt]
  unfold actorFeatures
  refine hr.set (hr.set (hr.set (hr.set (hr.set (hr.set (hvelocity velocityWindows hd) _ ?_ (hwithin 3600)) _ ?_
    (hwithin 86400)) _ ?_ hhistory) _ ?_ hprior) _ ?_ hprior) _ ?_ hprior
  · exact sum_amounts hr hsum (hwithin 3600)
  · exact sum_amounts hr hsum (hwithin 86400)
  · rw [hfirst, (hr.renamed p hp).decisionAt]
  · exact secondsSinceLast_eq hr hp hprior
  · rw [hcps]
  · rw [hcps]

theorem counterpartyFeatures_alike (hsum : ExactSums F) :
    Draft.Alike catalog ps (counterpartyFeatures catalog h p.1 d) (counterpartyFeatures catalog h' p.2 d') := by
  have hcp : Paired ps
      ((h.counterpartyEvents.getD p.1.counterpartyId []).filter fun r => p.1.follows r && p.1.within r 86400)
      ((h'.counterpartyEvents.getD p.2.counterpartyId []).filter fun r => p.2.follows r && p.2.within r 86400) :=
    (hh.counterparties p hp).filter fun q hq => by rw [hr.follows_eq hp hq, hr.within_eq hp hq]
  have hwithin := fun seconds => within_paired hr hp hcp seconds
  have hactors := card_names hr (fun q hq => (hr.renamed q hq).actorId) (fun q hq => (mem_nodes hq).1)
    (hwithin 86400)
  unfold counterpartyFeatures
  refine hr.set (hr.set (hr.set (hr.set (hr.set hd _ ?_ (hwithin 3600)) _ ?_ hcp) _ ?_ hcp) _ ?_ hcp) _ ?_ hcp
  · rw [(hwithin 3600).length_eq]
  · rw [hcp.length_eq]
  · exact sum_amounts hr hsum hcp
  · rw [hactors]
  · rw [hactors]

theorem graphFeatures_alike :
    Draft.Alike catalog ps (graphFeatures catalog h p.1 d) (graphFeatures catalog h' p.2 d') := by
  have hgraph : Paired ps
      ((h.counterpartyEvents.getD p.1.counterpartyId []).filter fun r =>
        r.decisionAt.instant < p.1.decisionAt.instant)
      ((h'.counterpartyEvents.getD p.2.counterpartyId []).filter fun r =>
        r.decisionAt.instant < p.2.decisionAt.instant) :=
    (hh.counterparties p hp).filter fun q hq => by
      rw [(hr.renamed q hq).decisionAt, (hr.renamed p hp).decisionAt]
  have hburst := within_paired hr hp (follows_paired hr hp (hh.actors p hp)) 60
  have hshared := sharedNeighbours hr hp hgraph
  unfold graphFeatures
  refine hr.set (hr.set (hr.set (hr.set (hr.set hd _ ?_ hgraph) _ ?_ hgraph) _ ?_ hburst) _ ?_ hh.prior) _ ?_ hh.prior
  · rw [hshared]
  · rw [hshared]
  · rw [hburst.length_eq]
  · rw [hh.graphNodes]
  · rw [hh.edges, hh.actorNodes, hh.cpNodes]

omit hh hd

theorem amountZscore_eq (hsum : ExactSums F) (hrows : Paired ps rows rows') :
    amountZscore p.2 rows' = amountZscore p.1 rows := by
  have hperm : (amounts rows').Perm (amounts rows) := amounts_perm hr hrows
  have hlength := hperm.length_eq
  have hmean : PyFloat.sum (amounts rows') = PyFloat.sum (amounts rows) := hsum _ _ hperm
  unfold amountZscore
  dsimp only
  rw [hlength, hmean, (hr.renamed p hp).amount]
  split_ifs
  · rfl
  · have hdeviations := hperm.map fun a => a - PyFloat.sum (amounts rows) / PyFloat.ofInt (amounts (F := F) rows).length
    cases hsquares : PyFloat.squares ((amounts rows).map fun a =>
        a - PyFloat.sum (amounts rows) / PyFloat.ofInt (amounts (F := F) rows).length) with
    | none =>
      cases hsquares' : PyFloat.squares ((amounts rows').map fun a =>
          a - PyFloat.sum (amounts rows) / PyFloat.ofInt (amounts (F := F) rows).length) with
      | none => rfl
      | some us =>
        obtain ⟨vs, hvs, -⟩ := mapM_of_perm hdeviations hsquares'
        exact absurd (hvs.symm.trans hsquares) (by simp)
    | some us =>
      obtain ⟨vs, hvs, hus⟩ := mapM_of_perm hdeviations.symm hsquares
      have hvs : PyFloat.squares ((amounts rows').map fun a =>
          a - PyFloat.sum (amounts rows) / PyFloat.ofInt (amounts (F := F) rows).length) = some vs := hvs
      rw [hvs]
      simp only [hsum _ _ hus]

include hh hd

theorem pairFeatures_alike (hsum : ExactSums F) :
    ReturnAlike (Draft.Alike catalog ps) (pairFeatures catalog h p.1 d) (pairFeatures catalog h' p.2 d') := by
  have hpair := follows_paired hr hp (hh.pairs p hp)
  have hday := within_paired hr hp (follows_paired hr hp (hh.actors p hp)) 86400
  unfold pairFeatures
  dsimp only
  rw [amountZscore_eq hr hp hsum hday]
  cases amountZscore p.1 (((h.actorEvents.getD p.1.actorId []).filter p.1.follows).filter fun r =>
      p.1.within r 86400) with
  | error e => exact .error
  | ok zscore =>
    refine .ok (hr.set (hr.set (hr.set (hr.set hd _ ?_ hpair) _ ?_ hpair) _ ?_ hpair) _ rfl hday)
    · rw [hpair.length_eq]
    · exact secondsSinceLast_eq hr hp hpair
    · rw [hpair.length_eq]

end features

/-! ## Provenance of paired drafts -/

omit [PyFloat F] in
theorem foldl_latest (ts : List DateTime) (t : DateTime) :
    let m := ts.foldl (fun m u => if m.instant < u.instant then u else m) t
    m ∈ t :: ts ∧ ∀ u ∈ t :: ts, u.instant ≤ m.instant := by
  induction ts generalizing t with
  | nil => simp
  | cons u ts ih =>
    rw [List.foldl_cons]
    obtain ⟨hmem, hle⟩ := ih (if t.instant < u.instant then u else t)
    refine ⟨?_, ?_⟩
    · rcases List.mem_cons.1 hmem with heq | hlater
      · rw [heq]
        split_ifs
        · simp
        · simp
      · simp [hlater]
    · have hfirst := hle _ (List.mem_cons_self ..)
      intro v hv
      rcases List.mem_cons.1 hv with rfl | hv
      · refine le_trans ?_ hfirst
        split_ifs with hlt
        · exact hlt.le
        · exact le_rfl
      · rcases List.mem_cons.1 hv with rfl | hv
        · refine le_trans ?_ hfirst
          split_ifs with hlt
          · exact le_rfl
          · exact not_lt.1 hlt
        · exact hle v (by simp [hv])

theorem latest_spec {ts : List DateTime} {m : DateTime} (h : latest ts = some m) :
    m ∈ ts ∧ ∀ t ∈ ts, t.instant ≤ m.instant := by
  cases ts with
  | nil => cases h
  | cons t ts =>
    cases h
    exact foldl_latest ts t

/-- of decision times in one zone, the latest does not depend on their order -/
theorem latest_of_perm {ts us : List DateTime} (h : ts.Perm us) (hutc : ∀ t ∈ ts, t.utcoffset = some 0) :
    latest ts = latest us := by
  cases ht : latest ts with
  | none =>
    cases ts with
    | nil => rw [h.symm.eq_nil]; rfl
    | cons t ts => cases ht
  | some m =>
    cases hu : latest us with
    | none =>
      cases us with
      | nil =>
        rw [h.eq_nil] at ht
        cases ht
      | cons u us => cases hu
    | some n =>
      obtain ⟨hm, hmax⟩ := latest_spec ht
      obtain ⟨hn, hmax'⟩ := latest_spec hu
      have hn' := h.mem_iff.2 hn
      have hinstant : m.instant = n.instant := le_antisymm (hmax' m (h.mem_iff.1 hm)) (hmax n hn')
      have hoffset : m.utcoffset = n.utcoffset := (hutc m hm).trans (hutc n hn').symm
      obtain ⟨mi, mo⟩ := m
      obtain ⟨ni, no⟩ := n
      cases hinstant
      cases hoffset
      rfl

/-- what the provenance of a row is under other names -/
def SentinelFeatureProvenance.renamed (ρ : String → String) (provenance : SentinelFeatureProvenance) :
    SentinelFeatureProvenance :=
  { provenance with
    eventId := ρ provenance.eventId
    sourceEventIds := sortedSet (provenance.sourceEventIds.map ρ) }

/-- an emission under other names: the same vector, the renamed provenance -/
structure Emission.Renamed (ρ : String → String) (e e' : Emission F) : Prop where
  vector : e'.vector = e.vector
  provenance : e'.provenance = e.provenance.renamed ρ

/-- the sources of a draft, as `emitRow` reads them -/
def Draft.sourceEventIds (d : Draft F) : List String := sortedSet d.sourceRows.keys

def Draft.sourceTimes (d : Draft F) : List DateTime :=
  d.sourceEventIds.filterMap fun id => (d.sourceRows.get? id).map fun r => r.decisionAt

section drafts

variable (hr : Renaming catalog ρ ν ps) {d d' : Draft F} (hd : Draft.Alike catalog ps d d')

omit [PyFloat F]

include hd

theorem mem_sourceEventIds {id : String} :
    id ∈ d.sourceEventIds ↔ ∃ p ∈ ps, p.1.eventId = id ∧ d.sourceRows.get? id = some p.1 := by
  unfold Draft.sourceEventIds
  rw [mem_sortedSet, Dict.mem_keys]
  constructor
  · rintro ⟨r, hget⟩
    obtain ⟨hid, p, hp, rfl⟩ := hd.left id r hget
    exact ⟨p, hp, hid, hget⟩
  · rintro ⟨p, -, -, hget⟩
    exact ⟨p.1, hget⟩

theorem mem_sourceEventIds_renamed {id : String} :
    id ∈ d'.sourceEventIds ↔ ∃ p ∈ ps, p.2.eventId = id ∧ d.sourceRows.get? p.1.eventId = some p.1 := by
  unfold Draft.sourceEventIds
  rw [mem_sortedSet, Dict.mem_keys]
  constructor
  · rintro ⟨r, hget⟩
    obtain ⟨hid, p, hp, rfl⟩ := hd.right id r hget
    subst hid
    exact ⟨p, hp, rfl, (hd.sources p hp).2 hget⟩
  · rintro ⟨p, hp, rfl, hget⟩
    exact ⟨p.2, (hd.sources p hp).1 hget⟩

include hr

theorem sourceEventIds_eq : d'.sourceEventIds = sortedSet (d.sourceEventIds.map ρ) := by
  have hmem : ∀ id, id ∈ d'.sourceEventIds ↔ id ∈ d.sourceEventIds.map ρ := by
    intro id
    rw [mem_sourceEventIds_renamed hd, List.mem_map]
    constructor
    · rintro ⟨p, hp, rfl, hget⟩
      exact ⟨p.1.eventId, (mem_sourceEventIds hd).2 ⟨p, hp, rfl, hget⟩, (hr.renamed p hp).eventId.symm⟩
    · rintro ⟨i, hi, rfl⟩
      obtain ⟨p, hp, rfl, hget⟩ := (mem_sourceEventIds hd).1 hi
      exact ⟨p, hp, (hr.renamed p hp).eventId, hget⟩
  have hsorted : d'.sourceEventIds = sortedSet d'.sourceEventIds := sortedSet_congr fun id => by
    rw [Draft.sourceEventIds, mem_sortedSet]
  rw [hsorted]
  exact sortedSet_congr hmem

theorem sourceEventIds_perm : d'.sourceEventIds.Perm (d.sourceEventIds.map ρ) := by
  rw [sourceEventIds_eq hr hd]
  have hnodup : (d.sourceEventIds.map ρ).Nodup := by
    refine (sortedSet_nodup _).map_on fun i hi j hj h => ?_
    obtain ⟨p, hp, rfl, -⟩ := (mem_sourceEventIds hd).1 hi
    obtain ⟨q, hq, rfl, -⟩ := (mem_sourceEventIds hd).1 hj
    exact hr.events ⟨p, hp, rfl⟩ ⟨q, hq, rfl⟩ h
  exact (List.perm_ext_iff_of_nodup (sortedSet_nodup _) hnodup).2 fun id => mem_sortedSet

theorem sourceTimes_perm : d'.sourceTimes.Perm d.sourceTimes := by
  refine ((sourceEventIds_perm hr hd).filterMap _).trans ?_
  rw [List.filterMap_map]
  refine List.Perm.of_eq (List.filterMap_congr fun id hid => ?_)
  obtain ⟨p, hp, rfl, hget⟩ := (mem_sourceEventIds hd).1 hid
  rw [Function.comp_apply, ← (hr.renamed p hp).eventId, hget, (hd.sources p hp).1 hget]
  exact congrArg some (hr.renamed p hp).decisionAt

theorem latest_eq (hutc : ∀ p ∈ ps, p.1.decisionAt.utcoffset = some 0) :
    latest d'.sourceTimes = latest d.sourceTimes := by
  refine latest_of_perm (sourceTimes_perm hr hd) fun t ht => ?_
  obtain ⟨id, hid, ht⟩ := List.mem_filterMap.1 ((sourceTimes_perm hr hd).mem_iff.1 ht)
  obtain ⟨p, hp, -, hget⟩ := (mem_sourceEventIds hd).1 hid
  rw [hget, Option.map_some, Option.some.injEq] at ht
  rw [← ht]
  exact hutc p hp

end drafts

omit [PyFloat F] in
/-- provenance is built of paired drafts alike -/
theorem make_alike (hr : Renaming catalog ρ ν ps) (hutc : ∀ p ∈ ps, p.1.decisionAt.utcoffset = some 0) (hp : p ∈ ps)
    {d d' : Draft F} (hd : Draft.Alike catalog ps d d') :
    ReturnAlike (fun provenance provenance' => provenance' = provenance.renamed ρ)
      (SentinelFeatureProvenance.make p.1.eventId p.1.decisionAt d.sourceEventIds (latest d.sourceTimes))
      (SentinelFeatureProvenance.make p.2.eventId p.2.decisionAt d'.sourceEventIds (latest d'.sourceTimes)) := by
  have hsorted : ∀ d : Draft F, d.sourceEventIds = sortedSet d.sourceEventIds := fun d =>
    sortedSet_congr fun id => by rw [Draft.sourceEventIds, mem_sortedSet]
  have hempty : d.sourceEventIds.isEmpty = d'.sourceEventIds.isEmpty := by
    have hlength := (sourceEventIds_perm hr hd).length_eq
    rw [List.length_map] at hlength
    rw [Bool.eq_iff_iff, List.isEmpty_iff_length_eq_zero, List.isEmpty_iff_length_eq_zero, hlength]
  unfold SentinelFeatureProvenance.make
  rw [latest_eq hr hd hutc, (hr.renamed p hp).decisionAt, (hr.renamed p hp).eventId]
  refine ReturnAlike.bind (ReturnAlike.check rfl) fun _ _ _ => ?_
  refine ReturnAlike.bind (ReturnAlike.check ?_) fun _ _ _ => ?_
  · rw [decide_eq_true (hsorted d), decide_eq_true (hsorted d')]
  refine ReturnAlike.bind (ReturnAlike.check ?_) fun _ _ _ => ?_
  · rw [hempty]
  refine ReturnAlike.bind (ReturnAlike.check rfl) fun _ _ _ => ?_
  refine .ok ?_
  rw [SentinelFeatureProvenance.renamed, ← sourceEventIds_eq hr hd]

/-- **Paired rows emit alike.** -/
theorem emitRow_alike (hr : Renaming catalog ρ ν ps) (hsum : ExactSums F)
    (hutc : ∀ p ∈ ps, p.1.decisionAt.utcoffset = some 0) {h h' : History F} (hh : History.Alike ν ps h h') (hp : p ∈ ps)
    : ReturnAlike (Emission.Renamed ρ) (emitRow catalog h p.1) (emitRow catalog h' p.2) := by
  have hstart : Draft.Alike catalog ps ⟨clockFeatures p.1 p.1.predictiveFeatures, ∅⟩
      ⟨clockFeatures p.2 p.2.predictiveFeatures, ∅⟩ := by
    refine ⟨fun name hname => clockFeatures_get? hr hp hname, fun q _ => by simp, ?_, ?_⟩
    · intro id r hget
      cases hget
    · intro id r hget
      cases hget
  have hactor := actorFeatures_alike hr hh hp hstart hsum
  have hcounterparty := counterpartyFeatures_alike hr hh hp hactor hsum
  unfold emitRow
  refine ReturnAlike.bind (pairFeatures_alike hr hh hp hcounterparty hsum) fun d d' hd => ?_
  have hgraph := graphFeatures_alike hr hh hp hd
  have hvector : (catalog.featureNames.map fun name =>
      (graphFeatures catalog h' p.2 d').values.getD name (PyFloat.ofInt 0)) =
      catalog.featureNames.map fun name => (graphFeatures catalog h p.1 d).values.getD name (PyFloat.ofInt 0) :=
    List.map_congr_left fun name hname => by unfold Dict.getD; rw [hgraph.values name hname]
  dsimp only
  rw [hvector]
  refine ReturnAlike.bind (ReturnAlike.check rfl) fun _ _ _ => ?_
  refine ReturnAlike.bind (make_alike hr hutc hp hgraph) fun provenance provenance' hprovenance => ?_
  exact .ok ⟨rfl, hprovenance⟩

/-! ## Batches -/

/-- the matrix row and the provenance that a batch holds for an event -/
def SentinelFeatureBatch.row? (b : SentinelFeatureBatch F) (eventId : String) :
    Option (List F × SentinelFeatureProvenance) := (b.emission? eventId).map Prod.snd

/-- a batch returns where its times compare and every row of it is projected -/
theorem buildSentinelFeatures_returns [Sha256] {catalog : SentinelFeatureCatalog} :
    (∃ b, buildSentinelFeatures rows catalog = .ok b) ↔
      orderable rows = true ∧ ∀ row ∈ rows, ∃ e, projected catalog rows row = .ok e := by
  constructor
  · rintro ⟨b, hb⟩
    obtain ⟨emissions, hemissions, -⟩ := buildSentinelFeatures_rows hb
    simp only [buildSentinelFeatures, except_bind_eq_ok, check_eq_ok] at hb
    obtain ⟨_, horderable, -⟩ := hb
    refine ⟨horderable, fun row hrow => ?_⟩
    obtain ⟨e, -, he⟩ := forall₂_mem_left hemissions (mem_sortBy.2 hrow)
    exact ⟨e, he⟩
  · rintro ⟨horderable, hrows⟩
    have hprojected : ∀ row ∈ sortBy decisionKey rows, ∃ e, projected catalog rows row = .ok e ∧ True := by
      intro row hrow
      obtain ⟨e, he⟩ := hrows row (mem_sortBy.1 hrow)
      exact ⟨e, he, trivial⟩
    obtain ⟨emissions, hemissions, -⟩ := mapM_exists_ok hprojected
    unfold buildSentinelFeatures
    rw [horderable, runCohorts_sorted (emitRow catalog) History.add {} (decisionKey_sorted rows)]
    unfold projected at hemissions
    rw [hemissions]
    exact ⟨_, rfl⟩

theorem utc_of_projected {row : V5DecisionRow F} {e : Emission F} (h : projected catalog rows row = .ok e) :
    row.decisionAt.utcoffset = some 0 := by
  simp only [projected, emitted, emitRow, except_bind_eq_ok] at h
  obtain ⟨_, _, _, _, provenance, hprovenance, _⟩ := h
  simp only [SentinelFeatureProvenance.make, except_bind_eq_ok, check_eq_ok, Bool.and_eq_true, decide_eq_true_eq]
    at hprovenance
  obtain ⟨_, ⟨hutc, _⟩, _⟩ := hprovenance
  exact hutc

omit [PyFloat F] in
theorem Renaming.past (hr : Renaming catalog ρ ν ps) (t : Time) :
    Paired ps (past (fun r => r.decisionAt.instant) (sortBy decisionKey (ps.map Prod.fst)) t)
      (past (fun r => r.decisionAt.instant) (sortBy decisionKey (ps.map Prod.snd)) t) := by
  have hsorted : Paired ps (sortBy decisionKey (ps.map Prod.fst)) (sortBy decisionKey (ps.map Prod.snd)) :=
    Paired.sides.of_perm (sortBy_perm _ _) (sortBy_perm _ _)
  exact hsorted.filter fun q hq => by simp only [(hr.renamed q hq).decisionAt]

theorem projected_alike (hr : Renaming catalog ρ ν ps) (hsum : ExactSums F)
    (hutc : ∀ p ∈ ps, p.1.decisionAt.utcoffset = some 0) (hp : p ∈ ps) :
    ReturnAlike (Emission.Renamed ρ) (projected catalog (ps.map Prod.fst) p.1)
      (projected catalog (ps.map Prod.snd) p.2) := by
  unfold projected emitted
  dsimp only
  rw [(hr.renamed p hp).decisionAt]
  exact emitRow_alike hr hsum hutc (hr.history (hr.past _)) hp

/-- **A batch of renamed rows.** It returns exactly where the batch of the rows does, and then holds for every row the
same vector and the renamed provenance. -/
theorem buildSentinelFeatures_paired [Sha256] (hr : Renaming catalog ρ ν ps) (hsum : ExactSums F) :
    ((∃ b, buildSentinelFeatures (ps.map Prod.fst) catalog = .ok b) ↔
      ∃ b', buildSentinelFeatures (ps.map Prod.snd) catalog = .ok b') ∧
    ∀ b b', buildSentinelFeatures (ps.map Prod.fst) catalog = .ok b →
      buildSentinelFeatures (ps.map Prod.snd) catalog = .ok b' →
      ∀ p ∈ ps, ∃ vector provenance, b.row? p.1.eventId = some (vector, provenance) ∧
        b'.row? p.2.eventId = some (vector, provenance.renamed ρ) := by
  have horderable : orderable (ps.map Prod.snd) = orderable (ps.map Prod.fst) := by
    have hoffset : ∀ q : V5DecisionRow F → Bool, (∀ p ∈ ps, q p.2 = q p.1) →
        (ps.map Prod.snd).all q = (ps.map Prod.fst).all q := by
      intro q hq
      rw [Bool.eq_iff_iff, List.all_eq_true, List.all_eq_true]
      simp only [List.mem_map, forall_exists_index, and_imp, forall_apply_eq_imp_iff₂]
      exact forall₂_congr fun p hp => by rw [hq p hp]
    unfold orderable
    rw [hoffset _ fun p hp => by rw [(hr.renamed p hp).decisionAt],
      hoffset _ fun p hp => by rw [(hr.renamed p hp).decisionAt]]
  have hleft : ∀ {b}, buildSentinelFeatures (ps.map Prod.fst) catalog = .ok b →
      ∀ p ∈ ps, p.1.decisionAt.utcoffset = some 0 := by
    intro b hb p hp
    obtain ⟨-, hrows⟩ := buildSentinelFeatures_returns.1 ⟨b, hb⟩
    obtain ⟨e, he⟩ := hrows p.1 (List.mem_map.2 ⟨p, hp, rfl⟩)
    exact utc_of_projected he
  have hright : ∀ {b'}, buildSentinelFeatures (ps.map Prod.snd) catalog = .ok b' →
      ∀ p ∈ ps, p.1.decisionAt.utcoffset = some 0 := by
    intro b' hb' p hp
    obtain ⟨-, hrows⟩ := buildSentinelFeatures_returns.1 ⟨b', hb'⟩
    obtain ⟨e, he⟩ := hrows p.2 (List.mem_map.2 ⟨p, hp, rfl⟩)
    rw [← (hr.renamed p hp).decisionAt]
    exact utc_of_projected he
  refine ⟨⟨?_, ?_⟩, ?_⟩
  · rintro ⟨b, hb⟩
    obtain ⟨hcompare, hrows⟩ := buildSentinelFeatures_returns.1 ⟨b, hb⟩
    refine buildSentinelFeatures_returns.2 ⟨horderable.trans hcompare, fun row' hrow' => ?_⟩
    obtain ⟨p, hp, rfl⟩ := List.mem_map.1 hrow'
    obtain ⟨e, he⟩ := hrows p.1 (List.mem_map.2 ⟨p, hp, rfl⟩)
    obtain ⟨e', he', -⟩ := (he ▸ projected_alike hr hsum (hleft hb) hp).of_ok
    exact ⟨e', he'⟩
  · rintro ⟨b', hb'⟩
    obtain ⟨hcompare, hrows⟩ := buildSentinelFeatures_returns.1 ⟨b', hb'⟩
    refine buildSentinelFeatures_returns.2 ⟨horderable.symm.trans hcompare, fun row hrow => ?_⟩
    obtain ⟨p, hp, rfl⟩ := List.mem_map.1 hrow
    obtain ⟨e', he'⟩ := hrows p.2 (List.mem_map.2 ⟨p, hp, rfl⟩)
    obtain ⟨e, he, -⟩ := (he' ▸ projected_alike hr hsum (hright hb') hp).of_ok_right
    exact ⟨e, he⟩
  · intro b b' hb hb' p hp
    have hn : ((ps.map Prod.fst).map V5DecisionRow.eventId).Nodup := by
      rw [List.map_map]
      exact hr.nodup
    have hn' : ((ps.map Prod.snd).map V5DecisionRow.eventId).Nodup := by
      rw [List.map_map]
      exact hr.nodup_renamed
    obtain ⟨e, he, hlook⟩ := emission?_of_built hn hb (List.mem_map.2 ⟨p, hp, rfl⟩)
    obtain ⟨e', he', hlook'⟩ := emission?_of_built hn' hb' (List.mem_map.2 ⟨p, hp, rfl⟩)
    have halike := projected_alike hr hsum (hleft hb) hp
    rw [he, he'] at halike
    cases halike with
    | ok hsame =>
      refine ⟨e.vector, e.provenance, ?_, ?_⟩
      · rw [SentinelFeatureBatch.row?, hlook]
        rfl
      · rw [SentinelFeatureBatch.row?, hlook', Option.map_some, hsame.vector, hsame.provenance]

end Sentinel

end Apar
