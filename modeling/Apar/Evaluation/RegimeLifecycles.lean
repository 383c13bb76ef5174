/-
Robustness regimes keep a corpus evaluable, and when they do not.

Every transformer but the merging of controls rewrites observations one by one and keeps their identity (`Same`), so the
lifecycles of the derived corpus are those of the corpus, rewritten and sorted again.
- `lifecycleOf_map`: the derived lifecycle of a payment.
- `compressed_sorted`: compression keeps the canonical order exactly when no two events of a payment that round to one
  microsecond have ids against the order of their times.
- `shifted_net`: scaled amounts net to the scaled net exactly when their cents add up.
- `regime_lifecycles`: the derived corpus is accepted exactly under the condition of its kind.
-/
import Apar.Core.Indexing
import Apar.Evaluation.Regimes
import Apar.Evaluation.Revalidation

namespace Apar

open Exec

namespace Regimes

/-- `_validate_lifecycles` of a corpus against its own observations -/
def FrozenCorpus.validate (c : FrozenCorpus) : Except SimError (Option String) :=
  validateLifecycles c.truth c.observationById.values

theorem observationById_eq (c : FrozenCorpus) : c.observationById = Indexing.byKey ObservedEvent.eventId c.observations :=
  rfl

/-! ## Rewritten observations -/

/-- what no rewriting changes -/
structure Same (e e' : ObservedEvent) : Prop where
  eventId : e'.eventId = e.eventId
  paymentId : e'.paymentId = e.paymentId
  currency : e'.currency = e.currency
  eventType : e'.eventType = e.eventType

section rewriting

variable {g : ObservedEvent → ObservedEvent} {observations : List ObservedEvent}

theorem lifecycleOf_map (hg : ∀ e ∈ observations, Same e (g e)) (paymentId : String) :
    lifecycleOf (observations.map g) paymentId = (sortBy (fun e => observedKey (g e))
      (observations.filter fun e => e.paymentId = paymentId)).map g := by
  unfold lifecycleOf
  rw [map_sortBy, List.filter_map]
  congr 2
  refine List.filter_congr fun e he => ?_
  simp [(hg e he).paymentId]

theorem mem_lifecycleOf {paymentId : String} {e : ObservedEvent} :
    e ∈ lifecycleOf observations paymentId ↔ e ∈ observations ∧ e.paymentId = paymentId := by
  simp [lifecycleOf]

/-- sorting by the rewritten times gives the canonical order exactly when no rewritten pair goes against it -/
theorem rewritten_sorted (hn : (observations.map ObservedEvent.eventId).Nodup)
    (hg : ∀ e ∈ observations, Same e (g e)) :
    sortBy (fun e => observedKey (g e)) observations = sortBy observedKey observations ↔
      ∀ a ∈ observations, ∀ b ∈ observations, observedKey a ≤ observedKey b → observedKey (g a) ≤ observedKey (g b) := by
  constructor
  · intro heq a ha b hb hab
    rcases eq_or_ne a b with rfl | hne
    · exact le_rfl
    have hboth : (sortBy observedKey observations).Pairwise fun x y =>
        (observedKey x ≤ observedKey y ∧ observedKey (g x) ≤ observedKey (g y)) ∨
          (observedKey y ≤ observedKey x ∧ observedKey (g y) ≤ observedKey (g x)) := by
      have hsorted := sortBy_sorted (fun e => observedKey (g e)) observations
      rw [heq] at hsorted
      exact ((sortBy_sorted observedKey observations).and hsorted).imp Or.inl
    have hsymm : Std.Symm fun x y => (observedKey x ≤ observedKey y ∧ observedKey (g x) ≤ observedKey (g y)) ∨
        (observedKey y ≤ observedKey x ∧ observedKey (g y) ≤ observedKey (g x)) := ⟨fun _ _ => Or.symm⟩
    rcases hboth.forall (mem_sortBy.2 ha) (mem_sortBy.2 hb) hne with h | h
    · exact h.2
    · -- events with one key are one event
      have hkey := le_antisymm hab h.1
      have hid : a.eventId = b.eventId := by
        unfold observedKey at hkey
        rw [toLex_inj, Prod.mk.injEq] at hkey
        exact hkey.2
      exact absurd (List.inj_on_of_nodup_map hn ha hb hid) hne
  · intro hmono
    have hkeys : (observations.map fun e => observedKey (g e)).Nodup := by
      refine List.Nodup.of_map (fun k => (ofLex k).2) ?_
      rw [List.map_map, List.map_congr_left (f := _) (g := ObservedEvent.eventId)]
      · exact hn
      · exact fun e he => (hg e he).eventId
    refine eq_of_perm_of_sortedKeys ((sortBy_perm _ _).trans (sortBy_perm _ _).symm) ?_ (sortBy_sorted _ _) ?_
    · exact ((sortBy_perm _ _).map _).nodup_iff.2 hkeys
    · refine (sortBy_sorted observedKey observations).imp_of_mem fun {a b} ha hb hab => ?_
      exact hmono a (mem_sortBy.1 ha) b (mem_sortBy.1 hb) hab

/-- a row describes rewritten events through what the rewriting keeps and what it changes -/
theorem describes_map {truth : TruthRow} {c : String} (hg : ∀ e ∈ observations, Same e (g e)) :
    Describes truth (observations.map g) c ↔
      truth.lifecycleEventIds = observations.map ObservedEvent.eventId ∧ observations ≠ [] ∧
      (∀ e ∈ observations, e.currency = c) ∧
      ((observations.filter fun e => isSettlement e.eventType).head?.map fun e => (g e).eventTime) =
        truth.firstSettlementAt ∧
      Revalidated ((observations.filter fun e => isSettlement e.eventType).map fun e => (g e).amount)
        ((observations.filter fun e => isReversing e.eventType).map fun e => (g e).amount) truth.netSettledValue := by
  have hids : (observations.map g).map ObservedEvent.eventId = observations.map ObservedEvent.eventId := by
    rw [List.map_map]
    exact List.map_congr_left fun e he => (hg e he).eventId
  have hfilter : ∀ p : EventKind → Bool, (observations.map g).filter (fun e => p e.eventType) =
      (observations.filter fun e => p e.eventType).map g := by
    intro p
    rw [List.filter_map]
    refine congrArg (List.map g) (List.filter_congr fun e he => ?_)
    simp [(hg e he).eventType]
  constructor
  · rintro ⟨h1, h2, h3, h4, h5⟩
    rw [hfilter] at h4 h5
    rw [hfilter, List.map_map, List.map_map] at h5
    rw [List.head?_map, Option.map_map] at h4
    exact ⟨h1.trans hids, by simpa using h2,
      fun e he => (hg e he).currency.symm.trans (h3 _ (List.mem_map_of_mem he)), h4, h5⟩
  · rintro ⟨h1, h2, h3, h4, h5⟩
    refine ⟨h1.trans hids.symm, by simpa using h2, ?_, ?_, ?_⟩
    · intro x hx
      obtain ⟨e, he, rfl⟩ := List.mem_map.1 hx
      exact (hg e he).currency.trans (h3 e he)
    · rw [hfilter, List.head?_map, Option.map_map]
      exact h4
    · rw [hfilter, hfilter, List.map_map, List.map_map]
      exact h5

end rewriting

/-! ## Rewritten corpora -/

/-- a corpus with its observations and its truth rewritten row by row -/
structure Rewritten (g : ObservedEvent → ObservedEvent) (h : TruthRow → TruthRow) (corpus changed : FrozenCorpus) :
    Prop where
  observations : changed.observations = corpus.observations.map g
  truth : changed.truth = corpus.truth.map h
  same : ∀ e ∈ corpus.observations, Same e (g e)
  paymentId : ∀ t ∈ corpus.truth, (h t).paymentId = t.paymentId
  lifecycleEventIds : ∀ t ∈ corpus.truth, (h t).lifecycleEventIds = t.lifecycleEventIds

section corpora

variable {g : ObservedEvent → ObservedEvent} {h : TruthRow → TruthRow} {corpus changed : FrozenCorpus} {c : Option String}

theorem mem_observationById {e : ObservedEvent} (he : e ∈ corpus.observationById.values) : e ∈ corpus.observations :=
  Indexing.mem_of_mem_values he

theorem Rewritten.values (r : Rewritten g h corpus changed) :
    changed.observationById.values = corpus.observationById.values.map g := by
  rw [observationById_eq, observationById_eq, r.observations]
  exact Indexing.values_map fun e he => (r.same e he).eventId

theorem Rewritten.same_values (r : Rewritten g h corpus changed) :
    ∀ e ∈ corpus.observationById.values, Same e (g e) := fun e he => r.same e (mem_observationById he)

theorem describes_of_validate (hok : corpus.validate = .ok c) {t : TruthRow} (ht : t ∈ corpus.truth) :
    ∃ currency, c = some currency ∧ Describes t (lifecycleOf corpus.observationById.values t.paymentId) currency :=
  (validateLifecycles_ok.1 hok).2.2 t ht

/-- a rewritten corpus is accepted exactly when its rows describe the rewritten lifecycles -/
theorem Rewritten.validate_iff (r : Rewritten g h corpus changed) (hok : corpus.validate = .ok c) :
    (∃ c', changed.validate = .ok c') ↔ ∀ t ∈ corpus.truth, ∃ currency,
      Describes (h t) (lifecycleOf (corpus.observationById.values.map g) t.paymentId) currency := by
  obtain ⟨hnodup, hempty, hrows⟩ := validateLifecycles_ok.1 hok
  have hpayments : changed.truth.map TruthRow.paymentId = corpus.truth.map TruthRow.paymentId := by
    rw [r.truth, List.map_map]
    exact List.map_congr_left r.paymentId
  unfold FrozenCorpus.validate
  simp only [validateLifecycles_ok, r.values, hpayments]
  constructor
  · rintro ⟨c', -, -, hall⟩ t ht
    obtain ⟨currency, -, hdescribes⟩ := hall (h t) (r.truth ▸ List.mem_map_of_mem ht)
    rw [r.paymentId t ht] at hdescribes
    exact ⟨currency, hdescribes⟩
  · intro hall
    refine ⟨c, hnodup, fun hnil => hempty (List.map_eq_nil_iff.1 (r.truth ▸ hnil)), fun t' ht' => ?_⟩
    rw [r.truth] at ht'
    obtain ⟨t, ht, rfl⟩ := List.mem_map.1 ht'
    obtain ⟨currency, rfl, hdescribes⟩ := hrows t ht
    obtain ⟨currency', hdescribes'⟩ := hall t ht
    refine ⟨currency, rfl, ?_⟩
    -- the rewritten lifecycle has events of the lifecycle's currency
    obtain ⟨e', he'⟩ := List.exists_mem_of_ne_nil _ hdescribes'.nonempty
    obtain ⟨hmem, hpay⟩ := mem_lifecycleOf.1 he'
    obtain ⟨e, he, rfl⟩ := List.mem_map.1 hmem
    have hsame := r.same_values e he
    have hcurrency := hdescribes.currency e (mem_lifecycleOf.2 ⟨he, hsame.paymentId ▸ hpay⟩)
    rw [r.paymentId t ht, ← hcurrency, ← hsame.currency, hdescribes'.currency _ he']
    exact hdescribes'

/-- the derived lifecycle of a payment, where rewriting keeps the order of its events -/
def Ordered (g : ObservedEvent → ObservedEvent) (events : List ObservedEvent) : Prop :=
  ∀ a ∈ events, ∀ b ∈ events, observedKey a ≤ observedKey b → observedKey (g a) ≤ observedKey (g b)

/-- a payment's events -/
def paymentEventsOf (corpus : FrozenCorpus) (paymentId : String) : List ObservedEvent :=
  corpus.observationById.values.filter fun e => e.paymentId = paymentId

theorem paymentEventsOf_nodup (paymentId : String) :
    ((paymentEventsOf corpus paymentId).map ObservedEvent.eventId).Nodup :=
  (Indexing.values_nodup corpus.observations).sublist (List.filter_sublist.map _)

/-- **A rewritten row** describes the rewritten lifecycle exactly when the order is kept and the row's settlement says
what the rewritten events say. -/
theorem Rewritten.describes_iff (r : Rewritten g h corpus changed) {t : TruthRow} (ht : t ∈ corpus.truth) {c : String}
    (hd : Describes t (lifecycleOf corpus.observationById.values t.paymentId) c) :
    (∃ c', Describes (h t) (lifecycleOf (corpus.observationById.values.map g) t.paymentId) c') ↔
      Ordered g (paymentEventsOf corpus t.paymentId) ∧
      (((lifecycleOf corpus.observationById.values t.paymentId).filter fun e => isSettlement e.eventType).head?.map
        fun e => (g e).eventTime) = (h t).firstSettlementAt ∧
      Revalidated (((lifecycleOf corpus.observationById.values t.paymentId).filter fun e => isSettlement e.eventType).map
          fun e => (g e).amount)
        (((lifecycleOf corpus.observationById.values t.paymentId).filter fun e => isReversing e.eventType).map
          fun e => (g e).amount) (h t).netSettledValue := by
  have hsame : ∀ e ∈ paymentEventsOf corpus t.paymentId, Same e (g e) :=
    fun e he => r.same_values e (List.mem_of_mem_filter he)
  have hsorted := rewritten_sorted (paymentEventsOf_nodup t.paymentId) hsame
  have hlifecycle : sortBy observedKey (paymentEventsOf corpus t.paymentId) =
      lifecycleOf corpus.observationById.values t.paymentId := rfl
  have hsame' : ∀ e ∈ lifecycleOf corpus.observationById.values t.paymentId, Same e (g e) :=
    fun e he => r.same_values e (mem_lifecycleOf.1 he).1
  rw [lifecycleOf_map r.same_values]
  constructor
  · rintro ⟨c', hd'⟩
    have hids := (describes_map fun e he => hsame e (mem_sortBy.1 he)).1 hd'
    -- the rewritten order has the ids of the canonical one
    have heq : sortBy (fun e => observedKey (g e)) (paymentEventsOf corpus t.paymentId) =
        sortBy observedKey (paymentEventsOf corpus t.paymentId) := by
      have hmap := hids.1.symm.trans ((r.lifecycleEventIds t ht).trans hd.ids)
      exact Indexing.eq_of_map_eq (paymentEventsOf_nodup t.paymentId) (fun e he => mem_sortBy.1 he)
        (fun e he => mem_sortBy.1 he) hmap
    change Describes _ ((sortBy (fun e => observedKey (g e)) (paymentEventsOf corpus t.paymentId)).map g) c' at hd'
    rw [heq, hlifecycle] at hd'
    obtain ⟨-, -, -, hfirst, hnet⟩ := (describes_map hsame').1 hd'
    exact ⟨hsorted.1 heq, hfirst, hnet⟩
  · rintro ⟨hordered, hfirst, hnet⟩
    refine ⟨c, ?_⟩
    change Describes _ ((sortBy (fun e => observedKey (g e)) (paymentEventsOf corpus t.paymentId)).map g) c
    rw [hsorted.2 hordered, hlifecycle]
    exact (describes_map hsame').2 ⟨(r.lifecycleEventIds t ht).trans hd.ids, hd.nonempty, hd.currency, hfirst, hnet⟩

end corpora

end Regimes

end Apar
