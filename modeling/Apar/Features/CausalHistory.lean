/-
What the incremental feature state holds of the events it has admitted (`features/state.py`).

- `Recorded s es`: the histories, the openings and the edges of `s` are those of the events `es`, in the order of their
  admission. It is kept by every admission (`Recorded.admitEvent`, `Recorded.admitSources`), so a state is told by what it
  admitted.
- `remember_eq_ok`: what a delivery leaves, when it is accepted.
-/
import Apar.Features.CausalState

namespace Apar

open Exec

theorem ObservedEvent.same_self (e : ObservedEvent) : e.same e = true := by
  have hrefs : (e.optionalRefs.items.all fun p => e.optionalRefs.get? p.1 = some p.2) = true := by
    rw [List.all_eq_true]
    intro p hp
    exact decide_eq_true (Dict.get?_eq_some.2 hp)
  simp [ObservedEvent.same, hrefs]

namespace CausalFeatureState

/-! ## Histories -/

/-- the ids of the events by a key, in their order -/
def index {κ : Type} [DecidableEq κ] (key : ObservedEvent → κ) (es : List ObservedEvent) : EventHistory κ :=
  es.foldl (fun history e => addTo history (key e) e.eventId) ∅

section

variable {κ : Type} [DecidableEq κ] (key : ObservedEvent → κ)

theorem index_concat (es : List ObservedEvent) (e : ObservedEvent) :
    index key (es ++ [e]) = addTo (index key es) (key e) e.eventId := by
  rw [index, List.foldl_append]
  rfl

theorem getD_index (es : List ObservedEvent) (k : κ) :
    (index key es).getD k [] = (es.filter fun e => key e = k).map ObservedEvent.eventId := by
  induction es using List.reverseRecOn with
  | nil => rfl
  | append_singleton es e ih =>
    rw [index_concat, addTo, Dict.getD_set, List.filter_append]
    by_cases hk : k = key e
    · subst hk
      rw [if_pos rfl, ih, List.filter_cons_of_pos (by simp), List.filter_nil, List.map_append, List.map_singleton]
    · rw [if_neg hk, ih, List.filter_cons_of_neg (by simpa using Ne.symm hk), List.filter_nil, List.append_nil]

end

/-- the first decision of each payment -/
def openings (es : List ObservedEvent) : List ObservedEvent :=
  es.foldl (fun opened e =>
    if e.isDecisionPoint ∧ e.paymentId ∉ opened.map ObservedEvent.paymentId then opened ++ [e] else opened) []

theorem openings_concat (es : List ObservedEvent) (e : ObservedEvent) :
    openings (es ++ [e]) =
      if e.isDecisionPoint ∧ e.paymentId ∉ (openings es).map ObservedEvent.paymentId then openings es ++ [e]
      else openings es := by
  rw [openings, List.foldl_append]
  rfl

theorem openings_subset (es : List ObservedEvent) : openings es ⊆ es := by
  induction es using List.reverseRecOn with
  | nil => exact List.Subset.refl _
  | append_singleton es e ih =>
    rw [openings_concat]
    split_ifs with hopen
    · exact List.append_subset.2 ⟨fun x hx => List.mem_append_left _ (ih hx), List.subset_append_right _ _⟩
    · exact fun x hx => List.mem_append_left _ (ih hx)

/-- the state holds exactly these events as its history -/
structure Recorded (s : CausalFeatureState) (es : List ObservedEvent) : Prop where
  ids : s.admittedIds = es.map ObservedEvent.eventId
  nodup : (es.map ObservedEvent.eventId).Nodup
  known : ∀ e ∈ es, s.known.get? e.eventId = some e
  actor : s.actorHistory = index ObservedEvent.actorId es
  counterparty : s.counterpartyHistory = index ObservedEvent.counterpartyId es
  pair : s.pairHistory = index (fun e => (e.actorId, e.counterpartyId)) es
  outcome : s.outcomeHistory = index ObservedEvent.eventType es
  actorAmount : s.actorAmountHistory = index ObservedEvent.actorId (es.filter ObservedEvent.isDecisionPoint)
  counterpartyAmount :
    s.counterpartyAmountHistory = index ObservedEvent.counterpartyId (es.filter ObservedEvent.isDecisionPoint)
  opening : s.openingPaymentIds = (openings es).map ObservedEvent.paymentId
  edges : s.edges = (openings es).map ObservedEvent.edge

variable {s : CausalFeatureState} {es : List ObservedEvent}

theorem recorded_empty : Recorded empty [] :=
  ⟨rfl, List.nodup_nil, fun _ h => absurd h List.not_mem_nil, rfl, rfl, rfl, rfl, rfl, rfl, rfl, rfl⟩

theorem admitEvent_known (s : CausalFeatureState) (e : ObservedEvent) : (s.admitEvent e).known = s.known := by
  unfold admitEvent
  split_ifs <;> rfl

theorem admitEvent_frame (s : CausalFeatureState) (e : ObservedEvent) :
    (s.admitEvent e).known = s.known ∧ (s.admitEvent e).emittedDecisionIds = s.emittedDecisionIds ∧
      (s.admitEvent e).lateEventIds = s.lateEventIds ∧ (s.admitEvent e).lateEventWatermarks = s.lateEventWatermarks ∧
      (s.admitEvent e).watermark = s.watermark := by
  unfold admitEvent
  split_ifs <;> exact ⟨rfl, rfl, rfl, rfl, rfl⟩

/-- **One admission** appends the event to what is recorded. -/
theorem Recorded.admitEvent (h : Recorded s es) {e : ObservedEvent} (hnew : e.eventId ∉ es.map ObservedEvent.eventId)
    (hknown : s.known.get? e.eventId = some e) : Recorded (s.admitEvent e) (es ++ [e]) := by
  have hids : e.eventId ∉ s.admittedIds := by rwa [h.ids]
  have hnodup : ((es ++ [e]).map ObservedEvent.eventId).Nodup := by
    rw [List.map_append, List.map_singleton]
    exact h.nodup.append (List.nodup_singleton _) (List.disjoint_singleton.2 hnew)
  have hall : ∀ x ∈ es ++ [e], (s.admitEvent e).known.get? x.eventId = some x := by
    intro x hx
    rw [admitEvent_known]
    rcases List.mem_append.1 hx with hx | hx
    · exact h.known x hx
    · rw [List.mem_singleton.1 hx]
      exact hknown
  have hother : (openings (es ++ [e]) = if e.isDecisionPoint ∧ e.paymentId ∉ s.openingPaymentIds then openings es ++ [e]
      else openings es) := by
    rw [openings_concat, h.opening]
  refine ⟨?_, hnodup, hall, ?_, ?_, ?_, ?_, ?_, ?_, ?_, ?_⟩
  all_goals unfold CausalFeatureState.admitEvent
  all_goals rw [if_neg hids]
  · split_ifs <;> simp only [h.ids, List.map_append, List.map_singleton]
  · split_ifs <;> simp only [index_concat, h.actor]
  · split_ifs <;> simp only [index_concat, h.counterparty]
  · split_ifs <;> simp only [index_concat, h.pair]
  · split_ifs <;> simp only [index_concat, h.outcome]
  · by_cases hdecision : e.isDecisionPoint
    · rw [List.filter_append, List.filter_cons_of_pos hdecision, List.filter_nil, index_concat]
      split_ifs <;> simp only [h.actorAmount]
    · rw [List.filter_append, List.filter_cons_of_neg hdecision, List.filter_nil, List.append_nil, if_neg hdecision]
      exact h.actorAmount
  · by_cases hdecision : e.isDecisionPoint
    · rw [List.filter_append, List.filter_cons_of_pos hdecision, List.filter_nil, index_concat]
      split_ifs <;> simp only [h.counterpartyAmount]
    · rw [List.filter_append, List.filter_cons_of_neg hdecision, List.filter_nil, List.append_nil, if_neg hdecision]
      exact h.counterpartyAmount
  · rw [hother]
    by_cases hdecision : e.isDecisionPoint
    · by_cases hopen : e.paymentId ∈ s.openingPaymentIds
      · rw [if_pos hdecision, if_pos hopen, if_neg fun hboth => hboth.2 hopen]
        exact h.opening
      · rw [if_pos hdecision, if_neg hopen, if_pos ⟨hdecision, hopen⟩, List.map_append, List.map_singleton, ← h.opening]
    · rw [if_neg hdecision, if_neg fun hboth => hdecision hboth.1]
      exact h.opening
  · rw [hother]
    by_cases hdecision : e.isDecisionPoint
    · by_cases hopen : e.paymentId ∈ s.openingPaymentIds
      · rw [if_pos hdecision, if_pos hopen, if_neg fun hboth => hboth.2 hopen]
        exact h.edges
      · rw [if_pos hdecision, if_neg hopen, if_pos ⟨hdecision, hopen⟩, List.map_append, List.map_singleton, ← h.edges]
    · rw [if_neg hdecision, if_neg fun hboth => hdecision hboth.1]
      exact h.edges

/-! ## Known events -/

/-- every event is known by its own id -/
def Keyed (known : Dict String ObservedEvent) : Prop := ∀ k e, known.get? k = some e → e.eventId = k

variable {known staged : Dict String ObservedEvent} {new done events : List ObservedEvent}

theorem Keyed.mem_values (h : Keyed known) {e : ObservedEvent} : e ∈ known.values ↔ known.get? e.eventId = some e := by
  constructor
  · intro he
    obtain ⟨⟨k, x⟩, hmem, rfl⟩ := List.mem_map.1 he
    have hget := Dict.get?_eq_some.2 hmem
    rwa [h k x hget]
  · intro hget
    exact List.mem_map.2 ⟨(e.eventId, e), Dict.get?_eq_some.1 hget, rfl⟩

theorem Keyed.ids (h : Keyed known) : known.values.map ObservedEvent.eventId = known.keys := by
  rw [Dict.values, Dict.keys, List.map_map]
  exact List.map_congr_left fun p hp => h p.1 p.2 (Dict.get?_eq_some.2 hp)

theorem Keyed.nodup {known : Dict String ObservedEvent} (h : Keyed known) :
    (known.values.map ObservedEvent.eventId).Nodup := by
  rw [h.ids]
  exact known.nodup

/-! ## Admission of the past -/

theorem mem_candidates {t : Time} {excluding : List String} {e : ObservedEvent} :
    e ∈ s.candidates t excluding ↔
      e ∈ s.known.values ∧ e.eventId ∉ s.admittedIds ∧ e.eventId ∉ excluding ∧ e.availableAt < t := by
  rw [candidates, mem_sortBy, List.mem_filter]
  simp only [Bool.and_eq_true, decide_eq_true_eq, and_assoc]

theorem Recorded.foldl_admitEvent (h : Recorded s es) (hnodup : ((es ++ new).map ObservedEvent.eventId).Nodup)
    (hknown : ∀ e ∈ new, s.known.get? e.eventId = some e) :
    Recorded (new.foldl CausalFeatureState.admitEvent s) (es ++ new) := by
  induction new generalizing s es with
  | nil => rwa [List.append_nil]
  | cons e new ih =>
    rw [List.map_append, List.map_cons] at hnodup
    have hnew : e.eventId ∉ es.map ObservedEvent.eventId := by
      intro hmem
      exact (List.nodup_append.1 hnodup).2.2 _ hmem _ List.mem_cons_self rfl
    have hnext := h.admitEvent hnew (hknown e List.mem_cons_self)
    rw [List.foldl_cons, List.append_cons]
    refine ih hnext ?_ fun x hx => ?_
    · rw [← List.append_cons, List.map_append, List.map_cons]
      exact hnodup
    · rw [admitEvent_known]
      exact hknown x (List.mem_cons_of_mem e hx)

/-- **Admission of the past** appends the candidates to what is recorded. -/
theorem Recorded.admitSources (h : Recorded s es) (hkeyed : Keyed s.known) (t : Time) (excluding : List String) :
    Recorded (s.admitSourcesStrictlyBefore t excluding) (es ++ s.candidates t excluding) := by
  refine h.foldl_admitEvent ?_ fun e he => hkeyed.mem_values.1 (mem_candidates.1 he).1
  rw [List.map_append]
  refine h.nodup.append ?_ ?_
  · have hperm := (sortBy_perm admissionKey (s.known.values.filter fun e =>
      e.eventId ∉ s.admittedIds && e.eventId ∉ excluding && e.availableAt < t)).map ObservedEvent.eventId
    exact hperm.nodup_iff.2 (hkeyed.nodup.sublist (List.filter_sublist.map _))
  · rw [List.disjoint_left]
    intro id hid hnew
    obtain ⟨e, he, rfl⟩ := List.mem_map.1 hnew
    rw [← h.ids] at hid
    exact (mem_candidates.1 he).2.1 hid

theorem foldl_admitEvent_frame (s : CausalFeatureState) (es : List ObservedEvent) :
    (es.foldl admitEvent s).known = s.known ∧ (es.foldl admitEvent s).emittedDecisionIds = s.emittedDecisionIds ∧
      (es.foldl admitEvent s).lateEventIds = s.lateEventIds ∧
      (es.foldl admitEvent s).lateEventWatermarks = s.lateEventWatermarks ∧
      (es.foldl admitEvent s).watermark = s.watermark := by
  induction es generalizing s with
  | nil => exact ⟨rfl, rfl, rfl, rfl, rfl⟩
  | cons e es ih =>
    obtain ⟨hknown, hemitted, hlate, hlateTimes, hwatermark⟩ := ih (s.admitEvent e)
    obtain ⟨hknown', hemitted', hlate', hlateTimes', hwatermark'⟩ := admitEvent_frame s e
    exact ⟨hknown.trans hknown', hemitted.trans hemitted', hlate.trans hlate', hlateTimes.trans hlateTimes',
      hwatermark.trans hwatermark'⟩

/-- what a successful delivery is told by -/
structure Remembered (s : CausalFeatureState) (events : List ObservedEvent) (t : CausalFeatureState) : Prop where
  kept : ∀ k e, s.known.get? k = some e → t.known.get? k = some e
  new : ∀ k e, t.known.get? k = some e → s.known.get? k = none → e.eventId = k ∧ e ∈ events ∧
    (e.isDecisionPoint = true → ∃ d, e.decisionAt = some d ∧ ∀ w, s.watermark = some w → w < d)
  delivered : ∀ e ∈ events, ∃ p, t.known.get? e.eventId = some p ∧ p.same e = true
  late : ∀ id, id ∈ t.lateEventIds ↔ id ∈ s.lateEventIds ∨
    ∃ e w, s.known.get? id = none ∧ t.known.get? id = some e ∧ s.watermark = some w ∧ e.availableAt < w
  admitted : t.admittedIds = s.admittedIds
  emitted : t.emittedDecisionIds = s.emittedDecisionIds
  watermark : t.watermark = s.watermark
  recorded : ∀ es, Recorded s es → Recorded t es

/-- what is staged of the events so far -/
structure Staged (s : CausalFeatureState) (done : List ObservedEvent) (staged : Dict String ObservedEvent) : Prop where
  new : ∀ k e, staged.get? k = some e → e.eventId = k ∧ e ∈ done ∧ s.known.get? k = none ∧
    (e.isDecisionPoint = true → ∃ d, e.decisionAt = some d ∧ ∀ w, s.watermark = some w → w < d)
  delivered : ∀ e ∈ done, ∃ p, (s.known.get? e.eventId).or (staged.get? e.eventId) = some p ∧ p.same e = true

theorem Staged.skip (h : Staged s done staged) {e p : ObservedEvent}
    (hp : (s.known.get? e.eventId).or (staged.get? e.eventId) = some p) (hsame : p.same e = true) :
    Staged s (done ++ [e]) staged := by
  refine ⟨fun k x hx => ?_, fun x hx => ?_⟩
  · obtain ⟨hid, hmem, hrest⟩ := h.new k x hx
    exact ⟨hid, List.mem_append_left _ hmem, hrest⟩
  · rcases List.mem_append.1 hx with hx | hx
    · exact h.delivered x hx
    · rw [List.mem_singleton.1 hx]
      exact ⟨p, hp, hsame⟩

theorem Staged.set {done : List ObservedEvent} {staged : Dict String ObservedEvent} (h : Staged s done staged)
    {e : ObservedEvent} (hnone : (s.known.get? e.eventId).or (staged.get? e.eventId) = none)
    (hdated : e.isDecisionPoint = true → ∃ d, e.decisionAt = some d ∧ ∀ w, s.watermark = some w → w < d) :
    Staged s (done ++ [e]) (staged.set e.eventId e) := by
  obtain ⟨hknown, hstaged⟩ := Option.or_eq_none_iff.1 hnone
  refine ⟨fun k x hx => ?_, fun x hx => ?_⟩
  · rw [Dict.get?_set] at hx
    split_ifs at hx with hk
    · obtain rfl := Option.some.inj hx
      exact ⟨hk.symm, List.mem_append_right _ (List.mem_singleton_self e), hk ▸ hknown, hdated⟩
    · obtain ⟨hid, hmem, hrest⟩ := h.new k x hx
      exact ⟨hid, List.mem_append_left _ hmem, hrest⟩
  · rcases List.mem_append.1 hx with hx | hx
    · obtain ⟨p, hp, hsame⟩ := h.delivered x hx
      have hne : x.eventId ≠ e.eventId := by
        intro heq
        rw [heq, hnone] at hp
        cases hp
      exact ⟨p, by rwa [Dict.get?_set_of_ne _ _ hne], hsame⟩
    · rw [List.mem_singleton.1 hx]
      exact ⟨e, by rw [hknown, Dict.get?_set_self]; rfl, e.same_self⟩

theorem stage_ok {staged' : Dict String ObservedEvent} {e : ObservedEvent} (h : Staged s done staged)
    (hstage : s.stage staged e = .ok staged') : Staged s (done ++ [e]) staged' := by
  unfold stage at hstage
  cases hprevious : (s.known.get? e.eventId).or (staged.get? e.eventId) with
  | some p =>
    rw [hprevious] at hstage
    dsimp only at hstage
    split_ifs at hstage with hsame
    cases hstage
    exact h.skip hprevious hsame
  | none =>
    rw [hprevious] at hstage
    dsimp only at hstage
    by_cases hdecision : e.isDecisionPoint = true
    · rw [if_pos hdecision] at hstage
      cases hat : e.decisionAt with
      | none =>
        rw [hat] at hstage
        cases hstage
      | some d =>
        rw [hat] at hstage
        dsimp only at hstage
        split_ifs at hstage with hclosed
        cases hstage
        refine h.set hprevious fun _ => ⟨d, hat, fun w hw => ?_⟩
        rw [hw] at hclosed
        simpa using hclosed
    · rw [if_neg hdecision] at hstage
      cases hstage
      exact h.set hprevious fun hpoint => absurd hpoint hdecision

theorem know_frame (s : CausalFeatureState) (e : ObservedEvent) :
    (s.know e).admittedIds = s.admittedIds ∧ (s.know e).emittedDecisionIds = s.emittedDecisionIds ∧
      (s.know e).watermark = s.watermark ∧ (s.know e).known = s.known.set e.eventId e := by
  unfold know
  cases s.watermark with
  | none => exact ⟨rfl, rfl, rfl, rfl⟩
  | some w =>
    dsimp only
    split_ifs <;> exact ⟨rfl, rfl, rfl, rfl⟩

theorem mem_late_know (s : CausalFeatureState) (e : ObservedEvent) (id : String) :
    id ∈ (s.know e).lateEventIds ↔
      id ∈ s.lateEventIds ∨ (id = e.eventId ∧ ∃ w, s.watermark = some w ∧ e.availableAt < w) := by
  unfold know
  cases hw : s.watermark with
  | none => simp
  | some w =>
    dsimp only
    by_cases hlate : e.availableAt < w
    · have hbehind : ∃ w', some w = some w' ∧ e.availableAt < w' := ⟨w, rfl, hlate⟩
      rw [if_pos hlate, and_iff_left hbehind]
      by_cases hmem : e.eventId ∈ s.lateEventIds
      · rw [if_pos hmem]
        refine ⟨.inl, ?_⟩
        rintro (h | rfl)
        · exact h
        · exact hmem
      · rw [if_neg hmem, List.mem_append, List.mem_singleton]
    · have hahead : ¬ ∃ w', some w = some w' ∧ e.availableAt < w' := by
        rintro ⟨w', hw', hlt⟩
        rw [← Option.some.inj hw'] at hlt
        exact hlate hlt
      rw [if_neg hlate, or_iff_left fun h => hahead h.2]

theorem Recorded.know (h : Recorded s es) {e : ObservedEvent} (hnew : s.known.get? e.eventId = none) :
    Recorded (s.know e) es := by
  have hne : ∀ x ∈ es, x.eventId ≠ e.eventId := by
    intro x hx heq
    have := h.known x hx
    rw [heq, hnew] at this
    cases this
  have hknown : ∀ x ∈ es, (s.know e).known.get? x.eventId = some x := by
    intro x hx
    rw [(know_frame s e).2.2.2, Dict.get?_set_of_ne _ _ (hne x hx)]
    exact h.known x hx
  have hrest : (s.know e).actorHistory = s.actorHistory ∧ (s.know e).counterpartyHistory = s.counterpartyHistory ∧
      (s.know e).pairHistory = s.pairHistory ∧ (s.know e).outcomeHistory = s.outcomeHistory ∧
      (s.know e).actorAmountHistory = s.actorAmountHistory ∧
      (s.know e).counterpartyAmountHistory = s.counterpartyAmountHistory ∧
      (s.know e).openingPaymentIds = s.openingPaymentIds ∧ (s.know e).edges = s.edges := by
    unfold CausalFeatureState.know
    cases s.watermark with
    | none => exact ⟨rfl, rfl, rfl, rfl, rfl, rfl, rfl, rfl⟩
    | some w =>
      dsimp only
      split_ifs <;> exact ⟨rfl, rfl, rfl, rfl, rfl, rfl, rfl, rfl⟩
  obtain ⟨hactor, hcounterparty, hpair, houtcome, hactorAmount, hcounterpartyAmount, hopening, hedges⟩ := hrest
  exact ⟨(know_frame s e).1.trans h.ids, h.nodup, hknown, hactor.trans h.actor, hcounterparty.trans h.counterparty,
    hpair.trans h.pair, houtcome.trans h.outcome, hactorAmount.trans h.actorAmount,
    hcounterpartyAmount.trans h.counterpartyAmount, hopening.trans h.opening, hedges.trans h.edges⟩

/-- what learning new events leaves -/
theorem foldl_know (hnodup : (new.map ObservedEvent.eventId).Nodup) (hnew : ∀ e ∈ new, s.known.get? e.eventId = none) :
    (∀ k e, (new.foldl know s).known.get? k = some e ↔ s.known.get? k = some e ∨ (e ∈ new ∧ e.eventId = k)) ∧
      (∀ id, id ∈ (new.foldl know s).lateEventIds ↔
        id ∈ s.lateEventIds ∨ ∃ e ∈ new, id = e.eventId ∧ ∃ w, s.watermark = some w ∧ e.availableAt < w) ∧
      (new.foldl know s).admittedIds = s.admittedIds ∧ (new.foldl know s).emittedDecisionIds = s.emittedDecisionIds ∧
      (new.foldl know s).watermark = s.watermark ∧ ∀ es, Recorded s es → Recorded (new.foldl know s) es := by
  induction new generalizing s with
  | nil => exact ⟨fun k e => by simp, fun id => by simp, rfl, rfl, rfl, fun _ h => h⟩
  | cons x new ih =>
    rw [List.map_cons, List.nodup_cons] at hnodup
    obtain ⟨hadmitted, hemitted, hwatermark, hset⟩ := know_frame s x
    have hfresh : ∀ e ∈ new, (s.know x).known.get? e.eventId = none := by
      intro e he
      have hne : e.eventId ≠ x.eventId := fun heq => hnodup.1 (heq ▸ List.mem_map_of_mem he)
      rw [hset, Dict.get?_set_of_ne _ _ hne]
      exact hnew e (List.mem_cons_of_mem x he)
    obtain ⟨hknown, hlate, hadmitted', hemitted', hwatermark', hrecorded⟩ := ih hnodup.2 hfresh
    rw [List.foldl_cons]
    refine ⟨fun k e => ?_, fun id => ?_, hadmitted'.trans hadmitted, hemitted'.trans hemitted,
      hwatermark'.trans hwatermark, fun es h => hrecorded es (h.know (hnew x List.mem_cons_self))⟩
    · rw [hknown, hset, Dict.get?_set, List.mem_cons]
      by_cases hk : k = x.eventId
      · have hnone := hnew x List.mem_cons_self
        rw [if_pos hk, hk, hnone, Option.some.injEq]
        constructor
        · rintro (rfl | ⟨he, heq⟩)
          · exact .inr ⟨.inl rfl, rfl⟩
          · exact .inr ⟨.inr he, heq⟩
        · rintro (h | ⟨rfl | he, heq⟩)
          · cases h
          · exact .inl rfl
          · exact .inr ⟨he, heq⟩
      · rw [if_neg hk]
        constructor
        · rintro (h | ⟨he, heq⟩)
          · exact .inl h
          · exact .inr ⟨.inr he, heq⟩
        · rintro (h | ⟨rfl | he, heq⟩)
          · exact .inl h
          · exact absurd heq.symm hk
          · exact .inr ⟨he, heq⟩
    · rw [hlate, mem_late_know, hwatermark, or_assoc]
      refine or_congr_right ?_
      simp only [List.mem_cons, exists_eq_or_imp]

/-- **A successful delivery** -/
theorem remember_eq_ok {t : CausalFeatureState} (h : s.remember events = .ok t) : Remembered s events t := by
  obtain ⟨staged, hstaged, hfold⟩ := except_bind_eq_ok.1 h
  rw [except_pure_eq_ok] at hfold
  subst hfold
  have hempty : Staged s [] ∅ := ⟨fun _ _ hget => absurd hget (by simp), fun _ he => absurd he List.not_mem_nil⟩
  have hinv : Staged s events staged :=
    foldlM_invariant (f := s.stage) (I := Staged s) (fun _ _ _ _ => stage_ok) hempty hstaged
  have hkeyed : Keyed staged := fun k e hget => (hinv.new k e hget).1
  have hvalues : ∀ e ∈ staged.values, s.known.get? e.eventId = none := fun e he =>
    (hinv.new _ e (hkeyed.mem_values.1 he)).2.2.1
  obtain ⟨hknown, hlate, hadmitted, hemitted, hwatermark, hrecorded⟩ := foldl_know hkeyed.nodup hvalues
  refine ⟨fun k e hget => (hknown k e).2 (.inl hget), fun k e hget hnone => ?_, fun e he => ?_, fun id => ?_, hadmitted,
    hemitted, hwatermark, hrecorded⟩
  · rcases (hknown k e).1 hget with hold | ⟨he, heq⟩
    · rw [hnone] at hold
      cases hold
    · obtain ⟨-, hmem, -, hdated⟩ := hinv.new _ e (hkeyed.mem_values.1 he)
      exact ⟨heq, hmem, hdated⟩
  · obtain ⟨p, hp, hsame⟩ := hinv.delivered e he
    refine ⟨p, (hknown _ p).2 ?_, hsame⟩
    rcases Option.or_eq_some_iff.1 hp with hold | ⟨-, hnew⟩
    · exact .inl hold
    · have hid := (hinv.new _ p hnew).1
      exact .inr ⟨hkeyed.mem_values.2 (by rwa [hid]), hid⟩
  · rw [hlate]
    refine or_congr_right ⟨?_, ?_⟩
    · rintro ⟨e, he, rfl, w, hw, hlt⟩
      exact ⟨e, w, hvalues e he, (hknown _ e).2 (.inr ⟨he, rfl⟩), hw, hlt⟩
    · rintro ⟨e, w, hnone, hget, hw, hlt⟩
      rcases (hknown id e).1 hget with hold | ⟨he, heq⟩
      · rw [hnone] at hold
        cases hold
      · exact ⟨e, he, heq.symm, w, hw, hlt⟩

theorem Remembered.keyed {t : CausalFeatureState} (h : Remembered s events t) (hkeyed : Keyed s.known) :
    Keyed t.known := by
  intro k e hget
  cases hold : s.known.get? k with
  | none => exact (h.new k e hget hold).1
  | some x =>
    have := h.kept k x hold
    rw [hget] at this
    exact hkeyed k e (by rw [hold, this])

end CausalFeatureState

end Apar
