/-
Runs of the incremental feature state (`process` of `features/state.py`), delivery after delivery, from the fresh state.

The history of a batch leaves out the batch itself, but only at the batch's own time. A decision that was available before
an earlier decision time, and is itself decided later, has by then been admitted with that earlier time, or was marked late
on its delivery.

- `Sound`: what holds of a state between two batches. It is kept by every delivery (`Sound.remember`) and by every batch
  (`Sound.batch`): before a batch, a decision that has no row yet is admitted or late exactly when it was available before
  the watermark.
- `Witnessed`, `Blamed`: what holds of the rows so far, and is kept in the same way.
- `causal_iff`: rows never read their own decision or one of its time exactly in the runs without such a decision.
-/
import Apar.Features.FeatureGraph
import Apar.Features.FeatureReads

namespace Apar

open Exec

namespace CausalFeatureState

variable {F : Type} {catalog : FeatureCatalog} {s t : CausalFeatureState} {es : List ObservedEvent}

/-! ## Steps -/

theorem mem_pending (h : Keyed s.known) {e : ObservedEvent} :
    e ∈ s.pending ↔ s.known.get? e.eventId = some e ∧ e.isDecisionPoint = true ∧ e.eventId ∉ s.emittedDecisionIds := by
  rw [pending, List.mem_filter, h.mem_values, Bool.and_eq_true, decide_eq_true_eq]

/-- what a successful batch does -/
theorem processBatch_eq_ok [FeatureMath F] {decisionAt : Time} {e : ObservedEvent} {rest : List (Time × ObservedEvent)}
    {rows : List (FeatureVector F)} (h : processBatch catalog ((decisionAt, e) :: rest) s = .ok rows t) :
    let batch := ((decisionAt, e) :: rest).map Prod.snd
    let admitted := s.admitSourcesStrictlyBefore decisionAt (batch.map ObservedEvent.eventId)
    (∀ w, s.watermark = some w → w < decisionAt) ∧
      List.Forall₂ (fun e row => compute catalog admitted e decisionAt = .ok row) batch rows ∧
      t = admitted.close decisionAt (batch.map ObservedEvent.eventId) := by
  obtain ⟨s', _, hget, h⟩ := bind_eq_ok.1 h
  obtain ⟨rfl, rfl⟩ := get_eq_ok.1 hget
  obtain ⟨_, _, hguard, h⟩ := bind_eq_ok.1 h
  obtain ⟨hopen, rfl⟩ := guard_eq_ok.1 hguard
  obtain ⟨_, _, hset, h⟩ := bind_eq_ok.1 h
  obtain rfl := set_eq_ok.1 hset
  obtain ⟨rows', _, hraised, h⟩ := bind_eq_ok.1 h
  obtain ⟨hrows, rfl⟩ := raising_eq_ok.1 hraised
  obtain ⟨_, _, hset, h⟩ := bind_eq_ok.1 h
  obtain rfl := set_eq_ok.1 hset
  obtain ⟨rfl, rfl⟩ := pure_eq_ok.1 h
  refine ⟨fun w hw => ?_, mapM_eq_ok.1 hrows, rfl⟩
  rw [hw] at hopen
  simpa using hopen

/-- the decisions that wait for a row, in their cohorts -/
structure Awaiting (s : CausalFeatureState) (groups : List (List (Time × ObservedEvent))) : Prop where
  ordered : Cohorts.Ordered Prod.fst groups
  mem : ∀ d e, (d, e) ∈ groups.flatten ↔ e ∈ s.pending ∧ e.decisionAt = some d

theorem dated_eq_ok {e : ObservedEvent} {p : Time × ObservedEvent} : dated e = .ok p ↔ p.2 = e ∧ e.decisionAt = some p.1 := by
  rcases p with ⟨d, x⟩
  unfold dated
  cases e.decisionAt with
  | none => simp
  | some u =>
    rw [Except.ok.injEq, Prod.mk.injEq, Option.some.injEq]
    exact ⟨fun h => ⟨h.2.symm, h.1⟩, fun h => ⟨h.2, h.1.symm⟩⟩

theorem awaiting_cohorts {decisions : List (Time × ObservedEvent)} (h : s.pending.mapM dated = .ok decisions) :
    Awaiting s (Cohorts.cohorts Prod.fst (sortBy decisionSortKey decisions)) := by
  refine ⟨Cohorts.cohorts_ordered ?_, fun d e => ?_⟩
  · exact (sortBy_sorted decisionSortKey decisions).imp fun hle => (Prod.Lex.toLex_le_toLex'.1 hle).1
  · rw [Cohorts.cohorts_flatten, mem_sortBy]
    constructor
    · intro hmem
      obtain ⟨x, hx, hx'⟩ := forall₂_mem_right (mapM_eq_ok.1 h) hmem
      obtain ⟨rfl, hat⟩ := dated_eq_ok.1 hx'
      exact ⟨hx, hat⟩
    · rintro ⟨he, hat⟩
      obtain ⟨p, hp, hp'⟩ := forall₂_mem_left (mapM_eq_ok.1 h) he
      obtain ⟨rfl, hfst⟩ := dated_eq_ok.1 hp'
      rw [hat, Option.some.injEq] at hfst
      rw [hfst]
      exact hp

/-- what a successful call does -/
theorem process_eq_ok [FeatureMath F] {events : List ObservedEvent} {rows : List (FeatureVector F)}
    (h : process catalog events s = .ok rows t) :
    ∃ r groups parts, s.remember events = .ok r ∧ Awaiting r groups ∧
      groups.mapM (processBatch catalog) r = .ok parts t ∧ rows = parts.flatten := by
  obtain ⟨s', _, hget, h⟩ := bind_eq_ok.1 h
  obtain ⟨rfl, rfl⟩ := get_eq_ok.1 hget
  obtain ⟨r, _, hraised, h⟩ := bind_eq_ok.1 h
  obtain ⟨hremember, rfl⟩ := raising_eq_ok.1 hraised
  obtain ⟨_, _, hset, h⟩ := bind_eq_ok.1 h
  obtain rfl := set_eq_ok.1 hset
  obtain ⟨decisions, _, hraised, h⟩ := bind_eq_ok.1 h
  obtain ⟨hdated, rfl⟩ := raising_eq_ok.1 hraised
  obtain ⟨parts, _, hparts, h⟩ := bind_eq_ok.1 h
  obtain ⟨rfl, rfl⟩ := pure_eq_ok.1 h
  exact ⟨_, _, parts, hremember, awaiting_cohorts hdated, hparts, rfl⟩

/-! ## What holds between two batches -/

/-- the state between two batches, with the events it has admitted -/
structure Sound (s : CausalFeatureState) (es : List ObservedEvent) : Prop where
  recorded : Recorded s es
  keyed : Keyed s.known
  before : ∀ id, id ∈ s.admittedIds ∨ id ∈ s.lateEventIds →
    ∃ e w, s.known.get? id = some e ∧ s.watermark = some w ∧ e.availableAt < w
  seen : ∀ id e w, s.known.get? id = some e → s.watermark = some w → e.availableAt < w →
    id ∉ s.emittedDecisionIds → id ∈ s.admittedIds ∨ id ∈ s.lateEventIds
  emitted : ∀ id ∈ s.emittedDecisionIds, ∃ e d w, s.known.get? id = some e ∧ e.isDecisionPoint = true ∧
    e.decisionAt = some d ∧ s.watermark = some w ∧ d ≤ w
  pending : ∀ e ∈ s.pending, ∃ d, e.decisionAt = some d ∧ ∀ w, s.watermark = some w → w < d
  watermark : ∀ w, s.watermark = some w → ∃ id e, s.known.get? id = some e ∧ e.isDecisionPoint = true ∧ e.decisionAt = some w

theorem sound_empty : Sound empty [] where
  recorded := recorded_empty
  keyed _ _ h := absurd h (by simp [empty])
  before _ h := by rcases h with h | h <;> cases h
  seen _ _ _ _ h := by cases h
  emitted _ h := by cases h
  pending _ h := by cases h
  watermark _ h := by cases h

/-- **A delivery** keeps what holds between two batches. -/
theorem Sound.remember (h : Sound s es) {events : List ObservedEvent} (hr : Remembered s events t) : Sound t es where
  recorded := hr.recorded es h.recorded
  keyed := hr.keyed h.keyed
  before id hid := by
    rw [hr.admitted, hr.late, ← or_assoc] at hid
    rcases hid with hid | ⟨e, w, -, hget, hw, hlt⟩
    · obtain ⟨e, w, hget, hw, hlt⟩ := h.before id hid
      exact ⟨e, w, hr.kept id e hget, hr.watermark.trans hw, hlt⟩
    · exact ⟨e, w, hget, hr.watermark.trans hw, hlt⟩
  seen id e w hget hw hlt hnew := by
    rw [hr.watermark] at hw
    rw [hr.emitted] at hnew
    rw [hr.admitted, hr.late, ← or_assoc]
    cases hold : s.known.get? id with
    | none => exact .inr ⟨e, w, rfl, hget, hw, hlt⟩
    | some x =>
      have hsame := hr.kept id x hold
      rw [hget, Option.some.injEq] at hsame
      exact .inl (h.seen id e w (hsame ▸ hold) hw hlt hnew)
  emitted id hid := by
    rw [hr.emitted] at hid
    obtain ⟨e, d, w, hget, hdecision, hat, hw, hle⟩ := h.emitted id hid
    exact ⟨e, d, w, hr.kept id e hget, hdecision, hat, hr.watermark.trans hw, hle⟩
  pending e he := by
    obtain ⟨hget, hdecision, hnew⟩ := (mem_pending (hr.keyed h.keyed)).1 he
    rw [hr.emitted] at hnew
    simp only [hr.watermark]
    cases hold : s.known.get? e.eventId with
    | none => exact (hr.new _ e hget hold).2.2 hdecision
    | some x =>
      have hsame := hr.kept _ x hold
      rw [hget, Option.some.injEq] at hsame
      exact h.pending e ((mem_pending h.keyed).2 ⟨hsame ▸ hold, hdecision, hnew⟩)
  watermark w hw := by
    rw [hr.watermark] at hw
    obtain ⟨id, e, hget, hrest⟩ := h.watermark w hw
    exact ⟨id, e, hr.kept id e hget, hrest⟩

/-- the next cohort: every decision of its time that waits for a row, and none of an earlier time -/
structure Due (s : CausalFeatureState) (d : Time) (batch : List ObservedEvent) : Prop where
  nonempty : batch ≠ []
  mem : ∀ e, e ∈ batch ↔ e ∈ s.pending ∧ e.decisionAt = some d
  first : ∀ e ∈ s.pending, ∀ u, e.decisionAt = some u → d ≤ u

theorem Awaiting.due {d : Time} {e : ObservedEvent} {rest : List (Time × ObservedEvent)}
    {groups : List (List (Time × ObservedEvent))} (h : Awaiting s (((d, e) :: rest) :: groups)) :
    Due s d (((d, e) :: rest).map Prod.snd) := by
  have htime : ∀ p ∈ (d, e) :: rest, p.1 = d := fun p hp =>
    h.ordered.uniform _ List.mem_cons_self p hp (d, e) List.mem_cons_self
  have hlater : ∀ p ∈ groups.flatten, d < p.1 := by
    intro p hp
    obtain ⟨group, hgroup, hp⟩ := List.mem_flatten.1 hp
    exact (List.pairwise_cons.1 h.ordered.increasing).1 group hgroup (d, e) List.mem_cons_self p hp
  refine ⟨List.cons_ne_nil _ _, fun x => ⟨fun hx => ?_, fun hx => ?_⟩, fun x hx u hu => ?_⟩
  · obtain ⟨⟨u, y⟩, hp, rfl⟩ := List.mem_map.1 hx
    obtain rfl : u = d := htime _ hp
    exact (h.mem u y).1 (List.mem_flatten.2 ⟨_, List.mem_cons_self, hp⟩)
  · have hmem := (h.mem d x).2 hx
    rw [List.flatten_cons, List.mem_append] at hmem
    rcases hmem with hp | hp
    · exact List.mem_map.2 ⟨_, hp, rfl⟩
    · exact absurd (hlater _ hp) (lt_irrefl d)
  · have hmem := (h.mem u x).2 ⟨hx, hu⟩
    rw [List.flatten_cons, List.mem_append] at hmem
    rcases hmem with hp | hp
    · exact (htime _ hp).ge
    · exact (hlater _ hp).le

/-! ## A batch -/

theorem Recorded.close (h : Recorded s es) (d : Time) (ids : List String) : Recorded (s.close d ids) es :=
  ⟨h.ids, h.nodup, h.known, h.actor, h.counterparty, h.pair, h.outcome, h.actorAmount, h.counterpartyAmount, h.opening,
    h.edges⟩

/-- the state after a batch -/
def after (s : CausalFeatureState) (d : Time) (batch : List ObservedEvent) : CausalFeatureState :=
  (s.admitSourcesStrictlyBefore d (batch.map ObservedEvent.eventId)).close d (batch.map ObservedEvent.eventId)

theorem after_known (s : CausalFeatureState) (d : Time) (batch : List ObservedEvent) : (s.after d batch).known = s.known :=
  (foldl_admitEvent_frame _ _).1

theorem after_late (s : CausalFeatureState) (d : Time) (batch : List ObservedEvent) :
    (s.after d batch).lateEventIds = s.lateEventIds := (foldl_admitEvent_frame _ _).2.2.1

theorem after_emitted (s : CausalFeatureState) (d : Time) (batch : List ObservedEvent) :
    (s.after d batch).emittedDecisionIds = s.emittedDecisionIds ++ batch.map ObservedEvent.eventId :=
  congrArg (· ++ _) (foldl_admitEvent_frame _ _).2.1

theorem after_watermark (s : CausalFeatureState) (d : Time) (batch : List ObservedEvent) :
    (s.after d batch).watermark = some d := rfl

theorem Recorded.after (h : Recorded s es) (hkeyed : Keyed s.known) (d : Time) (batch : List ObservedEvent) :
    Recorded (s.after d batch) (es ++ s.candidates d (batch.map ObservedEvent.eventId)) :=
  (h.admitSources hkeyed d _).close d _

theorem Due.mem_ids (h : Sound s es) {d : Time} {batch : List ObservedEvent} (hdue : Due s d batch) {id : String}
    {e : ObservedEvent} (hget : s.known.get? id = some e) : id ∈ batch.map ObservedEvent.eventId ↔ e ∈ batch := by
  constructor
  · intro hid
    obtain ⟨x, hx, rfl⟩ := List.mem_map.1 hid
    have hknown := ((mem_pending h.keyed).1 ((hdue.mem x).1 hx).1).1
    rw [hget, Option.some.injEq] at hknown
    exact hknown ▸ hx
  · intro he
    exact List.mem_map.2 ⟨e, he, h.keyed id e hget⟩

theorem Due.mem_pending_after (h : Sound s es) {d : Time} {batch : List ObservedEvent} (hdue : Due s d batch)
    {e : ObservedEvent} : e ∈ (s.after d batch).pending ↔ e ∈ s.pending ∧ e ∉ batch := by
  have hkeyed : Keyed (s.after d batch).known := by
    rw [after_known]
    exact h.keyed
  rw [mem_pending hkeyed, mem_pending h.keyed, after_known, after_emitted, List.mem_append, not_or]
  constructor
  · intro ⟨hget, hdecision, hnew, hout⟩
    exact ⟨⟨hget, hdecision, hnew⟩, fun he => hout ((hdue.mem_ids h hget).2 he)⟩
  · intro ⟨⟨hget, hdecision, hnew⟩, hout⟩
    exact ⟨hget, hdecision, hnew, fun hid => hout ((hdue.mem_ids h hget).1 hid)⟩

/-- **A batch** keeps what holds between two batches. -/
theorem Sound.batch (h : Sound s es) {d : Time} {batch : List ObservedEvent} (hdue : Due s d batch)
    (hopen : ∀ w, s.watermark = some w → w < d) :
    Sound (s.after d batch) (es ++ s.candidates d (batch.map ObservedEvent.eventId)) where
  recorded := h.recorded.after h.keyed d batch
  keyed := by
    rw [after_known]
    exact h.keyed
  before id hid := by
    rw [(h.recorded.after h.keyed d batch).ids, List.map_append, List.mem_append, ← h.recorded.ids, after_late, or_assoc] at hid
    rw [after_known]
    have hold : id ∈ s.admittedIds ∨ id ∈ s.lateEventIds →
        ∃ e w, s.known.get? id = some e ∧ (s.after d batch).watermark = some w ∧ e.availableAt < w := by
      intro hold
      obtain ⟨e, w, hget, hw, hlt⟩ := h.before id hold
      exact ⟨e, d, hget, rfl, hlt.trans (hopen w hw)⟩
    rcases hid with hid | hid | hid
    · exact hold (.inl hid)
    · obtain ⟨e, he, rfl⟩ := List.mem_map.1 hid
      obtain ⟨hvalue, -, -, hlt⟩ := mem_candidates.1 he
      exact ⟨e, d, h.keyed.mem_values.1 hvalue, rfl, hlt⟩
    · exact hold (.inr hid)
  seen id e w hget hw hlt hnew := by
    rw [after_known] at hget
    rw [after_watermark, Option.some.injEq] at hw
    subst hw
    rw [after_emitted, List.mem_append, not_or] at hnew
    rw [(h.recorded.after h.keyed d batch).ids, List.map_append, List.mem_append, ← h.recorded.ids]
    by_cases hid : id ∈ s.admittedIds
    · exact .inl (.inl hid)
    · have hkey := h.keyed id e hget
      refine .inl (.inr (List.mem_map.2 ⟨e, mem_candidates.2 ⟨h.keyed.mem_values.2 ?_, ?_, ?_, hlt⟩, hkey⟩))
      · rwa [hkey]
      · rwa [hkey]
      · rw [hkey]
        exact hnew.2
  emitted id hid := by
    rw [after_emitted, List.mem_append] at hid
    rw [after_known]
    rcases hid with hid | hid
    · obtain ⟨e, u, w, hget, hdecision, hat, hw, hle⟩ := h.emitted id hid
      exact ⟨e, u, d, hget, hdecision, hat, rfl, hle.trans (hopen w hw).le⟩
    · obtain ⟨e, he, rfl⟩ := List.mem_map.1 hid
      obtain ⟨hpending, hat⟩ := (hdue.mem e).1 he
      obtain ⟨hget, hdecision, -⟩ := (mem_pending h.keyed).1 hpending
      exact ⟨e, d, d, hget, hdecision, hat, rfl, le_rfl⟩
  pending e he := by
    obtain ⟨hpending, hout⟩ := (hdue.mem_pending_after h).1 he
    obtain ⟨u, hu, -⟩ := h.pending e hpending
    refine ⟨u, hu, fun w hw => ?_⟩
    rw [after_watermark, Option.some.injEq] at hw
    subst hw
    apply lt_of_le_of_ne (hdue.first e hpending u hu)
    intro heq
    exact hout ((hdue.mem e).2 ⟨hpending, heq ▸ hu⟩)
  watermark w hw := by
    rw [after_watermark, Option.some.injEq] at hw
    subst hw
    obtain ⟨e, he⟩ := List.exists_mem_of_ne_nil batch hdue.nonempty
    obtain ⟨hpending, hat⟩ := (hdue.mem e).1 he
    obtain ⟨hget, hdecision, -⟩ := (mem_pending h.keyed).1 hpending
    exact ⟨e.eventId, e, by rwa [after_known], hdecision, hat⟩

theorem Awaiting.after (h : Sound s es) {d : Time} {e : ObservedEvent} {rest : List (Time × ObservedEvent)}
    {groups : List (List (Time × ObservedEvent))} (hawaiting : Awaiting s (((d, e) :: rest) :: groups)) :
    Awaiting (s.after d (((d, e) :: rest).map Prod.snd)) groups := by
  have hdue := hawaiting.due
  obtain ⟨hnonempty, huniform, hincreasing⟩ := hawaiting.ordered
  refine ⟨⟨fun c hc => hnonempty c (List.mem_cons_of_mem _ hc), fun c hc => huniform c (List.mem_cons_of_mem _ hc),
    (List.pairwise_cons.1 hincreasing).2⟩, fun u x => ?_⟩
  rw [hdue.mem_pending_after h]
  constructor
  · intro hmem
    have hall := (hawaiting.mem u x).1 (List.mem_append_right _ hmem)
    refine ⟨⟨hall.1, fun hbatch => ?_⟩, hall.2⟩
    have hat := ((hdue.mem x).1 hbatch).2
    rw [hall.2, Option.some.injEq] at hat
    obtain ⟨group, hgroup, hx⟩ := List.mem_flatten.1 hmem
    have hlt : d < u := (List.pairwise_cons.1 hincreasing).1 group hgroup (d, e) List.mem_cons_self (u, x) hx
    exact absurd hat hlt.ne'
  · intro ⟨⟨hpending, hout⟩, hat⟩
    rcases List.mem_append.1 ((hawaiting.mem u x).2 ⟨hpending, hat⟩) with hmem | hmem
    · exact absurd (List.mem_map.2 ⟨(u, x), hmem, rfl⟩) hout
    · exact hmem

theorem Sound.foreseen (h : Sound s es) {e : ObservedEvent} (he : e ∈ s.pending) :
    (e.eventId ∈ s.admittedIds ∨ e.eventId ∈ s.lateEventIds) ↔ ∃ w, s.watermark = some w ∧ e.availableAt < w := by
  obtain ⟨hget, -, hnew⟩ := (mem_pending h.keyed).1 he
  constructor
  · intro hid
    obtain ⟨x, w, hx, hw, hlt⟩ := h.before _ hid
    rw [hget, Option.some.injEq] at hx
    exact ⟨w, hw, hx ▸ hlt⟩
  · intro ⟨w, hw, hlt⟩
    exact h.seen _ e w hget hw hlt hnew

/-! ## Rows -/

/-- a known decision -/
def Decision (s : CausalFeatureState) (e : ObservedEvent) : Prop :=
  s.known.get? e.eventId = some e ∧ e.isDecisionPoint = true

/-- a decision was available before another's time and is decided after it -/
def Overlaps (x y : ObservedEvent) : Prop :=
  ∃ d u, x.decisionAt = some d ∧ y.decisionAt = some u ∧ x.availableAt < u ∧ u < d

/-- a row reads what was available before its decision, and neither its own event nor a decision of its time -/
def Causal (s : CausalFeatureState) (row : FeatureVector F) : Prop :=
  ∀ id ∈ row.sourceEventIds, id ≠ row.eventId ∧ ∃ x, s.known.get? id = some x ∧ x.availableAt < row.decisionAt ∧
    (x.isDecisionPoint = true → x.decisionAt ≠ some row.decisionAt)

/-- a row that reads its own event, or a decision of its time, reads one that overlaps an earlier decision -/
def Blamed (s : CausalFeatureState) (rows : List (FeatureVector F)) : Prop :=
  ∀ row ∈ rows, ∀ id ∈ row.sourceEventIds, ∃ x, s.known.get? id = some x ∧ x.availableAt < row.decisionAt ∧
    (id = row.eventId ∨ (x.isDecisionPoint = true ∧ x.decisionAt = some row.decisionAt) →
      Decision s x ∧ ∃ y, Decision s y ∧ Overlaps x y)

/-- a decision with a row that overlaps an earlier one is read by that row -/
def Witnessed (s : CausalFeatureState) (rows : List (FeatureVector F)) : Prop :=
  ∀ x y, Decision s x → x.eventId ∈ s.emittedDecisionIds → Decision s y → Overlaps x y →
    ∃ row ∈ rows, row.eventId = x.eventId ∧ x.eventId ∈ row.sourceEventIds

theorem Blamed.remember {rows : List (FeatureVector F)} (h : Blamed s rows) {events : List ObservedEvent}
    (hr : Remembered s events t) : Blamed t rows := by
  intro row hrow id hid
  obtain ⟨x, hget, hlt, hblame⟩ := h row hrow id hid
  refine ⟨x, hr.kept id x hget, hlt, fun hself => ?_⟩
  obtain ⟨⟨hx, hdecision⟩, y, ⟨hy, hdecision'⟩, hover⟩ := hblame hself
  exact ⟨⟨hr.kept _ x hx, hdecision⟩, y, ⟨hr.kept _ y hy, hdecision'⟩, hover⟩

theorem Witnessed.remember {rows : List (FeatureVector F)} (hs : Sound s es) (h : Witnessed s rows)
    {events : List ObservedEvent} (hr : Remembered s events t) : Witnessed t rows := by
  intro x y hx hemitted hy hover
  rw [hr.emitted] at hemitted
  obtain ⟨x', d', w, hget, -, hat', hw, hle⟩ := hs.emitted _ hemitted
  have hsame := hr.kept _ x' hget
  rw [hx.1, Option.some.injEq] at hsame
  subst hsame
  refine h x y ⟨hget, hx.2⟩ hemitted ⟨?_, hy.2⟩ hover
  obtain ⟨d, u, hd, hu, -, hlt⟩ := hover
  rw [hat', Option.some.injEq] at hd
  cases hold : s.known.get? y.eventId with
  | some y' =>
    have hsame := hr.kept _ y' hold
    rwa [hy.1, eq_comm] at hsame
  | none =>
    -- a decision that was delivered later is decided after the watermark
    obtain ⟨u', hu', hafter⟩ := (hr.new _ y hy.1 hold).2.2 hy.2
    rw [hu, Option.some.injEq] at hu'
    refine absurd ?_ (lt_irrefl u)
    calc
      u < d := hlt
      _ = d' := hd.symm
      _ ≤ w := hle
      _ < u' := hafter w hw
      _ = u := hu'.symm

theorem Due.peer (hs : Sound s es) {d : Time} {batch : List ObservedEvent} (hdue : Due s d batch)
    (hopen : ∀ w, s.watermark = some w → w < d) {x : ObservedEvent} (hx : Decision s x) (hat : x.decisionAt = some d) :
    x ∈ batch := by
  refine (hdue.mem x).2 ⟨(mem_pending hs.keyed).2 ⟨hx.1, hx.2, fun hemitted => ?_⟩, hat⟩
  obtain ⟨y, u, w, hget, -, hu, hw, hle⟩ := hs.emitted _ hemitted
  rw [hx.1, Option.some.injEq] at hget
  rw [← hget, hat, Option.some.injEq] at hu
  exact absurd (hle.trans_lt (hopen w hw)) (hu ▸ lt_irrefl d)

section

variable [FeatureMath F]

theorem Blamed.batch {rows rows' : List (FeatureVector F)} (hs : Sound s es) (h : Blamed s rows) {d : Time}
    {batch : List ObservedEvent} (hdue : Due s d batch) (hopen : ∀ w, s.watermark = some w → w < d)
    (hrows : List.Forall₂ (fun e row =>
      compute catalog (s.admitSourcesStrictlyBefore d (batch.map ObservedEvent.eventId)) e d = .ok row) batch rows') :
    Blamed (s.after d batch) (rows ++ rows') := by
  have hknown := after_known s d batch
  intro row hrow id hid
  simp only [Decision, hknown]
  rcases List.mem_append.1 hrow with hrow | hrow
  · exact h row hrow id hid
  obtain ⟨e, he, hrow⟩ := forall₂_mem_right hrows hrow
  have hframe := foldl_admitEvent_frame s (s.candidates d (batch.map ObservedEvent.eventId))
  have hkeyed : Keyed (s.admitSourcesStrictlyBefore d (batch.map ObservedEvent.eventId)).known := by
    rw [admitSourcesStrictlyBefore, hframe.1]
    exact hs.keyed
  obtain ⟨hown, hat⟩ := compute_row hrow
  obtain ⟨hread, hbefore⟩ := compute_sources (hs.recorded.admitSources hs.keyed d _) hkeyed hrow id hid
  rw [admitSourcesStrictlyBefore, hframe.1] at hbefore
  rw [admitSourcesStrictlyBefore, hframe.2.2.1, List.map_append, List.mem_append, ← hs.recorded.ids] at hread
  rw [hown, hat]
  have hself : ∀ x, s.known.get? id = some x → id = e.eventId ∨ (x.isDecisionPoint = true ∧ x.decisionAt = some d) →
      x ∈ batch := by
    intro x hx hself
    rcases hself with rfl | ⟨hdecision, hpeer⟩
    · exact (hdue.mem_ids hs hx).1 (List.mem_map_of_mem he)
    · exact hdue.peer hs hopen ⟨by rwa [hs.keyed id x hx], hdecision⟩ hpeer
  have hold : id ∈ s.admittedIds ∨ id ∈ s.lateEventIds → ∃ x, s.known.get? id = some x ∧ x.availableAt < d ∧
      (id = e.eventId ∨ (x.isDecisionPoint = true ∧ x.decisionAt = some d) →
        Decision s x ∧ ∃ y, Decision s y ∧ Overlaps x y) := by
    intro hold
    obtain ⟨x, w, hx, hw, hlt⟩ := hs.before id hold
    refine ⟨x, hx, hbefore x hx, fun hpeer => ?_⟩
    obtain ⟨hpending, hxat⟩ := (hdue.mem x).1 (hself x hx hpeer)
    obtain ⟨hxknown, hxdecision, -⟩ := (mem_pending hs.keyed).1 hpending
    -- the watermark is the time of an earlier decision
    obtain ⟨k, y, hy, hydecision, hyat⟩ := hs.watermark w hw
    rw [← hs.keyed k y hy] at hy
    exact ⟨⟨hxknown, hxdecision⟩, y, ⟨hy, hydecision⟩, d, w, hxat, hyat, hlt, hopen w hw⟩
  rcases hread with (hread | hread) | hread
  · exact hold (.inl hread)
  · obtain ⟨x, hx, rfl⟩ := List.mem_map.1 hread
    obtain ⟨hvalue, -, hout, hlt⟩ := mem_candidates.1 hx
    have hget := hs.keyed.mem_values.1 hvalue
    exact ⟨x, hget, hlt, fun hpeer => absurd ((hdue.mem_ids hs hget).2 (hself x hget hpeer)) hout⟩
  · exact hold (.inr hread)

theorem Witnessed.batch {rows rows' : List (FeatureVector F)} (hmonitored : Monitored catalog) (hs : Sound s es)
    (h : Witnessed s rows) {d : Time} {batch : List ObservedEvent} (hdue : Due s d batch)
    (hrows : List.Forall₂ (fun e row =>
      compute catalog (s.admitSourcesStrictlyBefore d (batch.map ObservedEvent.eventId)) e d = .ok row) batch rows') :
    Witnessed (s.after d batch) (rows ++ rows') := by
  have hknown := after_known s d batch
  intro x y hx hemitted hy hover
  rw [Decision, hknown] at hx hy
  rw [after_emitted, List.mem_append] at hemitted
  by_cases hbatch : x ∈ batch
  · obtain ⟨hpending, hat⟩ := (hdue.mem x).1 hbatch
    obtain ⟨u, v, hu, hv, hlt, hlt'⟩ := hover
    rw [hat, Option.some.injEq] at hu
    subst hu
    -- the other decision has its row, so the watermark has reached its time
    have hdone : y.eventId ∈ s.emittedDecisionIds := by
      by_contra hnew
      exact absurd hlt' (hdue.first y ((mem_pending hs.keyed).2 ⟨hy.1, hy.2, hnew⟩) v hv).not_gt
    obtain ⟨y', v', w, hget, -, hv', hw, hle⟩ := hs.emitted _ hdone
    rw [hy.1, Option.some.injEq] at hget
    rw [← hget, hv, Option.some.injEq] at hv'
    have hforeseen := (hs.foreseen hpending).2 ⟨w, hw, hlt.trans_le (hv' ▸ hle)⟩
    obtain ⟨row, hrow, hcompute⟩ := forall₂_mem_left hrows hbatch
    have hframe := foldl_admitEvent_frame s (s.candidates d (batch.map ObservedEvent.eventId))
    refine ⟨row, List.mem_append_right _ hrow, (compute_row hcompute).1, compute_lists hmonitored hcompute ?_ ?_ rfl le_rfl⟩
    · rw [(hs.recorded.admitSources hs.keyed d _).ids, List.map_append, ← hs.recorded.ids, admitSourcesStrictlyBefore,
        hframe.2.2.1, List.mem_append]
      exact hforeseen.imp .inl id
    · rw [admitSourcesStrictlyBefore, hframe.1]
      exact hx.1
  · have hdone : x.eventId ∈ s.emittedDecisionIds :=
      hemitted.resolve_right fun hid => hbatch ((hdue.mem_ids hs hx.1).1 hid)
    obtain ⟨row, hrow, hown⟩ := h x y hx hdone hy hover
    exact ⟨row, List.mem_append_left _ hrow, hown⟩

/-! ## Runs -/

/-- what holds of a state and of the rows so far -/
structure Told (catalog : FeatureCatalog) (s : CausalFeatureState) (rows : List (FeatureVector F)) : Prop where
  sound : ∃ es, Sound s es
  blamed : Blamed s rows
  witnessed : Monitored catalog → Witnessed s rows

theorem Told.batches {groups : List (List (Time × ObservedEvent))} {rows : List (FeatureVector F)}
    {parts : List (List (FeatureVector F))} (h : Told catalog s rows) (hawaiting : Awaiting s groups)
    (hrun : groups.mapM (processBatch catalog) s = .ok parts t) :
    Told catalog t (rows ++ parts.flatten) ∧ Awaiting t [] := by
  induction groups generalizing s rows parts with
  | nil =>
    rw [List.mapM_nil] at hrun
    obtain ⟨rfl, rfl⟩ := pure_eq_ok.1 hrun
    rw [List.flatten_nil, List.append_nil]
    exact ⟨h, hawaiting⟩
  | cons cohort groups ih =>
    rw [List.mapM_cons] at hrun
    obtain ⟨rows', s', hbatch, hrest⟩ := bind_eq_ok.1 hrun
    obtain ⟨parts', s'', hparts, hpure⟩ := bind_eq_ok.1 hrest
    obtain ⟨rfl, rfl⟩ := pure_eq_ok.1 hpure
    cases cohort with
    | nil => exact absurd rfl (hawaiting.ordered.nonempty _ List.mem_cons_self)
    | cons p rest =>
      obtain ⟨d, e⟩ := p
      obtain ⟨es, hs⟩ := h.sound
      obtain ⟨hopen, hrows, rfl⟩ := processBatch_eq_ok hbatch
      have hdue := hawaiting.due
      have hnext : Told catalog (s.after d (((d, e) :: rest).map Prod.snd)) (rows ++ rows') :=
        ⟨⟨_, hs.batch hdue hopen⟩, h.blamed.batch hs hdue hopen hrows,
          fun hmonitored => (h.witnessed hmonitored).batch hmonitored hs hdue hrows⟩
      rw [List.flatten_cons, ← List.append_assoc]
      exact ih hnext (hawaiting.after hs) hparts

/-- **A call** keeps what holds, and leaves no decision without a row. -/
theorem Told.process {rows rows' : List (FeatureVector F)} (h : Told catalog s rows) {events : List ObservedEvent}
    (hrun : CausalFeatureState.process catalog events s = .ok rows' t) :
    Told catalog t (rows ++ rows') ∧ t.pending = [] := by
  obtain ⟨r, groups, parts, hremember, hawaiting, hparts, rfl⟩ := process_eq_ok hrun
  have hr := remember_eq_ok hremember
  obtain ⟨es, hs⟩ := h.sound
  have hnext : Told catalog r rows :=
    ⟨⟨es, hs.remember hr⟩, h.blamed.remember hr, fun hmonitored => (h.witnessed hmonitored).remember hs hr⟩
  obtain ⟨htold, hnone⟩ := hnext.batches hawaiting hparts
  refine ⟨htold, List.eq_nil_iff_forall_not_mem.2 fun e he => ?_⟩
  obtain ⟨es', hs'⟩ := htold.sound
  obtain ⟨d, hd, -⟩ := hs'.pending e he
  exact absurd ((hnone.mem d e).2 ⟨he, hd⟩) List.not_mem_nil

/-- successful calls from the fresh state, with all their rows -/
inductive Run (catalog : FeatureCatalog) : CausalFeatureState → List (FeatureVector F) → Prop
  | empty : Run catalog empty []
  | process {s t : CausalFeatureState} {rows rows' : List (FeatureVector F)} (events : List ObservedEvent) :
      Run catalog s rows → process catalog events s = .ok rows' t → Run catalog t (rows ++ rows')

theorem Run.told {rows : List (FeatureVector F)} (h : Run catalog s rows) : Told catalog s rows ∧ s.pending = [] := by
  induction h with
  | empty =>
    refine ⟨⟨⟨[], sound_empty⟩, fun row hrow => absurd hrow List.not_mem_nil, fun _ x y _ hemitted => ?_⟩, rfl⟩
    exact absurd hemitted List.not_mem_nil
  | process events _ hrun ih => exact ih.1.process hrun

/-- **Rows and their own time.** In every run, the sources of a row were available before its decision; and no row reads its
own event or a decision of its time exactly when no decision of the run was available before the time of another one that
is decided earlier. -/
theorem causal_iff (hmonitored : Monitored catalog) {rows : List (FeatureVector F)} (hrun : Run catalog s rows) :
    (∀ row ∈ rows, ∀ id ∈ row.sourceEventIds, ∃ x, s.known.get? id = some x ∧ x.availableAt < row.decisionAt) ∧
      ((∀ row ∈ rows, Causal s row) ↔ ∀ x y, Decision s x → Decision s y → ¬ Overlaps x y) := by
  obtain ⟨⟨⟨es, hs⟩, hblamed, hwitnessed⟩, hnone⟩ := hrun.told
  refine ⟨fun row hrow id hid => ?_, fun hcausal x y hx hy hover => ?_, fun hapart row hrow id hid => ?_⟩
  · obtain ⟨x, hget, hlt, -⟩ := hblamed row hrow id hid
    exact ⟨x, hget, hlt⟩
  · have hdone : x.eventId ∈ s.emittedDecisionIds := by
      by_contra hnew
      have hpending := (mem_pending hs.keyed).2 ⟨hx.1, hx.2, hnew⟩
      rw [hnone] at hpending
      cases hpending
    obtain ⟨row, hrow, hown, hmem⟩ := hwitnessed hmonitored x y hx hdone hy hover
    exact (hcausal row hrow _ hmem).1 hown.symm
  · obtain ⟨x, hget, hlt, hblame⟩ := hblamed row hrow id hid
    have hclear : ¬ (id = row.eventId ∨ (x.isDecisionPoint = true ∧ x.decisionAt = some row.decisionAt)) := by
      intro hself
      obtain ⟨hx, y, hy, hover⟩ := hblame hself
      exact hapart x y hx hy hover
    rw [not_or] at hclear
    exact ⟨hclear.1, x, hget, hlt, fun hdecision hat => hclear.2 ⟨hdecision, hat⟩⟩

end

/-! ## A decision known before an earlier one -/

namespace Sample

def monitor : FeatureCatalog := ⟨[⟨"dq_degraded_state", .indicator⟩], "catalog", by decide⟩

/-- a transfer of `"a"` that is known when it happens and decided later -/
def transfer (id : String) (t decisionAt : Time) : ObservedEvent where
  eventId := id
  paymentId := id
  rail := .a2a
  eventType := .transferInitiated
  amount := ⟨100, 0⟩
  currency := "USD"
  eventTime := t
  availableAt := t
  decisionAt := some decisionAt
  actorId := "a"
  counterpartyId := "b"
  optionalRefs := ∅
  integrityStatus := .notApplicable
  integrityReason := none
  isDecisionPoint := true

/-- the second transfer is known at 1, before the decision of the first, and decided at 3 -/
def overlapping : EStateM.Result FeatureStateError CausalFeatureState (List (FeatureVector ℚ)) :=
  @process ℚ FeatureContext.Sample.exactMath monitor [transfer "1" 2 2, transfer "2" 1 3] .empty

def state : CausalFeatureState :=
  match overlapping with
  | .ok _ s => s
  | .error _ s => s

def rows : List (FeatureVector ℚ) :=
  match overlapping with
  | .ok rows _ => rows
  | .error _ _ => []

theorem overlapping_ok : overlapping = .ok rows state := by
  have hok : (match overlapping with | .ok _ _ => true | .error _ _ => false) = true := by decide +kernel
  cases hrun : overlapping with
  | ok rows' s => rw [rows, state, hrun]
  | error e s =>
    rw [hrun] at hok
    cases hok

theorem overlapping_run : @Run ℚ FeatureContext.Sample.exactMath monitor state rows := by
  rw [← List.nil_append rows]
  exact @Run.process ℚ FeatureContext.Sample.exactMath monitor empty state [] rows _
    (@Run.empty ℚ FeatureContext.Sample.exactMath monitor) overlapping_ok

end Sample

open Sample in
/-- the rows of two such transfers -/
theorem causal_overlapping :
    (∀ row ∈ rows, ∀ id ∈ row.sourceEventIds, ∃ x, state.known.get? id = some x ∧ x.availableAt < row.decisionAt) ∧
      ((∀ row ∈ rows, Causal state row) ↔ ∀ x y, Decision state x → Decision state y → ¬ Overlaps x y) :=
  @causal_iff ℚ monitor state FeatureContext.Sample.exactMath List.mem_cons_self rows overlapping_run

open Sample in
/-- a decision known at 1 and decided at 3, with another decided at 2: its own row lists it -/
theorem causal_fails : overlapping = .ok rows state ∧
    (∀ e ∈ [transfer "1" 2 2, transfer "2" 1 3], e.eventTime ≤ e.availableAt ∧ ∀ d, e.decisionAt = some d → e.availableAt ≤ d) ∧
    (∃ row ∈ rows, row.eventId = "2" ∧ row.eventId ∈ row.sourceEventIds) ∧ ¬ ∀ row ∈ rows, Causal state row := by
  have hlisted : ∃ row ∈ rows, row.eventId = "2" ∧ row.eventId ∈ row.sourceEventIds := by decide +kernel
  refine ⟨overlapping_ok, ?_, hlisted, fun hcausal => ?_⟩
  · intro e he
    fin_cases he
    · exact ⟨le_rfl, fun d hd => (Option.some.inj hd).le⟩
    · exact ⟨le_rfl, fun d hd => by rw [← Option.some.inj hd]; decide⟩
  · obtain ⟨row, hrow, -, hown⟩ := hlisted
    exact (hcausal row hrow _ hown).1 rfl

end CausalFeatureState

end Apar
