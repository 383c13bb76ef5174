/-
One-shot feature construction (`build_feature_matrix` of `features/builders.py`) as a function of the set of its events.

- `historyAt`: the events admitted before the decisions of a time, in their order, told by the events alone.
- `buildFeatureMatrix_eq`: the rows are those of the decisions, in the order of time and id, each computed from the
  history of its time.
- `historyAt_congr`: the history of a time is told by the events that were available before it.
- `one_shot_noninterference`: so the rows of a time are blind to everything else.
-/
import Apar.Features.CausalRuns

namespace Apar

open Exec

namespace CausalFeatureState

variable {F : Type} {catalog : FeatureCatalog} {s t : CausalFeatureState} {es known : List ObservedEvent}

/-! ## Histories told by the events -/

/-- the state that knows and has admitted just these events -/
def holding (es : List ObservedEvent) : CausalFeatureState :=
  es.foldl admitEvent { empty with known := es.foldl (fun known e => known.set e.eventId e) ∅ }

/-- the decisions with their times -/
def decisions (known : List ObservedEvent) : List (Time × ObservedEvent) :=
  (known.filter ObservedEvent.isDecisionPoint).filterMap fun e => e.decisionAt.map (·, e)

def decisionTimes (known : List ObservedEvent) : List Time := sortedSet ((decisions known).map Prod.fst)

/-- the decisions of one time -/
def decidedAt (known : List ObservedEvent) (d : Time) : List ObservedEvent :=
  ((decisions known).filter fun p => p.1 = d).map Prod.snd

/-- the admissions before the decisions of one time, after those before -/
def admitAt (known es : List ObservedEvent) (d : Time) : List ObservedEvent :=
  es ++ sortBy admissionKey (known.filter fun e =>
    e.eventId ∉ es.map ObservedEvent.eventId && e.eventId ∉ (decidedAt known d).map ObservedEvent.eventId && e.availableAt < d)

/-- what is admitted before the decisions of a time -/
def historyAt (known : List ObservedEvent) (d : Time) : List ObservedEvent :=
  ((decisionTimes known).filter (· ≤ d)).foldl (admitAt known) []

theorem mem_decisions {p : Time × ObservedEvent} :
    p ∈ decisions known ↔ p.2 ∈ known ∧ p.2.isDecisionPoint = true ∧ p.2.decisionAt = some p.1 := by
  obtain ⟨d, e⟩ := p
  rw [decisions, List.mem_filterMap]
  simp only [List.mem_filter, Option.map_eq_some_iff, Prod.mk.injEq]
  constructor
  · intro ⟨x, ⟨hx, hdecision⟩, u, hu, hud, hxe⟩
    subst hud hxe
    exact ⟨hx, hdecision, hu⟩
  · intro ⟨he, hdecision, hat⟩
    exact ⟨e, ⟨he, hdecision⟩, d, hat, rfl, rfl⟩

variable {d : Time} {events known' : List ObservedEvent}

theorem mem_decidedAt {e : ObservedEvent} :
    e ∈ decidedAt known d ↔ e ∈ known ∧ e.isDecisionPoint = true ∧ e.decisionAt = some d := by
  rw [decidedAt, List.mem_map]
  simp only [List.mem_filter, decide_eq_true_eq]
  constructor
  · intro ⟨p, ⟨hp, hd⟩, he⟩
    subst hd he
    exact mem_decisions.1 hp
  · intro h
    exact ⟨(d, e), ⟨mem_decisions.2 h, rfl⟩, rfl⟩

theorem mem_decisionTimes :
    d ∈ decisionTimes known ↔ ∃ e ∈ known, e.isDecisionPoint = true ∧ e.decisionAt = some d := by
  rw [decisionTimes, mem_sortedSet, List.mem_map]
  constructor
  · intro ⟨p, hp, hd⟩
    subst hd
    exact ⟨p.2, mem_decisions.1 hp⟩
  · intro ⟨e, h⟩
    exact ⟨(d, e), mem_decisions.2 h, rfl⟩

/-- what is known is the events of a history, each by its id -/
theorem holding_known (h : (es.map ObservedEvent.eventId).Nodup) (k : String) (e : ObservedEvent) :
    (es.foldl (fun known e => known.set e.eventId e) (∅ : Dict String ObservedEvent)).get? k = some e ↔
      e ∈ es ∧ e.eventId = k := by
  induction es using List.reverseRecOn with
  | nil => simp
  | append_singleton es x ih =>
    rw [List.map_append, List.map_singleton, List.nodup_append] at h
    obtain ⟨hes, -, hnew⟩ := h
    rw [List.foldl_append, List.foldl_cons, List.foldl_nil, Dict.get?_set, List.mem_append, List.mem_singleton]
    by_cases hk : k = x.eventId
    · rw [if_pos hk, Option.some.injEq]
      constructor
      · intro heq
        exact ⟨.inr heq.symm, heq ▸ hk.symm⟩
      · intro ⟨hmem, hid⟩
        rcases hmem with hmem | hmem
        · exact absurd (hid.trans hk) (hnew _ (List.mem_map_of_mem hmem) _ (List.mem_singleton_self _))
        · exact hmem.symm
    · rw [if_neg hk, ih hes]
      constructor
      · intro ⟨hmem, hid⟩
        exact ⟨.inl hmem, hid⟩
      · intro ⟨hmem, hid⟩
        rcases hmem with hmem | hmem
        · exact ⟨hmem, hid⟩
        · exact absurd (hmem ▸ hid.symm) hk

theorem holding_frame (h : (es.map ObservedEvent.eventId).Nodup) :
    Recorded (holding es) es ∧ Keyed (holding es).known ∧ (holding es).lateEventIds = [] := by
  have hframe := foldl_admitEvent_frame
    { empty with known := es.foldl (fun known e => known.set e.eventId e) (∅ : Dict String ObservedEvent) } es
  refine ⟨?_, ?_, hframe.2.2.1⟩
  · have hempty : Recorded
        { empty with known := es.foldl (fun known e => known.set e.eventId e) (∅ : Dict String ObservedEvent) } [] :=
      ⟨rfl, List.nodup_nil, fun _ hx => absurd hx List.not_mem_nil, rfl, rfl, rfl, rfl, rfl, rfl, rfl, rfl⟩
    exact hempty.foldl_admitEvent h fun e he => (holding_known h e.eventId e).2 ⟨he, rfl⟩
  · intro k e hget
    rw [holding, hframe.1] at hget
    exact ((holding_known h k e).1 hget).2

/-! ## Rows told by the events -/

/-- the decisions of one time, by id -/
def cohortAt (known : List ObservedEvent) (d : Time) : List (Time × ObservedEvent) :=
  (sortBy decisionSortKey (decisions known)).filter fun p => p.1 = d

theorem mem_cohortAt {p : Time × ObservedEvent} : p ∈ cohortAt known d ↔ p ∈ decisions known ∧ p.1 = d := by
  rw [cohortAt, List.mem_filter, mem_sortBy, decide_eq_true_eq]

theorem decisions_sorted (known : List ObservedEvent) :
    (sortBy decisionSortKey (decisions known)).Pairwise fun p q => p.1 ≤ q.1 :=
  (sortBy_sorted decisionSortKey _).imp fun hle => (Prod.Lex.toLex_le_toLex'.1 hle).1

theorem cohorts_decisions (known : List ObservedEvent) :
    Cohorts.cohorts Prod.fst (sortBy decisionSortKey (decisions known)) = (decisionTimes known).map (cohortAt known) := by
  have htimes : sortedSet ((sortBy decisionSortKey (decisions known)).map Prod.fst) = decisionTimes known :=
    sortedSet_congr fun d => by simp only [List.mem_map, mem_sortBy]
  rw [Cohorts.cohorts_eq (decisions_sorted known), htimes]
  rfl

theorem decisionTimes_upto {done ts : List Time} (h : decisionTimes known = done ++ d :: ts) :
    (decisionTimes known).filter (· ≤ d) = done ++ [d] := by
  have hincreasing := sortedSet_increasing ((decisions known).map Prod.fst)
  rw [← decisionTimes, h] at hincreasing
  obtain ⟨-, hlater, hbefore⟩ := List.pairwise_append.1 hincreasing
  have hdone : done.filter (· ≤ d) = done :=
    List.filter_eq_self.2 fun u hu => decide_eq_true (hbefore u hu d List.mem_cons_self).le
  have hts : ts.filter (· ≤ d) = [] :=
    List.filter_eq_nil_iff.2 fun u hu => by simpa using (List.pairwise_cons.1 hlater).1 u hu
  rw [h, List.filter_append, hdone, List.filter_cons_of_pos (by simp), hts]

theorem candidates_eq (hrecorded : Recorded s es) {batch : List ObservedEvent}
    (hbatch : ∀ e, e ∈ batch ↔ e ∈ decidedAt s.known.values d) :
    es ++ s.candidates d (batch.map ObservedEvent.eventId) = admitAt s.known.values es d := by
  have hids : ∀ id, id ∈ batch.map ObservedEvent.eventId ↔ id ∈ (decidedAt s.known.values d).map ObservedEvent.eventId := by
    intro id
    simp only [List.mem_map, hbatch]
  rw [candidates, admitAt, hrecorded.ids]
  congr 2
  refine List.filter_congr fun e _ => ?_
  rw [decide_eq_decide.2 (not_congr (hids e.eventId))]

section

variable [FeatureMath F]

/-- the row of a decision -/
def rowOf (catalog : FeatureCatalog) (known : List ObservedEvent) (p : Time × ObservedEvent) :
    Except FeatureStateError (FeatureVector F) :=
  compute catalog (holding (historyAt known p.1)) p.2 p.1

theorem mapM_rowOf {d : Time} (h : Recorded s (historyAt known d)) (hlate : s.lateEventIds = [])
    {cohort : List (Time × ObservedEvent)} (htime : ∀ p ∈ cohort, p.1 = d) :
    (cohort.map Prod.snd).mapM (fun e => compute (F := F) catalog s e d) = cohort.mapM (rowOf catalog known) := by
  obtain ⟨hheld, hkeyed, hnone⟩ := holding_frame h.nodup
  rw [List.mapM_map]
  refine mapM_congr_mem fun p hp => ?_
  rw [rowOf, htime p hp, Function.comp_apply]
  refine compute_congr (F := F) hheld h hkeyed (hlate.trans hnone.symm) (fun id hid => ?_) p.2 d
  rw [hnone] at hid
  cases hid

/-- a result without the state -/
def result {ε σ α : Type} : EStateM.Result ε σ α → Except ε α
  | .ok a _ => .ok a
  | .error e _ => .error e

theorem processBatch_run {d : Time} {e : ObservedEvent} {rest : List (Time × ObservedEvent)}
    (hopen : ∀ w, s.watermark = some w → w < d) :
    let batch := ((d, e) :: rest).map Prod.snd
    let admitted := s.admitSourcesStrictlyBefore d (batch.map ObservedEvent.eventId)
    processBatch (F := F) catalog ((d, e) :: rest) s =
      match batch.mapM fun e => compute catalog admitted e d with
      | .ok rows => .ok rows (s.after d batch)
      | .error error => .error error admitted := by
  intro batch admitted
  have hguard : (!s.watermark.any (d ≤ ·)) = true := by
    cases hw : s.watermark with
    | none => rfl
    | some w => simpa using hopen w hw
  show (guard _ _ >>= fun _ => set admitted >>= fun _ => raising _ >>= fun rows => set _ >>= fun _ => pure rows) s = _
  rw [hguard]
  show (raising _ >>= fun rows => set _ >>= fun _ => pure rows) admitted = _
  rw [bind_run]
  cases batch.mapM fun e => compute (F := F) catalog admitted e d with
  | ok rows => rfl
  | error error => rfl

/-- **The batches of a state without late events** have the rows that its events tell. -/
theorem batches_rows {done ts : List Time} (hknown : s.known.values = known) (htimes : decisionTimes known = done ++ ts)
    (hs : Sound s (done.foldl (admitAt known) [])) (hlate : s.lateEventIds = [])
    (hawaiting : Awaiting s (ts.map (cohortAt known))) :
    (result ((ts.map (cohortAt known)).mapM (processBatch (F := F) catalog) s)).map List.flatten =
      (ts.flatMap (cohortAt known)).mapM (rowOf catalog known) := by
  induction ts generalizing s done with
  | nil => rfl
  | cons d ts ih =>
    rw [List.map_cons] at hawaiting
    have hnonempty := hawaiting.ordered.nonempty _ List.mem_cons_self
    have htime : ∀ p ∈ cohortAt known d, p.1 = d := fun p hp => (mem_cohortAt.1 hp).2
    cases hcohort : cohortAt known d with
    | nil => exact absurd hcohort hnonempty
    | cons p rest =>
      obtain ⟨u, e⟩ := p
      rw [hcohort] at hawaiting htime
      obtain rfl : u = d := htime (u, e) List.mem_cons_self
      have hdue := hawaiting.due
      have hopen : ∀ w, s.watermark = some w → w < u := by
        have he := (hdue.mem e).1 List.mem_cons_self
        obtain ⟨v, hv, hopen⟩ := hs.pending e he.1
        rw [he.2, Option.some.injEq] at hv
        exact hv ▸ hopen
      -- the state of the batch has admitted the history of its time
      have hdecided : ∀ x, x ∈ ((u, e) :: rest).map Prod.snd ↔ x ∈ decidedAt s.known.values u := by
        intro x
        rw [hknown, ← hcohort, List.mem_map, decidedAt, List.mem_map]
        simp only [mem_cohortAt, List.mem_filter, decide_eq_true_eq]
      have hhistory := candidates_eq hs.recorded hdecided
      have hupto : historyAt known u = admitAt known (done.foldl (admitAt known) []) u := by
        rw [historyAt, decisionTimes_upto htimes, List.foldl_append]
        rfl
      rw [hknown, ← hupto] at hhistory
      have hadmitted := hs.recorded.admitSources hs.keyed u (((u, e) :: rest).map Prod.snd |>.map ObservedEvent.eventId)
      have hafter := hs.batch hdue hopen
      rw [hhistory] at hadmitted hafter
      have hnone : (s.admitSourcesStrictlyBefore u
          ((((u, e) :: rest).map Prod.snd).map ObservedEvent.eventId)).lateEventIds = [] :=
        (foldl_admitEvent_frame _ _).2.2.1.trans hlate
      have hrows := @mapM_rowOf F catalog _ known _ u hadmitted hnone _ htime
      have hrest := @ih (s.after u (((u, e) :: rest).map Prod.snd)) (done ++ [u])
        (by rw [after_known, hknown]) (by rw [htimes, List.append_assoc]; rfl)
        (by rw [List.foldl_append, List.foldl_cons, List.foldl_nil, ← hupto]; exact hafter)
        (by rw [after_late, hlate]) (hawaiting.after hs)
      rw [List.map_cons, List.mapM_cons, bind_run, hcohort, processBatch_run hopen, hrows, List.flatMap_cons, hcohort, List.mapM_append]
      cases ((u, e) :: rest).mapM (rowOf (F := F) catalog known) with
      | error error => rfl
      | ok rows =>
        rw [except_ok_bind, ← hrest]
        dsimp only
        rw [bind_run]
        cases (ts.map (cohortAt known)).mapM (processBatch (F := F) catalog) (s.after u (((u, e) :: rest).map Prod.snd)) with
        | error error _ => rfl
        | ok parts _ => rfl

/-- the rows of a set of events -/
def matrix (catalog : FeatureCatalog) (known : List ObservedEvent) : Except FeatureStateError (List (FeatureVector F)) :=
  (sortBy decisionSortKey (decisions known)).mapM (rowOf catalog known)

theorem mapM_dated {es : List ObservedEvent} (h : ∀ e ∈ es, ∃ d, e.decisionAt = some d) :
    es.mapM dated = .ok (es.filterMap fun e => e.decisionAt.map (·, e)) := by
  induction es with
  | nil => rfl
  | cons e es ih =>
    obtain ⟨d, hd⟩ := h e List.mem_cons_self
    have hfirst : dated e = .ok (d, e) := dated_eq_ok.2 ⟨rfl, hd⟩
    rw [List.mapM_cons, hfirst, except_ok_bind, ih fun x hx => h x (List.mem_cons_of_mem e hx), except_ok_bind,
      List.filterMap_cons, hd]
    rfl

/-- a call once its delivery is accepted -/
theorem process_remembered {events : List ObservedEvent} {r : CausalFeatureState} {ds : List (Time × ObservedEvent)}
    (h : s.remember events = .ok r) (hdated : r.pending.mapM dated = .ok ds) :
    process (F := F) catalog events s =
      ((Cohorts.cohorts Prod.fst (sortBy decisionSortKey ds)).mapM (processBatch catalog) >>= fun parts =>
        pure parts.flatten) r := by
  show (raising (s.remember events) >>= _) s = _
  rw [h]
  show (raising (r.pending.mapM dated) >>= _) r = _
  rw [hdated]
  rfl

/-- **A first call** has the rows that its events tell. -/
theorem process_result {events : List ObservedEvent} {r : CausalFeatureState} (h : empty.remember events = .ok r) :
    result (process (F := F) catalog events empty) = matrix catalog r.known.values := by
  have hr := remember_eq_ok h
  have hs := sound_empty.remember hr
  have hlate : r.lateEventIds = [] := by
    refine List.eq_nil_iff_forall_not_mem.2 fun id hid => ?_
    rcases (hr.late id).1 hid with hid | ⟨e, w, -, -, hw, -⟩
    · cases hid
    · cases hw
  have hpending : r.pending = r.known.values.filter ObservedEvent.isDecisionPoint := by
    rw [pending, hr.emitted]
    exact List.filter_congr fun e _ => by simp [empty]
  have hdated : r.pending.mapM dated = .ok (decisions r.known.values) := by
    rw [decisions, ← hpending]
    exact mapM_dated fun e he => by
      obtain ⟨d, hd, -⟩ := hs.pending e he
      exact ⟨d, hd⟩
  have hawaiting := awaiting_cohorts hdated
  rw [cohorts_decisions] at hawaiting
  have hrows := @batches_rows F catalog r r.known.values _ [] (decisionTimes r.known.values) rfl rfl hs hlate hawaiting
  have hflatten : (decisionTimes r.known.values).flatMap (cohortAt r.known.values) =
      sortBy decisionSortKey (decisions r.known.values) := by
    rw [List.flatMap_def, ← cohorts_decisions, Cohorts.cohorts_flatten]
  rw [process_remembered h hdated, cohorts_decisions, matrix, ← hflatten, ← hrows, bind_run]
  cases ((decisionTimes r.known.values).map (cohortAt r.known.values)).mapM (processBatch (F := F) catalog) r with
  | ok parts _ => rfl
  | error error _ => rfl

end

/-! ## Sets of events -/

/-- events that may come in any order and more than once, each known when it is decided -/
structure EventSet (events : List ObservedEvent) : Prop where
  unambiguous : ∀ e ∈ events, ∀ x ∈ events, e.eventId = x.eventId → e = x
  timely : ∀ e ∈ events, e.eventTime ≤ e.availableAt
  decided : ∀ e ∈ events, e.isDecisionPoint = true → ∃ d, e.decisionAt = some d ∧ e.availableAt ≤ d

/-- a delivery that agrees with what is known, of decisions after the watermark, is accepted -/
theorem remember_ok (hunambiguous : ∀ e ∈ events, ∀ x ∈ events, e.eventId = x.eventId → e = x)
    (hknown : ∀ e ∈ events, ∀ p, s.known.get? e.eventId = some p → p = e)
    (hdated : ∀ e ∈ events, e.isDecisionPoint = true → s.known.get? e.eventId = none →
      ∃ d, e.decisionAt = some d ∧ ∀ w, s.watermark = some w → w < d) : ∃ r, s.remember events = .ok r := by
  have hstaged : (∃ staged, events.foldlM s.stage ∅ = .ok staged ∧
      ∀ k p, staged.get? k = some p → p ∈ events ∧ p.eventId = k) ∨ ∃ e, events.foldlM s.stage ∅ = .error e ∧ False := by
    refine foldlM_outcome (f := s.stage) (I := fun _ staged => ∀ k p, staged.get? k = some p → p ∈ events ∧ p.eventId = k)
      ?_ (fun k p hp => by simp at hp)
    intro done e rest staged hevents hstaged
    have he : e ∈ events := by
      rw [hevents]
      exact List.mem_append_right _ List.mem_cons_self
    have hset : ∀ k p, (staged.set e.eventId e).get? k = some p → p ∈ events ∧ p.eventId = k := by
      intro k p hp
      rw [Dict.get?_set] at hp
      split_ifs at hp with hk
      · rw [← Option.some.inj hp]
        exact ⟨he, hk.symm⟩
      · exact hstaged k p hp
    refine .inl ?_
    unfold stage
    cases hprevious : (s.known.get? e.eventId).or (staged.get? e.eventId) with
    | some p =>
      have hsame : p = e := by
        rcases Option.or_eq_some_iff.1 hprevious with hp | ⟨-, hp⟩
        · exact hknown e he p hp
        · obtain ⟨hmem, hid⟩ := hstaged _ p hp
          exact hunambiguous p hmem e he hid
      subst hsame
      dsimp only
      rw [if_pos p.same_self]
      exact ⟨staged, rfl, hstaged⟩
    | none =>
      dsimp only
      by_cases hdecision : e.isDecisionPoint = true
      · obtain ⟨d, hd, hopen⟩ := hdated e he hdecision (Option.or_eq_none_iff.1 hprevious).1
        have hclosed : ¬ s.watermark.any (d ≤ ·) = true := by
          cases hw : s.watermark with
          | none => simp
          | some w => simpa using hopen w hw
        rw [if_pos hdecision, hd]
        dsimp only
        rw [if_neg hclosed]
        exact ⟨_, rfl, hset⟩
      · rw [if_neg hdecision]
        exact ⟨_, rfl, hset⟩
  rcases hstaged with ⟨staged, hstaged, -⟩ | ⟨_, -, hfalse⟩
  · exact ⟨_, except_bind_eq_ok.2 ⟨staged, hstaged, rfl⟩⟩
  · exact hfalse.elim

/-- what is known after such a delivery -/
theorem known_remember {r : CausalFeatureState} (hkeyed : Keyed s.known)
    (hunambiguous : ∀ e ∈ events, ∀ x ∈ events, e.eventId = x.eventId → e = x)
    (hknown : ∀ e ∈ events, ∀ p, s.known.get? e.eventId = some p → p = e) (h : s.remember events = .ok r)
    (e : ObservedEvent) : r.known.get? e.eventId = some e ↔ s.known.get? e.eventId = some e ∨ e ∈ events := by
  have hr := remember_eq_ok h
  constructor
  · intro hget
    cases hold : s.known.get? e.eventId with
    | none => exact .inr (hr.new _ e hget hold).2.1
    | some x =>
      have hsame := hr.kept _ x hold
      rw [hget] at hsame
      exact .inl hsame.symm
  · intro hmem
    rcases hmem with hget | hmem
    · exact hr.kept _ e hget
    · obtain ⟨p, hp, -⟩ := hr.delivered e hmem
      have hid : p.eventId = e.eventId := hr.keyed hkeyed _ p hp
      cases hold : s.known.get? e.eventId with
      | some x =>
        obtain rfl := hknown e hmem x hold
        exact hr.kept _ _ hold
      | none =>
        obtain rfl := hunambiguous p (hr.new _ p hp hold).2.1 e hmem hid
        exact hp

section

variable [FeatureMath F]

/-- **One-shot construction** has the rows that the set of its events tells. -/
theorem buildFeatureMatrix_eq {events : List ObservedEvent} (h : EventSet events) :
    ∃ known, (known.map ObservedEvent.eventId).Nodup ∧ (∀ e, e ∈ known ↔ e ∈ events) ∧
      buildFeatureMatrix (F := F) catalog events = matrix catalog known := by
  have hsorted : ∀ e, e ∈ sortBy ObservedEvent.eventId events ↔ e ∈ events := fun e => mem_sortBy
  have hunambiguous : ∀ e ∈ sortBy ObservedEvent.eventId events, ∀ x ∈ sortBy ObservedEvent.eventId events,
      e.eventId = x.eventId → e = x := fun e he x hx => h.unambiguous e ((hsorted e).1 he) x ((hsorted x).1 hx)
  have hnone : ∀ e ∈ sortBy ObservedEvent.eventId events, ∀ p, empty.known.get? e.eventId = some p → p = e :=
    fun e _ p hp => by simp [empty] at hp
  obtain ⟨r, hr⟩ := remember_ok hunambiguous hnone fun e he hdecision _ => by
    obtain ⟨d, hd, -⟩ := h.decided e ((hsorted e).1 he) hdecision
    exact ⟨d, hd, fun w hw => by cases hw⟩
  have hkeyed : Keyed r.known := (remember_eq_ok hr).keyed sound_empty.keyed
  refine ⟨r.known.values, hkeyed.nodup, fun e => ?_, ?_⟩
  · rw [hkeyed.mem_values, known_remember sound_empty.keyed hunambiguous hnone hr, hsorted]
    simp [empty]
  · rw [← process_result hr, buildFeatureMatrix]
    cases process (F := F) catalog (sortBy ObservedEvent.eventId events) empty <;> rfl

end

/-! ## What a time is blind to -/

theorem nodup_admissionKey (h : (known.map ObservedEvent.eventId).Nodup) : (known.map admissionKey).Nodup := by
  have hids : (known.map admissionKey).map (fun k => (ofLex k).2) = known.map ObservedEvent.eventId := by
    rw [List.map_map]
    rfl
  exact List.Nodup.of_map _ (hids ▸ h)

theorem map_snd_decisions (known : List ObservedEvent) : (decisions known).map Prod.snd =
    (known.filter ObservedEvent.isDecisionPoint).filter fun e => e.decisionAt.isSome := by
  rw [decisions]
  induction known.filter ObservedEvent.isDecisionPoint with
  | nil => rfl
  | cons e es ih =>
    cases hat : e.decisionAt with
    | none => rw [List.filterMap_cons_none (by rw [hat]; rfl), ih, List.filter_cons_of_neg (by simp [hat])]
    | some d =>
      rw [List.filterMap_cons_some (by rw [hat]; rfl), List.map_cons, ih, List.filter_cons_of_pos (by simp [hat])]

theorem nodup_decisionSortKey (h : (known.map ObservedEvent.eventId).Nodup) :
    ((decisions known).map decisionSortKey).Nodup := by
  have hids : ((decisions known).map decisionSortKey).map (fun k => (ofLex k).2) =
      ((decisions known).map Prod.snd).map ObservedEvent.eventId := by
    rw [List.map_map, List.map_map]
    rfl
  apply List.Nodup.of_map fun k => (ofLex k).2
  rw [hids, map_snd_decisions]
  exact h.sublist ((List.filter_sublist.trans List.filter_sublist).map _)

theorem sortBy_filter_congr {K : Type} [LinearOrder K] {key : ObservedEvent → K} {p q : ObservedEvent → Bool}
    (h : (known.map ObservedEvent.eventId).Nodup) (h' : (known'.map ObservedEvent.eventId).Nodup)
    (hkey : (known.map key).Nodup) (hsame : ∀ e, (e ∈ known ∧ p e = true) ↔ (e ∈ known' ∧ q e = true)) :
    sortBy key (known.filter p) = sortBy key (known'.filter q) := by
  refine sortBy_congr ?_ (hkey.sublist (List.filter_sublist.map _))
  rw [List.perm_ext_iff_of_nodup (h.of_map.filter _) (h'.of_map.filter _)]
  intro e
  rw [List.mem_filter, List.mem_filter, hsame]

theorem mem_decidedAt_ids (h : (known.map ObservedEvent.eventId).Nodup) {e : ObservedEvent} (he : e ∈ known) :
    e.eventId ∈ (decidedAt known d).map ObservedEvent.eventId ↔ e.isDecisionPoint = true ∧ e.decisionAt = some d := by
  constructor
  · intro hid
    obtain ⟨x, hx, hid⟩ := List.mem_map.1 hid
    obtain ⟨hknown, hrest⟩ := mem_decidedAt.1 hx
    rwa [List.inj_on_of_nodup_map h hknown he hid] at hrest
  · intro hat
    exact List.mem_map_of_mem (mem_decidedAt.2 ⟨he, hat⟩)

/-- sets of events that are known alike before a time -/
structure AlikeBefore (d : Time) (known known' : List ObservedEvent) : Prop where
  nodup : (known.map ObservedEvent.eventId).Nodup
  nodup' : (known'.map ObservedEvent.eventId).Nodup
  same : ∀ e, e.availableAt < d → (e ∈ known ↔ e ∈ known')
  decided : ∀ e ∈ known, e.isDecisionPoint = true → ∃ d, e.decisionAt = some d ∧ e.availableAt ≤ d
  decided' : ∀ e ∈ known', e.isDecisionPoint = true → ∃ d, e.decisionAt = some d ∧ e.availableAt ≤ d

theorem admitAt_congr {u : Time} (h : AlikeBefore d known known') (hu : u ≤ d) :
    admitAt known es u = admitAt known' es u := by
  rw [admitAt, admitAt]
  congr 1
  refine sortBy_filter_congr h.nodup h.nodup' (nodup_admissionKey h.nodup) fun e => ?_
  simp only [Bool.and_eq_true, decide_eq_true_eq]
  constructor
  · intro ⟨he, ⟨hnew, hout⟩, hlt⟩
    have he' := (h.same e (hlt.trans_le hu)).1 he
    rw [mem_decidedAt_ids h.nodup he] at hout
    exact ⟨he', ⟨hnew, by rwa [mem_decidedAt_ids h.nodup' he']⟩, hlt⟩
  · intro ⟨he', ⟨hnew, hout⟩, hlt⟩
    have he := (h.same e (hlt.trans_le hu)).2 he'
    rw [mem_decidedAt_ids h.nodup' he'] at hout
    exact ⟨he, ⟨hnew, by rwa [mem_decidedAt_ids h.nodup he]⟩, hlt⟩

theorem decisionTimes_congr (h : AlikeBefore d known known') (hd : d ∈ decisionTimes known)
    (hd' : d ∈ decisionTimes known') :
    (decisionTimes known).filter (· ≤ d) = (decisionTimes known').filter (· ≤ d) := by
  have hincreasing : ∀ k, ((decisionTimes k).filter (· ≤ d)).Pairwise (· < ·) :=
    fun k => (sortedSet_increasing _).filter _
  refine List.Perm.eq_of_pairwise (fun a b _ _ hab hba => absurd hab hba.not_gt) (hincreasing known) (hincreasing known') ?_
  rw [List.perm_ext_iff_of_nodup ((hincreasing known).imp ne_of_lt) ((hincreasing known').imp ne_of_lt)]
  intro u
  simp only [List.mem_filter, decide_eq_true_eq]
  refine and_congr_left fun hu => ?_
  rcases hu.lt_or_eq with hlt | rfl
  · rw [mem_decisionTimes, mem_decisionTimes]
    constructor
    · intro ⟨e, he, hdecision, hat⟩
      obtain ⟨v, hv, hle⟩ := h.decided e he hdecision
      rw [hat, Option.some.injEq] at hv
      exact ⟨e, (h.same e ((hv ▸ hle).trans_lt hlt)).1 he, hdecision, hat⟩
    · intro ⟨e, he, hdecision, hat⟩
      obtain ⟨v, hv, hle⟩ := h.decided' e he hdecision
      rw [hat, Option.some.injEq] at hv
      exact ⟨e, (h.same e ((hv ▸ hle).trans_lt hlt)).2 he, hdecision, hat⟩
  · exact ⟨fun _ => hd', fun _ => hd⟩

/-- **The history of a time** is told by what was available before it. -/
theorem historyAt_congr (h : AlikeBefore d known known') (hd : d ∈ decisionTimes known) (hd' : d ∈ decisionTimes known')
    : historyAt known d = historyAt known' d := by
  rw [historyAt, historyAt, ← decisionTimes_congr h hd hd']
  refine List.foldl_ext _ _ _ fun es u hu => ?_
  exact admitAt_congr h (of_decide_eq_true (List.mem_filter.1 hu).2)

section

variable [FeatureMath F]

variable {known' : List ObservedEvent}

theorem rowOf_congr {d : Time} (h : AlikeBefore d known known') {e : ObservedEvent} (he : (d, e) ∈ decisions known)
    (he' : (d, e) ∈ decisions known') : rowOf (F := F) catalog known (d, e) = rowOf catalog known' (d, e) := by
  have hd := mem_decisionTimes.2 ⟨e, mem_decisions.1 he⟩
  have hd' := mem_decisionTimes.2 ⟨e, mem_decisions.1 he'⟩
  rw [rowOf, rowOf, historyAt_congr h hd hd']

/-- the rows depend on the members of the set only -/
theorem matrix_congr (hnodup : (known.map ObservedEvent.eventId).Nodup)
    (hnodup' : (known'.map ObservedEvent.eventId).Nodup) (hmem : ∀ e, e ∈ known ↔ e ∈ known')
    (hdecided : ∀ e ∈ known, e.isDecisionPoint = true → ∃ d, e.decisionAt = some d ∧ e.availableAt ≤ d) :
    matrix (F := F) catalog known = matrix catalog known' := by
  have halike : ∀ d, AlikeBefore d known known' := fun d =>
    ⟨hnodup, hnodup', fun e _ => hmem e, hdecided, fun e he => hdecided e ((hmem e).2 he)⟩
  have hdecisions : ∀ p, p ∈ decisions known ↔ p ∈ decisions known' := by
    intro p
    rw [mem_decisions, mem_decisions, hmem]
  have hsorted : sortBy decisionSortKey (decisions known) = sortBy decisionSortKey (decisions known') := by
    refine sortBy_congr ?_ (nodup_decisionSortKey hnodup)
    rw [List.perm_ext_iff_of_nodup (nodup_decisionSortKey hnodup).of_map (nodup_decisionSortKey hnodup').of_map]
    exact hdecisions
  rw [matrix, matrix, hsorted]
  refine mapM_congr_mem fun p hp => ?_
  have hp' := mem_sortBy.1 hp
  exact rowOf_congr (halike p.1) ((hdecisions p).2 hp') hp'

theorem historyAt_nodup (h : (known.map ObservedEvent.eventId).Nodup) (d : Time) :
    ((historyAt known d).map ObservedEvent.eventId).Nodup := by
  have hfold : ∀ ts : List Time, ((ts.foldl (admitAt known) []).map ObservedEvent.eventId).Nodup := by
    intro ts
    induction ts using List.reverseRecOn with
    | nil => exact List.nodup_nil
    | append_singleton ts u ih =>
      rw [List.foldl_append, List.foldl_cons, List.foldl_nil, admitAt, List.map_append]
      refine ih.append ?_ ?_
      · have hperm := (sortBy_perm admissionKey (known.filter fun e =>
          e.eventId ∉ (ts.foldl (admitAt known) []).map ObservedEvent.eventId &&
            e.eventId ∉ (decidedAt known u).map ObservedEvent.eventId && e.availableAt < u)).map ObservedEvent.eventId
        exact hperm.nodup_iff.2 (h.sublist (List.filter_sublist.map _))
      · rw [List.disjoint_left]
        intro id hid hnew
        obtain ⟨e, he, rfl⟩ := List.mem_map.1 hnew
        rw [mem_sortBy, List.mem_filter, Bool.and_eq_true, Bool.and_eq_true] at he
        exact absurd hid (of_decide_eq_true he.2.1.1)
  exact hfold _

end

namespace Sample

/-- two transfers, and a third one added after them -/
def two : List ObservedEvent := [transfer "1" 1 1, transfer "2" 2 2]

theorem two_set : EventSet two where
  unambiguous := by simp [two, transfer]
  timely := by simp [two, transfer]
  decided := by simp [two, transfer]

end Sample

end CausalFeatureState

end Apar
