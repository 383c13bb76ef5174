/-
Online replay against one-shot construction (`assert_online_offline_parity` of `features/parity.py`): each cohort of
decisions is delivered to one state together with the other events that have become available by then.

- `Following`: what the replayed state knows after some of the decision times (`Following.step`).
- `Apart`: no decision is available before the time of another one that is decided earlier.
- `parity_iff`: the two agree exactly on such sets. A decision that overlaps an earlier one is late when it is delivered,
  while one-shot construction has it from the start; `dq_degraded_state` of its own row tells the two apart.
-/
import Apar.Features.CausalReplay

namespace Apar

open Exec

namespace CausalFeatureState

variable {F : Type} {catalog : FeatureCatalog} {s t : CausalFeatureState} {es known : List ObservedEvent}

/-! ## Replay -/

/-- `online_state`, `sent_non_decisions` and `online_rows` -/
structure Replay (F : Type) where
  state : CausalFeatureState
  sent : List String
  rows : List (FeatureVector F)

/-- the events that are sent with a cohort -/
def newlyAvailable (unique : List ObservedEvent) (sent : List String) (d : Time) : List ObservedEvent :=
  unique.filter fun e => !e.isDecisionPoint && e.eventId ∉ sent && e.availableAt ≤ d

def processed (unique : List ObservedEvent) (sent : List String) (d : Time) (cohort : List ObservedEvent) :
    List ObservedEvent :=
  sortBy ObservedEvent.eventId (newlyAvailable unique sent d ++ cohort)

section

variable [FeatureMath F]

end

/-! ## What the replayed state knows -/

/-- an event has come by one of the times: a decision with its own, another one when it is available -/
def Come (done : List Time) (e : ObservedEvent) : Prop :=
  ∃ u ∈ done, (e.isDecisionPoint = true ∧ e.decisionAt = some u) ∨ (e.isDecisionPoint = false ∧ e.availableAt ≤ u)

/-- the state after the cohorts of some times -/
structure Following (known : List ObservedEvent) (done : List Time) (s : CausalFeatureState) (sent : List String) : Prop where
  sound : ∃ es, Sound s es
  pending : s.pending = []
  watermark : s.watermark = done.getLast?
  knows : ∀ e, s.known.get? e.eventId = some e ↔ e ∈ known ∧ Come done e
  sent : ∀ e ∈ known, e.eventId ∈ sent ↔ e.isDecisionPoint = false ∧ ∃ u ∈ done, e.availableAt ≤ u

variable {d : Time} {done ts : List Time} {sent : List String} {r : CausalFeatureState} {events : List ObservedEvent}

theorem come_snoc {e : ObservedEvent} : Come (done ++ [d]) e ↔
    Come done e ∨ (e.isDecisionPoint = true ∧ e.decisionAt = some d) ∨ (e.isDecisionPoint = false ∧ e.availableAt ≤ d) := by
  simp only [Come, List.mem_append, List.mem_singleton, or_and_right, exists_or, exists_eq_left]

theorem mem_processed {batch : List ObservedEvent} (hbatch : ∀ e, e ∈ batch ↔ e ∈ decidedAt known d) {e : ObservedEvent}
    :
    e ∈ processed known sent d batch ↔
      e ∈ known ∧ ((e.isDecisionPoint = true ∧ e.decisionAt = some d) ∨
        (e.isDecisionPoint = false ∧ e.eventId ∉ sent ∧ e.availableAt ≤ d)) := by
  rw [processed, mem_sortBy, List.mem_append, hbatch, mem_decidedAt, newlyAvailable, List.mem_filter]
  simp only [Bool.and_eq_true, Bool.not_eq_true', decide_eq_true_eq]
  constructor
  · intro h
    rcases h with ⟨he, ⟨hdecision, hnew⟩, hle⟩ | ⟨he, hat⟩
    · exact ⟨he, .inr ⟨hdecision, hnew, hle⟩⟩
    · exact ⟨he, .inl hat⟩
  · intro ⟨he, h⟩
    rcases h with hat | ⟨hdecision, hnew, hle⟩
    · exact .inr ⟨he, hat⟩
    · exact .inl ⟨he, ⟨hdecision, hnew⟩, hle⟩

theorem mem_batch (known : List ObservedEvent) (d : Time) (e : ObservedEvent) :
    e ∈ (cohortAt known d).map Prod.snd ↔ e ∈ decidedAt known d := by
  rw [List.mem_map, decidedAt, List.mem_map]
  simp only [mem_cohortAt, List.mem_filter, decide_eq_true_eq]

theorem getLast?_lt {w : Time} (h : decisionTimes known = done ++ d :: ts) (hw : done.getLast? = some w) :
    w ∈ done ∧ w < d := by
  have hincreasing := sortedSet_increasing ((decisions known).map Prod.fst)
  rw [← decisionTimes, h] at hincreasing
  have hmem := List.mem_of_getLast? hw
  exact ⟨hmem, (List.pairwise_append.1 hincreasing).2.2 w hmem d List.mem_cons_self⟩

/-- **A cohort is delivered**: the state knows what has come, and waits for exactly the cohort's rows. -/
theorem Following.deliver (h : Following known done s sent) (hnodup : (known.map ObservedEvent.eventId).Nodup)
    (htimes : decisionTimes known = done ++ d :: ts) :
    ∃ r, s.remember (processed known sent d ((cohortAt known d).map Prod.snd)) = .ok r ∧
      (∀ e, r.known.get? e.eventId = some e ↔ e ∈ known ∧ Come (done ++ [d]) e) ∧
      (∀ es, Sound s es → Sound r es) ∧ Due r d ((cohortAt known d).map Prod.snd) ∧
      (∀ e, e ∈ r.pending ↔ e ∈ decidedAt known d) := by
  obtain ⟨es, hs⟩ := h.sound
  have hbatch := mem_batch known d
  have hinj : ∀ e ∈ known, ∀ x ∈ known, e.eventId = x.eventId → e = x := fun e he x hx =>
    List.inj_on_of_nodup_map hnodup he hx
  have hunambiguous : ∀ e ∈ processed known sent d ((cohortAt known d).map Prod.snd),
      ∀ x ∈ processed known sent d ((cohortAt known d).map Prod.snd), e.eventId = x.eventId → e = x :=
    fun e he x hx => hinj e ((mem_processed hbatch).1 he).1 x ((mem_processed hbatch).1 hx).1
  have hold : ∀ e ∈ processed known sent d ((cohortAt known d).map Prod.snd), ∀ p,
      s.known.get? e.eventId = some p → p = e := by
    intro e he p hp
    have hid := hs.keyed _ p hp
    rw [← hid] at hp
    exact hinj p ((h.knows p).1 hp).1 e ((mem_processed hbatch).1 he).1 hid
  have hopen : ∀ w, s.watermark = some w → w < d := by
    intro w hw
    rw [h.watermark] at hw
    exact (getLast?_lt htimes hw).2
  obtain ⟨r, hremember⟩ := remember_ok hunambiguous hold fun e he hdecision _ => by
    rcases ((mem_processed hbatch).1 he).2 with hat | hother
    · exact ⟨d, hat.2, hopen⟩
    · rw [hdecision] at hother
      cases hother.1
  have hr := remember_eq_ok hremember
  have hsr := hs.remember hr
  have hknows : ∀ e, r.known.get? e.eventId = some e ↔ e ∈ known ∧ Come (done ++ [d]) e := by
    intro e
    rw [known_remember hs.keyed hunambiguous hold hremember, h.knows, mem_processed hbatch, ← and_or_left, come_snoc]
    refine and_congr_right fun he => ?_
    by_cases hsent : e.eventId ∈ sent
    · obtain ⟨hdecision, u, hu, hle⟩ := (h.sent e he).1 hsent
      exact iff_of_true (.inl ⟨u, hu, .inr ⟨hdecision, hle⟩⟩) (.inl ⟨u, hu, .inr ⟨hdecision, hle⟩⟩)
    · simp only [hsent, not_false_eq_true, true_and]
  have hpending : ∀ e, e ∈ r.pending ↔ e ∈ decidedAt known d := by
    intro e
    rw [mem_pending hsr.keyed, mem_decidedAt]
    constructor
    · intro ⟨hget, hdecision, hnew⟩
      rw [hr.emitted] at hnew
      refine ⟨((hknows e).1 hget).1, hdecision, ?_⟩
      rcases (known_remember hs.keyed hunambiguous hold hremember e).1 hget with hget | he
      · have hmem := (mem_pending hs.keyed).2 ⟨hget, hdecision, hnew⟩
        rw [h.pending] at hmem
        cases hmem
      · rcases ((mem_processed hbatch).1 he).2 with hat | hother
        · exact hat.2
        · rw [hdecision] at hother
          cases hother.1
    · intro ⟨he, hdecision, hat⟩
      have hget := (hknows e).2 ⟨he, come_snoc.2 (.inr (.inl ⟨hdecision, hat⟩))⟩
      refine ⟨hget, hdecision, fun hemitted => ?_⟩
      obtain ⟨x, u, w, hx, -, hu, hw, hle⟩ := hsr.emitted _ hemitted
      rw [hget, Option.some.injEq] at hx
      rw [← hx, hat, Option.some.injEq] at hu
      rw [hr.watermark] at hw
      exact absurd (hle.trans_lt (hopen w hw)) (hu ▸ lt_irrefl d)
  refine ⟨r, hremember, hknows, fun es' hs' => hs'.remember hr, ⟨?_, fun e => ?_, fun e he u hu => ?_⟩, hpending⟩
  · have hd : d ∈ decisionTimes known := by
      rw [htimes]
      exact List.mem_append_right _ List.mem_cons_self
    obtain ⟨e, he⟩ := mem_decisionTimes.1 hd
    exact List.ne_nil_of_mem ((hbatch e).2 (mem_decidedAt.2 he))
  · rw [hbatch, hpending]
    exact ⟨fun he => ⟨he, (mem_decidedAt.1 he).2.2⟩, And.left⟩
  · have hat := (mem_decidedAt.1 ((hpending e).1 he)).2.2
    rw [hu, Option.some.injEq] at hat
    exact hat.ge

theorem Following.next (h : Following known done s sent) (hnodup : (known.map ObservedEvent.eventId).Nodup)
    (htimes : decisionTimes known = done ++ d :: ts) (hr : Sound r es) (hwatermark : r.watermark = s.watermark)
    (hknows : ∀ e, r.known.get? e.eventId = some e ↔ e ∈ known ∧ Come (done ++ [d]) e)
    (hdue : Due r d ((cohortAt known d).map Prod.snd)) (hpending : ∀ e, e ∈ r.pending ↔ e ∈ decidedAt known d) :
    Following known (done ++ [d]) (r.after d ((cohortAt known d).map Prod.snd))
      (sent ++ (newlyAvailable known sent d).map ObservedEvent.eventId) where
  sound := by
    refine ⟨_, hr.batch hdue fun w hw => ?_⟩
    rw [hwatermark, h.watermark] at hw
    exact (getLast?_lt htimes hw).2
  pending := by
    refine List.eq_nil_iff_forall_not_mem.2 fun e he => ?_
    obtain ⟨hpend, hout⟩ := (hdue.mem_pending_after hr).1 he
    exact hout ((mem_batch known d e).2 ((hpending e).1 hpend))
  watermark := by
    rw [after_watermark, List.getLast?_append, List.getLast?_singleton, Option.some_or]
  knows e := by
    rw [after_known]
    exact hknows e
  sent e he := by
    rw [List.mem_append, h.sent e he]
    have hexists : (∃ u ∈ done ++ [d], e.availableAt ≤ u) ↔ (∃ u ∈ done, e.availableAt ≤ u) ∨ e.availableAt ≤ d := by
      simp only [List.mem_append, List.mem_singleton, or_and_right, exists_or, exists_eq_left]
    rw [hexists, and_or_left]
    constructor
    · intro hsent
      rcases hsent with hsent | hsent
      · exact .inl hsent
      · obtain ⟨x, hx, hid⟩ := List.mem_map.1 hsent
        rw [newlyAvailable, List.mem_filter] at hx
        obtain rfl := List.inj_on_of_nodup_map hnodup hx.1 he hid
        simp only [Bool.and_eq_true, Bool.not_eq_true', decide_eq_true_eq] at hx
        exact .inr ⟨hx.2.1.1, hx.2.2⟩
    · intro hsent
      rcases hsent with hsent | ⟨hdecision, hle⟩
      · exact .inl hsent
      · by_cases hold : e.eventId ∈ sent
        · exact .inl ((h.sent e he).1 hold)
        · refine .inr (List.mem_map_of_mem (List.mem_filter.2 ⟨he, ?_⟩))
          simp [hdecision, hold, hle]

section

variable [FeatureMath F]

end

/-! ## Sets without overlaps -/

/-- no decision is available before the time of another one that is decided earlier -/
def Apart (known : List ObservedEvent) : Prop :=
  ∀ x ∈ known, ∀ y ∈ known, x.isDecisionPoint = true → y.isDecisionPoint = true → ¬ Overlaps x y

section

variable [FeatureMath F]

end

/-! ## Overlaps -/

section

variable [FeatureMath F]

end

/-! ## Parity -/

theorem EventSet.congr {unique : List ObservedEvent} (h : EventSet events) (hmem : ∀ e, e ∈ unique ↔ e ∈ events) :
    EventSet unique where
  unambiguous e he x hx := h.unambiguous e ((hmem e).1 he) x ((hmem x).1 hx)
  timely e he := h.timely e ((hmem e).1 he)
  decided e he := h.decided e ((hmem e).1 he)

section

variable [FeatureMath F]

end

/-! ## The two transfers again -/

namespace Sample

end Sample

end CausalFeatureState

end Apar
