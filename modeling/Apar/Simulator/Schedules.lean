/-
Runs of the engine in segments, and the order in which commands execute.

`RunCall A s cutoff s'` says that the call `run(cutoff)` on `s` comes to an end, returning or raising, and leaves `s'`.
- `runCall_segment`: a run up to a cutoff and then to the end is a run to the end.
- `Served`: what a number of turns executes and schedules. `served_call` is one call, `served_calls` any calls.
- `run_segments`: the results for an engine that has just been given a schedule.
-/
import Apar.Simulator.Context

namespace Apar

open Exec

namespace Engine

variable {κ σ α : Type} {A : RailAdapter κ σ α} {s s' : Engine κ σ α} {cutoff : Option Time}

/-! ## Ended runs -/

/-- the due time the loop takes next -/
def nextDue (cutoff : Option Time) (s : Engine κ σ α) : Option (Time × List Time) :=
  match s.scheduledTimes with
  | [] => none
  | t :: times => if isDue cutoff t then some (t, times) else none

/-- the loop ended of itself: nothing is due, or a turn raised -/
def Halted (cutoff : Option Time) : EStateM.Result SimError (Engine κ σ α) Unit → Prop
  | .ok _ s' => nextDue cutoff s' = none
  | .error _ _ => True

instance (cutoff : Option Time) (r : EStateM.Result SimError (Engine κ σ α) Unit) : Decidable (Halted cutoff r) :=
  match r with
  | .ok _ s' => decidable_of_iff (nextDue cutoff s' = none) Iff.rfl
  | .error _ _ => isTrue trivial

/-- the loop from `s` ends in `r` -/
def LoopEnds (A : RailAdapter κ σ α) (cutoff : Option Time) (s : Engine κ σ α)
    (r : EStateM.Result SimError (Engine κ σ α) Unit) : Prop :=
  ∃ turns, runLoop A cutoff turns s = r ∧ Halted cutoff r

/-- the call `run(cutoff)` on `s` ends, returning or raising, and leaves `s'` -/
def RunCall (A : RailAdapter κ σ α) (cutoff : Option Time) (s s' : Engine κ σ α) : Prop :=
  ∃ turns, Halted cutoff (run A turns cutoff s) ∧ afterCall A s (.run turns cutoff) = s'

/-- the calls `run(u)` for every cutoff in turn -/
def RunCalls (A : RailAdapter κ σ α) : List (Option Time) → Engine κ σ α → Engine κ σ α → Prop
  | [], s, s' => s' = s
  | cutoff :: rest, s, s' => ∃ s₁, RunCall A cutoff s s₁ ∧ RunCalls A rest s₁ s'

/-- callbacks that return leave a healthy engine healthy: no failed operation is caught -/
structure Propagates (A : RailAdapter κ σ α) : Prop where
  init : ∀ {s s' u}, s.failure = none → A.init s = .ok u s' → s'.failure = none
  handle : ∀ {s s' command emitted}, s.failure = none → A.handle command s = .ok emitted s' → s'.failure = none

theorem runLoop_zero : runLoop A cutoff 0 s = .ok () s := rfl

theorem runLoop_succ (turns : ℕ) : runLoop A cutoff (turns + 1) s =
    match nextDue cutoff s with
    | none => .ok () s
    | some (t, times) =>
      match dispatch A t times s with
      | .ok _ s₁ => runLoop A cutoff turns s₁
      | .error e s₁ => .error e s₁ := by
  have hget : ∀ f : Engine κ σ α → EngineM κ σ α Unit, (get >>= f) s = f s s := fun _ => rfl
  rw [runLoop, hget]
  unfold nextDue
  cases s.scheduledTimes with
  | nil => rfl
  | cons t times =>
    by_cases hdue : isDue cutoff t
    · simp only [hdue, if_true]
      rw [bind_run]
      cases dispatch A t times s <;> rfl
    · simp only [hdue]
      rfl

variable {turns : ℕ}

/-- more turns do not change a loop that has ended -/
theorem runLoop_mono (h : Halted cutoff (runLoop A cutoff turns s)) (more : ℕ) :
    runLoop A cutoff (turns + more) s = runLoop A cutoff turns s := by
  induction turns generalizing s with
  | zero =>
    rw [runLoop_zero] at h
    cases more with
    | zero => rfl
    | succ more =>
      have hdue : nextDue cutoff s = none := h
      rw [Nat.zero_add, runLoop_succ, hdue]
      rfl
  | succ turns ih =>
    rw [Nat.succ_add, runLoop_succ, runLoop_succ] at *
    cases hdue : nextDue cutoff s with
    | none => rfl
    | some p =>
      simp only [hdue] at h ⊢
      cases hd : dispatch A p.1 p.2 s with
      | error e s₁ => rfl
      | ok u s₁ =>
        rw [hd] at h
        exact ih h

theorem LoopEnds.unique {r r' : EStateM.Result SimError (Engine κ σ α) Unit} (h : LoopEnds A cutoff s r)
    (h' : LoopEnds A cutoff s r') : r = r' := by
  obtain ⟨m, rfl, hm⟩ := h
  obtain ⟨n, rfl, hn⟩ := h'
  rw [← runLoop_mono hm n, ← runLoop_mono hn m, Nat.add_comm]

theorem nextDue_none_of_some {p : Time × List Time} (h : nextDue cutoff s = some p) : nextDue none s = some p := by
  unfold nextDue at *
  cases hs : s.scheduledTimes with
  | nil => simp [hs] at h
  | cons t times =>
    simp only [hs] at h
    split_ifs at h
    simpa [isDue] using h

theorem nextDue_eq_some {t : Time} {times : List Time} (h : nextDue cutoff s = some (t, times)) :
    s.scheduledTimes = t :: times := by
  unfold nextDue at h
  cases hs : s.scheduledTimes with
  | nil => simp [hs] at h
  | cons t' times' =>
    simp only [hs] at h
    split_ifs at h
    cases h
    rfl

/-- a loop up to a cutoff is the beginning of the loop to the end -/
theorem runLoop_resume :
    (∀ u s₁, runLoop A cutoff turns s = .ok u s₁ → ∃ k, ∀ m, runLoop A none (k + m) s = runLoop A none m s₁) ∧
    ∀ e s₁, runLoop A cutoff turns s = .error e s₁ → ∃ k, runLoop A none k s = .error e s₁ := by
  induction turns generalizing s with
  | zero =>
    constructor
    · intro u s₁ h
      cases h
      exact ⟨0, fun m => by rw [Nat.zero_add]⟩
    · intro e s₁ h
      cases h
  | succ turns ih =>
    rw [runLoop_succ]
    cases hdue : nextDue cutoff s with
    | none =>
      constructor
      · intro u s₁ h
        cases h
        exact ⟨0, fun m => by rw [Nat.zero_add]⟩
      · intro e s₁ h
        cases h
    | some p =>
      have hnone := nextDue_none_of_some hdue
      cases hd : dispatch A p.1 p.2 s with
      | error e s₁ =>
        simp only [hd]
        constructor
        · intro u s₂ h
          cases h
        · intro e' s₂ h
          cases h
          exact ⟨1, by simp only [runLoop_succ, hnone, hd]⟩
      | ok u s₁ =>
        simp only [hd]
        constructor
        · intro u' s₂ h
          obtain ⟨k, hk⟩ := ih.1 u' s₂ h
          exact ⟨k + 1, fun m => by rw [Nat.succ_add, runLoop_succ, hnone]; simp only [hd, hk]⟩
        · intro e s₂ h
          obtain ⟨k, hk⟩ := ih.2 e s₂ h
          exact ⟨k + 1, by rw [runLoop_succ, hnone]; simp only [hd, hk]⟩

/-- a loop that ends without a cutoff ends with any -/
theorem runLoop_halted (h : Halted none (runLoop A none turns s)) : Halted cutoff (runLoop A cutoff turns s) := by
  induction turns generalizing s with
  | zero =>
    have hnone : nextDue none s = none := h
    show nextDue cutoff s = none
    cases hdue : nextDue cutoff s with
    | none => rfl
    | some p => rw [nextDue_none_of_some hdue] at hnone; cases hnone
  | succ turns ih =>
    rw [runLoop_succ] at h ⊢
    cases hdue : nextDue cutoff s with
    | none => exact hdue
    | some p =>
      rw [nextDue_none_of_some hdue] at h
      cases hd : dispatch A p.1 p.2 s with
      | error e s₁ =>
        simp only [hd]
        trivial
      | ok u s₁ =>
        simp only [hd] at h ⊢
        exact ih h

/-- **Segments of the loop.** Up to a cutoff and then to the end, or to the end at once. -/
theorem loopEnds_segment {r : EStateM.Result SimError (Engine κ σ α) Unit} :
    LoopEnds A none s r ↔ (∃ s₁, LoopEnds A cutoff s (.ok () s₁) ∧ LoopEnds A none s₁ r) ∨
      ∃ e s₁, LoopEnds A cutoff s (.error e s₁) ∧ r = .error e s₁ := by
  have hforward : ∀ {r}, (∃ s₁, LoopEnds A cutoff s (.ok () s₁) ∧ LoopEnds A none s₁ r) ∨
      (∃ e s₁, LoopEnds A cutoff s (.error e s₁) ∧ r = .error e s₁) → LoopEnds A none s r := by
    rintro r (⟨s₁, ⟨n, hn, -⟩, m, hm, hr⟩ | ⟨e, s₁, ⟨n, hn, -⟩, rfl⟩)
    · obtain ⟨k, hk⟩ := runLoop_resume.1 () s₁ hn
      exact ⟨k + m, (hk m).trans hm, hr⟩
    · obtain ⟨k, hk⟩ := runLoop_resume.2 e s₁ hn
      exact ⟨k, hk, trivial⟩
  refine ⟨?_, hforward⟩
  rintro ⟨n, rfl, hr⟩
  have hcut : Halted cutoff (runLoop A cutoff n s) := runLoop_halted hr
  cases hn : runLoop A cutoff n s with
  | error e s₁ =>
    right
    have hends : LoopEnds A cutoff s (.error e s₁) := ⟨n, hn, trivial⟩
    exact ⟨e, s₁, hends, LoopEnds.unique ⟨n, rfl, hr⟩ (hforward (.inr ⟨e, s₁, hends, rfl⟩))⟩
  | ok u s₁ =>
    left
    rw [hn] at hcut
    obtain ⟨k, hk⟩ := runLoop_resume.1 u s₁ hn
    have hrest : runLoop A none n s₁ = runLoop A none n s := by
      rw [← hk, Nat.add_comm, runLoop_mono hr]
    exact ⟨s₁, ⟨n, hn, hcut⟩, n, hrest, hr⟩

/-! ## Calls -/

/-- the engine refuses the call `run(cutoff)` outright -/
def Refused (cutoff : Option Time) (s : Engine κ σ α) : Prop :=
  s.failure ≠ none ∨ (cutoff.all fun u => decide (s.clock.now ≤ u)) = false

/-- the engine after its run ended in `r` -/
def finish : EStateM.Result SimError (Engine κ σ α) Unit → Engine κ σ α
  | .ok _ s' => s'
  | .error e s' => s'.markFailed e

theorem run_refused (h : Refused cutoff s) : ∃ e, run A turns cutoff s = .error e s := by
  have hget : (get : EngineM κ σ α (Engine κ σ α)) s = .ok s s := rfl
  have htrue : ∀ (e : SimError), (guard true e : EngineM κ σ α Unit) s = .ok () s := fun _ => rfl
  have hfalse : ∀ (e : SimError), (guard false e : EngineM κ σ α Unit) s = .error e s := fun _ => rfl
  simp only [run, bind_run, hget]
  cases hf : s.failure with
  | some e => exact ⟨_, rfl⟩
  | none =>
    rcases h with hfailed | hpast
    · exact absurd hf hfailed
    · simp only [Option.isNone_none, htrue, hpast, hfalse]
      exact ⟨_, rfl⟩

theorem run_accepted (h : ¬ Refused cutoff s) : run A turns cutoff s =
    match initializeOnce A s with
    | .error e s₁ => .error e (s₁.markFailed e)
    | .ok _ s₁ =>
      match runLoop A cutoff turns s₁ with
      | .error e s₂ => .error e (s₂.markFailed e)
      | .ok _ s₂ => .ok () s₂ := by
  rw [Refused, not_or, not_not, Bool.not_eq_false] at h
  obtain ⟨hf, hcut⟩ := h
  have hguard : ∀ (e : SimError), (guard true e : EngineM κ σ α Unit) s = .ok () s := fun _ => rfl
  have hget : (get : EngineM κ σ α (Engine κ σ α)) s = .ok s s := rfl
  simp only [run, bind_run, hget, hf, hcut, Option.isNone_none, hguard, guarded]
  cases hi : initializeOnce A s with
  | error e s₁ => rfl
  | ok u s₁ =>
    simp only
    cases runLoop A cutoff turns s₁ <;> rfl

/-- **The call `run(cutoff)`.** It is refused, it raises in the initialisation, or its loop ends. -/
theorem runCall_iff : RunCall A cutoff s s' ↔
    (Refused cutoff s ∧ s' = s) ∨ ¬ Refused cutoff s ∧
      ((∃ e s₁, initializeOnce A s = .error e s₁ ∧ s' = s₁.markFailed e) ∨
        ∃ s₁ r, initializeOnce A s = .ok () s₁ ∧ LoopEnds A cutoff s₁ r ∧ s' = finish r) := by
  have hafter : ∀ turns, afterCall A s (.run turns cutoff) =
      match run A turns cutoff s with
      | .ok _ t => t
      | .error _ t => t := fun _ => rfl
  unfold RunCall
  by_cases h : Refused cutoff s
  · have hrun : ∀ turns, afterCall A s (.run turns cutoff) = s ∧ Halted cutoff (run A turns cutoff s) := by
      intro turns
      obtain ⟨e, he⟩ : ∃ e, run A turns cutoff s = .error e s := run_refused h
      rw [hafter, he]
      exact ⟨rfl, trivial⟩
    constructor
    · rintro ⟨turns, -, rfl⟩
      exact .inl ⟨h, (hrun turns).1⟩
    · rintro (⟨-, rfl⟩ | ⟨hno, -⟩)
      · exact ⟨0, (hrun 0).2, (hrun 0).1⟩
      · exact absurd h hno
  · cases hi : initializeOnce A s with
    | error e s₁ =>
      have hrun : ∀ turns, run A turns cutoff s = .error e (s₁.markFailed e) := by
        intro turns
        rw [run_accepted h, hi]
      constructor
      · rintro ⟨turns, -, rfl⟩
        rw [hafter, hrun]
        exact .inr ⟨h, .inl ⟨e, s₁, rfl, rfl⟩⟩
      · rintro (⟨hrefused, -⟩ | ⟨-, ⟨e', s₁', hi', rfl⟩ | ⟨s₁', r, hi', -⟩⟩)
        · exact absurd hrefused h
        · cases hi'
          refine ⟨0, ?_, ?_⟩
          · rw [hrun]
            trivial
          · rw [hafter, hrun]
        · cases hi'
    | ok u s₁ =>
      have hrun : ∀ turns, (Halted cutoff (run A turns cutoff s) ↔ Halted cutoff (runLoop A cutoff turns s₁)) ∧
          afterCall A s (.run turns cutoff) = finish (runLoop A cutoff turns s₁) := by
        intro turns
        rw [hafter, run_accepted h, hi]
        simp only
        cases runLoop A cutoff turns s₁ with
        | error e t => exact ⟨Iff.rfl, rfl⟩
        | ok u t => exact ⟨Iff.rfl, rfl⟩
      constructor
      · rintro ⟨turns, hhalted, rfl⟩
        exact .inr ⟨h, .inr ⟨s₁, _, rfl, ⟨turns, rfl, (hrun turns).1.1 hhalted⟩, (hrun turns).2⟩⟩
      · rintro (⟨hrefused, -⟩ | ⟨-, ⟨e', s₁', hi', -⟩ | ⟨s₁', r, hi', ⟨turns, rfl, hhalted⟩, rfl⟩⟩)
        · exact absurd hrefused h
        · cases hi'
        · cases hi'
          exact ⟨turns, (hrun turns).1.2 hhalted, (hrun turns).2⟩

/-! ## What a turn leaves -/

theorem appendBatch_frame {candidates : List PaymentEvent} {u : Unit} (h : appendBatch candidates s = .ok u s') :
    s'.clock = s.clock ∧ s'.scheduledTimes = s.scheduledTimes ∧ s'.initialized = s.initialized ∧
      s'.failure = s.failure := by
  obtain ⟨-, -, rfl⟩ := appendBatch_spec h
  exact ⟨rfl, rfl, rfl, rfl⟩

theorem appendBatch_error {candidates : List PaymentEvent} {e : SimError}
    (h : appendBatch candidates s = .error e s') : s' = s := by
  have key : FailsWithin Eq (appendBatch candidates : EngineM κ σ α Unit) := by
    refine FailsWithin.bind Within.get fun t => ?_
    refine FailsWithin.bind (Within.raising _) fun _ => ?_
    refine FailsWithin.bind (Within.guard _ _) fun _ => ?_
    intro s e s' h
    cases h
  exact (key _ _ _ h).symm

/-- an empty batch changes nothing -/
theorem appendBatch_nil (s : Engine κ σ α) : appendBatch [] s = .ok () s := by
  have happend : appendBatch [] s =
      .ok () { s with events := s.events ++ [], seenEventIds := [] ++ s.seenEventIds } := rfl
  rw [happend, List.append_nil]
  rfl

/-- the state a turn hands to the adapter -/
def popped (s : Engine κ σ α) (c : ScheduledCommand κ) (rest : List (ScheduledCommand κ)) : Engine κ σ α :=
  { s with
    scheduledTimes := rest.map ScheduledCommand.dueAt
    clock := { s.clock with now := c.dueAt, queue := rest } }

/-- **The queues never diverge.** The command popped is the one the due-time index announces: the assertion of the loop
cannot fail, and a turn is the adapter's answer to that command. -/
theorem dispatch_eq (hs : Schedule s) {t : Time} {times : List Time} (ht : s.scheduledTimes = t :: times) :
    ∃ c rest, s.clock.queue = c :: rest ∧ c.dueAt = t ∧
      dispatch A t times s = (A.handle c.command >>= appendBatch) (popped s c rest) := by
  have hindex := hs.index
  rw [ht] at hindex
  cases hq : s.clock.queue with
  | nil =>
    rw [hq] at hindex
    cases hindex
  | cons c rest =>
    rw [hq, List.map_cons, List.cons.injEq] at hindex
    obtain ⟨rfl, rfl⟩ := hindex
    refine ⟨c, rest, rfl, rfl, ?_⟩
    have hmod : ∀ f : Engine κ σ α → Engine κ σ α, (modify f : EngineM κ σ α PUnit) s = .ok ⟨⟩ (f s) := fun _ => rfl
    have hget : ∀ t : Engine κ σ α, (get : EngineM κ σ α (Engine κ σ α)) t = .ok t t := fun _ => rfl
    have hset : ∀ t u : Engine κ σ α, (set u : EngineM κ σ α PUnit) t = .ok ⟨⟩ u := fun _ _ => rfl
    have hguard : ∀ (e : SimError) (t : Engine κ σ α), (guard true e : EngineM κ σ α Unit) t = .ok () t :=
      fun _ _ => rfl
    simp only [dispatch, bind_run, hmod, hget, SimulationClock.pop, hq, hset, decide_true, hguard]
    rfl

/-- the popped state has its schedule in order, and what is popped comes before what is left -/
theorem Schedule.popped (hs : Schedule s) {c : ScheduledCommand κ} {rest : List (ScheduledCommand κ)}
    (hq : s.clock.queue = c :: rest) : Schedule (popped s c rest) ∧ s.clock.now ≤ c.dueAt ∧
      ∀ d ∈ rest, c.before d = true := by
  have horder := hs.order
  have hnumbers := hs.numbers
  have hdue := hs.due
  have hnumbered := hs.numbered
  rw [hq] at horder hnumbers hdue hnumbered
  rw [List.map_cons, List.nodup_cons] at hnumbers
  unfold PopOrder at horder
  rw [List.pairwise_cons] at horder
  refine ⟨⟨horder.2, hnumbers.2, fun d hd => hnumbered d (List.mem_cons_of_mem _ hd), ?_, rfl⟩, hdue c (by simp), ?_⟩
  · intro d hd
    exact ScheduledCommand.dueAt_le_of_before (horder.1 d hd)
  · intro d hd
    refine ScheduledCommand.before_of_not (fun hsame => hnumbers.1 ?_) (horder.1 d hd)
    exact List.mem_map.2 ⟨d, hd, hsame.symm⟩

/-- returning or raising, a turn touches what the adapter's callback does, and appends to the log -/
theorem dispatch_after (hA : Confined A) (hs : Schedule s) {t : Time} {times : List Time}
    (ht : s.scheduledTimes = t :: times) :
    ∃ c rest, s.clock.queue = c :: rest ∧ c.dueAt = t ∧
      (∀ u s', dispatch A t times s = .ok u s' →
        ∃ s₁, Touched (popped s c rest) s₁ ∧ s'.clock = s₁.clock ∧ s'.scheduledTimes = s₁.scheduledTimes ∧
          s'.initialized = s₁.initialized ∧ s'.failure = s₁.failure) ∧
      ∀ e s', dispatch A t times s = .error e s' → Touched (popped s c rest) s' := by
  obtain ⟨c, rest, hq, hdue, heq⟩ := dispatch_eq (A := A) hs ht
  have hwithin := hA.handle c.command
  refine ⟨c, rest, hq, hdue, ?_, ?_⟩
  · intro u s' h
    rw [heq] at h
    obtain ⟨emitted, s₁, hhandle, happend⟩ := bind_eq_ok.1 h
    exact ⟨s₁, hwithin.ok hhandle, appendBatch_frame happend⟩
  · intro e s' h
    rw [heq] at h
    rcases bind_eq_error.1 h with hhandle | ⟨emitted, s₁, hhandle, happend⟩
    · exact hwithin.error hhandle
    · exact appendBatch_error happend ▸ hwithin.ok hhandle

/-! ## Commands served -/

/-- some turns execute the commands of `trace` and schedule those of `added` -/
structure Served (s s' : Engine κ σ α) (trace added : List (ScheduledCommand κ)) : Prop where
  schedule : Schedule s'
  now : s.clock.now ≤ s'.clock.now
  numbers : added.map ScheduledCommand.sequence = List.range' s.clock.sequence added.length
  sequence : s'.clock.sequence = s.clock.sequence + added.length
  once : (trace ++ s'.clock.queue).Perm (s.clock.queue ++ added)
  times : ∀ c ∈ trace, s.clock.now ≤ c.dueAt ∧ c.dueAt ≤ s'.clock.now
  ordered : trace.Pairwise fun c d => c.dueAt ≤ d.dueAt

theorem Served.refl (hs : Schedule s) : Served s s [] [] :=
  ⟨hs, le_rfl, by simp, by simp, by simp, by simp, List.Pairwise.nil⟩

theorem Served.trans {t : Engine κ σ α} {xs xs' ys ys' : List (ScheduledCommand κ)} (h : Served s t xs ys)
    (h' : Served t s' xs' ys') : Served s s' (xs ++ xs') (ys ++ ys') := by
  refine ⟨h'.schedule, h.now.trans h'.now, ?_, ?_, ?_, ?_, ?_⟩
  · rw [List.map_append, h.numbers, h'.numbers, h.sequence, List.length_append, List.range'_append_1]
  · rw [h'.sequence, h.sequence, List.length_append, add_assoc]
  · have hfirst := h.once.append_right ys'
    have hsecond := h'.once.append_left xs
    rw [List.append_assoc] at hfirst
    rw [← List.append_assoc] at hsecond
    rw [List.append_assoc s.clock.queue] at hfirst
    exact hsecond.trans hfirst
  · intro c hc
    rcases List.mem_append.1 hc with hc | hc
    · exact ⟨(h.times c hc).1, (h.times c hc).2.trans h'.now⟩
    · exact ⟨h.now.trans (h'.times c hc).1, (h'.times c hc).2⟩
  · refine List.pairwise_append.2 ⟨h.ordered, h'.ordered, fun c hc d hd => ?_⟩
    exact (h.times c hc).2.trans (h'.times d hd).1

/-- a callback executes nothing of the queue -/
theorem Served.touched (hs : Schedule s) (h : Touched s s') : ∃ added, Served s s' [] added := by
  obtain ⟨added, hadded⟩ := h.scheduled
  exact ⟨added, hs.touched h, hadded.now.ge, hadded.numbers, hadded.sequence, hadded.perm, by simp,
    List.Pairwise.nil⟩

/-- a change that leaves the schedule alone -/
theorem Served.congr {t : Engine κ σ α} {xs ys : List (ScheduledCommand κ)} (h : Served s t xs ys)
    (hclock : s'.clock = t.clock) (hindex : s'.scheduledTimes = t.scheduledTimes) : Served s s' xs ys := by
  refine ⟨⟨?_, ?_, ?_, ?_, ?_⟩, ?_, h.numbers, ?_, ?_, ?_, h.ordered⟩
  · exact hclock ▸ h.schedule.order
  · exact hclock ▸ h.schedule.numbers
  · exact hclock ▸ h.schedule.numbered
  · exact hclock ▸ h.schedule.due
  · rw [hindex, hclock]
    exact h.schedule.index
  · exact hclock ▸ h.now
  · exact hclock ▸ h.sequence
  · exact hclock ▸ h.once
  · exact hclock ▸ h.times

theorem Served.popped (hs : Schedule s) {c : ScheduledCommand κ} {rest : List (ScheduledCommand κ)}
    (hq : s.clock.queue = c :: rest) : Served s (Engine.popped s c rest) [c] [] := by
  obtain ⟨hschedule, hnow, -⟩ := hs.popped hq
  refine ⟨hschedule, hnow, by simp, by simp [Engine.popped], ?_, ?_, List.pairwise_singleton _ _⟩
  · rw [hq, List.append_nil]
    exact List.Perm.refl _
  · intro d hd
    obtain rfl := List.mem_singleton.1 hd
    exact ⟨hnow, le_rfl⟩

/-- the commands that at most `turns` turns execute, the last of which may raise -/
def executed (A : RailAdapter κ σ α) (cutoff : Option Time) : ℕ → Engine κ σ α → List (ScheduledCommand κ)
  | 0, _ => []
  | turns + 1, s =>
    match nextDue cutoff s with
    | none => []
    | some (t, times) =>
      s.clock.queue.head?.toList ++
        match dispatch A t times s with
        | .ok _ s₁ => executed A cutoff turns s₁
        | .error _ _ => []

/-- the state a computation left -/
def left : EStateM.Result SimError (Engine κ σ α) Unit → Engine κ σ α
  | .ok _ s' => s'
  | .error _ s' => s'

theorem served_runLoop (hA : Confined A) (cutoff : Option Time) (turns : ℕ) (hs : Schedule s) :
    ∃ added, Served s (left (runLoop A cutoff turns s)) (executed A cutoff turns s) added := by
  induction turns generalizing s with
  | zero => exact ⟨[], Served.refl hs⟩
  | succ turns ih =>
    rw [runLoop_succ, executed]
    cases hdue : nextDue cutoff s with
    | none => exact ⟨[], Served.refl hs⟩
    | some p =>
      obtain ⟨t, times⟩ := p
      obtain ⟨c, rest, hq, -, hok, herror⟩ := dispatch_after hA hs (nextDue_eq_some hdue)
      have hpop := Served.popped hs hq
      simp only [hq, List.head?_cons, Option.toList_some]
      cases hd : dispatch A t times s with
      | error e s₁ =>
        obtain ⟨added, hadded⟩ := Served.touched hpop.schedule (herror e s₁ hd)
        exact ⟨_, hpop.trans hadded⟩
      | ok u s₁ =>
        obtain ⟨t', htouched, hclock, hindex, -, -⟩ := hok u s₁ hd
        obtain ⟨added, hadded⟩ := Served.touched hpop.schedule htouched
        have hturn := (hpop.trans hadded).congr hclock hindex
        obtain ⟨added', hrest⟩ := ih hturn.schedule
        exact ⟨_, hturn.trans hrest⟩

theorem initializeOnce_eq_ok {u : Unit} (h : initializeOnce A s = .ok u s') :
    s.initialized = true ∧ s' = s ∨ ∃ v s₁, A.init s = .ok v s₁ ∧ s' = { s₁ with initialized := true } := by
  simp only [initializeOnce, bind_eq_ok, get_eq_ok] at h
  obtain ⟨_, _, ⟨rfl, rfl⟩, h⟩ := h
  split_ifs at h with hdone
  · exact .inl ⟨hdone, (pure_eq_ok.1 h).2.symm⟩
  · obtain ⟨v, s₁, hinit, hflag⟩ := bind_eq_ok.1 h
    rw [modify_eq_ok] at hflag
    exact .inr ⟨v, s₁, hinit, hflag.symm⟩

theorem initializeOnce_eq_error {e : SimError} (h : initializeOnce A s = .error e s') : A.init s = .error e s' := by
  simp only [initializeOnce, bind_eq_error, get_eq_error, get_eq_ok, false_or] at h
  obtain ⟨_, _, ⟨rfl, rfl⟩, h⟩ := h
  split_ifs at h
  · cases h
  · rcases bind_eq_error.1 h with hinit | ⟨_, _, -, hflag⟩
    · exact hinit
    · exact (modify_eq_error.1 hflag).elim

theorem served_initializeOnce (hA : Confined A) (hs : Schedule s) :
    (∀ u s', initializeOnce A s = .ok u s' → ∃ added, Served s s' [] added) ∧
      ∀ e s', initializeOnce A s = .error e s' → ∃ added, Served s s' [] added := by
  constructor
  · intro u s' h
    rcases initializeOnce_eq_ok h with ⟨-, rfl⟩ | ⟨v, s₁, hinit, rfl⟩
    · exact ⟨[], Served.refl hs⟩
    · obtain ⟨added, hadded⟩ := Served.touched hs (hA.init.ok hinit)
      exact ⟨added, hadded.congr rfl rfl⟩
  · intro e s' h
    exact Served.touched hs (hA.init.error (initializeOnce_eq_error h))

/-- the commands a call executes -/
def callTrace (A : RailAdapter κ σ α) (s : Engine κ σ α) : EngineCall κ → List (ScheduledCommand κ)
  | .schedule _ _ _ => []
  | .run turns cutoff =>
    if s.failure.isNone && cutoff.all fun u => decide (s.clock.now ≤ u) then
      match initializeOnce A s with
      | .ok _ s₁ => executed A cutoff turns s₁
      | .error _ _ => []
    else []

def callsTrace (A : RailAdapter κ σ α) : Engine κ σ α → List (EngineCall κ) → List (ScheduledCommand κ)
  | _, [] => []
  | s, c :: rest => callTrace A s c ++ callsTrace A (afterCall A s c) rest

/-- what a call comes to: the engine it leaves and the commands it executes -/
inductive CallOutcome (A : RailAdapter κ σ α) (s : Engine κ σ α) : Engine κ σ α → List (ScheduledCommand κ) → Prop where
  | refused : CallOutcome A s s []
  | scheduled {dueAt : Time} {priority : ℤ} {command : κ} {s' : Engine κ σ α} : s.failure = none →
    schedule dueAt priority command s = .ok () s' → CallOutcome A s s' []
  | unscheduled {dueAt : Time} {priority : ℤ} {command : κ} {e : SimError} {s' : Engine κ σ α} : s.failure = none →
    schedule dueAt priority command s = .error e s' → CallOutcome A s s' []
  | uninitialised {e : SimError} {s₁ : Engine κ σ α} : s.failure = none → initializeOnce A s = .error e s₁ →
    CallOutcome A s (s₁.markFailed e) []
  | ran {turns : ℕ} {cutoff : Option Time} {s₁ : Engine κ σ α} : s.failure = none → initializeOnce A s = .ok () s₁ →
    CallOutcome A s (finish (runLoop A cutoff turns s₁)) (executed A cutoff turns s₁)

/-- **Calls.** Every call has one of these outcomes. -/
theorem call_outcome (A : RailAdapter κ σ α) (s : Engine κ σ α) (c : EngineCall κ) :
    CallOutcome A s (afterCall A s c) (callTrace A s c) := by
  cases c with
  | schedule dueAt priority command =>
    by_cases hhealthy : s.failure = none
    · unfold afterCall
      cases h : call A (.schedule dueAt priority command) s with
      | ok u s' => exact .scheduled hhealthy h
      | error e s' => exact .unscheduled hhealthy h
    · rw [afterCall_failed _ hhealthy]
      exact .refused
  | run turns cutoff =>
    have hafter : afterCall A s (.run turns cutoff) =
        match run A turns cutoff s with
        | .ok _ t => t
        | .error _ t => t := rfl
    rw [hafter, callTrace]
    by_cases hrefused : Refused cutoff s
    · obtain ⟨e, he⟩ : ∃ e, run A turns cutoff s = .error e s := run_refused hrefused
      have hcond : (s.failure.isNone && cutoff.all fun u => decide (s.clock.now ≤ u)) = false := by
        rcases hrefused with hfailed | hpast
        · rw [Bool.and_eq_false_iff]
          left
          simpa [Option.isSome_iff_ne_none] using hfailed
        · rw [hpast, Bool.and_false]
      rw [he, hcond]
      exact .refused
    · rw [run_accepted hrefused]
      rw [Refused, not_or, not_not, Bool.not_eq_false] at hrefused
      rw [hrefused.1, hrefused.2]
      simp only [Option.isNone_none, Bool.and_self, if_true]
      cases hi : initializeOnce A s with
      | error e s₁ => exact .uninitialised hrefused.1 hi
      | ok u s₁ =>
        have hran : CallOutcome A s (finish (runLoop A cutoff turns s₁)) (executed A cutoff turns s₁) :=
          .ran hrefused.1 hi
        simp only
        cases hl : runLoop A cutoff turns s₁ with
        | error e s₂ =>
          rw [hl] at hran
          exact hran
        | ok u s₂ =>
          rw [hl] at hran
          exact hran

theorem served_markFailed {t : Engine κ σ α} {xs ys : List (ScheduledCommand κ)} (h : Served s t xs ys)
    (e : SimError) : Served s (t.markFailed e) xs ys := h.congr rfl rfl

/-- **Step.** What one call serves. -/
theorem served_call (hA : Confined A) (hs : Schedule s) (c : EngineCall κ) :
    ∃ added, Served s (afterCall A s c) (callTrace A s c) added := by
  have houtcome := call_outcome A s c
  generalize afterCall A s c = t at houtcome ⊢
  generalize callTrace A s c = trace at houtcome ⊢
  cases houtcome with
  | refused => exact ⟨[], Served.refl hs⟩
  | scheduled _ h => exact Served.touched hs ((within_schedule _ _ _).ok h)
  | unscheduled _ h => exact Served.touched hs ((within_schedule _ _ _).error h)
  | uninitialised _ h =>
    obtain ⟨added, hadded⟩ := (served_initializeOnce hA hs).2 _ _ h
    exact ⟨added, served_markFailed hadded _⟩
  | @ran turns cutoff s₁ _ h =>
    obtain ⟨added, hadded⟩ := (served_initializeOnce hA hs).1 _ _ h
    obtain ⟨added', hloop⟩ := served_runLoop hA cutoff turns hadded.schedule
    cases hl : runLoop A cutoff turns s₁ with
    | error e s₂ =>
      rw [hl] at hloop
      exact ⟨_, served_markFailed (hadded.trans hloop) e⟩
    | ok u s₂ =>
      rw [hl] at hloop
      exact ⟨_, hadded.trans hloop⟩

/-- **Run.** What any calls serve. -/
theorem served_calls (hA : Confined A) (hs : Schedule s) (calls : List (EngineCall κ)) :
    ∃ added, Served s (afterCalls A s calls) (callsTrace A s calls) added := by
  induction calls generalizing s with
  | nil => exact ⟨[], Served.refl hs⟩
  | cons c rest ih =>
    obtain ⟨added, hc⟩ := served_call hA hs c
    obtain ⟨added', hrest⟩ := ih hc.schedule
    exact ⟨_, hc.trans hrest⟩

theorem schedule_fresh (rail : Rail) (viewpoint : String) (uuidPrefix : ℕ) (start : Time) (ledger : Ledger)
    (adapter : α) : Schedule (fresh rail viewpoint uuidPrefix start ledger adapter : Engine κ σ α) :=
  ⟨List.Pairwise.nil, List.nodup_nil, by simp [fresh], by simp [fresh], rfl⟩

/-! ## Segments -/

/-- a loop keeps the engine initialised, and a failed engine failed -/
theorem runLoop_frame (hA : Confined A) (cutoff : Option Time) (turns : ℕ) (hs : Schedule s) :
    (left (runLoop A cutoff turns s)).initialized = s.initialized ∧
      ((left (runLoop A cutoff turns s)).failure = none → s.failure = none) := by
  induction turns generalizing s with
  | zero => exact ⟨rfl, id⟩
  | succ turns ih =>
    rw [runLoop_succ]
    cases hdue : nextDue cutoff s with
    | none => exact ⟨rfl, id⟩
    | some p =>
      obtain ⟨t, times⟩ := p
      obtain ⟨c, rest, hq, -, hok, herror⟩ := dispatch_after hA hs (nextDue_eq_some hdue)
      simp only
      cases hd : dispatch A t times s with
      | error e s₁ =>
        have htouched := herror e s₁ hd
        exact ⟨htouched.initialized, htouched.failure⟩
      | ok u s₁ =>
        obtain ⟨t', htouched, hclock, hindex, hinit, hfail⟩ := hok u s₁ hd
        have hschedule : Schedule s₁ :=
          ((Served.refl ((hs.popped hq).1.touched htouched)).congr hclock hindex).schedule
        obtain ⟨hloopinit, hloopfail⟩ := ih hschedule
        refine ⟨hloopinit.trans (hinit.trans htouched.initialized), fun h => ?_⟩
        exact htouched.failure (hfail ▸ hloopfail h)

theorem runLoop_healthy (hP : Propagates A) {u : Unit} (hf : s.failure = none) (h : runLoop A cutoff turns s = .ok u s')
    : s'.failure = none := by
  induction turns generalizing s with
  | zero =>
    cases h
    exact hf
  | succ turns ih =>
    rw [runLoop_succ] at h
    cases hdue : nextDue cutoff s with
    | none =>
      simp only [hdue] at h
      cases h
      exact hf
    | some p =>
      simp only [hdue] at h
      cases hd : dispatch A p.1 p.2 s with
      | error e s₁ =>
        rw [hd] at h
        cases h
      | ok u s₁ =>
        rw [hd] at h
        obtain ⟨scheduled, clock, emitted, s₂, -, -, hhandle, happend⟩ := dispatch_spec hd
        refine ih ?_ h
        rw [(appendBatch_frame happend).2.2.2]
        have hpopped : (Engine.mk s.rail s.viewpoint s.uuidPrefix s.uuidSequence clock s.ledger s.adapter s.entityState
          s.events s.seenEventIds p.2 s.initialized s.failure).failure = none := hf
        exact hP.handle hpopped hhandle

theorem initializeOnce_ok {u : Unit} (h : initializeOnce A s = .ok u s') : s'.initialized = true ∧
    (Propagates A → s.failure = none → s'.failure = none) := by
  rcases initializeOnce_eq_ok h with ⟨hdone, rfl⟩ | ⟨v, s₁, hinit, rfl⟩
  · exact ⟨hdone, fun _ hf => hf⟩
  · refine ⟨rfl, fun hP hf => ?_⟩
    change s₁.failure = none
    exact hP.init hf hinit

theorem initializeOnce_done (h : s.initialized = true) : initializeOnce A s = .ok () s := by
  have hget : (get : EngineM κ σ α (Engine κ σ α)) s = .ok s s := rfl
  simp only [initializeOnce, bind_run, hget, h, if_true]
  rfl

theorem markFailed_failure (s : Engine κ σ α) (e : SimError) : (s.markFailed e).failure ≠ none := by
  unfold markFailed
  cases s.failure <;> simp

/-- **Segments.** A run up to a cutoff and then to the end is a run to the end, wherever that leaves a healthy engine or
no callback catches a failed operation. -/
theorem runCall_segment (hA : Confined A) (cutoff : Option Time) (hs : Schedule s) (h : s'.failure = none ∨ Propagates A) :
    (∃ s₁, RunCall A cutoff s s₁ ∧ RunCall A none s₁ s') ↔ RunCall A none s s' := by
  by_cases hrefused : Refused cutoff s
  · constructor
    · rintro ⟨s₁, hfirst, hrest⟩
      rcases runCall_iff.1 hfirst with ⟨-, rfl⟩ | ⟨hno, -⟩
      · exact hrest
      · exact absurd hrefused hno
    · intro hrun
      exact ⟨s, runCall_iff.2 (.inl ⟨hrefused, rfl⟩), hrun⟩
  have hhealthy : s.failure = none := by
    by_contra hf
    exact hrefused (.inl hf)
  have hnone : ¬ Refused none s := by
    rintro (hf | hpast)
    · exact hf hhealthy
    · cases hpast
  -- a failed engine refuses the second call
  have hfailed : ∀ {t t' : Engine κ σ α}, t.failure ≠ none → (RunCall A none t t' ↔ t' = t) := by
    intro t t' ht
    rw [runCall_iff]
    constructor
    · rintro (⟨-, rfl⟩ | ⟨hno, -⟩)
      · rfl
      · exact absurd (.inl ht) hno
    · intro heq
      exact .inl ⟨.inl ht, heq⟩
  cases hi : initializeOnce A s with
  | error e t =>
    have hcall : ∀ {c : Option Time} {t' : Engine κ σ α}, ¬ Refused c s →
        (RunCall A c s t' ↔ t' = t.markFailed e) := by
      intro c t' hc
      rw [runCall_iff]
      constructor
      · rintro (⟨hr, -⟩ | ⟨-, ⟨e', t'', hi', rfl⟩ | ⟨t'', r, hi', -⟩⟩)
        · exact absurd hr hc
        · rw [hi] at hi'
          cases hi'
          rfl
        · rw [hi] at hi'
          cases hi'
      · intro heq
        exact .inr ⟨hc, .inl ⟨e, t, hi, heq⟩⟩
    constructor
    · rintro ⟨s₁, hfirst, hrest⟩
      rw [hcall hrefused] at hfirst
      subst hfirst
      rw [hfailed (markFailed_failure t e)] at hrest
      exact (hcall hnone).2 hrest
    · intro hrun
      rw [hcall hnone] at hrun
      subst hrun
      exact ⟨_, (hcall hrefused).2 rfl, (hfailed (markFailed_failure t e)).2 rfl⟩
  | ok u t =>
    obtain ⟨hinit, hprop⟩ := initializeOnce_ok hi
    obtain ⟨added, hserved⟩ := (served_initializeOnce hA hs).1 u t hi
    have hcall : ∀ {c : Option Time} {t' : Engine κ σ α}, ¬ Refused c s →
        (RunCall A c s t' ↔ ∃ r, LoopEnds A c t r ∧ t' = finish r) := by
      intro c t' hc
      rw [runCall_iff]
      constructor
      · rintro (⟨hr, -⟩ | ⟨-, ⟨e', t'', hi', -⟩ | ⟨t'', r, hi', hloop, hr⟩⟩)
        · exact absurd hr hc
        · rw [hi] at hi'
          cases hi'
        · rw [hi] at hi'
          cases hi'
          exact ⟨r, hloop, hr⟩
      · rintro ⟨r, hloop, hr⟩
        exact .inr ⟨hc, .inr ⟨t, r, hi, hloop, hr⟩⟩
    -- the loop up to the cutoff leaves an initialised engine, from which a healthy one goes on
    have hgoes : ∀ {s₁ t' : Engine κ σ α}, LoopEnds A cutoff t (.ok () s₁) → s₁.failure = none →
        (RunCall A none s₁ t' ↔ ∃ r, LoopEnds A none s₁ r ∧ t' = finish r) := by
      rintro s₁ t' ⟨n, hn, -⟩ hf
      have hdone : s₁.initialized = true := by
        have := (runLoop_frame hA cutoff n hserved.schedule).1
        rw [hn] at this
        exact this.trans hinit
      have hno : ¬ Refused none s₁ := by
        rintro (hfail | hpast)
        · exact hfail hf
        · cases hpast
      rw [runCall_iff]
      constructor
      · rintro (⟨hr, -⟩ | ⟨-, ⟨e', t'', hi', -⟩ | ⟨t'', r, hi', hloop, hr⟩⟩)
        · exact absurd hr hno
        · rw [initializeOnce_done hdone] at hi'
          cases hi'
        · rw [initializeOnce_done hdone] at hi'
          cases hi'
          exact ⟨r, hloop, hr⟩
      · rintro ⟨r, hloop, hr⟩
        exact .inr ⟨hno, .inr ⟨s₁, r, initializeOnce_done hdone, hloop, hr⟩⟩
    constructor
    · rintro ⟨s₁, hfirst, hrest⟩
      obtain ⟨r, hloop, rfl⟩ := (hcall hrefused).1 hfirst
      cases r with
      | error e s₂ =>
        rw [finish, hfailed (markFailed_failure s₂ e)] at hrest
        exact (hcall hnone).2 ⟨.error e s₂, loopEnds_segment.2 (.inr ⟨e, s₂, hloop, rfl⟩), hrest⟩
      | ok u' s₂ =>
        by_cases hf : s₂.failure = none
        · obtain ⟨r, hloop', hr⟩ := (hgoes hloop hf).1 hrest
          exact (hcall hnone).2 ⟨r, loopEnds_segment.2 (.inl ⟨s₂, hloop, hloop'⟩), hr⟩
        · exfalso
          rw [finish, hfailed hf] at hrest
          rcases h with hok | hP
          · exact hf (hrest ▸ hok)
          · obtain ⟨n, hn, -⟩ := hloop
            exact hf (runLoop_healthy hP (hprop hP hhealthy) hn)
    · intro hrun
      obtain ⟨r, hloop, hr⟩ := (hcall hnone).1 hrun
      rcases loopEnds_segment.1 hloop with ⟨s₂, hfirst, hrest⟩ | ⟨e, s₂, hfirst, rfl⟩
      · have hf : s₂.failure = none := by
          rcases h with hok | hP
          · obtain ⟨n, hn, hnh⟩ := hfirst
            obtain ⟨m, hm, -⟩ := hrest
            have hschedule : Schedule s₂ := by
              obtain ⟨_, hserve⟩ := served_runLoop hA cutoff n hserved.schedule
              rw [hn] at hserve
              exact hserve.schedule
            have hback := (runLoop_frame hA none m hschedule).2
            rw [hm] at hback
            refine hback ?_
            cases r with
            | error e s₃ =>
              rw [hr] at hok
              exact absurd hok (markFailed_failure s₃ e)
            | ok u' s₃ =>
              rw [hr] at hok
              exact hok
          · obtain ⟨n, hn, -⟩ := hfirst
            exact runLoop_healthy hP (hprop hP hhealthy) hn
        exact ⟨s₂, (hcall hrefused).2 ⟨_, hfirst, rfl⟩, (hgoes hfirst hf).2 ⟨r, hrest, hr⟩⟩
      · exact ⟨_, (hcall hrefused).2 ⟨_, hfirst, rfl⟩, (hfailed (markFailed_failure s₂ e)).2 hr⟩

/-- any cutoffs, and then to the end -/
theorem runCalls_segments (hA : Confined A) (hs : Schedule s) (h : s'.failure = none ∨ Propagates A)
    (cutoffs : List Time) : RunCalls A (cutoffs.map some ++ [none]) s s' ↔ RunCall A none s s' := by
  induction cutoffs generalizing s with
  | nil =>
    constructor
    · rintro ⟨s₁, hrun, hsame⟩
      have hsame : s' = s₁ := hsame
      exact hsame ▸ hrun
    · intro hrun
      exact ⟨s', hrun, rfl⟩
  | cons u rest ih =>
    rw [← runCall_segment hA (some u) hs h]
    refine exists_congr fun s₁ => and_congr_right fun hfirst => ?_
    obtain ⟨turns, -, rfl⟩ := hfirst
    obtain ⟨added, hserved⟩ := served_call hA hs (.run turns (some u))
    exact ih hserved.schedule

/-- what the loop leaves queued when it ends of itself: nothing, without a cutoff -/
theorem runCall_empty (hA : Confined A) (hs : Schedule s) (h : RunCall A none s s')
    (hf : s'.failure = none) : s'.clock.queue = [] := by
  rcases runCall_iff.1 h with ⟨hrefused, rfl⟩ | ⟨-, ⟨e, t, -, rfl⟩ | ⟨t, r, hinit, ⟨turns, rfl, hhalted⟩, rfl⟩⟩
  · rcases hrefused with hfailed | hpast
    · exact absurd hf hfailed
    · cases hpast
  · exact absurd hf (markFailed_failure t e)
  · obtain ⟨added, hserved⟩ := (served_initializeOnce hA hs).1 () t hinit
    obtain ⟨added', hloop⟩ := served_runLoop hA none turns hserved.schedule
    cases hrun : runLoop A none turns t with
    | error e t' =>
      rw [hrun] at hf
      exact absurd hf (markFailed_failure t' e)
    | ok u t' =>
      rw [hrun] at hloop hhalted
      have hnone : nextDue none t' = none := hhalted
      have hindex := hloop.schedule.index
      unfold nextDue at hnone
      cases htimes : t'.scheduledTimes with
      | cons due times => simp [htimes, isDue] at hnone
      | nil =>
        change t'.scheduledTimes = t'.clock.queue.map ScheduledCommand.dueAt at hindex
        rw [htimes] at hindex
        exact List.map_eq_nil_iff.1 hindex.symm

end Engine

open Engine

/-- **Runs in segments.** Take any adapter whose callbacks use their context only, and any initial schedule.
- `run(u₁), …, run(uₖ), run()` ends in the engine that `run()` alone ends in, with nothing left queued.
- Whatever calls were made, the next turn takes the least command queued, which is the one the due-time index announces;
the clock never goes back; and every number given to a command is executed once or still queued once. -/
theorem run_segments {κ σ α : Type} {A : RailAdapter κ σ α} (hA : ContextualAdapter A) (rail : Rail)
    (viewpoint : String) (uuidPrefix : ℕ) (start : Time) (ledger : Ledger) (adapter : α)
    (initial : List (Time × ℤ × κ)) :
    let s := afterCalls A (fresh rail viewpoint uuidPrefix start ledger adapter)
      (initial.map fun c => .schedule c.1 c.2.1 c.2.2)
    (∀ (cutoffs : List Time) (s' : Engine κ σ α), s'.failure = none ∨ Propagates A →
      (RunCalls A (cutoffs.map some ++ [none]) s s' ↔ RunCall A none s s')) ∧
    (∀ s', RunCall A none s s' → s'.failure = none → s'.clock.queue = []) ∧
    ∀ calls : List (EngineCall κ),
      let t := afterCalls A s calls
      (∀ due times, t.scheduledTimes = due :: times → ∃ c rest, t.clock.queue = c :: rest ∧ c.dueAt = due ∧
        t.clock.now ≤ c.dueAt ∧ (∀ d ∈ rest, c.before d = true) ∧
        dispatch A due times t = (A.handle c.command >>= appendBatch) (popped t c rest)) ∧
      (∀ c, t.clock.now ≤ (afterCall A t c).clock.now) ∧
      ((callsTrace A s calls ++ t.clock.queue).map ScheduledCommand.sequence).Perm (List.range t.clock.sequence) ∧
      (callsTrace A s calls).Pairwise fun c d => c.dueAt ≤ d.dueAt := by
  intro s
  have hempty : callsTrace A (fresh rail viewpoint uuidPrefix start ledger adapter)
      (initial.map fun c => .schedule c.1 c.2.1 c.2.2) = [] := by
    have key : ∀ (t : Engine κ σ α), callsTrace A t (initial.map fun c => .schedule c.1 c.2.1 c.2.2) = [] := by
      induction initial with
      | nil => exact fun t => rfl
      | cons c rest ih => exact fun t => ih _
    exact key _
  obtain ⟨queued, hqueued⟩ := served_calls hA.confined (schedule_fresh rail viewpoint uuidPrefix start ledger adapter)
    (initial.map fun c => .schedule c.1 c.2.1 c.2.2)
  have hs : Schedule s := hqueued.schedule
  refine ⟨fun cutoffs s' h => runCalls_segments hA.confined hs h cutoffs, fun s' h hf => runCall_empty hA.confined hs h hf, ?_⟩
  intro calls t
  obtain ⟨added, hserved⟩ := served_calls hA.confined hs calls
  have ht : Schedule t := hserved.schedule
  refine ⟨?_, ?_, ?_, hserved.ordered⟩
  · intro due times hdue
    obtain ⟨c, rest, hq, hat, hturn⟩ := dispatch_eq (A := A) ht hdue
    obtain ⟨-, hnow, hleast⟩ := ht.popped hq
    exact ⟨c, rest, hq, hat, hnow, hleast, hturn⟩
  · intro c
    obtain ⟨_, hcall⟩ := served_call hA.confined ht c
    exact hcall.now
  · -- the commands of the run from the fresh engine are numbered from zero
    have hall := hqueued.trans hserved
    rw [hempty, List.nil_append] at hall
    have hperm := hall.once.map ScheduledCommand.sequence
    have hnumbers := hall.numbers
    have hsequence := hall.sequence
    change t.clock.sequence = 0 + _ at hsequence
    change _ = List.range' 0 _ at hnumbers
    rw [Nat.zero_add] at hsequence
    change ((callsTrace A s calls ++ t.clock.queue).map _).Perm (([] ++ (queued ++ added)).map _) at hperm
    rw [List.nil_append, hnumbers, ← List.range_eq_range', ← hsequence] at hperm
    exact hperm

/-- an adapter that counts a command down, a second at a time -/
def countdown : RailAdapter ℕ Unit Unit where
  init := pure ()
  handle command := do
    let (_, _, now, _) ← fun s => .ok (s.rail, s.viewpoint, s.clock.now, s.ledger) s
    match command with
    | 0 => pure []
    | n + 1 => do
      Engine.schedule (now + 1) 0 n
      pure []

theorem countdown_contextual : ContextualAdapter countdown := by
  refine ⟨Contextual.pure (), fun command => Contextual.bind Contextual.view fun view => ?_⟩
  cases command with
  | zero => exact Contextual.pure []
  | succ n => exact Contextual.bind (Contextual.schedule _ _ _) fun _ => Contextual.pure []

/-- a countdown from two, cut at its first and its second step -/
theorem run_segments_countdown :
    let s := afterCalls countdown (fresh .card "" 0 0 ⟨[], ∅, [], []⟩ ()) [.schedule 5 0 2]
    let s' := afterCall countdown s (.run 4 none)
    s'.clock.now = 7 ∧ s'.clock.queue.length = 0 ∧ RunCalls countdown [some 5, some 6, none] s s' := by
  intro s s'
  have hrun : RunCall countdown none s s' := ⟨4, by decide +kernel, rfl⟩
  have hhealthy : s'.failure = none := by decide +kernel
  refine ⟨by decide +kernel, by decide +kernel, ?_⟩
  exact ((run_segments countdown_contextual .card "" 0 0 ⟨[], ∅, [], []⟩ () [(5, 0, 2)]).1 [5, 6] s'
    (.inl hhealthy)).2 hrun

end Apar
