/-
Runs in which every scheduled command is carried out.

A plan is a list of commands with their due times and priorities, in pop order. Scheduled on a fresh engine, its commands
wait in that order (`afterCalls_schedule`).

- `Carries`: the adapter carries out the commands that wait, one after the other.
- `Carries.run`: a run of as many turns ends in the engine the last of them leaves.
-/
import Apar.Simulator.Schedules

namespace Apar

open Exec

theorem heapPush_last {β : Type} {before : β → β → Bool} {x : β} {l : List β} (h : ∀ y ∈ l, before x y = false) :
    heapPush before x l = l ++ [x] := by
  induction l with
  | nil => rfl
  | cons y ys ih =>
    rw [heapPush, h y List.mem_cons_self, if_neg (by decide), ih fun z hz => h z (List.mem_cons_of_mem y hz)]
    rfl

namespace Engine

variable {κ σ α : Type} {A : RailAdapter κ σ α} {s s' : Engine κ σ α}

/-! ## Plans -/

/-- a command due at a time, with a priority -/
abbrev Planned (κ : Type) := Time × ℤ × κ

/-- one planned command may be taken before another -/
def Planned.Before (c d : Planned κ) : Prop := c.1 < d.1 ∨ c.1 = d.1 ∧ c.2.1 ≤ d.2.1

instance (c d : Planned κ) : Decidable (Planned.Before c d) :=
  inferInstanceAs (Decidable (c.1 < d.1 ∨ c.1 = d.1 ∧ c.2.1 ≤ d.2.1))

def Planned.call (c : Planned κ) : EngineCall κ := .schedule c.1 c.2.1 c.2.2

/-- a plan, numbered from `n` -/
def numbered (n : ℕ) : List (Planned κ) → List (ScheduledCommand κ)
  | [] => []
  | c :: rest => ⟨c.1, c.2.1, n, c.2.2⟩ :: numbered (n + 1) rest

/-- an engine on which a plan waits after what waited before -/
def waiting (s : Engine κ σ α) (plan : List (Planned κ)) : Engine κ σ α :=
  { s with
    clock := { s.clock with
      sequence := s.clock.sequence + plan.length
      queue := s.clock.queue ++ numbered s.clock.sequence plan }
    scheduledTimes := s.scheduledTimes ++ plan.map Prod.fst }

theorem numbered_length (n : ℕ) (plan : List (Planned κ)) : (numbered n plan).length = plan.length := by
  induction plan generalizing n with
  | nil => rfl
  | cons c rest ih => rw [numbered, List.length_cons, List.length_cons, ih]

theorem schedule_eq_ok {dueAt : Time} {priority : ℤ} {command : κ} (hf : s.failure = none) (hnow : s.clock.now ≤ dueAt) :
    schedule dueAt priority command s = .ok () (s.pushCommand ⟨dueAt, priority, s.clock.sequence, command⟩) := by
  have hget : (get : EngineM κ σ α (Engine κ σ α)) s = .ok s s := rfl
  simp only [schedule, guarded, hf, bind_run, hget, SimulationClock.schedule, not_lt.2 hnow, if_false]
  show EStateM.Result.ok _ _ = _
  rw [pushCommand, hf]

/-- everything queued may be taken before the command -/
def Last (s : Engine κ σ α) (c : Planned κ) : Prop :=
  ∀ q ∈ s.clock.queue, q.sequence < s.clock.sequence ∧ Planned.Before (q.dueAt, q.priority, q.command) c

theorem pushCommand_last (c : Planned κ) (hindex : s.scheduledTimes = s.clock.queue.map ScheduledCommand.dueAt)
    (hlast : s.Last c) : s.pushCommand ⟨c.1, c.2.1, s.clock.sequence, c.2.2⟩ = s.waiting [c] := by
  have hqueue : heapPush ScheduledCommand.before ⟨c.1, c.2.1, s.clock.sequence, c.2.2⟩ s.clock.queue =
      s.clock.queue ++ numbered s.clock.sequence [c] := by
    refine heapPush_last fun q hq => ?_
    obtain ⟨hsequence, hbefore⟩ := hlast q hq
    rw [← Bool.not_eq_true, ScheduledCommand.before_iff]
    simp only [Planned.Before] at hbefore
    rintro hlt
    rcases hbefore with hb | ⟨hb, hp⟩ <;> grind
  have htimes : heapPush (fun a b => decide (a < b)) c.1 s.scheduledTimes = s.scheduledTimes ++ [c].map Prod.fst := by
    refine heapPush_last fun t ht => ?_
    rw [hindex] at ht
    obtain ⟨q, hq, rfl⟩ := List.mem_map.1 ht
    have hle : q.dueAt ≤ c.1 := by
      rcases (hlast q hq).2 with h | h
      · exact h.le
      · exact h.1.le
    exact decide_eq_false (not_lt.2 hle)
  rw [pushCommand, hqueue, htimes]
  rfl

theorem waiting_nil (s : Engine κ σ α) : s.waiting [] = s := by
  rw [waiting, numbered, List.append_nil, List.map_nil, List.append_nil]
  rfl

theorem waiting_waiting (s : Engine κ σ α) (c : Planned κ) (rest : List (Planned κ)) :
    (s.waiting [c]).waiting rest = s.waiting (c :: rest) := by
  simp only [waiting, numbered, List.append_assoc, List.singleton_append, List.map_cons, List.map_nil, List.length_cons,
    List.length_nil, Nat.zero_add, Nat.add_assoc, Nat.add_comm 1]

/-- **Plans wait in order.** -/
theorem afterCalls_schedule {plan : List (Planned κ)} (hf : s.failure = none) (hnow : ∀ c ∈ plan, s.clock.now ≤ c.1)
    (horder : plan.Pairwise Planned.Before) (hindex : s.scheduledTimes = s.clock.queue.map ScheduledCommand.dueAt)
    (hlast : ∀ c ∈ plan, s.Last c) : afterCalls A s (plan.map Planned.call) = s.waiting plan := by
  induction plan generalizing s with
  | nil => exact (waiting_nil s).symm
  | cons c rest ih =>
    have hpush := pushCommand_last c hindex (hlast c List.mem_cons_self)
    have hcall : afterCall A s c.call = s.waiting [c] := by
      have hrun : call A c.call s = schedule c.1 c.2.1 c.2.2 s := rfl
      rw [afterCall, hrun, schedule_eq_ok hf (hnow c List.mem_cons_self), hpush]
    rw [List.pairwise_cons] at horder
    rw [← waiting_waiting]
    show afterCalls A (afterCall A s c.call) (rest.map Planned.call) = _
    rw [hcall]
    refine ih (s := s.waiting [c]) hf (fun d hd => hnow d (List.mem_cons_of_mem c hd)) horder.2 ?_ ?_
    · show s.scheduledTimes ++ _ = (s.clock.queue ++ _).map _
      rw [List.map_append, hindex]
      rfl
    · intro d hd q hq
      rcases List.mem_append.1 hq with hq | hq
      · obtain ⟨hsequence, hbefore⟩ := hlast d (List.mem_cons_of_mem c hd) q hq
        exact ⟨Nat.lt_succ_of_lt hsequence, hbefore⟩
      · rw [List.mem_singleton.1 hq]
        exact ⟨Nat.lt_succ_self _, horder.1 d hd⟩

/-! ## Runs -/

/-- the adapter carries out waiting commands, one after the other, and schedules no more -/
inductive Carries (A : RailAdapter κ σ α) : List (ScheduledCommand κ) → Engine κ σ α → Engine κ σ α → Prop where
  | done (s : Engine κ σ α) : Carries A [] s s
  | turn {c : ScheduledCommand κ} {rest : List (ScheduledCommand κ)} {s s₁ s' : Engine κ σ α}
      (taken : (A.handle c.command >>= appendBatch) (popped s c rest) = .ok () s₁)
      (clock : s₁.clock = (popped s c rest).clock) (times : s₁.scheduledTimes = (popped s c rest).scheduledTimes)
      (more : Carries A rest s₁ s') : Carries A (c :: rest) s s'

theorem Schedule.congr (hs : Schedule s) (hclock : s'.clock = s.clock) (htimes : s'.scheduledTimes = s.scheduledTimes) :
    Schedule s' := by
  refine ⟨?_, ?_, ?_, ?_, ?_⟩
  · exact hclock ▸ hs.order
  · exact hclock ▸ hs.numbers
  · exact hclock ▸ hs.numbered
  · exact hclock ▸ hs.due
  · rw [htimes, hclock, hs.index]

theorem Carries.runLoop {queue : List (ScheduledCommand κ)} (h : Carries A queue s s') (hs : Schedule s)
    (hqueue : s.clock.queue = queue) : runLoop A none queue.length s = .ok () s' := by
  induction h with
  | done s => rfl
  | @turn c rest s s₁ s' taken clock times more ih =>
    have htimes : s.scheduledTimes = c.dueAt :: rest.map ScheduledCommand.dueAt := by rw [hs.index, hqueue]; rfl
    have hdue : nextDue none s = some (c.dueAt, rest.map ScheduledCommand.dueAt) := by
      rw [nextDue, htimes]
      rfl
    obtain ⟨c', rest', hqueue', -, hdispatch⟩ := dispatch_eq (A := A) hs htimes
    obtain ⟨rfl, rfl⟩ := List.cons.inj (hqueue.symm.trans hqueue')
    rw [List.length_cons, runLoop_succ, hdue]
    simp only [hdispatch, taken]
    apply ih ((hs.popped hqueue).1.congr clock times)
    rw [clock]
    rfl

/-- **A plan carried out.** -/
theorem Carries.run (hs : Schedule s) (hf : s.failure = none) (hfirst : s.initialized = false)
    (hinit : A.init s = .ok () s) (h : Carries A s.clock.queue { s with initialized := true } s') :
    afterCall A s (.run s.clock.queue.length none) = s' := by
  have hinitialize : initializeOnce A s = .ok () { s with initialized := true } := by
    have hget : (get : EngineM κ σ α (Engine κ σ α)) s = .ok s s := rfl
    simp only [initializeOnce, bind_run, hget, hfirst, Bool.false_eq_true, if_false, hinit]
    rfl
  have hloop := h.runLoop (hs.congr rfl rfl) rfl
  have hrefused : ¬ Refused none s := by
    rintro (h | h)
    · exact h hf
    · cases h
  have hrun : call A (.run s.clock.queue.length none) s = Engine.run A s.clock.queue.length none s := rfl
  rw [afterCall, hrun, run_accepted hrefused, hinitialize]
  simp only [hloop]

theorem afterCalls_append (A : RailAdapter κ σ α) (s : Engine κ σ α) (calls more : List (EngineCall κ)) :
    afterCalls A s (calls ++ more) = afterCalls A (afterCalls A s calls) more := List.foldl_append

/-- **A plan carried out on a fresh engine.** -/
theorem Carries.calls (hA : Confined A) {rail : Rail} {viewpoint : String} {uuidPrefix : ℕ} {start : Time}
    {ledger : Ledger} {adapter : α} {plan : List (Planned κ)} (hnow : ∀ c ∈ plan, start ≤ c.1)
    (horder : plan.Pairwise Planned.Before) (hinit : ∀ s : Engine κ σ α, s.rail = rail → A.init s = .ok () s)
    (h : Carries A (numbered 0 plan)
      { (fresh rail viewpoint uuidPrefix start ledger adapter).waiting plan with initialized := true } s') :
    afterCalls A (fresh rail viewpoint uuidPrefix start ledger adapter)
      (plan.map Planned.call ++ [.run plan.length none]) = s' := by
  have hwaiting : afterCalls A (fresh rail viewpoint uuidPrefix start ledger adapter) (plan.map Planned.call) =
      (fresh rail viewpoint uuidPrefix start ledger adapter).waiting plan :=
    afterCalls_schedule rfl hnow horder rfl fun c _ q hq => absurd hq List.not_mem_nil
  obtain ⟨added, hserved⟩ := served_calls hA (schedule_fresh rail viewpoint uuidPrefix start ledger adapter)
    (plan.map Planned.call)
  rw [hwaiting] at hserved
  have hrun := Carries.run hserved.schedule rfl rfl (hinit _ rfl) h
  rw [afterCalls_append, hwaiting, ← hrun]
  show _ = afterCall A _ (.run (numbered 0 plan).length none)
  rw [numbered_length]
  rfl

end Engine

end Apar
