/-
What an adapter callback can do (`_RailContext` in `simulator/engine.py`): read the scenario, the time and the ledger,
use its own state, and call the engine operations of its context, with any control flow around them.

`Contextual act` says that a computation is built from these alone. `Touched` is what such a computation leaves of the
engine: the clock only gains commands due now or later, with the due-time index kept in step (`Queued`), and nothing
else of the schedule or of the event log changes.

- `Schedule`, `Schedule.queued`: the invariant of the two queues, which scheduling keeps.
- `Contextual.within`: a contextual computation, returning or raising, only touches the engine.
-/
import Apar.Simulator.Engine

namespace Apar

open Exec

namespace ScheduledCommand

variable {κ : Type}

variable {a b : ScheduledCommand κ}

theorem before_iff : a.before b = true ↔
    a.dueAt < b.dueAt ∨ a.dueAt = b.dueAt ∧ (a.priority < b.priority ∨
      a.priority = b.priority ∧ a.sequence < b.sequence) := by
  simp [before]

theorem before_irrefl (a : ScheduledCommand κ) : a.before a = false := by
  simp [before]

theorem before_trans (a b c : ScheduledCommand κ) (hab : a.before b = true) (hbc : b.before c = true) :
    a.before c = true := by
  rw [before_iff] at hab hbc ⊢
  rcases hab with hab | ⟨hat, hab⟩
  · rcases hbc with hbc | ⟨hbt, -⟩
    · exact .inl (hab.trans hbc)
    · exact .inl (hbt ▸ hab)
  · rcases hbc with hbc | ⟨hbt, hbc⟩
    · exact .inl (hat ▸ hbc)
    · exact .inr ⟨hat.trans hbt, by omega⟩

theorem dueAt_le_of_before (h : b.before a = false) : a.dueAt ≤ b.dueAt := by
  by_contra hlt
  have hba : b.before a = true := before_iff.2 (.inl (not_le.1 hlt))
  rw [hba] at h
  cases h

/-- commands with different sequence numbers are ordered -/
theorem before_of_not (hne : a.sequence ≠ b.sequence) (h : b.before a = false) : a.before b = true := by
  rw [← Bool.not_eq_true, before_iff, not_or, not_lt, not_and] at h
  rw [before_iff]
  rcases lt_or_eq_of_le h.1 with hlt | heq
  · exact .inl hlt
  · have := h.2 heq.symm
    exact .inr ⟨heq, by omega⟩

end ScheduledCommand

namespace Engine

variable {κ σ α β : Type}

/-! ## The schedule -/

/-- the two queues after one command is scheduled -/
def pushCommand (s : Engine κ σ α) (c : ScheduledCommand κ) : Engine κ σ α :=
  { s with
    clock := { s.clock with
      sequence := s.clock.sequence + 1
      queue := heapPush ScheduledCommand.before c s.clock.queue }
    scheduledTimes := heapPush (fun a b => decide (a < b)) c.dueAt s.scheduledTimes }

/-- the clock's queue is in pop order, numbered without repetition, not overdue, and indexed by its due times -/
structure Schedule (s : Engine κ σ α) : Prop where
  order : PopOrder ScheduledCommand.before s.clock.queue
  numbers : (s.clock.queue.map ScheduledCommand.sequence).Nodup
  numbered : ∀ c ∈ s.clock.queue, c.sequence < s.clock.sequence
  due : ∀ c ∈ s.clock.queue, s.clock.now ≤ c.dueAt
  index : s.scheduledTimes = s.clock.queue.map ScheduledCommand.dueAt

variable {s s' : Engine κ σ α}

/-- a command due now or later may be scheduled under the next number -/
theorem Schedule.push (h : Schedule s) {c : ScheduledCommand κ} (hnow : s.clock.now ≤ c.dueAt)
    (hnumber : c.sequence = s.clock.sequence) : Schedule (s.pushCommand c) := by
  have hperm := heapPush_perm ScheduledCommand.before c s.clock.queue
  refine { order := ?_, numbers := ?_, numbered := ?_, due := ?_, index := ?_ }
  · exact heapPush_sorted ScheduledCommand.before_irrefl ScheduledCommand.before_trans c h.order
  · refine (hperm.map ScheduledCommand.sequence).nodup_iff.2 (List.nodup_cons.2 ⟨fun hmem => ?_, h.numbers⟩)
    obtain ⟨d, hd, hdc⟩ := List.mem_map.1 hmem
    have := h.numbered d hd
    omega
  · intro d hd
    rcases List.mem_cons.1 (hperm.mem_iff.1 hd) with rfl | hd
    · exact hnumber ▸ Nat.lt_succ_self _
    · exact (h.numbered d hd).trans (Nat.lt_succ_self _)
  · intro d hd
    rcases List.mem_cons.1 (hperm.mem_iff.1 hd) with rfl | hd
    · exact hnow
    · exact h.due d hd
  · show heapPush _ _ s.scheduledTimes = (heapPush _ _ s.clock.queue).map _
    rw [h.index]
    exact (@map_heapPush _ _ _ ScheduledCommand.before _ ScheduledCommand.dueAt_le_of_before
      ScheduledCommand.before_irrefl ScheduledCommand.before_trans c _ h.order).symm

/-! ## Callbacks -/

/-- a computation built from what an adapter's context offers -/
inductive Contextual : {β : Type} → EngineM κ σ α β → Prop where
  | pure {β : Type} (b : β) : Contextual (pure b)
  | throw {β : Type} (e : SimError) : Contextual (throw e : EngineM κ σ α β)
  | bind {β γ : Type} {x : EngineM κ σ α β} {f : β → EngineM κ σ α γ} :
    Contextual x → (∀ b, Contextual (f b)) → Contextual (x >>= f)
  | tryCatch {β : Type} {x : EngineM κ σ α β} {f : SimError → EngineM κ σ α β} :
    Contextual x → (∀ e, Contextual (f e)) → Contextual (tryCatch x f)
  /-- the scenario, the time and the ledger -/
  | view : Contextual (fun s : Engine κ σ α => .ok (s.rail, s.viewpoint, s.clock.now, s.ledger) s)
  /-- the adapter's own state -/
  | own {β : Type} (act : EStateM SimError α β) :
    Contextual (zoom (fun s : Engine κ σ α => s.adapter) (fun a s => { s with adapter := a }) act)
  | schedule (dueAt : Time) (priority : ℤ) (command : κ) : Contextual (schedule dueAt priority command)
  | post (ctx : DecimalContext) (entry : LedgerEntry) : Contextual (post ctx entry)
  | entityState? (entityId : String) : Contextual (entityState? entityId)
  | setEntityState (entityId : String) (state : σ) : Contextual (setEntityState entityId state)
  | newUuid : Contextual newUuid

/-- an adapter whose callbacks use their context only -/
structure ContextualAdapter (A : RailAdapter κ σ α) : Prop where
  init : Contextual A.init
  handle : ∀ command, Contextual (A.handle command)

/-- the two queues after some commands are scheduled, in order -/
structure Queued (s s' : Engine κ σ α) (added : List (ScheduledCommand κ)) : Prop where
  now : s'.clock.now = s.clock.now
  due : ∀ c ∈ added, s.clock.now ≤ c.dueAt
  numbers : added.map ScheduledCommand.sequence = List.range' s.clock.sequence added.length
  sequence : s'.clock.sequence = s.clock.sequence + added.length
  queue : s'.clock.queue = added.foldl (fun q c => heapPush ScheduledCommand.before c q) s.clock.queue
  index : s'.scheduledTimes =
    added.foldl (fun ts c => heapPush (fun a b => decide (a < b)) c.dueAt ts) s.scheduledTimes

theorem Queued.of_same (hclock : s'.clock = s.clock) (htimes : s'.scheduledTimes = s.scheduledTimes) : Queued s s' [] :=
  ⟨by rw [hclock], by simp, by simp, by rw [hclock]; rfl, by rw [hclock]; rfl, htimes⟩

theorem Queued.trans {s t u : Engine κ σ α} {xs ys : List (ScheduledCommand κ)} (h : Queued s t xs)
    (h' : Queued t u ys) : Queued s u (xs ++ ys) := by
  refine ⟨h'.now.trans h.now, ?_, ?_, ?_, ?_, ?_⟩
  · intro c hc
    rcases List.mem_append.1 hc with hc | hc
    · exact h.due c hc
    · exact h.now ▸ h'.due c hc
  · rw [List.map_append, h.numbers, h'.numbers, h.sequence, List.length_append, List.range'_append_1]
  · rw [h'.sequence, h.sequence, List.length_append, add_assoc]
  · rw [h'.queue, h.queue, List.foldl_append]
  · rw [h'.index, h.index, List.foldl_append]

/-- scheduling keeps the two queues in step -/
theorem Schedule.queued {added : List (ScheduledCommand κ)} (h : Schedule s) (hq : Queued s s' added) :
    Schedule s' := by
  have key : ∀ (added : List (ScheduledCommand κ)) (t : Engine κ σ α), Schedule t →
      (∀ c ∈ added, t.clock.now ≤ c.dueAt) →
      added.map ScheduledCommand.sequence = List.range' t.clock.sequence added.length →
      Schedule (added.foldl pushCommand t) := by
    intro added
    induction added with
    | nil => exact fun t ht _ _ => ht
    | cons c rest ih =>
      intro t ht hdue hnum
      rw [List.map_cons, List.length_cons, List.range'_succ, List.cons.injEq] at hnum
      refine ih _ (ht.push (hdue c (by simp)) hnum.1) (fun d hd => hdue d (by simp [hd])) ?_
      exact hnum.2
  have hfold : ∀ (added : List (ScheduledCommand κ)) (t : Engine κ σ α),
      (added.foldl pushCommand t).clock.now = t.clock.now ∧
      (added.foldl pushCommand t).clock.sequence = t.clock.sequence + added.length ∧
      (added.foldl pushCommand t).clock.queue =
        added.foldl (fun q c => heapPush ScheduledCommand.before c q) t.clock.queue ∧
      (added.foldl pushCommand t).scheduledTimes =
        added.foldl (fun ts c => heapPush (fun a b => decide (a < b)) c.dueAt ts) t.scheduledTimes := by
    intro added
    induction added with
    | nil => exact fun t => ⟨rfl, rfl, rfl, rfl⟩
    | cons c rest ih =>
      intro t
      obtain ⟨hnow, hseq, hqueue, htimes⟩ := ih (t.pushCommand c)
      refine ⟨hnow, hseq.trans ?_, hqueue, htimes⟩
      show t.clock.sequence + 1 + rest.length = _
      rw [List.length_cons]
      omega
  obtain ⟨hnow, hseq, hqueue, htimes⟩ := hfold added s
  have hs := key added s h hq.due hq.numbers
  refine ⟨?_, ?_, ?_, ?_, ?_⟩
  · rw [hq.queue, ← hqueue]
    exact hs.order
  · rw [hq.queue, ← hqueue]
    exact hs.numbers
  · rw [hq.queue, ← hqueue, hq.sequence, ← hseq]
    exact hs.numbered
  · rw [hq.queue, ← hqueue, hq.now, ← hnow]
    exact hs.due
  · rw [hq.queue, ← hqueue, hq.index, ← htimes]
    exact hs.index

theorem Queued.perm {added : List (ScheduledCommand κ)} (hq : Queued s s' added) :
    s'.clock.queue.Perm (s.clock.queue ++ added) := by
  have key : ∀ (added q : List (ScheduledCommand κ)),
      (added.foldl (fun q c => heapPush ScheduledCommand.before c q) q).Perm (q ++ added) := by
    intro added
    induction added with
    | nil => intro q; simp
    | cons c rest ih =>
      intro q
      refine (ih _).trans (((heapPush_perm _ c q).append_right rest).trans ?_)
      exact List.perm_middle.symm
  rw [hq.queue]
  exact key added s.clock.queue

/-- what a callback leaves of the engine -/
structure Touched (s s' : Engine κ σ α) : Prop where
  rail : s'.rail = s.rail
  viewpoint : s'.viewpoint = s.viewpoint
  uuidPrefix : s'.uuidPrefix = s.uuidPrefix
  uuidSequence : s.uuidSequence ≤ s'.uuidSequence
  events : s'.events = s.events
  seenEventIds : s'.seenEventIds = s.seenEventIds
  initialized : s'.initialized = s.initialized
  failure : s'.failure = none → s.failure = none
  scheduled : ∃ added, Queued s s' added

/-- a change of the books alone -/
theorem Touched.of_same {s s' : Engine κ σ α} (hrail : s'.rail = s.rail) (hview : s'.viewpoint = s.viewpoint)
    (hhead : s'.uuidPrefix = s.uuidPrefix) (hseq : s.uuidSequence ≤ s'.uuidSequence) (hclock : s'.clock = s.clock)
    (htimes : s'.scheduledTimes = s.scheduledTimes) (hevents : s'.events = s.events)
    (hseen : s'.seenEventIds = s.seenEventIds) (hinit : s'.initialized = s.initialized)
    (hfail : s'.failure = none → s.failure = none) : Touched s s' where
  rail := hrail
  viewpoint := hview
  uuidPrefix := hhead
  uuidSequence := hseq
  events := hevents
  seenEventIds := hseen
  initialized := hinit
  failure := hfail
  scheduled := ⟨[], .of_same hclock htimes⟩

theorem Touched.rfl (s : Engine κ σ α) : Touched s s :=
  .of_same (Eq.refl _) (Eq.refl _) (Eq.refl _) le_rfl (Eq.refl _) (Eq.refl _) (Eq.refl _) (Eq.refl _) (Eq.refl _) id

theorem Touched.trans {s t u : Engine κ σ α} (h : Touched s t) (h' : Touched t u) : Touched s u := by
  obtain ⟨xs, hxs⟩ := h.scheduled
  obtain ⟨ys, hys⟩ := h'.scheduled
  exact ⟨h'.rail.trans h.rail, h'.viewpoint.trans h.viewpoint, h'.uuidPrefix.trans h.uuidPrefix,
    h.uuidSequence.trans h'.uuidSequence, h'.events.trans h.events, h'.seenEventIds.trans h.seenEventIds,
    h'.initialized.trans h.initialized, fun hu => h.failure (h'.failure hu), xs ++ ys, hxs.trans hys⟩

theorem Touched.now {s s' : Engine κ σ α} (h : Touched s s') : s'.clock.now = s.clock.now := by
  obtain ⟨added, hadded⟩ := h.scheduled
  exact hadded.now

theorem Schedule.touched (hs : Schedule s) (h : Touched s s') : Schedule s' := by
  obtain ⟨added, hadded⟩ := h.scheduled
  exact hs.queued hadded

instance : Std.Refl (Touched : Engine κ σ α → Engine κ σ α → Prop) := ⟨Touched.rfl⟩

instance : IsTrans (Engine κ σ α) Touched := ⟨fun _ _ _ => Touched.trans⟩

theorem touched_markFailed (s : Engine κ σ α) (e : SimError) : Touched s (s.markFailed e) :=
  .of_same (Eq.refl _) (Eq.refl _) (Eq.refl _) le_rfl (Eq.refl _) (Eq.refl _) (Eq.refl _) (Eq.refl _) (Eq.refl _) (by
    unfold markFailed
    cases s.failure with
    | none => exact fun _ => Eq.refl _
    | some e' => exact fun h => by cases h)

theorem within_guarded {act : EngineM κ σ α β} (h : ∀ s, s.failure = none →
    (∀ b s', act s = .ok b s' → Touched s s') ∧ ∀ e s', act s = .error e s' → Touched s s') :
    Within Touched (guarded act) := by
  constructor
  · intro s b s' hs
    obtain ⟨hhealthy, hact⟩ := guarded_eq_ok.1 hs
    exact (h s hhealthy).1 b s' hact
  · intro s e s' hs
    unfold guarded at hs
    cases hf : s.failure with
    | some e' =>
      simp only [hf, EStateM.Result.error.injEq] at hs
      exact hs.2 ▸ Touched.rfl s
    | none =>
      cases hact : act s with
      | ok b t => simp [hf, hact] at hs
      | error e' t =>
        simp only [hf, hact, EStateM.Result.error.injEq] at hs
        exact hs.2 ▸ ((h s hf).2 e' t hact).trans (touched_markFailed t e')

theorem within_schedule (dueAt : Time) (priority : ℤ) (command : κ) :
    Within Touched (schedule dueAt priority command : EngineM κ σ α Unit) := by
  refine within_guarded fun s hs => ⟨fun b s' h => ?_, fun e s' h => ?_⟩
  · simp only [bind_eq_ok, get_eq_ok, raising_eq_ok, set_eq_ok] at h
    obtain ⟨_, _, ⟨rfl, rfl⟩, clock, _, ⟨hclock, rfl⟩, rfl⟩ := h
    unfold SimulationClock.schedule at hclock
    split_ifs at hclock with hpast
    cases hclock
    exact ⟨rfl, rfl, rfl, le_rfl, rfl, rfl, rfl, id, [⟨dueAt, priority, s.clock.sequence, command⟩], rfl,
      by simpa using not_lt.1 hpast, rfl, rfl, rfl, rfl⟩
  · simp only [bind_eq_error, get_eq_error, get_eq_ok, false_or] at h
    obtain ⟨_, _, ⟨rfl, rfl⟩, h | ⟨clock, t, h, hset⟩⟩ := h
    · exact (Within.raising _).error h
    · cases hset

theorem within_post (ctx : DecimalContext) (entry : LedgerEntry) :
    Within Touched (post ctx entry : EngineM κ σ α Unit) := by
  refine within_guarded fun s hs => ⟨fun b s' h => ?_, fun e s' h => ?_⟩
  · simp only [bind_eq_ok, get_eq_ok, raising_eq_ok, set_eq_ok] at h
    obtain ⟨_, _, ⟨rfl, rfl⟩, ledger, _, ⟨-, rfl⟩, rfl⟩ := h
    exact .of_same rfl rfl rfl le_rfl rfl rfl rfl rfl rfl id
  · simp only [bind_eq_error, get_eq_error, get_eq_ok, false_or] at h
    obtain ⟨_, _, ⟨rfl, rfl⟩, h | ⟨ledger, t, h, hset⟩⟩ := h
    · exact (Within.raising _).error h
    · cases hset

theorem within_entityState? (entityId : String) :
    Within Touched (entityState? entityId : EngineM κ σ α (Option σ)) :=
  Within.get.bind fun _ => (Within.guard _ _).bind fun _ => Within.pure _

theorem within_setEntityState (entityId : String) (state : σ) :
    Within Touched (setEntityState entityId state : EngineM κ σ α Unit) := by
  refine within_guarded fun s hs => ⟨fun b s' h => ?_, fun e s' h => ?_⟩
  · simp only [bind_eq_ok, get_eq_ok, guard_eq_ok, set_eq_ok] at h
    obtain ⟨_, _, ⟨rfl, rfl⟩, _, _, ⟨-, rfl⟩, rfl⟩ := h
    exact .of_same rfl rfl rfl le_rfl rfl rfl rfl rfl rfl id
  · simp only [bind_eq_error, get_eq_error, get_eq_ok, false_or] at h
    obtain ⟨_, _, ⟨rfl, rfl⟩, h | ⟨_, t, h, hset⟩⟩ := h
    · exact (Within.guard _ _).error h
    · cases hset

theorem within_newUuid : Within Touched (newUuid : EngineM κ σ α String) := by
  refine within_guarded fun s hs => ⟨fun b s' h => ?_, fun e s' h => ?_⟩
  · simp only [bind_eq_ok, get_eq_ok, guard_eq_ok, set_eq_ok, pure_eq_ok] at h
    obtain ⟨_, _, ⟨rfl, rfl⟩, _, _, ⟨-, rfl⟩, _, _, rfl, -, rfl⟩ := h
    exact .of_same rfl rfl rfl (Nat.le_succ _) rfl rfl rfl rfl rfl id
  · simp only [bind_eq_error, get_eq_error, get_eq_ok, false_or] at h
    obtain ⟨_, _, ⟨rfl, rfl⟩, h | ⟨_, t, h, hset | ⟨_, _, -, hpure⟩⟩⟩ := h
    · exact (Within.guard _ _).error h
    · cases hset
    · cases hpure

theorem within_tryCatch {x : EngineM κ σ α β} {f : SimError → EngineM κ σ α β} (hx : Within Touched x)
    (hf : ∀ e, Within Touched (f e)) : Within Touched (tryCatch x f) := by
  constructor
  · intro s b s' hs
    simp only [tryCatch, tryCatchThe, MonadExceptOf.tryCatch, EStateM.tryCatch] at hs
    cases hxs : x s with
    | ok b' t =>
      rw [hxs] at hs
      cases hs
      exact hx.ok hxs
    | error e t =>
      rw [hxs] at hs
      exact (hx.error hxs).trans ((hf e).ok hs)
  · intro s e' s' hs
    simp only [tryCatch, tryCatchThe, MonadExceptOf.tryCatch, EStateM.tryCatch] at hs
    cases hxs : x s with
    | ok b' t =>
      rw [hxs] at hs
      cases hs
    | error e t =>
      rw [hxs] at hs
      exact (hx.error hxs).trans ((hf e).error hs)

/-- **Callbacks.** Returning or raising, a contextual computation only touches the engine. -/
theorem Contextual.within {act : EngineM κ σ α β} (h : Contextual act) : Within Touched act := by
  induction h with
  | pure b => exact Within.pure b
  | throw e => exact Within.throw e
  | bind _ _ ihx ihf => exact ihx.bind ihf
  | tryCatch _ _ ihx ihf => exact within_tryCatch ihx ihf
  | view =>
    constructor
    · intro s b s' hs
      cases hs
      exact Touched.rfl s
    · intro s e s' hs
      cases hs
  | own act =>
    exact Within.zoom (fun a s => .of_same rfl rfl rfl le_rfl rfl rfl rfl rfl rfl id) act
  | schedule dueAt priority command => exact within_schedule dueAt priority command
  | post ctx entry => exact within_post ctx entry
  | entityState? entityId => exact within_entityState? entityId
  | setEntityState entityId state => exact within_setEntityState entityId state
  | newUuid => exact within_newUuid

/-- an adapter whose callbacks only touch the engine -/
structure Confined (A : RailAdapter κ σ α) : Prop where
  init : Within Touched A.init
  handle : ∀ command, Within Touched (A.handle command)

theorem ContextualAdapter.confined {A : RailAdapter κ σ α} (hA : ContextualAdapter A) : Confined A :=
  ⟨hA.init.within, fun command => (hA.handle command).within⟩

end Engine

end Apar
