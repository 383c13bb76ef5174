/-
Runs as sequences of delivered commands, and commands delivered again.

`deliver` hands one command to the adapter at a time and appends what it emits; `deliveries` are the commands that the
turns of a run delivered. An adapter is `Blind` when its callbacks use nothing of the schedule, and `Remembering` when
it recognises a command it has carried out and answers it with nothing.

- `deliveries_spec`: the books of a blind adapter's run are those its deliveries leave, one after the other.
- `remembered`: in a healthy engine every command delivered so far is recognised.
- `Redelivered.books`: commands delivered again, anywhere in a run, leave the books as they are.
-/
import Apar.Simulator.Schedules

namespace Apar

open Exec

namespace Engine

variable {κ σ α β γ : Type} {A : RailAdapter κ σ α} {s s' : Engine κ σ α}

/-! ## Callbacks that do not see the schedule -/

/-- the engine without its schedule -/
def erase (s : Engine κ σ α) : Engine κ σ α :=
  { s with clock := ⟨s.clock.now, 0, []⟩, scheduledTimes := [], initialized := false }

/-- a result, seen without the schedule -/
def eraseResult : EStateM.Result SimError (Engine κ σ α) β → EStateM.Result SimError (Engine κ σ α) β
  | .ok b s => .ok b s.erase
  | .error e s => .error e s.erase

/-- a computation that gives the same without the schedule -/
def Blind (x : EngineM κ σ α β) : Prop := ∀ s, x s.erase = eraseResult (x s)

theorem Blind.pure (b : β) : Blind (pure b : EngineM κ σ α β) := fun _ => rfl

theorem Blind.throw (e : SimError) : Blind (throw e : EngineM κ σ α β) := fun _ => rfl

theorem Blind.raising (x : Except SimError β) : Blind (raising x : EngineM κ σ α β) := by
  cases x with
  | ok b => exact Blind.pure b
  | error e => exact Blind.throw e

theorem Blind.bind {x : EngineM κ σ α β} {f : β → EngineM κ σ α γ} (hx : Blind x) (hf : ∀ b, Blind (f b)) :
    Blind (x >>= f) := by
  intro s
  rw [bind_run, bind_run, hx]
  cases x s with
  | ok b t => exact hf b t
  | error e t => rfl

/-- reading the state, for what is not the schedule -/
theorem Blind.get {f : Engine κ σ α → EngineM κ σ α β} (hf : ∀ s, f s.erase s.erase = eraseResult (f s s)) :
    Blind (get >>= f) := hf

theorem Blind.guarded {act : EngineM κ σ α β} (h : Blind act) : Blind (guarded act) := by
  intro s
  have hfail : s.erase.failure = s.failure := rfl
  unfold Engine.guarded
  rw [hfail, h]
  cases s.failure with
  | some e => rfl
  | none =>
    cases act s with
    | ok b t => rfl
    | error e t => rfl

/-- the engine set to a time -/
def atTime (s : Engine κ σ α) (t : Time) : Engine κ σ α := { s with clock := { s.clock with now := t } }

/-- the engine after a command is delivered at a time, whether the turn returned or raised -/
def deliver (A : RailAdapter κ σ α) (s : Engine κ σ α) (d : Time × κ) : Engine κ σ α :=
  finish ((A.handle d.2 >>= appendBatch) (s.atTime d.1))

/-- the same ledger, entity states, log and identifier sequence -/
structure BooksAgree (s s' : Engine κ σ α) : Prop where
  ledger : s'.ledger = s.ledger
  entityState : s'.entityState = s.entityState
  events : s'.events = s.events
  uuidSequence : s'.uuidSequence = s.uuidSequence

theorem BooksAgree.trans {t : Engine κ σ α} (h : BooksAgree s t) (h' : BooksAgree t s') : BooksAgree s s' :=
  ⟨h'.ledger.trans h.ledger, h'.entityState.trans h.entityState, h'.events.trans h.events,
    h'.uuidSequence.trans h.uuidSequence⟩

/-- an adapter that recognises the commands it has carried out, and answers them with nothing -/
structure Remembering (A : RailAdapter κ σ α) (Known : Engine κ σ α → κ → Prop) (same : κ → κ → Prop) : Prop where
  books : ∀ {s s' c}, SameBooks s s' → Known s c → Known s' c
  init : ∀ {s s' u c}, A.init s = .ok u s' → Known s c → Known s' c
  taken : ∀ {s s₁ s' c emitted}, A.handle c s = .ok emitted s₁ → appendBatch emitted s₁ = .ok () s' → Known s' c
  kept : ∀ {s s₁ s' c d emitted}, A.handle c s = .ok emitted s₁ → appendBatch emitted s₁ = .ok () s' →
    Known s d → Known s' d
  again : ∀ {s c d}, s.failure = none → Known s d → same c d → A.handle c s = .ok [] s
  failed : ∀ {s c}, s.failure ≠ none → ∃ e, A.handle c s = .error e s

theorem SameBooks.refl (s : Engine κ σ α) : SameBooks s s := rfl

variable {Known : Engine κ σ α → κ → Prop} {same : κ → κ → Prop}

theorem remembered_runLoop (hA : Remembering A Known same) {cutoff : Option Time} {turns : ℕ} {u : Unit}
    (h : runLoop A cutoff turns s = .ok u s') :
    (∀ d ∈ executed A cutoff turns s, Known s' d.command) ∧ ∀ c, Known s c → Known s' c := by
  induction turns generalizing s with
  | zero =>
    cases h
    exact ⟨by simp [executed], fun _ hc => hc⟩
  | succ turns ih =>
    rw [runLoop_succ] at h
    rw [executed]
    cases hdue : nextDue cutoff s with
    | none =>
      simp only [hdue] at h
      cases h
      exact ⟨by simp, fun _ hc => hc⟩
    | some p =>
      simp only [hdue] at h
      cases hd : dispatch A p.1 p.2 s with
      | error e s₁ =>
        rw [hd] at h
        cases h
      | ok v s₁ =>
        rw [hd] at h
        obtain ⟨htrace, hkept⟩ := ih h
        obtain ⟨scheduled, clock, emitted, s₂, hpop, -, hhandle, happend⟩ := dispatch_spec hd
        have hhead : s.clock.queue.head?.toList = [scheduled] := by
          unfold SimulationClock.pop at hpop
          cases hq : s.clock.queue with
          | nil => simp [hq] at hpop
          | cons c rest =>
            simp only [hq, Option.some.injEq, Prod.mk.injEq] at hpop
            rw [List.head?_cons, hpop.1]
            rfl
        rw [hhead]
        constructor
        · intro d hd'
          rcases List.mem_append.1 hd' with hd' | hd'
          · rw [List.mem_singleton.1 hd']
            exact hkept _ (hA.taken hhandle happend)
          · simp only [hd] at hd'
            exact htrace d hd'
        · intro c hc
          exact hkept c (hA.kept hhandle happend (hA.books rfl hc))

/-- **Memory.** In a healthy engine every command delivered so far is recognised. -/
theorem remembered (hA : Remembering A Known same) (calls : List (EngineCall κ))
    (hf : (afterCalls A s calls).failure = none) :
    (∀ d ∈ callsTrace A s calls, Known (afterCalls A s calls) d.command) ∧
      ∀ c, Known s c → Known (afterCalls A s calls) c := by
  induction calls generalizing s with
  | nil => exact ⟨by simp [callsTrace], fun _ hc => hc⟩
  | cons c rest ih =>
    change (afterCalls A (afterCall A s c) rest).failure = none at hf
    change (∀ d ∈ callTrace A s c ++ callsTrace A (afterCall A s c) rest,
      Known (afterCalls A (afterCall A s c) rest) d.command) ∧ _
    obtain ⟨hrest, hkept⟩ := ih hf
    have hhealthy : (afterCall A s c).failure = none := by
      by_contra hfail
      rw [afterCalls_failed rest hfail] at hf
      exact hfail hf
    have hcall : (∀ d ∈ callTrace A s c, Known (afterCall A s c) d.command) ∧
        ∀ d, Known s d → Known (afterCall A s c) d := by
      have houtcome := call_outcome A s c
      generalize afterCall A s c = t at houtcome hhealthy ⊢
      generalize callTrace A s c = trace at houtcome ⊢
      cases houtcome with
      | refused => exact ⟨by simp, fun _ hd => hd⟩
      | scheduled _ h =>
        refine ⟨by simp, fun d hd => hA.books ?_ hd⟩
        simp only [schedule, guarded_eq_ok, bind_eq_ok, get_eq_ok, raising_eq_ok, set_eq_ok] at h
        obtain ⟨-, _, _, ⟨rfl, rfl⟩, clock, _, ⟨-, rfl⟩, rfl⟩ := h
        rfl
      | unscheduled _ h => exact ⟨by simp, fun d hd => (guarded_error h hhealthy).symm ▸ hd⟩
      | uninitialised _ h => exact absurd hhealthy (markFailed_failure _ _)
      | @ran turns cutoff s₁ _ h =>
        have hinit : ∀ d, Known s d → Known s₁ d := by
          intro d hd
          rcases initializeOnce_eq_ok h with ⟨-, rfl⟩ | ⟨v, s₂, hinit, rfl⟩
          · exact hd
          · exact hA.books rfl (hA.init hinit hd)
        cases hl : runLoop A cutoff turns s₁ with
        | error e s₂ =>
          rw [hl] at hhealthy
          exact absurd hhealthy (markFailed_failure s₂ e)
        | ok u s₂ =>
          obtain ⟨htrace, hloop⟩ := remembered_runLoop hA hl
          exact ⟨htrace, fun d hd => hloop d (hinit d hd)⟩
    constructor
    · intro d hd
      rcases List.mem_append.1 hd with hd | hd
      · exact hkept _ (hcall.1 d hd)
      · exact hrest d hd
    · intro d hd
      exact hkept d (hcall.2 d hd)

/-- the second sequence of deliveries is the first with commands delivered again, each the same as one delivered before;
`seen` are the commands delivered so far -/
inductive Redelivered (same : κ → κ → Prop) : List κ → List (Time × κ) → List (Time × κ) → Prop where
  | done {seen : List κ} : Redelivered same seen [] []
  | first {seen : List κ} {d : Time × κ} {xs ys : List (Time × κ)} :
    Redelivered same (d.2 :: seen) xs ys → Redelivered same seen (d :: xs) (d :: ys)
  | again {seen : List κ} {t : Time} {c d : κ} {xs ys : List (Time × κ)} :
    d ∈ seen → same c d → Redelivered same seen xs ys → Redelivered same seen xs ((t, c) :: ys)

theorem deliver_atTime (s : Engine κ σ α) (t : Time) (d : Time × κ) : deliver A (s.atTime t) d = deliver A s d := rfl

theorem Remembering.deliver_again (hA : Remembering A Known same) {t : Time} {c d : κ}
    (hknown : s.failure = none → Known s d) (hsame : same c d) : deliver A s (t, c) = s.atTime t := by
  have hbooks : SameBooks s (s.atTime t) := rfl
  unfold deliver
  rw [bind_run]
  by_cases hs : s.failure = none
  · have hat : (s.atTime t).failure = none := hs
    rw [hA.again hat (hA.books hbooks (hknown hs)) hsame]
    simp only [appendBatch_nil]
    rfl
  · have hat : (s.atTime t).failure ≠ none := hs
    obtain ⟨e, he⟩ : ∃ e, A.handle c (s.atTime t) = .error e (s.atTime t) := hA.failed hat
    rw [he]
    obtain ⟨e', he'⟩ := Option.ne_none_iff_exists'.1 hs
    simp [finish, markFailed, atTime, he']

/-- **Delivered again.** Commands delivered again, anywhere, leave the books as they are. -/
theorem Redelivered.books (hA : Remembering A Known same) {seen : List κ} {xs ys : List (Time × κ)}
    (h : Redelivered same seen xs ys) {t : Time} (hseen : s.failure = none → ∀ c ∈ seen, Known s c) :
    BooksAgree (xs.foldl (deliver A) s) (ys.foldl (deliver A) (s.atTime t)) := by
  induction h generalizing s t with
  | done => exact ⟨rfl, rfl, rfl, rfl⟩
  | @first seen d xs ys h ih =>
    rw [List.foldl_cons, List.foldl_cons, deliver_atTime]
    have hnow : deliver A s d = (deliver A s d).atTime (deliver A s d).clock.now := rfl
    have key := @ih (deliver A s d) (deliver A s d).clock.now ?_
    · rw [← hnow] at key
      exact key
    · intro hf c hc
      -- a healthy engine carried the command out
      unfold deliver at hf ⊢
      rw [bind_run] at hf ⊢
      have hbooks : SameBooks s (s.atTime d.1) := rfl
      cases hhandle : A.handle d.2 (s.atTime d.1) with
      | error e s₁ =>
        rw [hhandle] at hf
        exact absurd hf (markFailed_failure s₁ e)
      | ok emitted s₁ =>
        rw [hhandle] at hf
        simp only at hf ⊢
        cases happend : appendBatch emitted s₁ with
        | error e s₂ =>
          rw [happend] at hf
          exact absurd hf (markFailed_failure s₂ e)
        | ok u s₂ =>
          have hhealthy : s.failure = none := by
            by_contra hfail
            have hat : (s.atTime d.1).failure ≠ none := hfail
            obtain ⟨e, he⟩ : ∃ e, A.handle d.2 (s.atTime d.1) = .error e (s.atTime d.1) := hA.failed hat
            rw [he] at hhandle
            cases hhandle
          rcases List.mem_cons.1 hc with rfl | hc
          · exact hA.taken hhandle happend
          · exact hA.kept hhandle happend (hA.books hbooks (hseen hhealthy c hc))
  | @again seen t' c d xs ys hd hsame h ih =>
    rw [List.foldl_cons, deliver_atTime, hA.deliver_again (fun hs => hseen hs d hd) hsame]
    exact ih hseen

end Engine

end Apar
