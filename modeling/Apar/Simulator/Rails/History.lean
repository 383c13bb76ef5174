/-
What the event log says about a payment.

A `Path` is a sequence of event kinds that the transition table emits from the created state. Over any run of a
lifecycle rail, the events logged for a payment are such a path to its stored state, they all carry the payment's own
amount, currency and parties, and no two events of the log share an id (`Log`).

- `log_preserved`: what a turn keeps, together with `Inv`.
-/
import Apar.Simulator.Rails.Positions

namespace Apar

open Exec

variable {S O R : Type}

/-- the event kinds of a run of the transition table from the created state -/
inductive Path (L : Lifecycle S O R) : S → List EventKind → Prop where
  | start : Path L L.created []
  | step {st next : S} {o : O} {kind : EventKind} {effect : Option (Posting R)} {kinds : List EventKind} :
    Path L st kinds → L.transition st o = some (next, kind, effect) → Path L next (kinds ++ [kind])

/-- an event carries the data of its payment -/
structure EventOf (L : Lifecycle S O R) (state : PaymentState S R) (e : PaymentEvent) : Prop where
  paymentId : e.paymentId? = some state.paymentId
  rail : e.rail = L.rail
  amount : e.amount = state.opening.amount
  currency : e.currency = state.opening.currency
  campaignId : e.campaignId = state.opening.campaignId
  actorId : e.actorId = state.opening.actorId
  counterpartyId : e.counterpartyId = state.opening.counterpartyId
  synthetic : e.lineage.get? "synthetic" = some (.flag true)

variable {L : Lifecycle S O R} {s : Engine (Command O) (PaymentState S R) Unit}

theorem EventOf.congr {state state' : PaymentState S R} {e : PaymentEvent} (h : EventOf L state e)
    (hid : state'.paymentId = state.paymentId) (ho : state'.opening = state.opening) : EventOf L state' e := by
  constructor
  · rw [hid]
    exact h.paymentId
  · exact h.rail
  · rw [ho]
    exact h.amount
  · rw [ho]
    exact h.currency
  · rw [ho]
    exact h.campaignId
  · rw [ho]
    exact h.actorId
  · rw [ho]
    exact h.counterpartyId
  · exact h.synthetic

theorem eventOf_event (L : Lifecycle S O R) (viewpoint : String) (now : Time) (state : PaymentState S R)
    (kind : EventKind) (eventId previousEventId : String) :
    EventOf L state (L.event viewpoint now state kind eventId previousEventId) := by
  refine ⟨Lifecycle.event_paymentId .., rfl, rfl, rfl, rfl, rfl, rfl, ?_⟩
  unfold Lifecycle.event
  split_ifs with hp
  · simp [Dict.ofList]
  · simp [Dict.ofList, Dict.get?_set]

/-- the events logged for a payment -/
def paymentEvents {κ σ α : Type} (s : Engine κ σ α) (paymentId : String) : List PaymentEvent :=
  s.events.filter fun e => e.paymentId? = some paymentId

/-- the log of a lifecycle rail -/
structure Log (L : Lifecycle S O R) (ctx : DecimalContext) (s : Engine (Command O) (PaymentState S R) Unit) :
    Prop where
  prefix_lt : s.uuidPrefix < 2 ^ 80
  issued : ∀ e ∈ s.events, ∃ n < s.uuidSequence, n < 2 ^ 48 ∧ e.eventId = Engine.uuidAt s.uuidPrefix n
  nodup : (s.events.map PaymentEvent.eventId).Nodup
  stored : ∀ paymentId state, s.entityState.get? paymentId = some state →
    state.paymentId = paymentId ∧ paymentId ≠ "" ∧ L.Canonical ctx state.opening
  owned : ∀ e ∈ s.events, ∃ paymentId state, s.entityState.get? paymentId = some state ∧ EventOf L state e
  path : ∀ paymentId state, s.entityState.get? paymentId = some state →
    Path L state.state ((paymentEvents s paymentId).map PaymentEvent.eventType)

theorem log_fresh (L : Lifecycle S O R) (ctx : DecimalContext) (rail : Rail) (viewpoint : String) {uuidPrefix : ℕ}
    (hhead : uuidPrefix < 2 ^ 80) (start : Time) (ledger : Ledger) :
    Log L ctx (Engine.fresh rail viewpoint uuidPrefix start ledger ()) := by
  refine ⟨hhead, ?_, ?_, ?_, ?_, ?_⟩ <;> simp [Engine.fresh]

theorem Log.books {L : Lifecycle S O R} {ctx : DecimalContext} {s s' : Engine (Command O) (PaymentState S R) Unit}
    (hs : Log L ctx s) (h : Lifecycle.Advanced s s' s.ledger s.entityState s.events s.uuidSequence) :
    Log L ctx s' := by
  refine ⟨?_, ?_, ?_, ?_, ?_, ?_⟩
  · exact h.uuidPrefix ▸ hs.prefix_lt
  · rw [h.events, h.uuidSequence, h.uuidPrefix]
    exact hs.issued
  · exact h.events ▸ hs.nodup
  · exact h.entityState ▸ hs.stored
  · rw [h.events, h.entityState]
    exact hs.owned
  · unfold paymentEvents
    rw [h.events, h.entityState]
    exact hs.path

theorem Log.eventOf {ctx : DecimalContext} (hs : Log L ctx s) {paymentId : String} {state : PaymentState S R}
    (hget : s.entityState.get? paymentId = some state) {e : PaymentEvent} (he : e ∈ paymentEvents s paymentId) :
    EventOf L state e := by
  unfold paymentEvents at he
  rw [List.mem_filter, decide_eq_true_eq] at he
  obtain ⟨paymentId', state', hget', hof⟩ := hs.owned e he.1
  have hid := (hs.stored _ _ hget').1
  rw [hof.paymentId, hid, Option.some.injEq] at he
  rw [he.2, hget, Option.some.injEq] at hget'
  exact hget' ▸ hof

theorem Log.paymentEvents_eq_nil {ctx : DecimalContext} (hs : Log L ctx s) {paymentId : String}
    (h : s.entityState.get? paymentId = none) : paymentEvents s paymentId = [] := by
  unfold paymentEvents
  rw [List.filter_eq_nil_iff]
  intro e he hp
  obtain ⟨id, state, hstate, hof⟩ := hs.owned e he
  have hstored := hs.stored _ _ hstate
  rw [decide_eq_true_eq, hof.paymentId, Option.some.injEq, hstored.1] at hp
  rw [hp, h] at hstate
  cases hstate

theorem Lifecycle.Transition.paymentEvents [Sha256] [DecidableEq S] {L : Lifecycle S O R} {ctx : DecimalContext}
    {s s₁ s' : Engine (Command O) (PaymentState S R) Unit} {emitted : List PaymentEvent}
    (t : Lifecycle.Transition L ctx s s₁ emitted) (h : s'.events = s.events ++ [t.event]) (paymentId : String) :
    Apar.paymentEvents s' paymentId =
      Apar.paymentEvents s paymentId ++ if paymentId = t.canonical.paymentId then [t.event] else [] := by
  have hpaymentId : t.event.paymentId? = some t.canonical.paymentId := by
    rw [← (Lifecycle.validatedState_spec t.valid).2.1]
    exact Lifecycle.event_paymentId ..
  unfold Apar.paymentEvents
  rw [h, List.filter_append]
  congr 1
  rcases eq_or_ne paymentId t.canonical.paymentId with rfl | hp
  · simp [hpaymentId]
  · simp [hpaymentId, hp, hp.symm]

/-- **Step.** A transition keeps the log. -/
theorem Log.advance [Sha256] [DecidableEq S] {ctx : DecimalContext} {s₁ s' : Engine (Command O) (PaymentState S R) Unit}
    {emitted : List PaymentEvent} (hs : Log L ctx s) (t : Lifecycle.Transition L ctx s s₁ emitted)
    (h : Lifecycle.Advanced s s' t.ledger (s.entityState.set t.canonical.paymentId t.updated) (s.events ++ [t.event])
      (s.uuidSequence + 1)) : Log L ctx s' := by
  obtain ⟨hcanonical, hid, hne⟩ := Lifecycle.validatedState_spec t.valid
  have hevent : EventOf L t.updated t.event := eventOf_event ..
  have heventId : t.event.eventId = Engine.uuidAt s.uuidPrefix s.uuidSequence := rfl
  -- the events logged so far for the payment lead to the state the transition starts from
  have hpath : Path L t.state.state ((paymentEvents s t.canonical.paymentId).map PaymentEvent.eventType) := by
    rcases t.loaded_cases with hget | ⟨hget, hcreated⟩
    · exact hs.path _ _ hget
    · rw [hs.paymentEvents_eq_nil hget, hcreated]
      exact Path.start
  refine ⟨?_, ?_, ?_, ?_, ?_, ?_⟩
  · exact h.uuidPrefix ▸ hs.prefix_lt
  · rw [h.events, h.uuidSequence, h.uuidPrefix]
    intro e he
    rw [List.mem_append, List.mem_singleton] at he
    rcases he with he | rfl
    · obtain ⟨n, hn, hlt, hen⟩ := hs.issued e he
      exact ⟨n, by omega, hlt, hen⟩
    · exact ⟨s.uuidSequence, by omega, t.sequence, heventId⟩
  · rw [h.events, List.map_append, List.nodup_append]
    refine ⟨hs.nodup, by simp, ?_⟩
    intro i hi j hj hij
    obtain ⟨e, he, rfl⟩ := List.mem_map.1 hi
    rw [List.map_singleton, List.mem_singleton] at hj
    obtain ⟨n, hn, hlt, hen⟩ := hs.issued e he
    rw [hij, hj, heventId] at hen
    have := Engine.uuidAt_inj hs.prefix_lt t.sequence hlt hen
    omega
  · rw [h.entityState]
    intro paymentId state hget
    rw [Dict.get?_set] at hget
    split_ifs at hget with hp
    · cases hget
      exact ⟨hp ▸ hid, hp ▸ hne, hcanonical⟩
    · exact hs.stored _ _ hget
  · rw [h.events, h.entityState]
    intro e he
    rw [List.mem_append, List.mem_singleton] at he
    rcases he with he | rfl
    · obtain ⟨paymentId, state, hstate, hof⟩ := hs.owned e he
      rcases eq_or_ne paymentId t.canonical.paymentId with rfl | hp
      · refine ⟨_, t.updated, Dict.get?_set_self .., ?_⟩
        rcases t.loaded_cases with hget | ⟨hget, -⟩
        · rw [hget, Option.some.injEq] at hstate
          exact hof.congr (hstate ▸ rfl) (hstate ▸ rfl)
        · rw [hget] at hstate
          cases hstate
      · exact ⟨paymentId, state, by rw [Dict.get?_set_of_ne _ _ hp]; exact hstate, hof⟩
    · exact ⟨_, t.updated, Dict.get?_set_self .., hevent⟩
  · rw [h.entityState]
    intro paymentId state hget
    rw [Dict.get?_set] at hget
    rw [t.paymentEvents h.events]
    split_ifs at hget with hp
    · cases hget
      subst hp
      rw [if_pos rfl, List.map_append]
      exact hpath.step t.legal
    · rw [if_neg hp, List.append_nil]
      exact hs.path _ _ hget

theorem log_preserved [Sha256] [DecidableEq S] (L : Lifecycle S O R) (ctx : DecimalContext) :
    Engine.Preserved (L.adapter ctx) (Log L ctx) where
  books := by
    intro s s' hs hsame
    refine hs.books ?_
    rw [hsame]
    exact ⟨rfl, rfl, rfl, rfl, rfl⟩
  init := by
    intro s s' u hs hinit
    rw [Lifecycle.init_spec hinit]
    exact hs
  turn := by
    intro s s₁ s' command emitted hs hhandle happend
    rcases Lifecycle.turn_spec hhandle happend with hsame | ⟨t, hadvanced⟩
    · exact hs.books hsame
    · exact hs.advance t hadvanced

end Apar
