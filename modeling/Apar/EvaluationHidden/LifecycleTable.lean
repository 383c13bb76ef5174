/-
The hidden oracle's lifecycle table against the rails (`_check_lifecycles` in `evaluation_hidden/validity.py`,
`_TRANSITIONS` in `simulator/rails/card.py` and `a2a.py`).

Over any run of a lifecycle rail the events of a payment are a path of its transition table (`Log`), and each of them
declares the one before it (`Chained`). What is left is to compare the paths to a resting state with the oracle's table:
they agree but for a reversal after clearing, which the card rail takes and the oracle does not.

- `Chained.checkLifecycles`: on a log whose payments carry legal sequences, the check adds nothing else.
- `lifecycles_agree`: what the check adds to a run of either rail whose payments rest.
- `cleared_reversal_rejected`: a run that the check rejects.
-/
import Apar.Simulator.Rails.History
import Apar.Simulator.Rails.Progress
import Apar.EvaluationHidden.Validity

namespace Apar

open Exec Engine Validity

variable {S O R : Type} {L : Lifecycle S O R} {ctx : DecimalContext}
  {s s' : Engine (Command O) (PaymentState S R) Unit}

/-! ## Chains -/

/-- the id of the last event, or the one before them all -/
def lastId (previous : String) (events : List PaymentEvent) : String :=
  (events.getLast?.map PaymentEvent.eventId).getD previous

@[simp] theorem lastId_snoc (previous : String) (events : List PaymentEvent) (e : PaymentEvent) :
    lastId previous (events ++ [e]) = e.eventId := by
  simp [lastId]

theorem lastId_cons (previous : String) (e : PaymentEvent) (events : List PaymentEvent) :
    lastId previous (e :: events) = lastId e.eventId events := by
  cases events with
  | nil => rfl
  | cons f rest => simp [lastId, List.getLast?_cons]

theorem checkChain_snoc (previous : String) (events : List PaymentEvent) (e : PaymentEvent) :
    checkChain previous (events ++ [e]) = checkChain previous events ++
      addUnless (declaredPrevious e = .text (lastId previous events)) .lineageInvalid := by
  induction events generalizing previous with
  | nil => exact List.append_nil _
  | cons f rest ih =>
    rw [List.cons_append, checkChain, checkChain, ih, lastId_cons, List.append_assoc]

theorem declaredPrevious_event (L : Lifecycle S O R) (viewpoint : String) (now : Time) (state : PaymentState S R)
    (kind : EventKind) (eventId previousEventId : String) :
    declaredPrevious (L.event viewpoint now state kind eventId previousEventId) = .text previousEventId := by
  unfold declaredPrevious Lifecycle.event
  split_ifs with hp
  · subst hp
    rfl
  · simp [Dict.ofList, Dict.getD]

/-! ## Chained logs -/

/-- a log in which the events of a payment form a chain up to the stored last event -/
structure Chained (L : Lifecycle S O R) (ctx : DecimalContext) (s : Engine (Command O) (PaymentState S R) Unit) :
    Prop where
  log : Log L ctx s
  last : ∀ paymentId state, s.entityState.get? paymentId = some state →
    state.lastEventId = lastId "" (paymentEvents s paymentId)
  chain : ∀ paymentId, checkChain "" (paymentEvents s paymentId) = []

theorem chained_fresh (L : Lifecycle S O R) (ctx : DecimalContext) (rail : Rail) (viewpoint : String) {uuidPrefix : ℕ}
    (hhead : uuidPrefix < 2 ^ 80) (start : Time) (ledger : Ledger) :
    Chained L ctx (fresh rail viewpoint uuidPrefix start ledger ()) := by
  refine ⟨log_fresh L ctx rail viewpoint hhead start ledger, ?_, fun _ => rfl⟩
  simp [fresh]

theorem Chained.books (hs : Chained L ctx s)
    (h : Lifecycle.Advanced s s' s.ledger s.entityState s.events s.uuidSequence) : Chained L ctx s' := by
  refine ⟨hs.log.books h, ?_, ?_⟩
  · unfold paymentEvents
    rw [h.events, h.entityState]
    exact hs.last
  · unfold paymentEvents
    rw [h.events]
    exact hs.chain

theorem Chained.loaded [Sha256] [DecidableEq S] {s₁ : Engine (Command O) (PaymentState S R) Unit}
    {emitted : List PaymentEvent} (hs : Chained L ctx s) (t : Lifecycle.Transition L ctx s s₁ emitted) :
    t.state.lastEventId = lastId "" (paymentEvents s t.canonical.paymentId) := by
  rcases t.loaded_cases with hget | ⟨hget, -⟩
  · exact hs.last _ _ hget
  · rw [hs.log.paymentEvents_eq_nil hget]
    have hloaded := t.loaded
    unfold Lifecycle.loadState at hloaded
    cases ho : t.canonical.opening with
    | none => simp [hget, ho] at hloaded
    | some o =>
      simp only [hget, ho, Except.ok.injEq] at hloaded
      rw [← hloaded]
      rfl

/-- **Step.** A transition continues the chain of its payment. -/
theorem Chained.advance [Sha256] [DecidableEq S] {s₁ : Engine (Command O) (PaymentState S R) Unit}
    {emitted : List PaymentEvent} (hs : Chained L ctx s) (t : Lifecycle.Transition L ctx s s₁ emitted)
    (h : Lifecycle.Advanced s s' t.ledger (s.entityState.set t.canonical.paymentId t.updated) (s.events ++ [t.event])
      (s.uuidSequence + 1)) : Chained L ctx s' := by
  refine ⟨hs.log.advance t h, ?_, ?_⟩
  · rw [h.entityState]
    intro paymentId state hget
    rw [Dict.get?_set] at hget
    rw [t.paymentEvents h.events]
    split_ifs at hget ⊢ with hp
    · cases hget
      rw [lastId_snoc]
      rfl
    · rw [List.append_nil]
      exact hs.last _ _ hget
  · intro paymentId
    rw [t.paymentEvents h.events]
    split_ifs with hp
    · subst hp
      rw [checkChain_snoc, hs.chain, List.nil_append, addUnless_eq_nil, decide_eq_true_eq, ← hs.loaded t]
      exact declaredPrevious_event ..
    · rw [List.append_nil]
      exact hs.chain _

theorem chained_preserved [Sha256] [DecidableEq S] (L : Lifecycle S O R) (ctx : DecimalContext) :
    Preserved (L.adapter ctx) (Chained L ctx) where
  books := by
    intro s s' hs hsame
    refine hs.books ?_
    rw [hsame]
    exact ⟨rfl, rfl, rfl, rfl, rfl⟩
  init := by
    intro s s' u hs hinit
    rw [Lifecycle.init_spec hinit]
    exact hs
  turn := by
    intro s s₁ s' command emitted hs hhandle happend
    rcases Lifecycle.turn_spec hhandle happend with hsame | ⟨t, hadvanced⟩
    · exact hs.books hsame
    · exact hs.advance t hadvanced

/-! ## What the check adds -/

/-- the events of a chained log are grouped by payment -/
theorem Chained.groups (hs : Chained L ctx s) {lifecycle : List PaymentEvent} :
    lifecycle ∈ (groupEvents s.events).values ↔
      ∃ paymentId state, s.entityState.get? paymentId = some state ∧ lifecycle = paymentEvents s paymentId ∧
        lifecycle ≠ [] := by
  have hid : ∀ e ∈ s.events, ∃ p state, s.entityState.get? p = some state ∧ paymentId e = some p ∧
      e.paymentId? = some p := by
    intro e he
    obtain ⟨p, state, hget, hof⟩ := hs.log.owned e he
    obtain ⟨hp, hne, -⟩ := hs.log.stored p state hget
    have hread : e.paymentId? = some p := hp ▸ hof.paymentId
    exact ⟨p, state, hget, by simp [paymentId, hread, hne], hread⟩
  have hall : s.events.filter (fun e => (paymentId e).isSome) = s.events := by
    rw [List.filter_eq_self]
    intro e he
    obtain ⟨p, -, -, hp, -⟩ := hid e he
    rw [hp]
    rfl
  have hkey : ∀ p, Grouping.ofKey (fun e => (paymentId e).getD "") s.events p = paymentEvents s p := by
    intro p
    refine List.filter_congr fun e he => ?_
    obtain ⟨q, -, -, hq, hread⟩ := hid e he
    simp [hq, hread]
  unfold groupEvents
  rw [hall, Dict.values, List.mem_map]
  constructor
  · rintro ⟨⟨p, group⟩, hmem, rfl⟩
    have hget := Dict.get?_eq_some.2 hmem
    rw [Grouping.get?_groupBy] at hget
    split_ifs at hget with hp
    obtain ⟨e, he, hep⟩ := List.mem_map.1 hp
    obtain ⟨q, state, hstate, hq, hread⟩ := hid e he
    simp only [hq, Option.getD_some] at hep
    subst hep
    cases hget
    refine ⟨q, state, hstate, hkey q, ?_⟩
    exact List.ne_nil_of_mem (Grouping.mem_ofKey.2 ⟨he, by simp [hq]⟩)
  · rintro ⟨p, state, hstate, rfl, hne⟩
    obtain ⟨e, he⟩ := List.exists_mem_of_ne_nil _ hne
    have hmem : p ∈ s.events.map fun e => (paymentId e).getD "" := by
      unfold paymentEvents at he
      rw [List.mem_filter, decide_eq_true_eq] at he
      obtain ⟨q, -, -, hq, hread⟩ := hid e he.1
      rw [hread, Option.some.injEq] at he
      exact List.mem_map.2 ⟨e, he.1, by simp [hq, he.2]⟩
    refine ⟨(p, paymentEvents s p), Dict.get?_eq_some.1 ?_, rfl⟩
    rw [Grouping.get?_groupBy, if_pos hmem, hkey]

/-- **One payment.** Its value fields are constant and its chain is exact, so the check looks at its sequence only. -/
theorem Chained.checkLifecycle (hs : Chained L ctx s) {paymentId : String} {state : PaymentState S R}
    (hget : s.entityState.get? paymentId = some state) (hne : paymentEvents s paymentId ≠ []) :
    Validity.checkLifecycle (paymentEvents s paymentId) =
      addUnless ((paymentEvents s paymentId).map PaymentEvent.eventType ∈ legal L.rail) .illegalLifecycle := by
  have hof : ∀ e ∈ paymentEvents s paymentId, EventOf L state e := fun _ he => hs.log.eventOf hget he
  have hchain := hs.chain paymentId
  cases hevents : paymentEvents s paymentId with
  | nil => exact absurd hevents hne
  | cons first rest =>
    rw [hevents] at hof hchain
    have hfirst := hof first (by simp)
    have hrail : ((first :: rest).all fun e => decide (e.rail = first.rail)) = true := by
      rw [List.all_eq_true]
      intro e he
      rw [decide_eq_true_eq, (hof e he).rail, hfirst.rail]
    have hvalue : ((first :: rest).all (sameValue first)) = true := by
      rw [List.all_eq_true]
      intro e he
      have he' := hof e he
      simp only [sameValue, Bool.and_eq_true, decide_eq_true_eq, Decimal.numEq_iff]
      refine ⟨⟨⟨?_, ?_⟩, ?_⟩, ?_⟩
      · rw [he'.amount, hfirst.amount]
      · rw [he'.currency, hfirst.currency]
      · rw [he'.actorId, hfirst.actorId]
      · rw [he'.counterpartyId, hfirst.counterpartyId]
    rw [checkChain, List.append_eq_nil_iff, addUnless_eq_nil, decide_eq_true_eq] at hchain
    have hroot : truthy (declaredPrevious first) = false := by
      rw [hchain.1]
      rfl
    rw [Validity.checkLifecycle, hrail, hvalue, hchain.2, hroot, hfirst.rail]
    simp [addUnless]

/-- **All payments.** On a chained log the check adds `ILLEGAL_LIFECYCLE` where a payment has a sequence that is not in
the table, and nothing else. -/
theorem Chained.mem_checkLifecycles (hs : Chained L ctx s) {r : Reason} :
    r ∈ checkLifecycles (groupEvents s.events) ↔ r = .illegalLifecycle ∧
      ∃ paymentId state, s.entityState.get? paymentId = some state ∧ paymentEvents s paymentId ≠ [] ∧
        (paymentEvents s paymentId).map PaymentEvent.eventType ∉ legal L.rail := by
  unfold checkLifecycles
  rw [List.mem_flatMap]
  constructor
  · rintro ⟨lifecycle, hmem, hr⟩
    obtain ⟨p, state, hget, rfl, hne⟩ := hs.groups.1 hmem
    rw [hs.checkLifecycle hget hne, mem_addUnless, decide_eq_false_iff_not] at hr
    exact ⟨hr.2, p, state, hget, hne, hr.1⟩
  · rintro ⟨rfl, p, state, hget, hne, hillegal⟩
    refine ⟨_, hs.groups.2 ⟨p, state, hget, rfl, hne⟩, ?_⟩
    rw [hs.checkLifecycle hget hne, mem_addUnless, decide_eq_false_iff_not]
    exact ⟨hillegal, rfl⟩

/-! ## Paths to a resting state -/

/-- the states a payment of the card rail may be left in -/
def cardResting : List CardState := [.declined, .reversed, .refunded, .recovery, .settled, .chargeback]

/-- the states a payment of the A2A rail may be left in -/
def a2aResting : List A2AState := [.rejected, .returned, .recovered, .posted]

/-- an authorisation that is reversed after it was cleared -/
def clearedReversal : List EventKind := [.authorization, .clearing, .reversal]

/-- the sequences of events that lead to a state of the card rail -/
def cardKinds : CardState → List (List EventKind)
  | .created => [[]]
  | .authorized => [[.authorization]]
  | .declined => [[.authorizationDeclined]]
  | .cleared => [[.authorization, .clearing]]
  | .settled => [[.authorization, .clearing, .settlement]]
  | .reported => [[.authorization, .clearing, .settlement, .fraudReported]]
  | .dispute => [[.authorization, .clearing, .settlement, .fraudReported, .disputeOpened]]
  | .chargeback => [[.authorization, .clearing, .settlement, .fraudReported, .disputeOpened, .chargeback]]
  | .recovery => [[.authorization, .clearing, .settlement, .fraudReported, .disputeOpened, .chargeback, .recovery]]
  | .reversed => [[.authorization, .reversal], clearedReversal]
  | .refunded => [[.authorization, .clearing, .settlement, .refund]]

/-- the sequence of events that leads to a state of the A2A rail -/
def a2aKinds : A2AState → List EventKind
  | .created => []
  | .initiated => [.transferInitiated]
  | .accepted => [.transferInitiated, .transferAccepted]
  | .rejected => [.transferInitiated, .transferRejected]
  | .posted => [.transferInitiated, .transferAccepted, .transferPosted]
  | .reported => [.transferInitiated, .transferAccepted, .transferPosted, .fraudReported]
  | .frozen => [.transferInitiated, .transferAccepted, .transferPosted, .fraudReported, .fundsFrozen]
  | .recovered => [.transferInitiated, .transferAccepted, .transferPosted, .fraudReported, .fundsFrozen, .recovery]
  | .returned => [.transferInitiated, .transferAccepted, .transferPosted, .transferReturned]

theorem card_kinds {st : CardState} {kinds : List EventKind} (h : Path cardRail st kinds) : kinds ∈ cardKinds st := by
  induction h with
  | start => exact List.mem_singleton.2 rfl
  | @step st next o kind effect kinds _ hlegal ih =>
    change Card.transition st o = some (next, kind, effect) at hlegal
    unfold Card.transition at hlegal
    split at hlegal <;> cases hlegal <;> simp_all [cardKinds, clearedReversal]

theorem a2a_kinds {st : A2AState} {kinds : List EventKind} (h : Path a2aRail st kinds) : kinds = a2aKinds st := by
  induction h with
  | start => rfl
  | @step st next o kind effect kinds _ hlegal ih =>
    change A2A.transition st o = some (next, kind, effect) at hlegal
    unfold A2A.transition at hlegal
    split at hlegal <;> cases hlegal <;> simp_all [a2aKinds]

theorem card_legal_iff {st : CardState} {kinds : List EventKind} (hst : st ∈ cardResting) (h : kinds ∈ cardKinds st) :
    kinds ∈ legal .card ↔ kinds ≠ clearedReversal := by
  simp only [cardResting, List.mem_cons, List.not_mem_nil, or_false] at hst
  rcases hst with rfl | rfl | rfl | rfl | rfl | rfl <;>
    simp only [cardKinds, List.mem_cons, List.not_mem_nil, or_false] at h
  · subst h
    decide
  · rcases h with rfl | rfl <;> decide
  all_goals
    subst h
    decide

theorem a2a_legal {st : A2AState} (hst : st ∈ a2aResting) : a2aKinds st ∈ legal .a2a := by
  simp only [a2aResting, List.mem_cons, List.not_mem_nil, or_false] at hst
  rcases hst with rfl | rfl | rfl | rfl <;> decide

/-! ## Runs -/

theorem chained_run [Sha256] [DecidableEq S] (L : Lifecycle S O R) (ctx : DecimalContext) (rail : Rail)
    (viewpoint : String) {uuidPrefix : ℕ} (hhead : uuidPrefix < 2 ^ 80) (start : Time) (ledger : Ledger)
    (calls : List (EngineCall (Command O)))
    (hs : s = afterCalls (L.adapter ctx) (fresh rail viewpoint uuidPrefix start ledger ()) calls) :
    ∃ t, Chained L ctx t ∧ s.entityState = t.entityState ∧ s.events = t.events := by
  subst hs
  have hatomic : Atomic (L.adapter ctx) (fun _ => ()) L.rail (Chained L ctx) :=
    { Lifecycle.atomic_adapter with
      preserved := chained_preserved L ctx
      handle := fun _ h => (Lifecycle.handle_failsWithin _ _ _ _ h).intact rfl }
  rcases hatomic.kept_books ctx rail viewpoint hhead start ledger () (chained_fresh L ctx rail viewpoint hhead start
    ledger) calls with h | ⟨-, t, ht, hintact⟩
  · exact ⟨_, h, rfl, rfl⟩
  · exact ⟨t, ht, hintact.entityState, hintact.events⟩

theorem paymentEvents_congr {t : Engine (Command O) (PaymentState S R) Unit} (h : s.events = t.events)
    (paymentId : String) : paymentEvents s paymentId = paymentEvents t paymentId := by
  unfold paymentEvents
  rw [h]

/-- **The lifecycle table agrees with the rails, a reversal after clearing apart.** When every payment of a run rests,
`_check_lifecycles` adds nothing to an A2A run, and to a card run it adds nothing but `ILLEGAL_LIFECYCLE`, exactly when
some payment was reversed after it was cleared. -/
theorem lifecycles_agree [Sha256] (ctx : DecimalContext) (rail : Rail) (viewpoint : String) (head b6 b7 b8 b9 : ℕ)
    (start : Time) (ledger : Ledger) :
    let p := versionedPrefix head b6 b7 b8 b9
    (∀ calls s, s = afterCalls (cardRail.adapter ctx) (fresh rail viewpoint p start ledger ()) calls →
      (∀ paymentId state, s.entityState.get? paymentId = some state → state.state ∈ cardResting) →
      ∀ r, r ∈ checkLifecycles (groupEvents s.events) ↔ r = .illegalLifecycle ∧
        ∃ paymentId, (paymentEvents s paymentId).map PaymentEvent.eventType = clearedReversal) ∧
    (∀ calls s, s = afterCalls (a2aRail.adapter ctx) (fresh rail viewpoint p start ledger ()) calls →
      (∀ paymentId state, s.entityState.get? paymentId = some state → state.state ∈ a2aResting) →
      checkLifecycles (groupEvents s.events) = []) := by
  intro p
  have hp : p < 2 ^ 80 := versionedPrefix_lt head b6 b7 b8 b9
  refine ⟨?_, ?_⟩
  · intro calls s hs hrest r
    obtain ⟨t, ht, hstates, hevents⟩ := chained_run cardRail ctx rail viewpoint hp start ledger calls hs
    rw [hstates] at hrest
    simp only [paymentEvents_congr hevents]
    have hlegal : ∀ paymentId state, t.entityState.get? paymentId = some state →
        ((paymentEvents t paymentId).map PaymentEvent.eventType ∈ legal .card ↔
          (paymentEvents t paymentId).map PaymentEvent.eventType ≠ clearedReversal) := fun _ _ hget =>
      card_legal_iff (hrest _ _ hget) (card_kinds (ht.log.path _ _ hget))
    rw [hevents, ht.mem_checkLifecycles]
    refine and_congr_right fun _ => ⟨?_, ?_⟩
    · rintro ⟨paymentId, state, hget, -, hillegal⟩
      refine ⟨paymentId, ?_⟩
      by_contra hne
      exact hillegal ((hlegal _ _ hget).2 hne)
    · rintro ⟨paymentId, hkinds⟩
      have hne : paymentEvents t paymentId ≠ [] := by
        intro hnil
        rw [hnil] at hkinds
        cases hkinds
      cases hget : t.entityState.get? paymentId with
      | none => exact absurd (ht.log.paymentEvents_eq_nil hget) hne
      | some state => exact ⟨paymentId, state, hget, hne, fun h => (hlegal _ _ hget).1 h hkinds⟩
  · intro calls s hs hrest
    obtain ⟨t, ht, hstates, hevents⟩ := chained_run a2aRail ctx rail viewpoint hp start ledger calls hs
    rw [hstates] at hrest
    rw [hevents, List.eq_nil_iff_forall_not_mem]
    intro r hr
    obtain ⟨-, paymentId, state, hget, -, hillegal⟩ := ht.mem_checkLifecycles.1 hr
    rw [a2a_kinds (ht.log.path _ _ hget)] at hillegal
    exact hillegal (a2a_legal (hrest _ _ hget))

/-! ## A reversal after clearing -/

open Lifecycle

namespace Card

/-- the payer has ten dollars -/
def fundedLedger : Ledger :=
  ((Ledger.create .default (.ofList [(.account "payer", ⟨1000, -2⟩)]) []).toOption).getD ⟨[], ∅, [], []⟩

def followup (operation : CardOperation) (idempotencyKey : String) : Command CardOperation :=
  ⟨some operation, operationName operation, .ofList [
    ("payment_id", .text "p1"), ("idempotency_key", .text idempotencyKey)]⟩

/-- an authorisation, its clearing and its reversal -/
def clearedReversalCalls : List (EngineCall (Command CardOperation)) :=
  [.schedule 0 0 ⟨some .authorizeCard, "card.authorize", samplePayload⟩, .schedule 1 0 (followup .clearCard "card.clear:p1"),
    .schedule 2 0 (followup .reverseCardAuthorization "card.reverse:p1"), .run 3 none]

/-- an authorisation and its reversal -/
def releasedCalls : List (EngineCall (Command CardOperation)) :=
  [.schedule 0 0 ⟨some .authorizeCard, "card.authorize", samplePayload⟩,
    .schedule 1 0 (followup .reverseCardAuthorization "card.reverse:p1"), .run 2 none]

def clearedReversalRun : CardEngine :=
  letI := sampleDigest
  afterCalls (cardRail.adapter .default)
    (fresh .card "development" (versionedPrefix 1 2 3 4 5) 0 fundedLedger ()) clearedReversalCalls

def releasedRun : CardEngine :=
  letI := sampleDigest
  afterCalls (cardRail.adapter .default)
    (fresh .card "development" (versionedPrefix 1 2 3 4 5) 0 fundedLedger ()) releasedCalls

def releasedPlan : List (Planned (Request CardOperation CardRole)) :=
  [(0, 0, ⟨.authorizeCard, "p1", "card.authorize:p1", some sampleOpen⟩),
    (1, 0, ⟨.reverseCardAuthorization, "p1", "card.reverse:p1", none⟩)]

def clearedReversalPlan : List (Planned (Request CardOperation CardRole)) :=
  [(0, 0, ⟨.authorizeCard, "p1", "card.authorize:p1", some sampleOpen⟩), (1, 0, ⟨.clearCard, "p1", "card.clear:p1", none⟩),
    (2, 0, ⟨.reverseCardAuthorization, "p1", "card.reverse:p1", none⟩)]

theorem clearedReversalPlan_wellformed : ∀ c ∈ clearedReversalPlan, Wellformed cardRail .default c.2.2 := by
  intro c hc
  simp only [clearedReversalPlan, List.mem_cons, List.not_mem_nil, or_false] at hc
  rcases hc with rfl | rfl | rfl
  · exact wellformed_opening rfl sampleOpen_request
  · exact wellformed_followup rfl (by decide) (by decide)
  · exact wellformed_followup rfl (by decide) (by decide)

theorem releasedPlan_wellformed : ∀ c ∈ releasedPlan, Wellformed cardRail .default c.2.2 := by
  intro c hc
  simp only [releasedPlan, List.mem_cons, List.not_mem_nil, or_false] at hc
  rcases hc with rfl | rfl
  · exact wellformed_opening rfl sampleOpen_request
  · exact wellformed_followup rfl (by decide) (by decide)

theorem releasedRun_eval : (releasedRun.entityState.items.map fun p => p.2.state) = [.reversed] ∧
    (releasedRun.events.map PaymentEvent.eventType) = [.authorization, .reversal] := by
  let _ := sampleDigest
  have heval : (Book.moves cardRail .default "development" (versionedPrefix 1 2 3 4 5) ⟨fundedLedger, ∅, [], 0⟩
      releasedPlan).any (fun b => decide ((b.payments.items.map fun p => p.2.state) = [.reversed] ∧
        b.events.map PaymentEvent.eventType = [.authorization, .reversal])) = true := by
    decide +kernel
  obtain ⟨s, b, hrun, -, hkeeps, hholds⟩ := plan_evaluated sampleDigest_text card_tables cardPositions.roles "development"
    1 2 3 4 5 releasedPlan_wellformed (by decide : ∀ c ∈ releasedPlan, (0 : Time) ≤ c.1) (by decide) heval
  obtain ⟨hitems, hkinds⟩ := of_decide_eq_true hholds
  have hsame : releasedRun = s := hrun
  rw [hsame, ← hitems, ← hkinds, ← hkeeps.payments, ← hkeeps.events, List.map_map]
  exact ⟨rfl, rfl⟩

end Card

theorem three_le_of_clearedReversal {paymentId : String}
    (h : (paymentEvents s paymentId).map PaymentEvent.eventType = clearedReversal) : 3 ≤ s.events.length := by
  have hle : (paymentEvents s paymentId).length ≤ s.events.length := List.length_filter_le _ _
  rw [← List.length_map (f := PaymentEvent.eventType), h] at hle
  exact hle

/-- a released authorisation -/
theorem lifecycles_agree_sample : checkLifecycles (groupEvents Card.releasedRun.events) = [] := by
  let _ : Sha256 := Card.sampleDigest
  obtain ⟨hitems, hkinds⟩ := Card.releasedRun_eval
  have hlength := congrArg List.length hkinds
  rw [List.length_map] at hlength
  have hrest : ∀ paymentId state, Card.releasedRun.entityState.get? paymentId = some state →
      state.state ∈ cardResting := by
    intro paymentId state hget
    have hmem := List.mem_map_of_mem (Dict.get?_eq_some.1 hget) (f := fun p => p.2.state)
    rw [hitems, List.mem_singleton] at hmem
    rw [hmem]
    decide
  have hagree := (lifecycles_agree .default .card "development" 1 2 3 4 5 0 Card.fundedLedger).1 Card.releasedCalls
    Card.releasedRun rfl hrest
  refine List.eq_nil_iff_forall_not_mem.2 fun r hr => ?_
  obtain ⟨-, paymentId, hcleared⟩ := (hagree r).1 hr
  have hle := three_le_of_clearedReversal hcleared
  rw [hlength] at hle
  exact absurd hle (by decide)

/-- the evaluated run: its health, its one payment, and the events logged for it -/
theorem Card.clearedReversalRun_eval : Card.clearedReversalRun.failure = none ∧
    (Card.clearedReversalRun.entityState.items.map fun p => (p.1, p.2.state)) = [("p1", .reversed)] ∧
    (paymentEvents Card.clearedReversalRun "p1").map PaymentEvent.eventType = clearedReversal := by
  let _ := Card.sampleDigest
  have heval : (Book.moves cardRail .default "development" (versionedPrefix 1 2 3 4 5) ⟨Card.fundedLedger, ∅, [], 0⟩
      Card.clearedReversalPlan).any (fun b => decide (
        (b.payments.items.map fun p => (p.1, p.2.state)) = [("p1", .reversed)] ∧
        (b.events.filter fun e => e.paymentId? = some "p1").map PaymentEvent.eventType = clearedReversal)) = true := by
    decide +kernel
  obtain ⟨s, b, hrun, hhealthy, hkeeps, hholds⟩ := plan_evaluated Card.sampleDigest_text card_tables cardPositions.roles
    "development" 1 2 3 4 5 Card.clearedReversalPlan_wellformed
    (by decide : ∀ c ∈ Card.clearedReversalPlan, (0 : Time) ≤ c.1) (by decide) heval
  obtain ⟨hitems, hkinds⟩ := of_decide_eq_true hholds
  have hsame : Card.clearedReversalRun = s := hrun
  rw [hsame, ← hitems, ← hkinds, ← hkeeps.payments, ← hkeeps.events, List.map_map]
  exact ⟨hhealthy, rfl, rfl⟩

/-- **The oracle rejects a run the rail takes.** The engine is healthy, its one payment is reversed, and the check adds
`ILLEGAL_LIFECYCLE`. -/
theorem cleared_reversal_rejected : Card.clearedReversalRun.failure = none ∧
    (∀ paymentId state, Card.clearedReversalRun.entityState.get? paymentId = some state →
      state.state ∈ cardResting) ∧
    .illegalLifecycle ∈ checkLifecycles (groupEvents Card.clearedReversalRun.events) := by
  let _ : Sha256 := Card.sampleDigest
  obtain ⟨hhealthy, hitems, hkinds⟩ := Card.clearedReversalRun_eval
  refine ⟨hhealthy, fun paymentId state hget => ?_, ?_⟩
  · have hmem := List.mem_map_of_mem (Dict.get?_eq_some.1 hget) (f := fun p => (p.1, p.2.state))
    rw [hitems, List.mem_singleton, Prod.mk.injEq] at hmem
    rw [hmem.2]
    decide
  · obtain ⟨t, ht, -, hevents⟩ := chained_run cardRail .default .card "development" (versionedPrefix_lt 1 2 3 4 5) 0
      Card.fundedLedger Card.clearedReversalCalls (s := Card.clearedReversalRun) rfl
    rw [paymentEvents_congr hevents] at hkinds
    have hne : paymentEvents t "p1" ≠ [] := by
      intro hnil
      rw [hnil] at hkinds
      cases hkinds
    rw [hevents, ht.mem_checkLifecycles]
    cases hget : t.entityState.get? "p1" with
    | none => exact absurd (ht.log.paymentEvents_eq_nil hget) hne
    | some state =>
      refine ⟨rfl, "p1", state, hget, hne, ?_⟩
      rw [hkinds]
      decide

end Apar
