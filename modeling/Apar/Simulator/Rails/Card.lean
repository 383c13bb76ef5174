/-
The card rail (`simulator/rails/card.py`): eleven states from authorisation to recovery, ten commands, five account
roles.

`cardPosition` is what a payment's state says about the ledger: nothing in CREATED, DECLINED, REVERSED, REFUNDED and
RECOVERY; the amount held in AUTHORIZED and CLEARED; the amount paid out, less the fee, in SETTLED, REPORTED and DISPUTE;
the amount with the chargeback account in CHARGEBACK.

- `card_net_effect`: over any run, the entries posted for a payment add up to its state's position, and the balances
  are the opening balances plus all positions as long as no balance outgrows the decimal context.
- `card_balance_rounds`: at 10^28 minor units a balance loses the cents of an authorisation.
-/
import Apar.Simulator.Rails.Positions

namespace Apar

/-! ## Tables -/

inductive CardState where
  | created
  | authorized
  | declined
  | cleared
  | settled
  | reported
  | dispute
  | chargeback
  | recovery
  | reversed
  | refunded
deriving DecidableEq, Repr

inductive CardOperation where
  | authorizeCard
  | declineCardAuthorization
  | clearCard
  | settleCard
  | reverseCardAuthorization
  | reportCardFraud
  | openCardDispute
  | chargebackCard
  | recoverCard
  | refundCard
deriving DecidableEq, Repr

inductive CardRole where
  | payer
  | payee
  | hold
  | fee
  | chargeback
deriving DecidableEq, Repr

instance : Fintype CardRole :=
  ⟨{.payer, .payee, .hold, .fee, .chargeback}, fun r => by cases r <;> decide⟩

namespace Card

def stateValue : CardState → String
  | .created => "created"
  | .authorized => "authorized"
  | .declined => "declined"
  | .cleared => "cleared"
  | .settled => "settled"
  | .reported => "reported"
  | .dispute => "dispute"
  | .chargeback => "chargeback"
  | .recovery => "recovery"
  | .reversed => "reversed"
  | .refunded => "refunded"

/-- `_COMMAND_OPERATIONS` -/
def operationName : CardOperation → String
  | .authorizeCard => "card.authorize"
  | .declineCardAuthorization => "card.decline"
  | .clearCard => "card.clear"
  | .settleCard => "card.settle"
  | .reverseCardAuthorization => "card.reverse"
  | .reportCardFraud => "card.report"
  | .openCardDispute => "card.dispute"
  | .chargebackCard => "card.chargeback"
  | .recoverCard => "card.recover"
  | .refundCard => "card.refund"

def operations : List CardOperation :=
  [.authorizeCard, .declineCardAuthorization, .clearCard, .settleCard, .reverseCardAuthorization, .reportCardFraud,
    .openCardDispute, .chargebackCard, .recoverCard, .refundCard]

def isOpening (o : CardOperation) : Bool := o = .authorizeCard || o = .declineCardAuthorization

def roleKey : CardRole → String
  | .payer => "payer_account"
  | .payee => "payee_account"
  | .hold => "hold_account"
  | .fee => "fee_account"
  | .chargeback => "chargeback_account"

def hold : Posting CardRole := ⟨"hold", [(.payer, .amount)], [(.hold, .amount)]⟩

def releaseHold : Posting CardRole := ⟨"release", [(.hold, .amount)], [(.payer, .amount)]⟩

def settle : Posting CardRole := ⟨"settle", [(.hold, .amount)], [(.payee, .amountLessFee), (.fee, .fee)]⟩

def refund : Posting CardRole := ⟨"refund", [(.payee, .amountLessFee), (.fee, .fee)], [(.payer, .amount)]⟩

def chargeback : Posting CardRole :=
  ⟨"chargeback", [(.payee, .amountLessFee), (.fee, .fee)], [(.chargeback, .amount)]⟩

def recovery : Posting CardRole := ⟨"recovery", [(.chargeback, .amount)], [(.payer, .amount)]⟩

/-- `_TRANSITIONS` -/
def transition : CardState → CardOperation → Option (CardState × EventKind × Option (Posting CardRole))
  | .created, .authorizeCard => some (.authorized, .authorization, some hold)
  | .created, .declineCardAuthorization => some (.declined, .authorizationDeclined, none)
  | .authorized, .clearCard => some (.cleared, .clearing, none)
  | .authorized, .reverseCardAuthorization => some (.reversed, .reversal, some releaseHold)
  | .cleared, .reverseCardAuthorization => some (.reversed, .reversal, some releaseHold)
  | .cleared, .settleCard => some (.settled, .settlement, some settle)
  | .settled, .reportCardFraud => some (.reported, .fraudReported, none)
  | .settled, .refundCard => some (.refunded, .refund, some refund)
  | .reported, .openCardDispute => some (.dispute, .disputeOpened, none)
  | .dispute, .chargebackCard => some (.chargeback, .chargeback, some chargeback)
  | .chargeback, .recoverCard => some (.recovery, .recovery, some recovery)
  | _, _ => none

/-- `_MISSING_CODES.get(type(command), "CARD_INVALID_TRANSITION")` -/
def missingCode : CardOperation → String
  | .clearCard => "CARD_CLEAR_BEFORE_AUTHORIZE"
  | .settleCard => "CARD_SETTLE_BEFORE_CLEAR"
  | .reverseCardAuthorization => "CARD_REVERSE_BEFORE_AUTHORIZE"
  | .reportCardFraud => "CARD_REPORT_BEFORE_SETTLEMENT"
  | .openCardDispute => "CARD_DISPUTE_BEFORE_REPORT"
  | .chargebackCard => "CARD_CHARGEBACK_BEFORE_DISPUTE"
  | .recoverCard => "CARD_RECOVERY_BEFORE_CHARGEBACK"
  | .refundCard => "CARD_REFUND_BEFORE_SETTLEMENT"
  | _ => "CARD_INVALID_TRANSITION"

/-- `_invalid_code` -/
def invalidCode (current : CardState) (operation : CardOperation) : String :=
  if operation = .reverseCardAuthorization ∧
      current ∈ [CardState.settled, .reported, .dispute, .chargeback, .recovery] then
    "CARD_REVERSE_AFTER_SETTLEMENT"
  else missingCode operation

end Card

def cardRail : Lifecycle CardState CardOperation CardRole where
  rail := .card
  codes := "CARD"
  noun := "card"
  scenarioMessage := "card adapter requires a card scenario"
  beginMessage := "card history must begin with an opening operation"
  repeatMessage := "card history contains a repeated opening operation"
  historyDomain := "apar.card-history.v1"
  created := .created
  stateValue := Card.stateValue
  operations := Card.operations
  operationName := Card.operationName
  isOpening := Card.isOpening
  roles := [.payer, .payee, .hold, .fee, .chargeback]
  roleKey := Card.roleKey
  feeWithinAmount := true
  transition := Card.transition
  missingCode := Card.missingCode
  invalidCode := Card.invalidCode

/-! ## Positions -/

/-- the value a card payment of amount `a` and fee `f` has moved onto the account of a role -/
def cardPosition : CardState → CardRole → ℚ → ℚ → ℚ
  | .authorized, .payer, a, _ | .cleared, .payer, a, _ => -a
  | .authorized, .hold, a, _ | .cleared, .hold, a, _ => a
  | .settled, .payer, a, _ | .reported, .payer, a, _ | .dispute, .payer, a, _ => -a
  | .settled, .payee, a, f | .reported, .payee, a, f | .dispute, .payee, a, f => a - f
  | .settled, .fee, _, f | .reported, .fee, _, f | .dispute, .fee, _, f => f
  | .chargeback, .payer, a, _ => -a
  | .chargeback, .chargeback, a, _ => a
  | _, _, _, _ => 0

theorem cardPosition_step {st next : CardState} {o : CardOperation} {kind : EventKind}
    {effect : Option (Posting CardRole)} (h : Card.transition st o = some (next, kind, effect)) (r : CardRole)
    (a f : ℚ) : cardPosition next r a f = cardPosition st r a f + effectOn effect r a f := by
  unfold Card.transition at h
  split at h <;> cases h <;> cases r <;>
    simp [cardPosition, effectOn, legsOn, LegAmount.value, Card.hold, Card.releaseHold, Card.settle, Card.refund,
      Card.chargeback, Card.recovery]

theorem card_legs_nodup {st next : CardState} {o : CardOperation} {kind : EventKind} {posting : Posting CardRole}
    (h : Card.transition st o = some (next, kind, some posting)) :
    ((posting.debit ++ posting.credit).map Prod.fst).Nodup := by
  unfold Card.transition at h
  split at h <;> cases h <;> decide

theorem cardRail_roles (r : CardRole) : r ∈ cardRail.roles := by
  cases r <;> simp [cardRail]

def cardPositions : PositionTable cardRail where
  position := cardPosition
  created := fun r a f => by cases r <;> rfl
  step := cardPosition_step
  legs_nodup := card_legs_nodup
  roles := cardRail_roles

/-! ## Runs -/

abbrev CardEngine := Engine (Command CardOperation) (PaymentState CardState CardRole) Unit

/-- **Card positions.** In every healthy state of every run, the entries posted for a payment add up to the position of
its stored state, an id without a stored payment has no net effect, and, as long as no exact balance outgrows the
decimal context, every balance is its opening balance plus the positions of all payments. -/
theorem card_net_effect [Sha256] (ctx : DecimalContext) {opening : Dict AccountReference Decimal}
    {allow : List AccountReference} {ledger : Ledger} (hledger : Ledger.create ctx opening allow = .ok ledger)
    (rail : Rail) (viewpoint : String) (head b6 b7 b8 b9 : ℕ) (start : Time)
    (calls : List (Engine.EngineCall (Command CardOperation))) (s : CardEngine)
    (hs : s = Engine.afterCalls (cardRail.adapter ctx)
      (Engine.fresh rail viewpoint (Engine.versionedPrefix head b6 b7 b8 b9) start ledger ()) calls)
    (hf : s.failure = none) :
    (∀ paymentId state, s.entityState.get? paymentId = some state → ∀ account currency,
      Ledger.netEffect (paymentEntries s paymentId) account currency =
        positionOn cardPositions state account currency) ∧
    (∀ paymentId, s.entityState.get? paymentId = none → ∀ account currency,
      Ledger.netEffect (paymentEntries s paymentId) account currency = 0) ∧
    (Ledger.Exact ctx ledger s.ledger.entries → ∀ account currency k, currencyExponent? currency = some k →
      (s.ledger.balance account currency).value = (ledger.balance account currency).value +
        (s.entityState.items.map fun p => positionOn cardPositions p.2 account currency).sum) := by
  have hinv : Inv cardPositions ctx ledger s := by
    subst hs
    exact Engine.calls_inv (inv_preserved cardPositions ctx ledger) calls
      (inv_fresh cardPositions hledger rail viewpoint (Engine.versionedPrefix_lt ..) start) hf
  refine ⟨?_, ?_, fun hexact account currency k hk => hinv.balances hexact hk⟩
  · intro paymentId state hstate account currency
    rw [hinv.net, storedPosition, hstate]
    rfl
  · intro paymentId hnone account currency
    rw [hinv.net, storedPosition, hnone]
    rfl

namespace Card

/-- one digest for every payload, to evaluate a run -/
@[reducible] def sampleDigest : Sha256 := ⟨fun _ => String.ofList (List.replicate 64 '0'), fun _ => ""⟩

/-- a two-cent authorisation -/
def samplePayload : Dict String PayloadValue := .ofList [
  ("payment_id", .text "p1"), ("amount", .decimal ⟨2, -2⟩), ("currency", .text "USD"),
  ("payer_account", .text "payer"), ("payee_account", .text "payee"), ("hold_account", .text "card:holds"),
  ("fee_account", .text "card:fees"), ("chargeback_account", .text "card:chargebacks"),
  ("actor_id", .text (Uuid.formatUuid 1)), ("counterparty_id", .text (Uuid.formatUuid 2)),
  ("campaign_id", .text (Uuid.formatUuid 3)), ("trace_id", .text (Uuid.formatUuid 4)),
  ("fee", .decimal ⟨0, -2⟩), ("idempotency_key", .text "card.authorize:p1")]

def sampleCalls : List (Engine.EngineCall (Command CardOperation)) :=
  [.schedule 0 0 ⟨some .authorizeCard, "card.authorize", samplePayload⟩, .run 1 none]

/-- holds one cent below 10^26 dollars; the payer is on credit -/
def sampleOpening : Dict AccountReference Decimal :=
  .ofList [(.account "card:holds", ⟨10 ^ 28 - 1, -2⟩)]

def sampleLedger : Ledger := ((Ledger.create .default sampleOpening [.account "payer"]).toOption).getD ⟨[], ∅, [], []⟩

def sampleRun : CardEngine :=
  letI := sampleDigest
  Engine.afterCalls (cardRail.adapter .default)
    (Engine.fresh .card "development" (Engine.versionedPrefix 1 2 3 4 5) 0 sampleLedger ()) sampleCalls

theorem sampleLedger_created : Ledger.create .default sampleOpening [.account "payer"] = .ok sampleLedger := by
  unfold sampleLedger
  have hok : (Ledger.create .default sampleOpening [.account "payer"]).toOption.isSome = true := by decide +kernel
  cases h : Ledger.create .default sampleOpening [.account "payer"] with
  | ok l => rfl
  | error e => simp [h, Except.toOption] at hok

theorem sampleRun_eval : sampleRun.failure = none ∧
    sampleRun.ledger.balance "card:holds" "USD" = ⟨10 ^ 27, -1⟩ ∧
    (sampleRun.entityState.items.map fun p => (p.2.state, p.2.opening.amount, p.2.opening.currency,
      [CardRole.payer, .payee, .hold, .fee, .chargeback].map p.2.opening.accounts)) =
      [(.authorized, ⟨2, -2⟩, "USD", ["payer", "payee", "card:holds", "card:fees", "card:chargebacks"])] ∧
    (sampleRun.events.map fun e => (e.actorId, e.counterpartyId)) = [(Uuid.formatUuid 1, Uuid.formatUuid 2)] := by
  decide +kernel

end Card

theorem card_net_effect_sample : ∃ state, Card.sampleRun.entityState.get? "p1" = some state ∧
    ∀ account currency, Ledger.netEffect (paymentEntries Card.sampleRun "p1") account currency =
      positionOn cardPositions state account currency := by
  letI := Card.sampleDigest
  have hrun := (card_net_effect .default Card.sampleLedger_created .card "development" 1 2 3 4 5 0 Card.sampleCalls
    Card.sampleRun rfl Card.sampleRun_eval.1).1
  have hsome : (Card.sampleRun.entityState.get? "p1").isSome = true := by decide +kernel
  obtain ⟨state, hstate⟩ := Option.isSome_iff_exists.1 hsome
  exact ⟨state, hstate, hrun "p1" state hstate⟩

theorem Card.sum_roles (g : CardRole → ℚ) :
    ∑ r, g r = g .payer + g .payee + g .hold + g .fee + g .chargeback := by
  have huniv : (Finset.univ : Finset CardRole) = {.payer, .payee, .hold, .fee, .chargeback} := rfl
  rw [huniv]
  simp
  ring

/-- **A balance that outgrows the context is rounded.** The holds end at 10^26 dollars: their exact value, opening plus
positions, is a cent more. -/
theorem card_balance_rounds : Card.sampleRun.failure = none ∧
    (Card.sampleRun.ledger.balance "card:holds" "USD").value ≠
      (Card.sampleLedger.balance "card:holds" "USD").value +
        (Card.sampleRun.entityState.items.map fun p => positionOn cardPositions p.2 "card:holds" "USD").sum := by
  have hopening : Card.sampleLedger.balance "card:holds" "USD" = ⟨10 ^ 28 - 1, -2⟩ := by decide +kernel
  obtain ⟨hhealthy, hbalance, hitems, -⟩ := Card.sampleRun_eval
  refine ⟨hhealthy, ?_⟩
  generalize Card.sampleRun.entityState.items = items at hitems
  obtain ⟨p, rfl, hp⟩ := List.map_eq_singleton_iff.1 hitems
  simp only [Prod.mk.injEq, List.map_cons, List.map_nil, List.cons.injEq, and_true] at hp
  obtain ⟨hstate, hamount, hcurrency, hpayer, hpayee, hhold, hfee, hchargeback⟩ := hp
  rw [hbalance, hopening]
  simp [positionOn, Card.sum_roles, hstate, hamount, hcurrency, hpayer, hpayee, hhold, hfee, hchargeback,
    cardPositions, cardPosition, Decimal.value]
  norm_num

end Apar
