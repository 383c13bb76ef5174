/-
The hidden validity oracle (`evaluation_hidden/validity.py`): what it checks of the events of one campaign.

Each check gives the reason codes it adds. Only the balance replay, the bounds and the benign distance compute with
decimals that may raise; what escapes them escapes the oracle, for `analyze` catches nothing there.

The replay keeps accounts of its own: it knows the event kinds and the declared evidence, and nothing of the rails.

Parameters: `reload` is `PaymentEvent.model_validate(event.model_dump(mode="json", round_trip=True))`, `none` where it
raises; floats are those of `FloatMath`. Not modelled: the runner's capability and its closures.
-/
import Apar.Core.DecimalTraps
import Apar.Core.Floats
import Apar.Core.Grouping
import Apar.Core.Search
import Apar.Simulator.Rails.Lifecycle

namespace Apar

open Exec

namespace Validity

inductive Reason where
  | malformedEventInput
  | duplicateEventId
  | multipleCampaigns
  | nonCanonicalOrder
  | lifecycleIdentityMissing
  | illegalLifecycle
  | valueConservationFailed
  | lineageInvalid
  | actorRoleInvalid
  | balanceEvidenceMissing
  | balanceEvidenceInconsistent
  | balanceInfeasible
  | accountEvidenceInvalid
  | feeEvidenceInvalid
  | economicEvidenceInconsistent
  | parameterOutOfBounds
  | campaignDisconnected
  | benignDistanceExceeded
deriving DecidableEq, Repr

def Reason.value : Reason → String
  | .malformedEventInput => "MALFORMED_EVENT_INPUT"
  | .duplicateEventId => "DUPLICATE_EVENT_ID"
  | .multipleCampaigns => "MULTIPLE_CAMPAIGNS"
  | .nonCanonicalOrder => "NON_CANONICAL_ORDER"
  | .lifecycleIdentityMissing => "LIFECYCLE_IDENTITY_MISSING"
  | .illegalLifecycle => "ILLEGAL_LIFECYCLE"
  | .valueConservationFailed => "VALUE_CONSERVATION_FAILED"
  | .lineageInvalid => "LINEAGE_INVALID"
  | .actorRoleInvalid => "ACTOR_ROLE_INVALID"
  | .balanceEvidenceMissing => "BALANCE_EVIDENCE_MISSING"
  | .balanceEvidenceInconsistent => "BALANCE_EVIDENCE_INCONSISTENT"
  | .balanceInfeasible => "BALANCE_INFEASIBLE"
  | .accountEvidenceInvalid => "ACCOUNT_EVIDENCE_INVALID"
  | .feeEvidenceInvalid => "FEE_EVIDENCE_INVALID"
  | .economicEvidenceInconsistent => "ECONOMIC_EVIDENCE_INCONSISTENT"
  | .parameterOutOfBounds => "PARAMETER_OUT_OF_BOUNDS"
  | .campaignDisconnected => "CAMPAIGN_DISCONNECTED"
  | .benignDistanceExceeded => "BENIGN_DISTANCE_EXCEEDED"

/-- the reason where the condition fails -/
def addUnless (c : Bool) (why : Reason) : List Reason := if c then [] else [why]

@[simp] theorem addUnless_eq_nil {c : Bool} {why : Reason} : addUnless c why = [] ↔ c = true := by
  cases c <;> simp [addUnless]

theorem mem_addUnless {c : Bool} {why r : Reason} : r ∈ addUnless c why ↔ c = false ∧ r = why := by
  cases c <;> simp [addUnless]

/-- `_payment_id` -/
def paymentId (e : PaymentEvent) : Option String := e.paymentId?.filter (· ≠ "")

/-! ## Lifecycles -/

/-- the legal sequences of events of a payment -/
def legal : Rail → List (List EventKind)
  | .card => [
      [.authorizationDeclined],
      [.authorization, .reversal],
      [.authorization, .clearing, .settlement],
      [.authorization, .clearing, .settlement, .refund],
      [.authorization, .clearing, .settlement, .fraudReported, .disputeOpened, .chargeback],
      [.authorization, .clearing, .settlement, .fraudReported, .disputeOpened, .chargeback, .recovery]]
  | .a2a => [
      [.transferInitiated, .transferRejected],
      [.transferInitiated, .transferAccepted, .transferPosted],
      [.transferInitiated, .transferAccepted, .transferPosted, .transferReturned],
      [.transferInitiated, .transferAccepted, .transferPosted, .fraudReported, .fundsFrozen, .recovery]]
  | .agentic => [[.authorization], [.authorizationDeclined], [.authenticationChallenge]]

/-- `event.lineage.get("previous_event_id", "")` -/
def declaredPrevious (e : PaymentEvent) : FieldValue := e.lineage.getD "previous_event_id" (.text "")

/-- the truth value of a field -/
def truthy : FieldValue → Bool
  | .text s => s ≠ ""
  | .flag b => b
  | .number _ => true

/-- the lineage of a payment's events after the event `previous` -/
def checkChain (previous : String) : List PaymentEvent → List Reason
  | [] => []
  | e :: rest => addUnless (declaredPrevious e = .text previous) .lineageInvalid ++ checkChain e.eventId rest

/-- the value fields of an event are those of the first -/
def sameValue (first e : PaymentEvent) : Bool :=
  Decimal.numEq e.amount first.amount && e.currency = first.currency && e.actorId = first.actorId &&
    e.counterpartyId = first.counterpartyId

def checkLifecycle : List PaymentEvent → List Reason
  | [] => []
  | first :: rest =>
    addUnless (((first :: rest).map PaymentEvent.eventType) ∈ legal first.rail &&
        (first :: rest).all fun e => e.rail = first.rail) .illegalLifecycle ++
      addUnless ((first :: rest).all (sameValue first)) .valueConservationFailed ++
      addUnless (!truthy (declaredPrevious first)) .lineageInvalid ++ checkChain first.eventId rest

/-- the events of each payment, in order -/
def groupEvents (events : List PaymentEvent) : Dict String (List PaymentEvent) :=
  Grouping.groupBy (fun e => (paymentId e).getD "") (events.filter fun e => (paymentId e).isSome)

/-- `_check_lifecycles` -/
def checkLifecycles (grouped : Dict String (List PaymentEvent)) : List Reason := grouped.values.flatMap checkLifecycle

/-! ## Roles -/

/-- `_ROLE_PAIRS` -/
def rolePairs : Rail → List (String × String)
  | .a2a => [("consumer", "beneficiary"), ("consumer", "merchant"), ("consumer", "mule"), ("mule", "attacker"),
      ("mule", "mule"), ("organization", "beneficiary"), ("organization", "merchant"), ("organization", "mule"),
      ("victim", "beneficiary"), ("victim", "mule")]
  | .card => [("compromised_consumer", "merchant"), ("consumer", "merchant"), ("consumer", "synthetic_merchant"),
      ("victim", "merchant"), ("victim", "synthetic_merchant")]
  | .agentic => [("agent", "merchant"), ("agent", "synthetic_merchant")]

instance rolePair_lawful : LawfulBEq (String × String) := inferInstance

def roleValid (e : PaymentEvent) : Bool :=
  match e.partyRefs.get? "actor_role", e.partyRefs.get? "counterparty_role" with
  | some actor, some counterparty => (actor, counterparty) ∈ rolePairs e.rail
  | _, _ => false

/-- `_check_roles` -/
def checkRoles (events : List PaymentEvent) : List Reason := addUnless (events.all roleValid) .actorRoleInvalid

/-! ## Balances -/

inductive Role where
  | payer
  | payee
  | fee
  | hold
  | chargeback
  | frozen
deriving DecidableEq, Repr

def Role.name : Role → String
  | payer => "payer"
  | payee => "payee"
  | fee => "fee"
  | hold => "hold"
  | chargeback => "chargeback"
  | frozen => "frozen"

/-- `role_names` -/
def roleNames : Rail → List Role
  | .card => [.payer, .payee, .fee, .hold, .chargeback]
  | .a2a => [.payer, .payee, .fee, .frozen]
  | .agentic => [.payer, .payee, .fee]

/-- `identity_role` -/
def identityRole : Role → Option String
  | .payer => some "actor"
  | .payee => some "counterparty"
  | _ => none

/-- `money(raw)`; `none` is a text it refuses, or no text -/
def money : Option String → Except DecimalSignal (Option Decimal)
  | none => .ok none
  | some raw =>
    match DecimalTuple.readFinite raw with
    | none => .ok none
    | some t =>
      if t.toDecimal.coeff < 0 then .ok none
      else do
        let cents ← t.toDecimal.quantized (-2)
        return if Decimal.numEq t.toDecimal cents && String.ofList t.text = raw then some t.toDecimal else none

/-- `event.rail_data.get(name)` where it is a text -/
def railText (e : PaymentEvent) (name : String) : Option String :=
  match e.railData.get? name with
  | some (.text s) => some s
  | _ => none

def account (e : PaymentEvent) (role : Role) : Option String := (railText e (role.name ++ "_account")).filter (· ≠ "")

/-- `checked_accounts`, in the order of `role_names`: every role has an account, and no two the same -/
def checkedAccounts (e : PaymentEvent) : Option (List (Role × String)) :=
  match (roleNames e.rail).mapM fun role => (account e role).map fun a => (role, a) with
  | none => none
  | some accounts => if (accounts.map Prod.snd).Nodup then some accounts else none

/-- the account of a role -/
def accountOf (accounts : List (Role × String)) (role : Role) : String := (Assoc.get? role accounts).getD ""

/-- an entry of `economic_contracts` -/
structure Contract where
  rail : Rail
  amount : Decimal
  currency : String
  fee : Decimal
  accounts : List (Role × String)

def Contract.agrees (a b : Contract) : Bool :=
  a.rail = b.rail && Decimal.numEq a.amount b.amount && a.currency = b.currency && Decimal.numEq a.fee b.fee &&
    a.accounts = b.accounts

/-- what `_check_balances` keeps -/
structure Replay where
  balances : Dict String Decimal
  declaredOpenings : Dict String Decimal
  economicContracts : Dict String Contract
  reasons : List Reason

namespace Replay

def start : Replay := ⟨∅, ∅, ∅, []⟩

def note (r : Replay) (why : Reason) : Replay := { r with reasons := r.reasons ++ [why] }

end Replay

/-- `d.setdefault(k, v)` -/
def setDefault {α : Type} (d : Dict String α) (k : String) (v : α) : Dict String α :=
  match d.get? k with
  | some _ => d
  | none => d.set k v

/-- the opening of a payer or payee is declared for the actor or counterparty too -/
def identified (e : PaymentEvent) (role : Role) (opening : Decimal) : Except DecimalSignal Bool :=
  match identityRole role with
  | none => .ok true
  | some identity => do
    let declared ← money (e.partyRefs.get? (identity ++ "_opening_balance"))
    return declared.any (Decimal.numEq opening)

/-- the rest of `register`, once the opening of an account is known -/
def registerOpening (r : Replay) (accountId : String) (opening : Decimal) : Bool × Replay :=
  if (r.declaredOpenings.get? accountId).any fun prior => !Decimal.numEq prior opening then
    (false, r.note .balanceEvidenceInconsistent)
  else (true, { r with
    declaredOpenings := setDefault r.declaredOpenings accountId opening
    balances := setDefault r.balances accountId opening })

def register (r : Replay) (e : PaymentEvent) (role : Role) (accountId : String) :
    Except DecimalSignal (Bool × Replay) := do
  match ← money (e.partyRefs.get? (role.name ++ "_opening_balance")) with
  | none => return (false, r.note .balanceEvidenceMissing)
  | some opening => do
    let same ← identified e role opening
    return if same then registerOpening r accountId opening else (false, r.note .balanceEvidenceInconsistent)

/-- `all(register(...))`, up to the first that fails -/
def registerAll (e : PaymentEvent) : Replay → List (Role × String) → Except DecimalSignal (Bool × Replay)
  | r, [] => .ok (true, r)
  | r, (role, accountId) :: rest => do
    let (registered, r) ← register r e role accountId
    if registered then registerAll e r rest else return (false, r)

/-- the amount of a leg -/
def legValue (amount fee : Decimal) : LegAmount → Except DecimalSignal Decimal
  | .amount => .ok amount
  | .fee => .ok fee
  | .amountLessFee => Decimal.subTrapped amount fee
  | .amountPlusFee => Decimal.addTrapped amount fee

/-- the transfer of an event kind: debits and credits by role -/
def transferOf : Rail → EventKind → Option (List (Role × LegAmount) × List (Role × LegAmount))
  | .card, .authorization => some ([(.payer, .amount)], [(.hold, .amount)])
  | .card, .reversal => some ([(.hold, .amount)], [(.payer, .amount)])
  | .card, .settlement => some ([(.hold, .amount)], [(.payee, .amountLessFee), (.fee, .fee)])
  | .card, .refund => some ([(.payee, .amountLessFee), (.fee, .fee)], [(.payer, .amount)])
  | .card, .chargeback => some ([(.payee, .amountLessFee), (.fee, .fee)], [(.chargeback, .amount)])
  | .card, .recovery => some ([(.chargeback, .amount)], [(.payer, .amount)])
  | .a2a, .transferPosted => some ([(.payer, .amountPlusFee)], [(.payee, .amount), (.fee, .fee)])
  | .a2a, .transferReturned => some ([(.payee, .amount)], [(.payer, .amount)])
  | .a2a, .fundsFrozen => some ([(.payee, .amount)], [(.frozen, .amount)])
  | .a2a, .recovery => some ([(.frozen, .amount)], [(.payer, .amount)])
  | .agentic, .authorization => some ([(.payer, .amount)], [(.payee, .amount)])
  | _, _ => none

/-- the legs of a transfer by account -/
def legs (accounts : List (Role × String)) (amount fee : Decimal) (xs : List (Role × LegAmount)) :
    Except DecimalSignal (List (String × Decimal)) :=
  xs.mapM fun p => (legValue amount fee p.2).map fun v => (accountOf accounts p.1, v)

/-- `balances[account] -= value`, `balances[account] += value` -/
def move (op : Decimal → Decimal → Except DecimalSignal Decimal) (balances : Dict String Decimal)
    (p : String × Decimal) : Except DecimalSignal (Dict String Decimal) := do
  let balance ← op (balances.getD p.1 0) p.2
  return balances.set p.1 balance

/-- `transfer(debits, credits)` -/
def transfer (r : Replay) (debits credits : List (String × Decimal)) : Except DecimalSignal Replay := do
  let paid ← Decimal.sumTrapped (debits.map Prod.snd)
  let received ← Decimal.sumTrapped (credits.map Prod.snd)
  if !Decimal.numEq paid received then return r.note .valueConservationFailed
  else if debits.any fun p => !Decimal.ble p.2 (r.balances.getD p.1 0) then return r.note .balanceInfeasible
  else do
    let balances ← debits.foldlM (move Decimal.subTrapped) r.balances
    let balances ← credits.foldlM (move Decimal.addTrapped) balances
    return { r with balances := balances }

/-- the account effect of an event; an agentic payment bears no fee -/
def applyEffect (r : Replay) (e : PaymentEvent) (accounts : List (Role × String)) (fee : Decimal) :
    Except DecimalSignal Replay :=
  match transferOf e.rail e.eventType with
  | none => .ok r
  | some (debits, credits) =>
    if e.rail = .agentic ∧ fee.coeff ≠ 0 then .ok (r.note .feeEvidenceInvalid)
    else do
      let debits ← legs accounts e.amount fee debits
      let credits ← legs accounts e.amount fee credits
      transfer r debits credits

/-- the economic contract of the event's payment, and its effect -/
def applyContract (r : Replay) (e : PaymentEvent) (accounts : List (Role × String)) (fee : Decimal) :
    Except DecimalSignal Replay :=
  match paymentId e with
  | none => .ok r
  | some id =>
    let contract : Contract := ⟨e.rail, e.amount, e.currency, fee, accounts⟩
    if (r.economicContracts.get? id).any fun previous => !previous.agrees contract then
      .ok (r.note .economicEvidenceInconsistent)
    else
      applyEffect { r with economicContracts := setDefault r.economicContracts id contract } e accounts fee

/-- the fee of an event whose accounts are registered -/
def applyFee (r : Replay) (e : PaymentEvent) (accounts : List (Role × String)) : Except DecimalSignal Replay := do
  match ← money (railText e "fee_amount") with
  | none => return r.note .feeEvidenceInvalid
  | some fee =>
    if e.rail = .card ∧ ¬ Decimal.ble fee e.amount then return r.note .feeEvidenceInvalid
    else applyContract r e accounts fee

/-- one turn of the loop of `_check_balances` -/
def replayEvent (r : Replay) (e : PaymentEvent) : Except DecimalSignal Replay :=
  match checkedAccounts e with
  | none => .ok (r.note .accountEvidenceInvalid)
  | some accounts => do
    let (registered, r) ← registerAll e r accounts
    if registered then applyFee r e accounts else return r

def replayEvents (events : List PaymentEvent) : Except DecimalSignal Replay := events.foldlM replayEvent .start

/-- `_check_balances` -/
def checkBalances (events : List PaymentEvent) : Except DecimalSignal (List Reason) := do
  let r ← replayEvents events
  return r.reasons ++ addUnless (r.balances.values.all fun b => Decimal.ble 0 b) .balanceInfeasible

/-! ## Bounds -/

/-- `Decimal("5000.00")` -/
def maxAmount : Decimal := ⟨500000, -2⟩

/-- 72 hours -/
def maxSpan : Time := 72 * 3600 * 10 ^ 6

/-- the currency and the amount of an event are in range -/
def amountInBounds (e : PaymentEvent) : Except DecimalSignal Bool :=
  if e.currency ≠ "USD" ∨ Decimal.ble e.amount 0 ∨ ¬ Decimal.ble e.amount maxAmount then .ok false
  else do
    let cents ← e.amount.quantized (-2)
    return Decimal.numEq e.amount cents

/-- `not any(...)` over the events: it stops at the first one out of range -/
def amountsInBounds : List PaymentEvent → Except DecimalSignal Bool
  | [] => .ok true
  | e :: rest => do
    let inBounds ← amountInBounds e
    if inBounds then amountsInBounds rest else return false

/-- `max(times) - min(times)` -/
def timeSpan (times : List Time) : Time := times.foldr max (times.headD 0) - times.foldr min (times.headD 0)

/-- `_check_bounds` -/
def checkBounds (events : List PaymentEvent) (grouped : Dict String (List PaymentEvent)) :
    Except DecimalSignal (List Reason) := do
  let inBounds ← amountsInBounds events
  return addUnless (4 ≤ grouped.keys.length && grouped.keys.length ≤ 128) .parameterOutOfBounds ++
    addUnless inBounds .parameterOutOfBounds ++
    addUnless (timeSpan (events.map PaymentEvent.eventTime) ≤ maxSpan) .parameterOutOfBounds

/-! ## Connectivity -/

/-- `scoped_events`: the attack events, or all events when there are none -/
def scopedEvents (events : List PaymentEvent) : List PaymentEvent :=
  let attack := events.filter fun e => e.lineage.get? "campaign_role" = some (.text "attack")
  if attack.isEmpty then events else attack

/-- the keys of `graph` -/
def parties (events : List PaymentEvent) : List String := events.flatMap fun e => [e.actorId, e.counterpartyId]

/-- `graph[party]` -/
def neighbours (events : List PaymentEvent) (party : String) : List String :=
  events.flatMap fun e =>
    (if e.actorId = party then [e.counterpartyId] else []) ++ if e.counterpartyId = party then [e.actorId] else []

/-- `seen` when the search from `start` ends; a turn for each party is enough -/
def explore (events : List PaymentEvent) (start : String) : Option (List String) :=
  Search.search (neighbours events) ((parties events).dedup.length) [start] [start]

/-- `_check_connectivity` -/
def checkConnectivity (events : List PaymentEvent) : List Reason :=
  let inScope := scopedEvents events
  match sortedSet (parties inScope) with
  | [] => [.campaignDisconnected]
  | start :: _ =>
    addUnless ((explore inScope start).any fun seen => (parties inScope).all (· ∈ seen)) .campaignDisconnected

/-! ## Benign distance -/

/-- the events that open a payment, in order -/
def openings (events : List PaymentEvent) : List PaymentEvent :=
  sortBy eventKey (events.filter fun e =>
    e.eventType ∈ [EventKind.authorization, .authorizationDeclined, .transferInitiated])

section Floats

variable (F : Type) [FloatMath F]

open PyFloat FloatMath

/-- the mean of the gaps between openings, in seconds -/
def meanGap (times : List Time) : F :=
  let gaps : List F := (times.zip times.tail).map fun p => totalSeconds (p.2 - p.1)
  if gaps.isEmpty then ofDecimal ⟨300, -1⟩ else sum gaps / ofInt gaps.length

/-- the distance of a mean amount and a mean gap from a benign one, before it is rounded -/
def distanceOf (meanAmount meanGap : F) (rolePairs : ℕ) : F :=
  let amountComponent : F := abs (log1p meanAmount - log1p (ofDecimal ⟨1000, -1⟩)) / ofDecimal ⟨40, -1⟩
  let gapComponent : F := abs (log1p meanGap - log1p (ofDecimal ⟨300, -1⟩)) / ofDecimal ⟨40, -1⟩
  let diversityComponent : F := if 1 ≤ rolePairs then ofDecimal ⟨0, -1⟩ else ofDecimal ⟨10, -1⟩
  (amountComponent + gapComponent + diversityComponent) / ofInt 3

/-- `Decimal(str(x)).quantize(Decimal("0.001"))`, then compared; a float that is not finite does not get through -/
def roundDistance (x : F) : Except DecimalSignal Decimal :=
  if FloatText.isFinite x then (decimal x).quantized (-3) else .error .invalidOperation

/-- `_benign_distance` -/
def benignDistance (events : List PaymentEvent) : Except DecimalSignal Decimal :=
  match openings events with
  | [] => .ok ⟨9999, -3⟩
  | first :: rest => do
    let opened := first :: rest
    let total ← Decimal.sumTrapped (opened.map PaymentEvent.amount)
    let meanAmount ← Decimal.divTrapped total ⟨opened.length, 0⟩
    let pairs := opened.map fun e => (e.partyRefs.get? "actor_role", e.partyRefs.get? "counterparty_role")
    roundDistance F (distanceOf F (ofDecimal meanAmount) (meanGap F (opened.map PaymentEvent.eventTime)) pairs.dedup.length)

/-! ## The oracle -/

/-- the report of `analyze`; a malformed input has neither campaigns, distance nor conservation -/
structure Report where
  valid : Bool
  reasonCodes : List String
  eventCount : ℕ
  paymentCount : ℕ
  campaignCount : Option ℕ
  benignDistance : Option Decimal
  valueConserved : Option Bool

/-- `_owned_events`; `none` is a `TypeError` or a `ValueError` -/
def ownedEvents (reload : PaymentEvent → Option PaymentEvent) (events : List PaymentEvent) :
    Option (List PaymentEvent) :=
  if events.isEmpty then none else events.mapM reload

/-- what `analyze` checks before the payments are grouped -/
def checkStream (events : List PaymentEvent) : List Reason :=
  addUnless (events.map PaymentEvent.eventId).Nodup .duplicateEventId ++
    addUnless ((events.map PaymentEvent.campaignId).dedup.length = 1) .multipleCampaigns ++
    addUnless (sortBy id (events.map eventKey) = events.map eventKey) .nonCanonicalOrder ++
    addUnless (events.all fun e => (paymentId e).isSome) .lifecycleIdentityMissing

def malformedReport : Report := ⟨false, [Reason.malformedEventInput.value], 0, 0, none, none, none⟩

/-- `_ValidityEngine.analyze` -/
def analyze (reload : PaymentEvent → Option PaymentEvent) (events : List PaymentEvent) :
    Except DecimalSignal Report :=
  match ownedEvents reload events with
  | none => .ok malformedReport
  | some checked => do
    let grouped := groupEvents checked
    let balances ← checkBalances checked
    let bounds ← checkBounds checked grouped
    let distance ← benignDistance F checked
    let reasons := checkStream checked ++ checkLifecycles grouped ++ checkRoles checked ++ balances ++ bounds ++
      checkConnectivity checked ++ addUnless (Decimal.ble distance ⟨85, -2⟩) .benignDistanceExceeded
    return {
      valid := reasons.isEmpty
      reasonCodes := sortedSet (reasons.map Reason.value)
      eventCount := checked.length
      paymentCount := grouped.keys.length
      campaignCount := some (checked.map PaymentEvent.campaignId).dedup.length
      benignDistance := some distance
      valueConserved := some (Reason.valueConservationFailed ∉ reasons) }

/-- `HiddenValidityOracle.evaluate` -/
def evaluate (reload : PaymentEvent → Option PaymentEvent) (events : List PaymentEvent) :
    Except DecimalSignal Bool :=
  (analyze F reload events).map Report.valid

end Floats

end Validity

end Apar
