/-
The account-to-account rail (`simulator/rails/a2a.py`): nine states from initiation to recovery, eight commands, four
account roles.

`a2aPosition` is what a transfer's state says about the ledger. Nothing moves before posting; a posted transfer has taken
the amount and the fee from the payer; the fee is never returned, so RETURNED and RECOVERED keep it.
-/
import Apar.Simulator.Rails.Positions

namespace Apar

/-! ## Tables -/

inductive A2AState where
  | created
  | initiated
  | accepted
  | rejected
  | posted
  | reported
  | frozen
  | recovered
  | returned
deriving DecidableEq, Repr

inductive A2AOperation where
  | initiateA2A
  | acceptA2A
  | rejectA2A
  | postA2A
  | reportA2AFraud
  | freezeA2AFunds
  | recoverA2A
  | returnA2A
deriving DecidableEq, Repr

inductive A2ARole where
  | payer
  | payee
  | fee
  | frozen
deriving DecidableEq, Repr

instance : Fintype A2ARole :=
  ⟨{.payer, .payee, .fee, .frozen}, fun r => by cases r <;> decide⟩

namespace A2A

def stateValue : A2AState → String
  | .created => "created"
  | .initiated => "initiated"
  | .accepted => "accepted"
  | .rejected => "rejected"
  | .posted => "posted"
  | .reported => "reported"
  | .frozen => "frozen"
  | .recovered => "recovered"
  | .returned => "returned"

/-- `_COMMAND_OPERATIONS` -/
def operationName : A2AOperation → String
  | .initiateA2A => "a2a.initiate"
  | .acceptA2A => "a2a.accept"
  | .rejectA2A => "a2a.reject"
  | .postA2A => "a2a.post"
  | .reportA2AFraud => "a2a.report"
  | .freezeA2AFunds => "a2a.freeze"
  | .recoverA2A => "a2a.recover"
  | .returnA2A => "a2a.return"

def operations : List A2AOperation :=
  [.initiateA2A, .acceptA2A, .rejectA2A, .postA2A, .reportA2AFraud, .freezeA2AFunds, .recoverA2A, .returnA2A]

def roleKey : A2ARole → String
  | .payer => "payer_account"
  | .payee => "payee_account"
  | .fee => "fee_account"
  | .frozen => "frozen_account"

def post : Posting A2ARole := ⟨"post", [(.payer, .amountPlusFee)], [(.payee, .amount), (.fee, .fee)]⟩

def giveBack : Posting A2ARole := ⟨"return", [(.payee, .amount)], [(.payer, .amount)]⟩

def freeze : Posting A2ARole := ⟨"freeze", [(.payee, .amount)], [(.frozen, .amount)]⟩

def recovery : Posting A2ARole := ⟨"recovery", [(.frozen, .amount)], [(.payer, .amount)]⟩

/-- `_TRANSITIONS` -/
def transition : A2AState → A2AOperation → Option (A2AState × EventKind × Option (Posting A2ARole))
  | .created, .initiateA2A => some (.initiated, .transferInitiated, none)
  | .initiated, .acceptA2A => some (.accepted, .transferAccepted, none)
  | .initiated, .rejectA2A => some (.rejected, .transferRejected, none)
  | .accepted, .postA2A => some (.posted, .transferPosted, some post)
  | .posted, .reportA2AFraud => some (.reported, .fraudReported, none)
  | .posted, .returnA2A => some (.returned, .transferReturned, some giveBack)
  | .reported, .freezeA2AFunds => some (.frozen, .fundsFrozen, some freeze)
  | .frozen, .recoverA2A => some (.recovered, .recovery, some recovery)
  | _, _ => none

/-- `_MISSING_CODES.get(type(command), "A2A_INVALID_TRANSITION")` -/
def missingCode : A2AOperation → String
  | .acceptA2A => "A2A_ACCEPT_BEFORE_INITIATE"
  | .rejectA2A => "A2A_REJECT_BEFORE_INITIATE"
  | .postA2A => "A2A_POST_BEFORE_ACCEPT"
  | .reportA2AFraud => "A2A_REPORT_BEFORE_POST"
  | .freezeA2AFunds => "A2A_FREEZE_BEFORE_REPORT"
  | .recoverA2A => "A2A_RECOVERY_BEFORE_FREEZE"
  | .returnA2A => "A2A_RETURN_BEFORE_POST"
  | .initiateA2A => "A2A_INVALID_TRANSITION"

/-- `_invalid_code` -/
def invalidCode (current : A2AState) (operation : A2AOperation) : String :=
  if operation = .rejectA2A ∧ current ∈ [A2AState.accepted, .posted, .reported, .frozen, .recovered] then
    "A2A_REJECT_AFTER_ACCEPT"
  else missingCode operation

end A2A

def a2aRail : Lifecycle A2AState A2AOperation A2ARole where
  rail := .a2a
  codes := "A2A"
  noun := "A2A"
  scenarioMessage := "A2A adapter requires an A2A scenario"
  beginMessage := "A2A history must begin with initiation"
  repeatMessage := "A2A history contains a repeated initiation"
  historyDomain := "apar.a2a-history.v1"
  created := .created
  stateValue := A2A.stateValue
  operations := A2A.operations
  operationName := A2A.operationName
  isOpening := fun o => o = .initiateA2A
  roles := [.payer, .payee, .fee, .frozen]
  roleKey := A2A.roleKey
  feeWithinAmount := false
  transition := A2A.transition
  missingCode := A2A.missingCode
  invalidCode := A2A.invalidCode

/-! ## Positions -/

/-- the value a transfer of amount `a` and fee `f` has moved onto the account of a role -/
def a2aPosition : A2AState → A2ARole → ℚ → ℚ → ℚ
  | .posted, .payer, a, f | .reported, .payer, a, f | .frozen, .payer, a, f => -(a + f)
  | .posted, .payee, a, _ | .reported, .payee, a, _ => a
  | .frozen, .frozen, a, _ => a
  | .posted, .fee, _, f | .reported, .fee, _, f | .frozen, .fee, _, f => f
  | .returned, .payer, _, f | .recovered, .payer, _, f => -f
  | .returned, .fee, _, f | .recovered, .fee, _, f => f
  | _, _, _, _ => 0

theorem a2aPosition_step {st next : A2AState} {o : A2AOperation} {kind : EventKind}
    {effect : Option (Posting A2ARole)} (h : A2A.transition st o = some (next, kind, effect)) (r : A2ARole)
    (a f : ℚ) : a2aPosition next r a f = a2aPosition st r a f + effectOn effect r a f := by
  unfold A2A.transition at h
  split at h <;> cases h <;> cases r <;>
    simp [a2aPosition, effectOn, legsOn, LegAmount.value, A2A.post, A2A.giveBack, A2A.freeze, A2A.recovery]

theorem a2a_legs_nodup {st next : A2AState} {o : A2AOperation} {kind : EventKind} {posting : Posting A2ARole}
    (h : A2A.transition st o = some (next, kind, some posting)) :
    ((posting.debit ++ posting.credit).map Prod.fst).Nodup := by
  unfold A2A.transition at h
  split at h <;> cases h <;> decide

theorem a2aRail_roles (r : A2ARole) : r ∈ a2aRail.roles := by
  cases r <;> simp [a2aRail]

def a2aPositions : PositionTable a2aRail where
  position := a2aPosition
  created := fun r a f => by cases r <;> rfl
  step := a2aPosition_step
  legs_nodup := a2a_legs_nodup
  roles := a2aRail_roles

abbrev A2AEngine := Engine (Command A2AOperation) (PaymentState A2AState A2ARole) Unit

end Apar
