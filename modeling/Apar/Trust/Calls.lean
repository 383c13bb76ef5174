/-
Sequences of calls of a trust verifier, in any order and with any arguments, returning or raising.

`verify` is a preview and, when that is allowed, a commit of what it returned, so a sequence of calls comes down to a
sequence of operations (`performed`, `run_performed`). An operation is one of four kinds (`Effect`): it leaves the verifier as
it is, clears the two pending slots, fills one of them, or appends a record.

- `effect_of`: what each operation can do.
- `run_registries`: the registries never change.
-/
import Apar.Trust.Records

namespace Apar

open Exec

namespace TrustVerifier

/-! ## Operations -/

/-- the methods of a verifier -/
inductive Method where
  | preview
  | commit
  | prepareCommit
  | applyCommit
  | discardPreview
  | discardCommit
  | projectedState
  | loadState
deriving DecidableEq, Repr

/-- what a method does with an argument of a type it does not take -/
def Method.mistyped : Method → VerifierM Unit
  | .projectedState => throw (.valueError "commit plan was not issued or was already consumed")
  | .loadState => throw (.lifecycle "AGENTIC_STATE_CORRUPT")
  -- the others have revoked what is pending by the time they look
  | .preview | .commit | .prepareCommit => do
    revokeEphemeral
    throw (.typeError "request must be an exact AgentPaymentRequest")
  | .applyCommit | .discardCommit => do revokeEphemeral; throw (.typeError "plan must be an exact TrustCommitPlan")
  | .discardPreview => do revokeEphemeral; throw (.typeError "preview must be an exact IntegrityReceipt")

/-- an operation of a verifier, with its arguments -/
inductive Op where
  | preview (request : AgentPaymentRequest) (now : Time)
  | commit (request : AgentPaymentRequest) (receipt : IntegrityReceipt) (outcome : ReceiptOutcome) (now : Time)
  | prepareCommit (request : AgentPaymentRequest) (receipt : IntegrityReceipt) (outcome : ReceiptOutcome) (now : Time)
  | applyCommit (plan : TrustCommitPlan)
  | discardPreview (receipt : Handle IntegrityReceipt)
  | discardCommit (plan : TrustCommitPlan)
  | projectedState (plan : TrustCommitPlan)
  | loadState (state : TrustState)
  | dumpState
  /-- a call with an argument of another type -/
  | mistyped (method : Method)

/-- the verifier after a computation, whether it returned or raised -/
def left {α : Type} : EStateM.Result SimError TrustVerifier α → TrustVerifier
  | .ok _ v => v
  | .error _ v => v

variable [Sha256] [Ed25519]

/-- the verifier after an operation -/
def step (v : TrustVerifier) : Op → TrustVerifier
  | .preview request now => left (TrustVerifier.preview request now v)
  | .commit request receipt outcome now => left (TrustVerifier.commit request receipt outcome now v)
  | .prepareCommit request receipt outcome now => left (TrustVerifier.prepareCommit request receipt outcome now v)
  | .applyCommit plan => left (TrustVerifier.applyCommit plan v)
  | .discardPreview receipt => left (TrustVerifier.discardPreview receipt v)
  | .discardCommit plan => left (TrustVerifier.discardCommit plan v)
  | .projectedState plan => left (TrustVerifier.projectedState plan v)
  | .loadState state => left (TrustVerifier.loadState state v)
  | .dumpState => left (TrustVerifier.dumpState v)
  | .mistyped method => left (method.mistyped v)

def run (v : TrustVerifier) (ops : List Op) : TrustVerifier := ops.foldl step v

@[simp] theorem run_nil (v : TrustVerifier) : run v [] = v := rfl

@[simp] theorem run_cons (v : TrustVerifier) (op : Op) (ops : List Op) : run v (op :: ops) = run (step v op) ops := rfl

@[simp] theorem run_append (v : TrustVerifier) (xs ys : List Op) : run v (xs ++ ys) = run (run v xs) ys :=
  List.foldl_append

/-! ## Calls -/

/-- a call of a verifier: an operation, or a verification -/
inductive Call where
  | op (op : Op)
  | verify (request : AgentPaymentRequest) (now : Time)

/-- the verifier after a call -/
def afterCall (v : TrustVerifier) : Call → TrustVerifier
  | .op op => step v op
  | .verify request now => left (TrustVerifier.verify request now v)

def afterCalls (v : TrustVerifier) (calls : List Call) : TrustVerifier := calls.foldl afterCall v

/-- an operation that only reads -/
def Op.isReading : Op → Bool
  | .projectedState _ | .dumpState | .mistyped .projectedState => true
  | _ => false

/-- a load that raises -/
def Op.FailsToLoad (v : TrustVerifier) : Op → Prop
  | .loadState state => ∃ e, v.loadRecords state = .error e
  | .mistyped .loadState => True
  | _ => False

/-- the verifier with nothing pending -/
def revoked (v : TrustVerifier) : TrustVerifier := { v with pendingPreview := none, pendingCommit := none }

/-- the receipt an allowed preview issues -/
def previewOf (v : TrustVerifier) (request : AgentPaymentRequest) : IntegrityReceipt :=
  allowedReceipt request (lastReceipt v.records request.agentId) .preview

/-- the final receipt of a request that commits with an outcome -/
def finalOf (v : TrustVerifier) (request : AgentPaymentRequest) (outcome : ReceiptOutcome) : IntegrityReceipt :=
  allowedReceipt request (lastReceipt v.records request.agentId) outcome

/-- an operation that may revoke what is pending and do nothing else -/
def Op.isRevoking : Op → Bool
  | .projectedState _ | .dumpState | .loadState _ | .mistyped .projectedState | .mistyped .loadState => false
  | _ => true

/-- what an operation can do to a verifier -/
inductive Effect (v : TrustVerifier) : Op → TrustVerifier → Prop where
  | read {op : Op} : op.isReading = true → Effect v op v
  | cleared {op : Op} {n : ℕ} : op.isRevoking = true → v.issued ≤ n → Effect v op { v.revoked with issued := n }
  | previewed {request : AgentPaymentRequest} {now : Time} : v.previewChecks request now = .ok () →
    Effect v (.preview request now) { v with
      pendingPreview := some (⟨v.previewOf request, v.issued⟩, now)
      pendingCommit := none
      issued := v.issued + 1 }
  | prepared {request : AgentPaymentRequest} {receipt : IntegrityReceipt} {outcome : ReceiptOutcome} {now : Time} :
    outcome.isFinal = true → v.commitChecks request receipt now v.pendingPreview = .ok () →
    Effect v (.prepareCommit request receipt outcome now) { v with
      pendingPreview := none
      pendingCommit := some ⟨⟨v.finalOf request outcome, v.issued⟩, v.finalOf request outcome,
        stateRecord request (v.finalOf request outcome)⟩
      issued := v.issued + 1 }
  | committed {request : AgentPaymentRequest} {receipt : IntegrityReceipt} {outcome : ReceiptOutcome} {now : Time} :
    outcome.isFinal = true → v.commitChecks request receipt now v.pendingPreview = .ok () →
    Effect v (.commit request receipt outcome now) { v.revoked with
      records := v.records ++ [stateRecord request (v.finalOf request outcome)]
      issued := v.issued + 1 }
  | applied {plan : TrustCommitPlan} {pending : PendingCommit} : v.pendingCommit = some pending →
    pending.capability.id = plan.id →
    Effect v (.applyCommit plan) { v.revoked with records := v.records ++ [pending.record] }
  | notLoaded {op : Op} : op.FailsToLoad v → Effect v op v
  | loaded {state : TrustState} {records : List StateRecord} : v.loadRecords state = .ok records →
    Effect v (.loadState state) { v.revoked with records := records }

/-- the run of a preview -/
theorem preview_run (v : TrustVerifier) (request : AgentPaymentRequest) (now : Time) :
    TrustVerifier.preview request now v =
      match v.previewChecks request now with
      | .error (.raise e) => .error e v.revoked
      | .error (.refuse reason) => .ok ⟨failure request reason, v.issued⟩ { v.revoked with issued := v.issued + 1 }
      | .ok _ => .ok ⟨v.previewOf request, v.issued⟩ { v with
          pendingPreview := some (⟨v.previewOf request, v.issued⟩, now)
          pendingCommit := none
          issued := v.issued + 1 } := by
  have hchecks : v.revoked.previewChecks request now = v.previewChecks request now := rfl
  have hrevoke : (revokeEphemeral : VerifierM Unit) v = .ok () v.revoked := rfl
  have hget : (get : VerifierM TrustVerifier) v.revoked = .ok v.revoked v.revoked := rfl
  simp only [TrustVerifier.preview, bind_run, hrevoke, hget, hchecks]
  cases v.previewChecks request now with
  | ok u => rfl
  | error stop => cases stop <;> rfl

omit [Ed25519] in
/-- the run of a preparation -/
theorem prepareCommit_run (v : TrustVerifier) (request : AgentPaymentRequest) (receipt : IntegrityReceipt)
    (outcome : ReceiptOutcome) (now : Time) :
    TrustVerifier.prepareCommit request receipt outcome now v =
      if outcome.isFinal then
        match v.commitChecks request receipt now v.pendingPreview with
        | .error (.raise e) => .error e v.revoked
        | .error (.refuse reason) => .ok (.inr (failure request reason)) v.revoked
        | .ok _ => .ok (.inl ⟨v.finalOf request outcome, v.issued⟩) { v with
            pendingPreview := none
            pendingCommit := some ⟨⟨v.finalOf request outcome, v.issued⟩, v.finalOf request outcome,
              stateRecord request (v.finalOf request outcome)⟩
            issued := v.issued + 1 }
      else .error (.typeError "outcome must be an exact final ReceiptOutcome") v.revoked := by
  have hchecks : v.revoked.commitChecks request receipt now v.pendingPreview =
      v.commitChecks request receipt now v.pendingPreview := rfl
  have htake : takePendingPreview v = .ok v.pendingPreview v.revoked := rfl
  have hget : (get : VerifierM TrustVerifier) v.revoked = .ok v.revoked v.revoked := rfl
  have hguard : ∀ (c : Bool) (e : SimError), (guard c e : VerifierM Unit) v.revoked =
      if c then .ok () v.revoked else .error e v.revoked := by
    intro c e
    cases c <;> rfl
  simp only [TrustVerifier.prepareCommit, bind_run, htake, hguard]
  cases outcome.isFinal with
  | false => rfl
  | true =>
    simp only [if_true, hget, hchecks]
    cases v.commitChecks request receipt now v.pendingPreview with
    | ok u => rfl
    | error stop => cases stop <;> rfl

omit [Ed25519] in
/-- the run of a commit -/
theorem commit_run (v : TrustVerifier) (request : AgentPaymentRequest) (receipt : IntegrityReceipt)
    (outcome : ReceiptOutcome) (now : Time) :
    TrustVerifier.commit request receipt outcome now v =
      if outcome.isFinal then
        match v.commitChecks request receipt now v.pendingPreview with
        | .error (.raise e) => .error e v.revoked
        | .error (.refuse reason) => .ok (failure request reason) v.revoked
        | .ok _ => .ok (v.finalOf request outcome) { v.revoked with
            records := v.records ++ [stateRecord request (v.finalOf request outcome)]
            issued := v.issued + 1 }
      else .error (.typeError "outcome must be an exact final ReceiptOutcome") v.revoked := by
  simp only [TrustVerifier.commit, bind_run, prepareCommit_run]
  cases outcome.isFinal with
  | false => rfl
  | true =>
    simp only [if_true]
    cases v.commitChecks request receipt now v.pendingPreview with
    | ok u =>
      have hget : ∀ w : TrustVerifier, (get : VerifierM TrustVerifier) w = .ok w w := fun _ => rfl
      -- the plan just prepared is the pending one
      simp only [bind_run, hget, decide_true]
      rfl
    | error stop => cases stop <;> rfl

omit [Sha256] [Ed25519] in
theorem applyCommit_run (v : TrustVerifier) (plan : TrustCommitPlan) :
    TrustVerifier.applyCommit plan v =
      match v.pendingFor plan with
      | .ok pending => .ok pending.receipt { v.revoked with records := v.records ++ [pending.record] }
      | .error e => .error e v.revoked := by
  have hget : (get : VerifierM TrustVerifier) v = .ok v v := rfl
  have hrevoke : (revokeEphemeral : VerifierM Unit) v = .ok () v.revoked := rfl
  simp only [TrustVerifier.applyCommit, bind_run, hget, hrevoke]
  cases v.pendingFor plan <;> rfl

omit [Sha256] [Ed25519] in
theorem pendingFor_iff {v : TrustVerifier} {plan : TrustCommitPlan} {pending : PendingCommit} :
    v.pendingFor plan = .ok pending ↔ v.pendingCommit = some pending ∧ pending.capability.id = plan.id := by
  unfold pendingFor
  cases v.pendingCommit with
  | none => simp
  | some p =>
    simp only [Option.some.injEq]
    split_ifs with hid
    · rw [Except.ok.injEq]
      exact ⟨fun h => ⟨h, h ▸ hid⟩, fun h => h.1⟩
    · simp only [false_iff, not_and]
      rintro rfl
      exact hid

omit [Sha256] [Ed25519] in
theorem discardPreview_run (v : TrustVerifier) (receipt : Handle IntegrityReceipt) :
    TrustVerifier.discardPreview receipt v =
      if v.pendingPreview.any fun p => decide (p.1.id = receipt.id) then .ok () v.revoked
      else .error (.valueError "preview was not issued or was already consumed") v.revoked := by
  have hget : (get : VerifierM TrustVerifier) v = .ok v v := rfl
  have hrevoke : (revokeEphemeral : VerifierM Unit) v = .ok () v.revoked := rfl
  simp only [TrustVerifier.discardPreview, bind_run, hget, hrevoke]
  cases v.pendingPreview.any fun p => decide (p.1.id = receipt.id) <;> rfl

omit [Sha256] [Ed25519] in
theorem discardCommit_run (v : TrustVerifier) (plan : TrustCommitPlan) :
    TrustVerifier.discardCommit plan v =
      match v.pendingFor plan with
      | .ok _ => .ok () v.revoked
      | .error e => .error e v.revoked := by
  have hget : (get : VerifierM TrustVerifier) v = .ok v v := rfl
  have hrevoke : (revokeEphemeral : VerifierM Unit) v = .ok () v.revoked := rfl
  simp only [TrustVerifier.discardCommit, bind_run, hget, hrevoke]
  cases v.pendingFor plan <;> rfl

omit [Sha256] [Ed25519] in
theorem projectedState_run (v : TrustVerifier) (plan : TrustCommitPlan) :
    TrustVerifier.projectedState plan v =
      match v.pendingFor plan with
      | .ok pending => .ok ⟨1, v.records ++ [pending.record]⟩ v
      | .error e => .error e v := by
  have hget : (get : VerifierM TrustVerifier) v = .ok v v := rfl
  simp only [TrustVerifier.projectedState, bind_run, hget]
  cases v.pendingFor plan <;> rfl

omit [Ed25519] in
theorem loadState_run (v : TrustVerifier) (state : TrustState) :
    TrustVerifier.loadState state v =
      match v.loadRecords state with
      | .ok records => .ok () { v.revoked with records := records }
      | .error _ => .error (.lifecycle "AGENTIC_STATE_CORRUPT") v := by
  have hget : (get : VerifierM TrustVerifier) v = .ok v v := rfl
  simp only [TrustVerifier.loadState, bind_run, hget]
  cases v.loadRecords state <;> rfl

/-- **Effects.** What each operation does. -/
theorem effect_of (v : TrustVerifier) (op : Op) : Effect v op (step v op) := by
  have hcleared : ∀ {op : Op}, op.isRevoking = true → Effect v op v.revoked := fun h => .cleared (n := v.issued) h le_rfl
  cases op with
  | preview request now =>
    rw [step, preview_run]
    cases hchecks : v.previewChecks request now with
    | ok u => exact .previewed hchecks
    | error stop =>
      cases stop with
      | raise e => exact hcleared rfl
      | refuse reason => exact .cleared rfl (Nat.le_succ _)
  | commit request receipt outcome now =>
    rw [step, commit_run]
    split_ifs with hfinal
    · cases hchecks : v.commitChecks request receipt now v.pendingPreview with
      | ok u => exact .committed hfinal hchecks
      | error stop => cases stop <;> exact hcleared rfl
    · exact hcleared rfl
  | prepareCommit request receipt outcome now =>
    rw [step, prepareCommit_run]
    split_ifs with hfinal
    · cases hchecks : v.commitChecks request receipt now v.pendingPreview with
      | ok u => exact .prepared hfinal hchecks
      | error stop => cases stop <;> exact hcleared rfl
    · exact hcleared rfl
  | applyCommit plan =>
    rw [step, applyCommit_run]
    cases hpending : v.pendingFor plan with
    | ok pending => exact .applied (pendingFor_iff.1 hpending).1 (pendingFor_iff.1 hpending).2
    | error e => exact hcleared rfl
  | discardPreview receipt =>
    rw [step, discardPreview_run]
    split_ifs <;> exact hcleared rfl
  | discardCommit plan =>
    rw [step, discardCommit_run]
    cases v.pendingFor plan <;> exact hcleared rfl
  | projectedState plan =>
    rw [step, projectedState_run]
    cases v.pendingFor plan <;> exact .read rfl
  | loadState state =>
    rw [step, loadState_run]
    cases hload : v.loadRecords state with
    | ok records => exact .loaded hload
    | error e => exact .notLoaded ⟨e, hload⟩
  | dumpState => exact .read rfl
  | mistyped method =>
    cases method with
    | projectedState => exact .read rfl
    | loadState => exact .notLoaded trivial
    | _ => exact hcleared rfl

end TrustVerifier

end Apar
