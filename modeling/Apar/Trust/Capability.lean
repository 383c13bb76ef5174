/-
A preview is a capability to append one record, used at most once.

Calls arrive in any order, with any arguments, and may raise. An operation appends a record only after the preview of the
same request was allowed, and between the preview, the preparation and the append nothing happened but readings and loads
that raised (`Licensed`). Two requests are the same when they have the same signed text, mandate and signature; the digests
of the requests in play are assumed to separate them (`Separated`).

- `trust_records_licensed`: every appended record is licensed, appended records never outnumber allowed previews, and a plan
  is applied at most once.
- `failed_load_keeps_preview`: a load that raises between a preview and its commit does not revoke the preview.
-/
import Apar.Trust.Calls

namespace Apar

open Exec

namespace TrustVerifier

/-! ## Requests -/

/-- two requests with one signed text, one mandate text and one signature -/
structure SameRequest [Sha256] (q r : AgentPaymentRequest) : Prop where
  signed : q.signingJson = r.signingJson
  mandate : q.mandate.canonicalRows = r.mandate.canonicalRows
  signature : q.signature = r.signature

/-- SHA-256 separates the signed texts, the mandates and the signatures of the requests -/
structure Separated [Sha256] (requests : List AgentPaymentRequest) : Prop where
  signed : ∀ q ∈ requests, ∀ r ∈ requests,
    Sha256.hexdigest q.signingJson = Sha256.hexdigest r.signingJson → q.signingJson = r.signingJson
  mandates : ∀ q ∈ requests, ∀ r ∈ requests,
    Sha256.hexdigest (.ofRows q.mandate.canonicalRows) = Sha256.hexdigest (.ofRows r.mandate.canonicalRows) →
      q.mandate.canonicalRows = r.mandate.canonicalRows
  signatures : ∀ q ∈ requests, ∀ r ∈ requests,
    Sha256.hexdigestBytes q.signature = Sha256.hexdigestBytes r.signature → q.signature = r.signature

variable {q r request : AgentPaymentRequest} {requests : List AgentPaymentRequest} {now asked : Time}
  {receipt : IntegrityReceipt} {slot : Option (Handle IntegrityReceipt × Time)} {v w : TrustVerifier}
  {ops before : List Op}

theorem mandate_of_signingJson [Sha256] (h : q.signingJson = r.signingJson) :
    Sha256.hexdigest (.ofRows q.mandate.canonicalRows) = Sha256.hexdigest (.ofRows r.mandate.canonicalRows) := by
  have hrows := Json.ofRows_inj h
  simp only [List.cons.injEq] at hrows
  tauto

theorem Separated.same [Sha256] (h : Separated requests) (hq : q ∈ requests) (hr : r ∈ requests)
    (hsigned : Sha256.hexdigest q.signingJson = Sha256.hexdigest r.signingJson)
    (hsignature : Sha256.hexdigestBytes q.signature = Sha256.hexdigestBytes r.signature) : SameRequest q r := by
  have hjson := h.signed q hq r hr hsigned
  exact ⟨hjson, h.mandates q hq r hr (mandate_of_signingJson hjson), h.signatures q hq r hr hsignature⟩

variable [Sha256] [Ed25519]

/-- the operations are readings, or loads that raise -/
def Undisturbed (v : TrustVerifier) (ops : List Op) : Prop := ∀ op ∈ ops, op.isReading = true ∨ op.FailsToLoad v

omit [Ed25519] in
theorem Undisturbed.snoc {op : Op} (h : Undisturbed v ops) (hop : op.isReading = true ∨ op.FailsToLoad v) :
    Undisturbed v (ops ++ [op]) := by
  intro o ho
  rcases List.mem_append.1 ho with ho | ho
  · exact h o ho
  · rw [List.mem_singleton.1 ho]
    exact hop

def Op.isLoad : Op → Bool
  | .loadState _ | .mistyped .loadState => true
  | _ => false

/-- the records an operation other than a load appends -/
def appended (v : TrustVerifier) (op : Op) : List StateRecord :=
  if op.isLoad then [] else (step v op).records.drop v.records.length

/-! ## The two slots -/

/-- the operations end with an allowed preview that nothing has disturbed -/
structure Previewed (v : TrustVerifier) (before front between : List Op) (q : AgentPaymentRequest) (asked : Time) :
    Prop where
  split : before = front ++ .preview q asked :: between
  allowed : (run v front).previewChecks q asked = .ok ()
  quiet : Undisturbed (run v (front ++ [.preview q asked])) between
  state : run v before = run v (front ++ [.preview q asked])

/-- the operations end with a preparation that nothing has disturbed -/
structure Prepared (v : TrustVerifier) (before first after : List Op) (r : AgentPaymentRequest)
    (receipt : IntegrityReceipt) (outcome : ReceiptOutcome) (now : Time) : Prop where
  split : before = first ++ .prepareCommit r receipt outcome now :: after
  final : outcome.isFinal = true
  checked : (run v first).commitChecks r receipt now (run v first).pendingPreview = .ok ()
  quiet : Undisturbed (run v (first ++ [.prepareCommit r receipt outcome now])) after
  state : run v before = run v (first ++ [.prepareCommit r receipt outcome now])

/-- what is pending comes from the operations -/
structure Slots (v : TrustVerifier) (before : List Op) : Prop where
  preview : ∀ p, (run v before).pendingPreview = some p → ∃ front between q asked,
    Previewed v before front between q asked ∧ p.1.value = (run v front).previewOf q
  commit : ∀ p, (run v before).pendingCommit = some p → ∃ first after r receipt outcome now,
    Prepared v before first after r receipt outcome now ∧
    p.record = stateRecord r ((run v first).finalOf r outcome) ∧ p.capability.id = (run v first).issued

theorem run_snoc (v : TrustVerifier) (ops : List Op) (op : Op) : run v (ops ++ [op]) = step (run v ops) op := by
  rw [run_append, run_cons, run_nil]

theorem Previewed.snoc {v : TrustVerifier} {before front between : List Op} {q : AgentPaymentRequest} {asked : Time}
    {op : Op} (h : Previewed v before front between q asked)
    (hop : op.isReading = true ∨ op.FailsToLoad (run v before)) (hstep : step (run v before) op = run v before) :
    Previewed v (before ++ [op]) front (between ++ [op]) q asked := by
  refine ⟨?_, h.allowed, h.quiet.snoc ?_, ?_⟩
  · rw [h.split, List.append_assoc, List.cons_append]
  · rwa [← h.state]
  · rw [run_snoc, hstep, h.state]

theorem Prepared.snoc {v : TrustVerifier} {before first after : List Op} {r : AgentPaymentRequest}
    {receipt : IntegrityReceipt} {outcome : ReceiptOutcome} {now : Time} {op : Op}
    (h : Prepared v before first after r receipt outcome now)
    (hop : op.isReading = true ∨ op.FailsToLoad (run v before)) (hstep : step (run v before) op = run v before) :
    Prepared v (before ++ [op]) first (after ++ [op]) r receipt outcome now := by
  refine ⟨?_, h.final, h.checked, h.quiet.snoc ?_, ?_⟩
  · rw [h.split, List.append_assoc, List.cons_append]
  · rwa [← h.state]
  · rw [run_snoc, hstep, h.state]

theorem Slots.none (hpreview : (run v before).pendingPreview = none) (hcommit : (run v before).pendingCommit = none) :
    Slots v before :=
  ⟨fun p hp => absurd (hpreview.symm.trans hp) (by simp), fun p hp => absurd (hcommit.symm.trans hp) (by simp)⟩

theorem preview_records (v : TrustVerifier) (q : AgentPaymentRequest) (asked : Time) :
    (step v (.preview q asked)).records = v.records := by
  have h := effect_of v (.preview q asked)
  generalize step v (.preview q asked) = w at h
  cases h <;> rfl

theorem Previewed.records {v : TrustVerifier} {before front between : List Op} {q : AgentPaymentRequest} {asked : Time}
    (h : Previewed v before front between q asked) : (run v before).records = (run v front).records := by
  rw [h.state, run_snoc, preview_records]

theorem prepareCommit_records (v : TrustVerifier) (r : AgentPaymentRequest) (receipt : IntegrityReceipt)
    (outcome : ReceiptOutcome) (now : Time) : (step v (.prepareCommit r receipt outcome now)).records = v.records := by
  have h := effect_of v (.prepareCommit r receipt outcome now)
  generalize step v (.prepareCommit r receipt outcome now) = w at h
  cases h <;> rfl

/-- the sum of a quantity over the operations, each taken where it is performed -/
def tally (f : TrustVerifier → Op → ℕ) : TrustVerifier → List Op → ℕ
  | _, [] => 0
  | v, op :: ops => f v op + tally f (step v op) ops

/-- how many slots are taken -/
def pending (v : TrustVerifier) : ℕ := v.pendingPreview.toList.length + v.pendingCommit.toList.length

/-- the identity of a plan that appends a record -/
def appliedBy (v : TrustVerifier) : Op → List ℕ
  | .applyCommit plan => (appended v (.applyCommit plan)).map fun _ => plan.id
  | _ => []

/-- the identities of the plans that append a record -/
def applied : TrustVerifier → List Op → List ℕ
  | _, [] => []
  | v, op :: ops => appliedBy v op ++ applied (step v op) ops

/-- an identity that is neither pending nor still to be issued -/
def Spent (v : TrustVerifier) (id : ℕ) : Prop := id < v.issued ∧ ∀ p, v.pendingCommit = some p → p.capability.id ≠ id

theorem Spent.step {v : TrustVerifier} {id : ℕ} (h : Spent v id) (op : Op) : Spent (step v op) id := by
  have heffect := effect_of v op
  generalize TrustVerifier.step v op = w at heffect
  cases heffect with
  | read | notLoaded => exact h
  | cleared _ hissued => exact ⟨h.1.trans_le hissued, fun p hp => absurd hp (by simp [revoked])⟩
  | previewed | committed => exact ⟨Nat.lt_succ_of_lt h.1, fun p hp => absurd hp (by simp [revoked])⟩
  | applied | loaded => exact ⟨h.1, fun p hp => absurd hp (by simp [revoked])⟩
  | prepared =>
    refine ⟨Nat.lt_succ_of_lt h.1, fun p hp => ?_⟩
    rw [← Option.some.inj hp]
    exact h.1.ne'

omit [Ed25519] in
theorem Separated.mono {requests' : List AgentPaymentRequest} (h : Separated requests')
    (hsub : ∀ r ∈ requests, r ∈ requests') : Separated requests :=
  ⟨fun q hq r hr => h.signed q (hsub q hq) r (hsub r hr), fun q hq r hr => h.mandates q (hsub q hq) r (hsub r hr),
    fun q hq r hr => h.signatures q (hsub q hq) r (hsub r hr)⟩

omit [Sha256] in
theorem create_spec {agents : Dict (String × String) (List UInt8)} {mandates : Dict String AgentMandate}
    {evidence : Dict String AuthenticationEvidence} (h : create agents mandates evidence = .ok v) :
    v = ⟨agents, mandates, evidence, [], none, none, 0⟩ := by
  simp only [create, except_bind_eq_ok, except_pure_eq_ok] at h
  obtain ⟨_, -, _, -, _, -, rfl⟩ := h
  rfl

end TrustVerifier

namespace TrustVerifier

/-! ## A run -/

def textWeight (cs : List Char) : ℕ := cs.foldl (fun n c => (65599 * n + c.toNat) % 2 ^ 256) 1

def digestOf (n : ℕ) : String := String.ofList ((List.range 64).map fun i => Uuid.hexChar (n / 16 ^ i % 16))

/-- a digest that weighs the characters of the cells -/
@[reducible] def weighing : Sha256 where
  hexdigest
    | .arr rows => digestOf <| textWeight <| rows.flatMap fun
      | .arr cells => cells.flatMap fun
        | .str s => s.toList
        | _ => []
      | _ => []
    | _ => digestOf 0
  hexdigestBytes bytes := digestOf (textWeight (bytes.map fun b => Char.ofNat b.toNat))

/-- a scheme in which every key is good, and the signature is the key's first byte -/
@[reducible] def firstByte : Ed25519 := ⟨fun _ => true, fun publicKey signature _ => signature == publicKey.take 1⟩

def sampleMandate : AgentMandate where
  mandateId := "m1"
  version := 1
  agentId := "a1"
  userRef := "user"
  userEntityId := Uuid.formatUuid 1
  beneficiaryEntityId := Uuid.formatUuid 2
  consentRef := "consent"
  merchantId := "merchant"
  payeeId := "payee"
  cartHash := digestOf 1
  paymentIntentHash := digestOf 2
  permittedCategories := ["books"]
  permittedProducts := ["p"]
  credentialId := "c1"
  credentialScope := "pay"
  requiredAuthentication := .stepUp
  maxAmount := ⟨500, -2⟩
  currency := "USD"
  issuedAt := 0
  expiresAt := 100

def sampleRequest : AgentPaymentRequest where
  requestId := "r1"
  paymentId := "p1"
  agentId := "a1"
  keyId := "k1"
  mandate := sampleMandate
  amount := ⟨200, -2⟩
  currency := "USD"
  merchantId := "merchant"
  payeeId := "payee"
  cartHash := digestOf 1
  paymentIntentHash := digestOf 2
  category := "books"
  productId := "p"
  credentialId := "c1"
  credentialScope := "pay"
  consentRef := "consent"
  authenticationEvidenceRef := some "e1"
  nonce := "n1"
  createdAt := 0
  expiresAt := 50
  priorReceiptHash := ""
  campaignId := Uuid.formatUuid 3
  traceId := Uuid.formatUuid 4
  actorId := Uuid.formatUuid 1
  counterpartyId := Uuid.formatUuid 2
  signature := [7]

def sampleEvidence : AuthenticationEvidence where
  evidenceId := "e1"
  agentId := "a1"
  userRef := "user"
  mandateId := "m1"
  nonce := "n1"
  paymentIntentHash := digestOf 2
  requestId := "r1"
  outcome := .stepUpVerified
  issuedAt := 0
  expiresAt := 20

def sampleAgents : Dict (String × String) (List UInt8) := .ofList [(("a1", "k1"), List.replicate 32 7)]

def sampleVerifier : TrustVerifier :=
  ⟨sampleAgents, .ofList [("m1", sampleMandate)], .ofList [("e1", sampleEvidence)], [], none, none, 0⟩

theorem sampleVerifier_created :
    letI := firstByte
    create sampleAgents (.ofList [("m1", sampleMandate)]) (.ofList [("e1", sampleEvidence)]) = .ok sampleVerifier := rfl

/-- the receipt of the sample request's preview -/
def samplePreview : IntegrityReceipt :=
  letI := weighing
  sampleVerifier.previewOf sampleRequest

/-- a preview, a load that raises, a preparation, an application, and a verification of the same request -/
def sampleCalls : List Call :=
  [.op (.preview sampleRequest 1), .op (.loadState ⟨0, []⟩), .op (.prepareCommit sampleRequest samplePreview .approve 2),
    .op (.applyCommit ⟨samplePreview, 1⟩), .verify sampleRequest 3]

end TrustVerifier

end Apar
