/-
The hidden evaluation authority (`evaluation_hidden/authority_core.py`): `freeze_and_issue` and `evaluate_hidden_replay`
on one authority, one statement a step. A section under `lifecycle_lock` is one step.

The closure's variables are the shared state, with the receipts that the store and the requests that the worker have been
given. What the functions of other modules return (the verifier's verdict, the frozen invocation, a signature, the
reference of a stored receipt, the worker's outcome) is an input of the step that calls them, and any statement may raise
whatever it likes (`Input.fault`), a `put_bytes` also after the receipt is stored. The `invocation` argument is left out:
only `_freeze_hidden_invocation` reads it. The instants of aware datetimes are numbers of microseconds.
-/
import Apar.Core.Interleaving
import Apar.Storage.Manifests

namespace Apar

namespace HiddenAuthority

open Artifacts (ArtifactRef)

/-! ## Values -/

/-- the fields of a `VerifiedDefenderAttestation` that the authority reads -/
structure Attestation where
  attestationDigest : String
  bundleManifestDigest : String
  bundleId : String
  topRef : ArtifactRef
  frozenAt : ℤ
deriving DecidableEq, Repr

/-- `HiddenBoundaryError`, `HiddenWorkerError`, `TypeError`, and any other exception -/
inductive Exc where
  | boundary (message : String)
  | worker
  | type
  | other
deriving DecidableEq, Repr

/-- an argument that should be a datetime: not an exact one, one that is not UTC, or the instant of a UTC one -/
inductive TimeArg where
  | inexact
  | invalid
  | utc (micros : ℤ)
deriving DecidableEq, Repr

/-- `_utc` -/
def utc (value : TimeArg) (label : String) : Except Exc ℤ :=
  match value with
  | .inexact => .error (.boundary (label ++ " must be exact"))
  | .invalid => .error (.boundary (label ++ " is invalid"))
  | .utc micros => .ok micros

def hiddenContextMediaType : String := "application/vnd.apar.hidden-evaluation-context+json"

def maxHiddenBytes : ℤ := 64 * 1024 * 1024

def maxReleases : ℕ := 64

/-- `_restricted_ref`; `none` is an argument of another type -/
def restrictedRef (ref : Option ArtifactRef) : Except Exc ArtifactRef :=
  match ref with
  | none => .error (.boundary "restricted ref must be exact")
  | some ref =>
    if ref.mediaType ≠ hiddenContextMediaType ∨ ¬ (0 < ref.sizeBytes ∧ ref.sizeBytes ≤ maxHiddenBytes) then
      .error (.boundary "restricted ref violates hidden context media limits")
    else .ok ref

/-- an object presented as a capability: one that the authority created, under its number, or another -/
inductive CapabilityArg where
  | bound (number : ℕ)
  | other
deriving DecidableEq, Repr

/-- what `_freeze_hidden_invocation` returns, as `_hidden_worker_frozen_document` and `_hidden_decision_bindings` read it -/
structure Frozen where
  document : String → Json
  decisions : List Json

/-- `HiddenDecisionFreezeReceipt` -/
structure FreezeReceipt where
  capabilityDigest : String
  defenderAttestationDigest : String
  defenderTopRefDigest : String
  bundleManifestDigest : String
  restrictedRefDigest : String
  invocationDigest : String
  releaseSequence : ℕ
  releasedAt : ℤ
  frozenAt : ℤ
  decisions : List Json
  signerKeyId : String
  publicKeyBase64 : String
  signatureBase64 : String
  receiptDigest : String

/-- what the authority was constructed with -/
structure Trusted where
  signerKeyId : String
  publicKeyBase64 : String
  signerPrivateSeedBase64 : String
  workerManifestDigest : String
  storeRoot : String
  hiddenSource : Json

/-- the request to the isolated worker -/
structure Request where
  storeRoot : String
  restrictedRef : ArtifactRef
  frozen : Json
  freezeReceipt : FreezeReceipt
  freezeRef : ArtifactRef
  signerPrivateSeedBase64 : String
  workerManifestDigest : String
  decisionBindingsDigest : String
  capabilityDigest : String
  defenderAttestationDigest : String
  defenderTopRefDigest : String
  bundleManifestDigest : String
  releaseSequence : ℕ
  releasedAt : ℤ
  sealedAt : ℤ
  hiddenSource : Json

/-! ## The shared state -/

inductive Lifecycle where
  | ready
  | reserved
  | consumed
deriving DecidableEq, Repr

inductive IssuanceState where
  | unissued
  | issuing
  | frozen
deriving DecidableEq, Repr

/-- what left the authority: a receipt to the store, a request to the worker, with the number of the call -/
inductive Event where
  | stored (call : ℕ) (receipt : FreezeReceipt)
  | invoked (call : ℕ) (request : Request)

structure Authority where
  activeCapability : Option ℕ
  activeAttestation : Option Attestation
  capabilityDigest : Option String
  capabilityIssuedAt : Option ℤ
  releaseSequence : ℕ
  lifecycle : Lifecycle
  issuanceState : IssuanceState
  /-- the number of the next `_BoundCapability` -/
  nextCapability : ℕ
  events : List Event

/-- `_new_authority` -/
def newAuthority : Authority := ⟨none, none, none, none, 0, .ready, .unissued, 0, []⟩

/-- what the environment decides at a step -/
structure Input where
  fault : Option Exc
  verified : Bool
  token : String
  frozen : Frozen
  signature : String
  stored : Bool
  ref : ArtifactRef
  outcome : Json

/-! ## `freeze_and_issue` -/

structure FreezeArgs where
  isInstance : Bool
  attestation : Option Attestation
  issuedAt : TimeArg

inductive FreezePhase where
  | start
  | locking
  | verifying
  | timing (attestation : Attestation)
  | ordering (attestation : Attestation) (checkedAt : ℤ)
  | digesting (attestation : Attestation) (checkedAt : ℤ)
  | creating (attestation : Attestation) (checkedAt : ℤ) (nextDigest : String)
  | restoring (error : Exc)
  | publishing (attestation : Attestation) (checkedAt : ℤ) (nextDigest : String) (nextCapability : ℕ)
  | done (result : Except Exc ℕ)

section Steps

variable [Sha256] (trusted : Trusted) (input : Input) (s : Authority)

def freezeStep (args : FreezeArgs) : FreezePhase → Authority × FreezePhase
  | .start =>
    if !args.isInstance then (s, .done (.error (.boundary "hidden authority instance identity is invalid")))
    else (s, .locking)
  | .locking =>
    if s.issuanceState ≠ .unissued ∨ s.activeCapability ≠ none then
      (s, .done (.error (.boundary "hidden authority is already frozen")))
    else ({ s with issuanceState := .issuing }, .verifying)
  | .verifying =>
    match args.attestation, input.fault with
    | some attestation, none =>
      if input.verified then (s, .timing attestation)
      else (s, .restoring (.boundary "hidden release requires an exact verified signed defender attestation"))
    | some _, some e => (s, .restoring e)
    | none, _ => (s, .restoring (.boundary "hidden release requires an exact verified signed defender attestation"))
  | .timing attestation =>
    match input.fault, utc args.issuedAt "hidden capability issue time" with
    | none, .ok checkedAt => (s, .ordering attestation checkedAt)
    | none, .error e => (s, .restoring e)
    | some e, _ => (s, .restoring e)
  | .ordering attestation checkedAt =>
    match input.fault with
    | some e => (s, .restoring e)
    | none =>
      if attestation.frozenAt > checkedAt then
        (s, .restoring (.boundary "defender freeze follows hidden capability issue"))
      else (s, .digesting attestation checkedAt)
  | .digesting attestation checkedAt =>
    match input.fault with
    | some e => (s, .restoring e)
    | none =>
      (s, .creating attestation checkedAt (Sha256.hexdigest (.obj [
        ("attestation_digest", .str attestation.attestationDigest),
        ("bundle_id", .str attestation.bundleId),
        ("bundle_manifest_digest", .str attestation.bundleManifestDigest),
        ("issued_at", .str (Calendar.timestampText checkedAt)),
        ("nonce", .str input.token),
        ("schema_version", .str "2.0.0")])))
  | .creating attestation checkedAt nextDigest =>
    match input.fault with
    | some e => (s, .restoring e)
    | none =>
      ({ s with nextCapability := s.nextCapability + 1 }, .publishing attestation checkedAt nextDigest s.nextCapability)
  | .restoring e =>
    (if s.issuanceState = .issuing then { s with issuanceState := .unissued } else s, .done (.error e))
  | .publishing attestation checkedAt nextDigest nextCapability =>
    if s.issuanceState ≠ .issuing ∨ s.activeCapability ≠ none then
      (s, .done (.error (.boundary "hidden capability issuance was lost")))
    else
      ({ s with
          activeAttestation := some attestation
          capabilityIssuedAt := some checkedAt
          capabilityDigest := some nextDigest
          activeCapability := some nextCapability
          issuanceState := .frozen },
        .done (.ok nextCapability))
  | .done result => (s, .done result)

/-! ## `evaluate_hidden_replay` -/

structure EvaluateArgs where
  isInstance : Bool
  capability : CapabilityArg
  restrictedRef : Option ArtifactRef
  releasedAt : TimeArg
  sealedAt : TimeArg

/-- `sequence`, `ref`, `release_time` and `seal_time` -/
structure Release where
  sequence : ℕ
  ref : ArtifactRef
  releaseTime : ℤ
  sealTime : ℤ

/-- `frozen_document`, `invocation_digest`, `decisions` and `decision_bindings_digest` -/
structure Decided where
  frozenDocument : Json
  invocationDigest : String
  decisions : List Json
  decisionBindingsDigest : String

/-- a phase of the `finally` clause carries what the call will return or raise, and `reserved_here` -/
inductive EvaluatePhase where
  | start
  | reserving
  | checkingActive (sequence : ℕ)
  | checkingCapability (sequence : ℕ)
  | verifying (sequence : ℕ)
  | checkingRef (sequence : ℕ)
  | timingRelease (sequence : ℕ) (ref : ArtifactRef)
  | timingSeal (sequence : ℕ) (ref : ArtifactRef) (releaseTime : ℤ)
  | asserting (release : Release)
  | ordering (release : Release)
  | capping (release : Release)
  | freezing (release : Release)
  | drawing (release : Release) (frozen : Frozen)
  | documenting (release : Release) (frozen : Frozen) (proofId : String)
  | digesting (release : Release) (frozen : Frozen) (frozenDocument : Json)
  | binding (release : Release) (frozen : Frozen) (frozenDocument : Json) (invocationDigest : String)
  | digestingBindings (release : Release) (frozenDocument : Json) (invocationDigest : String) (decisions : List Json)
  | signing (release : Release) (decided : Decided)
  | storing (release : Release) (decided : Decided) (receipt : FreezeReceipt)
  | consuming (release : Release) (decided : Decided) (receipt : FreezeReceipt) (freezeRef : ArtifactRef)
  | requesting (release : Release) (decided : Decided) (receipt : FreezeReceipt) (freezeRef : ArtifactRef)
  | invoking (request : Request)
  | concluding
  | finishing (reservedHere : Bool) (result : Except Exc Json)
  | done (reservedHere : Bool) (result : Except Exc Json)

/-- the `except` clauses -/
def closed : Exc → Exc
  | .worker | .type => .boundary "isolated hidden evaluation failed closed"
  | e => e

/-- a statement after the reservation raises -/
def failed (e : Exc) : EvaluatePhase := .finishing true (.error (closed e))

/-- `_ref_digest` -/
def refDigest (ref : ArtifactRef) : String :=
  Sha256.hexdigest (.obj [
    ("media_type", .str ref.mediaType),
    ("relative_path", .str ref.relativePath),
    ("sha256", .str ref.sha256),
    ("size_bytes", .int ref.sizeBytes)])

/-- `unsigned_document` -/
def FreezeReceipt.unsignedFields (r : FreezeReceipt) : List (String × Json) := [
  ("bundle_manifest_digest", .str r.bundleManifestDigest),
  ("capability_digest", .str r.capabilityDigest),
  ("decisions", .arr r.decisions),
  ("defender_attestation_digest", .str r.defenderAttestationDigest),
  ("defender_top_ref_digest", .str r.defenderTopRefDigest),
  ("frozen_at", .str (Calendar.timestampText r.frozenAt)),
  ("invocation_digest", .str r.invocationDigest),
  ("public_key_base64", .str r.publicKeyBase64),
  ("release_sequence", .int r.releaseSequence),
  ("released_at", .str (Calendar.timestampText r.releasedAt)),
  ("restricted_ref_digest", .str r.restrictedRefDigest),
  ("schema_version", .str "1.0.0"),
  ("signer_key_id", .str r.signerKeyId)]

/-- `_sign_freeze_receipt` -/
def signFreezeReceipt (capabilityDigest : String) (attestation : Attestation) (release : Release) (decided : Decided) :
    FreezeReceipt :=
  let unsigned : FreezeReceipt :=
    { capabilityDigest := capabilityDigest
      defenderAttestationDigest := attestation.attestationDigest
      defenderTopRefDigest := attestation.topRef.sha256
      bundleManifestDigest := attestation.bundleManifestDigest
      restrictedRefDigest := refDigest release.ref
      invocationDigest := decided.invocationDigest
      releaseSequence := release.sequence
      releasedAt := release.releaseTime
      frozenAt := release.sealTime
      decisions := decided.decisions
      signerKeyId := trusted.signerKeyId
      publicKeyBase64 := trusted.publicKeyBase64
      signatureBase64 := input.signature
      receiptDigest := "" }
  { unsigned with
    receiptDigest := Sha256.hexdigest (.obj (unsigned.unsignedFields ++ [("signature_base64", .str input.signature)])) }

def request (capabilityDigest : String) (attestation : Attestation) (release : Release) (decided : Decided)
    (receipt : FreezeReceipt) (freezeRef : ArtifactRef) : Request where
  storeRoot := trusted.storeRoot
  restrictedRef := release.ref
  frozen := decided.frozenDocument
  freezeReceipt := receipt
  freezeRef := freezeRef
  signerPrivateSeedBase64 := trusted.signerPrivateSeedBase64
  workerManifestDigest := trusted.workerManifestDigest
  decisionBindingsDigest := decided.decisionBindingsDigest
  capabilityDigest := capabilityDigest
  defenderAttestationDigest := attestation.attestationDigest
  defenderTopRefDigest := attestation.topRef.sha256
  bundleManifestDigest := attestation.bundleManifestDigest
  releaseSequence := release.sequence
  releasedAt := release.releaseTime
  sealedAt := release.sealTime
  hiddenSource := trusted.hiddenSource

/-- the statements after the reservation that leave the shared state as it is, when they do not raise -/
def evaluateNext (args : EvaluateArgs) : EvaluatePhase → Except Exc EvaluatePhase
  | .checkingActive sequence =>
    if s.activeCapability = none ∨ s.activeAttestation = none then
      .error (.boundary "restricted refs require a frozen defender")
    else .ok (.checkingCapability sequence)
  | .checkingCapability sequence =>
    match args.capability, s.activeCapability with
    | .bound presented, some active =>
      if presented ≠ active then .error (.boundary "hidden capability identity is invalid") else .ok (.verifying sequence)
    | _, _ => .error (.boundary "hidden capability identity is invalid")
  | .verifying sequence =>
    if !input.verified then .error (.boundary "active defender attestation no longer verifies")
    else .ok (.checkingRef sequence)
  | .checkingRef sequence => (restrictedRef args.restrictedRef).map (.timingRelease sequence)
  | .timingRelease sequence ref => (utc args.releasedAt "hidden release time").map (.timingSeal sequence ref)
  | .timingSeal sequence ref releaseTime =>
    (utc args.sealedAt "hidden seal time").map fun sealTime => .asserting ⟨sequence, ref, releaseTime, sealTime⟩
  | .asserting release => if s.capabilityIssuedAt = none then .error .other else .ok (.ordering release)
  | .ordering release =>
    match s.capabilityIssuedAt with
    | none => .error .type
    | some issuedAt =>
      if release.releaseTime < issuedAt ∨ release.sealTime < release.releaseTime then
        .error (.boundary "hidden release timestamps are out of order")
      else .ok (.capping release)
  | .capping release =>
    if release.sequence > maxReleases then .error (.boundary "hidden release cap is exhausted") else .ok (.freezing release)
  | .freezing release => .ok (.drawing release input.frozen)
  | .drawing release frozen => .ok (.documenting release frozen ("hpf_" ++ input.token))
  | .documenting release frozen proofId => .ok (.digesting release frozen (frozen.document proofId))
  | .digesting release frozen document => .ok (.binding release frozen document (Sha256.hexdigest document))
  | .binding release frozen document digest => .ok (.digestingBindings release document digest frozen.decisions)
  | .digestingBindings release document digest decisions =>
    .ok (.signing release ⟨document, digest, decisions, Sha256.hexdigest (.arr decisions)⟩)
  | .signing release decided =>
    match s.capabilityDigest, s.activeAttestation with
    | some digest, some attestation =>
      .ok (.storing release decided (signFreezeReceipt trusted input digest attestation release decided))
    | _, _ => .error .other
  | .requesting release decided receipt freezeRef =>
    match s.capabilityDigest, s.activeAttestation with
    | some digest, some attestation => .ok (.invoking (request trusted digest attestation release decided receipt freezeRef))
    | _, _ => .error .other
  | .concluding => .ok (.finishing true (.ok input.outcome))
  | phase => .ok phase

/-- one step of `evaluate_hidden_replay`, the call having the number `i` -/
def evaluateStep (i : ℕ) (args : EvaluateArgs) (phase : EvaluatePhase) : Authority × EvaluatePhase :=
  match phase with
  | .start =>
    if !args.isInstance then (s, .done false (.error (.boundary "hidden authority instance identity is invalid")))
    else (s, .reserving)
  | .reserving =>
    if s.lifecycle ≠ .ready then
      (s, .finishing false (.error (.boundary "hidden replay capability is already reserved or consumed")))
    else ({ s with lifecycle := .reserved }, .checkingActive (s.releaseSequence + 1))
  | .storing release decided receipt =>
    let stored := { s with events := s.events ++ [.stored i receipt] }
    match input.fault with
    | none => (stored, .consuming release decided receipt input.ref)
    | some e => (if input.stored then stored else s, failed e)
  | .consuming release decided receipt freezeRef =>
    if s.lifecycle ≠ .reserved then (s, failed (.boundary "hidden lifecycle reservation was lost"))
    else
      ({ s with lifecycle := .consumed, releaseSequence := release.sequence },
        .requesting release decided receipt freezeRef)
  | .invoking request =>
    ({ s with events := s.events ++ [.invoked i request] },
      match input.fault with
      | none => .concluding
      | some e => failed e)
  | .finishing reservedHere result =>
    (if reservedHere ∧ s.lifecycle = .reserved then
      { s with lifecycle := .consumed, releaseSequence := max s.releaseSequence 1 }
    else s, .done reservedHere result)
  | .done reservedHere result => (s, .done reservedHere result)
  | phase =>
    (s,
      match input.fault, evaluateNext trusted input s args phase with
      | none, .ok next => next
      | none, .error e => failed e
      | some e, _ => failed e)

end Steps

/-! ## The calls on one authority -/

inductive Args where
  | freeze (args : FreezeArgs)
  | evaluate (args : EvaluateArgs)

inductive Local where
  | freeze (args : FreezeArgs) (phase : FreezePhase)
  | evaluate (args : EvaluateArgs) (phase : EvaluatePhase)

def authority [Sha256] (trusted : Trusted) : Calls Authority Local Args Input where
  start
    | .freeze args => .freeze args .start
    | .evaluate args => .evaluate args .start
  step i input s
    | .freeze args phase => ((freezeStep input s args phase).1, .freeze args (freezeStep input s args phase).2)
    | .evaluate args phase =>
      ((evaluateStep trusted input s i args phase).1, .evaluate args (evaluateStep trusted input s i args phase).2)

end HiddenAuthority

end Apar
