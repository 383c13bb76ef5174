/-
The decision vocabulary of the contracts (`contracts/decisions.py`): actions and reason codes. Reason codes no modelled
function uses are left out.
-/
import Mathlib.Tactic

namespace Apar

inductive Action where
  | approve
  | challenge
  | decline
deriving DecidableEq, Repr

def Action.value : Action → String
  | approve => "approve"
  | challenge => "challenge"
  | decline => "decline"

/-- the reasons the verifier refuses a request for -/
inductive ReasonCode where
  | mandateScopeViolation
  | agentIdentityMismatch
  | signatureInvalid
  | amountLimitExceeded
  | currencyMismatch
  | payeeBindingMismatch
  | cartHashMismatch
  | mandateExpired
  | nonceReplay
  | receiptChainBroken
  | merchantBindingMismatch
  | categoryScopeViolation
  | productScopeViolation
  | paymentIntentHashMismatch
  | credentialBindingMismatch
  | tokenScopeViolation
  | consentBindingMismatch
  | mandateTimeScopeViolation
  | executionReceiptMismatch
  | authorityIdentityMismatch
  | authenticationEvidenceMissing
  | authenticationEvidenceMismatch
  | authenticationEvidenceExpired
  | authenticationEvidenceReplay
deriving DecidableEq, Repr

def ReasonCode.value : ReasonCode → String
  | mandateScopeViolation => "MANDATE_SCOPE_VIOLATION"
  | agentIdentityMismatch => "AGENT_IDENTITY_MISMATCH"
  | signatureInvalid => "SIGNATURE_INVALID"
  | amountLimitExceeded => "AMOUNT_LIMIT_EXCEEDED"
  | currencyMismatch => "CURRENCY_MISMATCH"
  | payeeBindingMismatch => "PAYEE_BINDING_MISMATCH"
  | cartHashMismatch => "CART_HASH_MISMATCH"
  | mandateExpired => "MANDATE_EXPIRED"
  | nonceReplay => "NONCE_REPLAY"
  | receiptChainBroken => "RECEIPT_CHAIN_BROKEN"
  | merchantBindingMismatch => "MERCHANT_BINDING_MISMATCH"
  | categoryScopeViolation => "CATEGORY_SCOPE_VIOLATION"
  | productScopeViolation => "PRODUCT_SCOPE_VIOLATION"
  | paymentIntentHashMismatch => "PAYMENT_INTENT_HASH_MISMATCH"
  | credentialBindingMismatch => "CREDENTIAL_BINDING_MISMATCH"
  | tokenScopeViolation => "TOKEN_SCOPE_VIOLATION"
  | consentBindingMismatch => "CONSENT_BINDING_MISMATCH"
  | mandateTimeScopeViolation => "MANDATE_TIME_SCOPE_VIOLATION"
  | executionReceiptMismatch => "EXECUTION_RECEIPT_MISMATCH"
  | authorityIdentityMismatch => "AUTHORITY_IDENTITY_MISMATCH"
  | authenticationEvidenceMissing => "AUTHENTICATION_EVIDENCE_MISSING"
  | authenticationEvidenceMismatch => "AUTHENTICATION_EVIDENCE_MISMATCH"
  | authenticationEvidenceExpired => "AUTHENTICATION_EVIDENCE_EXPIRED"
  | authenticationEvidenceReplay => "AUTHENTICATION_EVIDENCE_REPLAY"

end Apar
