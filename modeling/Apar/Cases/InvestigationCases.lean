/-
Investigation cases (`cases/grouping.py`): the evidence of one alert, the case that alerts are grouped into, and what
validating either of them checks.

A value here has the types that its class declares; floats are finite, and are the rationals they stand for. A validation
error is told without its text.
-/
import Mathlib.Data.String.Basic
import Apar.Core.Sorting
import Apar.Contracts.Decision
import Apar.Contracts.Event

namespace Apar

namespace Cases

/-- `CaseMotif` -/
inductive CaseMotif where
  | isolated
  | sharedActor
  | sharedCounterparty
  | transitive
deriving DecidableEq

/-- `CaseAlertEvidence`, but for its schema version -/
structure CaseAlertEvidence where
  eventId : String
  decisionAt : Time
  actorId : String
  counterpartyId : String
  motif : CaseMotif
  visibleValueBeforeAlert : Decimal
  latestGraphEvidenceAt : Option Time
  score : ℚ
  action : Action
  evidenceSourceIds : List String
deriving DecidableEq

/-- `InvestigationCase`, but for its schema version -/
structure InvestigationCase where
  caseId : String
  openedAt : Time
  eventIds : List String
  actorIds : List String
  counterpartyIds : List String
  firstAlertAt : Time
  priority : ℚ
  estimatedMinutes : ℕ
  firstEvidenceIds : List String
  alertEvidence : List CaseAlertEvidence
deriving DecidableEq

def maxIdentifierLength : ℕ := 4096

/-- text that is not empty and not too long -/
def isIdentifier (s : String) : Bool := s ≠ "" && s.length ≤ maxIdentifierLength

/-- the prefix of a case id, and a digest in lower case -/
def isCaseId (s : String) : Bool :=
  s.toList.take 5 = "case-".toList && isDigestText (String.ofList (s.toList.drop 5))

/-- `_case_id` -/
def caseId [Sha256] (firstEvidence : List String) : String :=
  "case-" ++ Sha256.hexdigest (.obj [("domain", .str "apar-investigation-case-v1"),
    ("first_evidence", .arr (firstEvidence.map .str))])

/-- `lambda row: (row.decision_at, row.event_id)` -/
def CaseAlertEvidence.key (row : CaseAlertEvidence) : Time ×ₗ String := toLex (row.decisionAt, row.eventId)

/-- what validating alert evidence checks -/
def CaseAlertEvidence.valid (row : CaseAlertEvidence) : Bool :=
  [row.eventId, row.actorId, row.counterpartyId].all isIdentifier &&
    0 ≤ row.visibleValueBeforeAlert.coeff &&
    (0 ≤ row.score && row.score ≤ 1) &&
    (row.evidenceSourceIds.all isIdentifier && row.evidenceSourceIds = sortedSet row.evidenceSourceIds) &&
    row.latestGraphEvidenceAt.all fun t => t < row.decisionAt

namespace InvestigationCase

/-- `identifiers_are_canonical` -/
def canonicalIdentifiers (ids : List String) : Bool := ids ≠ [] && ids.all isIdentifier && ids = sortedSet ids

/-- what the validators of the fields check -/
def validFields (c : InvestigationCase) : Bool :=
  isCaseId c.caseId &&
    [c.eventIds, c.actorIds, c.counterpartyIds, c.firstEvidenceIds].all canonicalIdentifiers &&
    (0 ≤ c.priority && c.priority ≤ 100) &&
    (1 ≤ c.estimatedMinutes && c.estimatedMinutes ≤ 1000000) &&
    c.alertEvidence.all CaseAlertEvidence.valid

/-- `chronology_is_coherent` -/
def coherent [Sha256] (c : InvestigationCase) : Bool :=
  let evidenceIds := c.alertEvidence.map CaseAlertEvidence.eventId
  let openingIds := (c.alertEvidence.filter fun row => row.decisionAt = c.openedAt).map CaseAlertEvidence.eventId
  c.openedAt = c.firstAlertAt &&
    c.alertEvidence ≠ [] &&
    c.alertEvidence = sortBy CaseAlertEvidence.key c.alertEvidence &&
    decide evidenceIds.Nodup &&
    c.eventIds = sortBy id evidenceIds &&
    c.firstEvidenceIds.all openingIds.contains &&
    c.caseId = Cases.caseId c.firstEvidenceIds &&
    (c.alertEvidence.all fun row => c.actorIds.contains row.actorId) &&
    c.alertEvidence.all fun row => c.counterpartyIds.contains row.counterpartyId

/-- what validating a case checks -/
def valid [Sha256] (c : InvestigationCase) : Bool := c.validFields && c.coherent

theorem priority_of_valid [Sha256] {c : InvestigationCase} (h : c.valid = true) : 0 ≤ c.priority ∧ c.priority ≤ 100 := by
  unfold valid validFields at h
  simp only [Bool.and_eq_true, decide_eq_true_eq] at h
  exact h.1.1.1.2

theorem isCaseId_of_valid [Sha256] {c : InvestigationCase} (h : c.valid = true) : isCaseId c.caseId = true := by
  unfold valid validFields at h
  simp only [Bool.and_eq_true] at h
  exact h.1.1.1.1.1

end InvestigationCase

end Cases

end Apar
