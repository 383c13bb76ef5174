/-
The worker's wire (`runs/wire.py`): bounds, candidates and histories as JSON documents, and back.

The writers rebuild what they write; the readers check the exact field set of every object and build the contracts anew.
A history is written with the feedback the scenario discloses, and read with neutral values for the rest.
-/
import Apar.Core.Dict
import Apar.Runs.Codec

namespace Apar

open Exec Redteam

/-- what a scenario may disclose to the attacker -/
inductive FeedbackField where
  | action
  | reasonFamily
  | approve
  | challenge
  | decline
  | realizedValue
deriving DecidableEq

namespace Wire

variable {F : Type}

/-! ## Parts of documents -/

/-- `_object`: the items of a dict with exactly these fields -/
def object (value : JsonTree F) (fields : List String) (label : String) :
    Except PolicyError (List (PyStr × JsonTree F)) :=
  let refuse : Except PolicyError (List (PyStr × JsonTree F)) := .error (wireError (label ++ " field set is not exact"))
  match value with
  | .dict items =>
    let keys := items.map Prod.fst
    let fields := fields.map PyStr.ofString
    if keys.all fields.contains && fields.all keys.contains then .ok items else refuse
  | _ => refuse

/-- `document[name]`, of a field that is there -/
def field (items : List (PyStr × JsonTree F)) (name : String) : JsonTree F :=
  (Assoc.get? (PyStr.ofString name) items).getD .null

/-- `_list` -/
def list (value : JsonTree F) (label : String) : Except PolicyError (List (JsonTree F)) :=
  match value with
  | .list items => .ok items
  | _ => .error (wireError (label ++ " must be an exact list"))

/-- `_text` -/
def text (value : JsonTree F) (label : String) : Except PolicyError PyStr :=
  match value with
  | .str (c :: cs) => .ok (c :: cs)
  | _ => .error (wireError (label ++ " must be exact non-empty text"))

/-- `_integer` -/
def integer (value : JsonTree F) (label : String) : Except PolicyError ℤ :=
  let refuse : Except PolicyError ℤ := .error (wireError (label ++ " must be an exact non-negative integer"))
  match value with
  | .int n => if n < 0 then refuse else .ok n
  | _ => refuse

/-- the characters of a text as far as they are ASCII; a decimal is written with those alone -/
def asciiChars (s : PyStr) : List Char := s.map fun c => if c.val < 128 then Char.ofNat c.val else Char.ofNat 0xFFFD

/-- `Decimal(text)`, and `str` of it again -/
def decimal (value : PyStr) (invalid notCanonical : String) : Except PolicyError DecimalTuple :=
  match DecimalTuple.read (asciiChars value) with
  | none => .error (wireError invalid)
  | some .special => .error (wireError notCanonical)
  | some (.finite number) =>
    if AdaptiveValue.decimalText number = value then .ok number else .error (wireError notCanonical)

/-! ## Adaptive values -/

def asInteger? : JsonTree F → Option ℤ
  | .int n => some n
  | _ => none

def asText? : JsonTree F → Option PyStr
  | .str s => some s
  | _ => none

/-- the value of a kind -/
def decodeKind (kind : PyStr) (raw : JsonTree F) : Except PolicyError AdaptiveValue :=
  if kind = PyStr.ofString "decimal" then do
    let text ← text raw "adaptive Decimal"
    let number ← decimal text "adaptive Decimal is invalid" "adaptive Decimal is not canonical"
    pure (.decimal number)
  else
    match (if kind = PyStr.ofString "integer" then asInteger? raw else none),
      -- an empty string is not read
      (if kind = PyStr.ofString "string" then (asText? raw).filter (· ≠ []) else none) with
    | some n, _ => pure (.integer n)
    | none, some s => pure (.string s)
    | none, none =>
      if kind = PyStr.ofString "string_tuple" then do
        let items ← list raw "adaptive string tuple"
        match items.mapM asText? with
        | some (text :: texts) => pure (.stringTuple (text :: texts))
        | _ => .error (wireError "adaptive string tuple is invalid")
      else .error (wireError "adaptive tagged value type is invalid")

/-- `_decode_tagged` -/
def decodeTagged (value : JsonTree F) : Except PolicyError AdaptiveValue := do
  let tagged ← object value ["type", "value"] "adaptive value"
  let kind ← text (field tagged "type") "adaptive value type"
  decodeKind kind (field tagged "value")

section

variable [Sha256]

def parameterFromWire (value : JsonTree F) : Except PolicyError AdaptiveParameter := do
  let entry ← object value ["name", "value"] "adaptive parameter"
  let name ← text (field entry "name") "adaptive parameter name"
  let value ← decodeTagged (field entry "value")
  AdaptiveParameter.make name value

/-- `_vector_from_wire` -/
def vectorFromWire (value : JsonTree F) : Except PolicyError AdaptiveVector := do
  let entries ← list value "adaptive vector"
  let decoded ← entries.mapM parameterFromWire
  AdaptiveVector.make decoded

/-! ## Bounds and candidates -/

def boundsToWire (bounds : ParameterBounds) : Except PolicyError (JsonTree F) := do
  let checked ← reconstructBounds bounds
  pure checked.document

def domainFromWire (value : JsonTree F) : Except PolicyError ParameterDomain := do
  let domain ← object value ["name", "kind", "values"] "parameter domain"
  let kindText ← text (field domain "kind") "domain kind"
  match DomainKind.ofValue? kindText with
  | none => .error (wireError "domain kind is undeclared")
  | some kind =>
    let name ← text (field domain "name") "domain name"
    let items ← list (field domain "values") "domain values"
    let values ← items.mapM decodeTagged
    ParameterDomain.make name kind values

def boundsFromWire (value : JsonTree F) : Except PolicyError ParameterBounds := do
  let document ← object value ["family", "defaults", "domains", "feasible_vectors"] "parameter bounds"
  let domainItems ← list (field document "domains") "parameter domains"
  let domains ← domainItems.mapM domainFromWire
  let family ← text (field document "family") "bounds family"
  let defaults ← vectorFromWire (field document "defaults")
  let vectorItems ← list (field document "feasible_vectors") "feasible vectors"
  let feasibleVectors ← vectorItems.mapM vectorFromWire
  ParameterBounds.make family defaults domains feasibleVectors

def candidateToWire (candidate : AttackCandidate) : Except PolicyError (JsonTree F) := do
  candidate.assertPristine
  pure (document [("candidate_id", .str candidate.candidateId), ("generation", .int candidate.generation),
    ("params", candidate.params.document), ("parent_id", (candidate.parentId.map JsonTree.str).getD .null)])

/-- text or null -/
def parentFromWire (value : JsonTree F) : Except PolicyError (Option PyStr) :=
  match value with
  | .null => .ok none
  | .str s => .ok (some s)
  | _ => .error (wireError "candidate parent_id must be text or null")

def candidateFromWire (value : JsonTree F) (history : List VisibleTrial) (bounds : ParameterBounds) :
    Except PolicyError AttackCandidate := do
  let document ← object value ["candidate_id", "generation", "params", "parent_id"] "attack candidate"
  let parent ← parentFromWire (field document "parent_id")
  let params ← vectorFromWire (field document "params")
  let generation ← integer (field document "generation") "candidate generation"
  let candidate ← AttackCandidate.make params parent generation
  let candidateId ← text (field document "candidate_id") "candidate ID"
  check (candidate.candidateId = candidateId) (wireError "candidate ID does not match its public document")
  let checked ← validateCandidateLineage candidate history
  let _ ← bounds.validateVector checked.params
  pure checked

/-! ## Histories -/

/-- `_checked_feedback_fields` -/
def checkedFeedbackFields (feedbackFields : List FeedbackField) : Except PolicyError Unit := do
  check (feedbackFields ≠ []) (wireError "feedback fields must be a non-empty exact tuple")
  check feedbackFields.Nodup (wireError "feedback fields must be unique")

/-- `_action_is_declared` -/
def actionIsDeclared (fields : List FeedbackField) : Bool :=
  fields.contains .action || [FeedbackField.approve, .challenge, .decline].all fields.contains

/-- the disclosed feedback of a trial -/
def feedbackToWire (declared : List FeedbackField) (feedback : Feedback) : JsonTree F :=
  document (
    (if actionIsDeclared declared then [("action", .str (PyStr.ofString feedback.action.value))] else []) ++
    (if declared.contains .reasonFamily then [("reason_family", .str feedback.reasonFamily)] else []) ++
    (if declared.contains .realizedValue then
      [("realized_value", (feedback.realizedValue.map fun d => JsonTree.str (AdaptiveValue.decimalText d)).getD .null)]
    else []))

def trialToWire (declared : List FeedbackField) (trial : VisibleTrial) : Except PolicyError (JsonTree F) := do
  let candidate ← candidateToWire trial.candidate
  pure (document [("candidate", candidate), ("feedback", feedbackToWire declared trial.feedback)])

def historyToWire (history : List VisibleTrial) (feedbackFields : List FeedbackField) :
    Except PolicyError (JsonTree F) := do
  let checked ← reconstructHistory history
  checkedFeedbackFields feedbackFields
  let trials ← checked.mapM (trialToWire feedbackFields)
  pure (.list trials)

/-- `Action(text)` -/
def actionOfValue? (text : PyStr) : Option Action :=
  [Action.approve, .challenge, .decline].find? fun action => PyStr.ofString action.value = text

/-- the disclosed action, or the neutral one -/
def actionFromWire (feedback : List (PyStr × JsonTree F)) : Except PolicyError Action :=
  match Assoc.get? (PyStr.ofString "action") feedback with
  | none => .ok .challenge
  | some value => do
    let text ← text value "feedback action"
    match actionOfValue? text with
    | some action => pure action
    | none => .error (wireError "feedback action is undeclared")

/-- the disclosed realised value, or none -/
def realizedFromWire (feedback : List (PyStr × JsonTree F)) : Except PolicyError (Option DecimalTuple) :=
  match field feedback "realized_value" with
  | .null => .ok none
  | value => do
    let text ← text value "realized value"
    -- an infinity or a NaN, which the source leaves to the feedback contract, is refused here
    let number ← decimal text "realized value is invalid" "realized value is not canonical"
    pure (some number)

/-- the disclosed reason family, or the neutral one of an action -/
def reasonFromWire (action : Action) (feedback : List (PyStr × JsonTree F)) : Except PolicyError PyStr :=
  match field feedback "reason_family" with
  | .null => .ok (PyStr.ofString (if action = .approve then "approved" else "other"))
  | value => text value "feedback reason"

def trialFromWire (ctx : DecimalContext) (bounds : ParameterBounds) (declared : List FeedbackField)
    (trials : List VisibleTrial) (value : JsonTree F) : Except PolicyError VisibleTrial := do
  let trial ← object value ["candidate", "feedback"] "visible trial"
  let candidate ← candidateFromWire (field trial "candidate") trials bounds
  let expected := (if actionIsDeclared declared then ["action"] else []) ++
    (if declared.contains .reasonFamily then ["reason_family"] else []) ++
    (if declared.contains .realizedValue then ["realized_value"] else [])
  let feedbackDocument ← object (field trial "feedback") expected "visible feedback"
  let action ← actionFromWire feedbackDocument
  let realized ← realizedFromWire feedbackDocument
  let reason ← reasonFromWire action feedbackDocument
  let feedback ← Feedback.make ctx action reason realized
  VisibleTrial.make ctx candidate feedback (objectiveOf ctx action realized)

/-- the loop of `history_from_wire`, the trials so far given -/
def trialsFromWire (ctx : DecimalContext) (bounds : ParameterBounds) (declared : List FeedbackField)
    (trials : List VisibleTrial) : List (JsonTree F) → Except PolicyError (List VisibleTrial)
  | [] => .ok trials
  | value :: rest => do
    let trial ← trialFromWire ctx bounds declared trials value
    trialsFromWire ctx bounds declared (trials ++ [trial]) rest

def historyFromWire (ctx : DecimalContext) (value : JsonTree F) (bounds : ParameterBounds)
    (feedbackFields : List FeedbackField) : Except PolicyError (List VisibleTrial) := do
  checkedFeedbackFields feedbackFields
  let rawTrials ← list value "visible history"
  let trials ← trialsFromWire ctx bounds feedbackFields [] rawTrials
  reconstructHistory trials

end

end Wire

end Apar
