/-
The attacker's search (`RunRunner._search` and `PolicyWorkerClient.propose` in `runs/runner.py`).

One generation asks the worker for a candidate, evaluates it, keeps of the returned feedback what the scenario
discloses, and appends the trial. A run is its state: the requests sent, the history and the observations, which an
exception leaves as they are.

The worker is a function from request bytes to output bytes, or an error; the evaluator is a function of the history's
length and the candidate, and stands for both `evaluate_with_observation` and the agentic replay. `model_validate` of
the audit record is a parameter.

Not modelled: the worker's deadline and resources, the audits the client keeps, the type checks of the arguments.
-/
import Apar.Core.TwoRuns
import Apar.Runs.Wire

namespace Apar

open Exec Redteam Wire

namespace FeedbackField

def value : FeedbackField → String
  | action => "action"
  | reasonFamily => "reason_family"
  | approve => "approve"
  | challenge => "challenge"
  | decline => "decline"
  | realizedValue => "realized_value"

end FeedbackField

inductive AttackerMode where
  | static
  | adaptive
  | decisionOnly
deriving DecidableEq

def AttackerMode.value : AttackerMode → String
  | static => "static"
  | adaptive => "adaptive"
  | decisionOnly => "decision_only"

inductive AttackerPolicyKind where
  | fixed
  | random
  | adaptive
  | cachedLlm
deriving DecidableEq

def AttackerPolicyKind.value : AttackerPolicyKind → String
  | fixed => "fixed"
  | random => "random"
  | adaptive => "adaptive"
  | cachedLlm => "cached_llm"

structure AttackerPolicy where
  family : PyStr
  attackerMode : AttackerMode
  kind : AttackerPolicyKind
  queryBudget : ℕ

/-- the worker's audit record -/
structure ProposalAudit where
  policyKind : AttackerPolicyKind
  cacheHit : Bool
  cacheSource : Option PyStr
  networkCallCount : ℕ
  proposalSeed : ℤ

/-- what a search raises: a contract's error, the worker client's, the audit's, or the evaluator's -/
inductive SearchError (E : Type) where
  | contract (e : PolicyError)
  | worker (message : String)
  | audit
  | evaluation (e : E)

namespace RunSearch

/-- what the search reads of a compiled bundle; its feedback declaration is not empty -/
structure ScenarioBundle where
  scenarioId : PyStr
  seed : ℤ
  threatCardRef : PyStr
  randomSeed : ℤ
  feedback : List FeedbackField
  feedback_ne : feedback ≠ []

variable {F E Obs : Type}

/-! ## Requests -/

/-- `feedback_fields_to_wire` -/
def feedbackFieldsToWire (feedbackFields : List FeedbackField) : Except PolicyError (JsonTree F) := do
  checkedFeedbackFields feedbackFields
  pure (.list ((sortBy id (feedbackFields.map fun f => PyStr.ofString f.value)).map .str))

/-- `int(text, 16)` -/
def hexValue (digits : List Char) : ℕ := digits.foldl (fun n c => 16 * n + hexChars.idxOf c) 0

variable [FloatRead F] [Sha256]

/-- the document a proposal seed is drawn from -/
def seedDocument (bundle : ScenarioBundle) (policy : AttackerPolicy) (generation : ℕ) : JsonTree F :=
  document [("attacker_mode", .str (PyStr.ofString policy.attackerMode.value)),
    ("domain", .str (PyStr.ofString "policy-proposal-v1")), ("family", .str policy.family),
    ("generation", .int generation), ("replay_random_seed", .int bundle.randomSeed),
    ("scenario_id", .str bundle.scenarioId), ("scenario_seed", .int bundle.seed),
    ("threat_card_ref", .str bundle.threatCardRef)]

/-- the seed of a generation: the first eight bytes of the digest, less the highest bit -/
def proposalSeed (F : Type) [FloatRead F] (limit : Option ℕ) (bundle : ScenarioBundle) (policy : AttackerPolicy)
    (generation : ℕ) : Except PolicyError ℤ := do
  let bytes ← canonicalJsonBytes limit (seedDocument bundle policy generation : JsonTree F)
  pure (hexValue ((Sha256.hexdigestBytes bytes.toList).toList.take 16) % 2 ^ 63 : ℕ)

/-- the request of `propose` -/
def requestDocument (bounds : ParameterBounds) (kind : AttackerPolicyKind) (replayCache : JsonTree F) (seed : ℤ)
    (history : List VisibleTrial) (feedbackFields : List FeedbackField) : Except PolicyError (JsonTree F) := do
  let boundsDocument ← boundsToWire bounds
  let fields ← feedbackFieldsToWire feedbackFields
  let trials ← historyToWire history feedbackFields
  pure (document ([("bounds", boundsDocument), ("feedback_fields", fields), ("history", trials),
    ("operation", .str (PyStr.ofString "propose")), ("policy_kind", .str (PyStr.ofString kind.value)),
    ("schema_version", .str (PyStr.ofString "1.0.0")), ("seed", .int seed)] ++
    if kind = .cachedLlm then [("llm_replay_cache", replayCache)] else []))

/-! ## Responses -/

/-- an error of a contract, as the search raises it -/
def contract {α : Type} (x : Except PolicyError α) : Except (SearchError E) α := x.mapError .contract

/-- the object in the worker's output -/
def loadOutput (limit : Option ℕ) (stdout : ByteArray) : Except (SearchError E) (JsonTree F) :=
  match strictJsonLoads limit stdout with
  | .error _ => .error (.worker "policy worker output is not canonical strict JSON")
  | .ok (.dict items) => .ok (.dict items)
  | .ok _ => .error (.worker "policy worker output must be an object")

/-- the response has the exact fields, and `ok` is true -/
def checkResponse (response : JsonTree F) : Except (SearchError E) (List (PyStr × JsonTree F)) :=
  match object response ["audit", "candidate", "ok"] "response" with
  | .error _ => .error (.worker "policy worker response field set is invalid")
  | .ok items =>
    match field items "ok" with
    | .bool true => .ok items
    | _ => .error (.worker "policy worker failed closed")

/-- the audit is that of the requested policy, without network calls -/
def checkAudit (kind : AttackerPolicyKind) (seed : ℤ) (audit : Option ProposalAudit) : Except (SearchError E) Unit :=
  match audit with
  | none => .error .audit
  | some a =>
    let cached : Bool := kind = .cachedLlm
    check (a.policyKind = kind ∧ a.networkCallCount = 0 ∧ a.proposalSeed = seed ∧ a.cacheHit = cached ∧
      a.cacheSource = (if cached then some (PyStr.ofString "task6-v3-frozen-replay") else none))
      (.worker "policy worker implementation audit is invalid")

/-- the candidate of a response -/
def candidateOf (limit : Option ℕ) (readAudit : JsonTree F → Option ProposalAudit) (bounds : ParameterBounds)
    (kind : AttackerPolicyKind) (seed : ℤ) (history : List VisibleTrial) (stdout : ByteArray) :
    Except (SearchError E) AttackCandidate := do
  let response ← loadOutput limit stdout
  let items ← checkResponse response
  checkAudit kind seed (readAudit (field items "audit"))
  contract (candidateFromWire (field items "candidate") history bounds)

/-! ## Disclosure -/

/-- the feedback a scenario discloses of what the evaluator returned -/
def maskFeedback (ctx : DecimalContext) (feedbackFields : List FeedbackField) (returned : Feedback) :
    Except PolicyError Feedback :=
  let actionDeclared := feedbackFields.contains .action ||
    [FeedbackField.approve, .challenge, .decline].all feedbackFields.contains
  let action := if actionDeclared then returned.action else .challenge
  let reason := if feedbackFields.contains .reasonFamily then returned.reasonFamily
    else PyStr.ofString (if action = .approve then "approved" else "other")
  Feedback.make ctx action reason (if feedbackFields.contains .realizedValue then returned.realizedValue else none)

/-- the trial of a candidate with disclosed feedback -/
def trialOf (ctx : DecimalContext) (candidate : AttackCandidate) (feedback : Feedback) :
    Except PolicyError VisibleTrial := do
  let objective ← visibleObjective ctx feedback
  VisibleTrial.make ctx candidate feedback objective

/-! ## The search -/

/-- how far a search has come -/
structure State (F Obs : Type) where
  requests : List (JsonTree F)
  history : List VisibleTrial
  observations : List Obs

/-- what a search runs against -/
structure Setting (F E : Type) where
  limit : Option ℕ
  ctx : DecimalContext
  readAudit : JsonTree F → Option ProposalAudit
  replayCache : JsonTree F
  worker : ByteArray → Except (SearchError E) ByteArray
  bundle : ScenarioBundle
  policy : AttackerPolicy
  bounds : ParameterBounds

/-- the feedback and the observation of a candidate, given the number of trials before it -/
abbrev Evaluator (E Obs : Type) := ℕ → AttackCandidate → Except (SearchError E) (Feedback × Obs)

/-- one generation -/
def searchStep (g : Setting F E) (evaluate : Evaluator E Obs) (generation : ℕ) :
    EStateM (SearchError E) (State F Obs) PUnit := do
  let seed ← raising (contract (proposalSeed F g.limit g.bundle g.policy generation))
  let s ← get
  let request ← raising (contract (requestDocument g.bounds g.policy.kind g.replayCache seed s.history
    g.bundle.feedback))
  let bytes ← raising (contract (canonicalJsonBytes g.limit request))
  modify fun s => { s with requests := s.requests ++ [request] }
  let stdout ← raising (g.worker bytes)
  let candidate ← raising (candidateOf g.limit g.readAudit g.bounds g.policy.kind seed s.history stdout)
  let returned ← raising (evaluate s.history.length candidate)
  let feedback ← raising (contract (maskFeedback g.ctx g.bundle.feedback returned.1))
  let trial ← raising (contract (trialOf g.ctx candidate feedback))
  modify fun s => { s with history := s.history ++ [trial], observations := s.observations ++ [returned.2] }

/-- the first generations of a search, from the start -/
def generations (g : Setting F E) (evaluate : Evaluator E Obs) (n : ℕ) :
    EStateM.Result (SearchError E) (State F Obs) PUnit :=
  turns (searchStep g evaluate) n ⟨[], [], []⟩

/-- `_search` -/
def search (g : Setting F E) (evaluate : Evaluator E Obs) : EStateM.Result (SearchError E) (State F Obs) PUnit :=
  generations g evaluate g.policy.queryBudget

/-- the candidate of the trial with the greatest objective, the first identifier among equals -/
def winner (history : List VisibleTrial) : Option AttackCandidate :=
  (sortBy (fun t : VisibleTrial => toLex (-t.objectiveValue.toDecimal.value, t.candidate.candidateId))
    history).head?.map VisibleTrial.candidate

end RunSearch

end Apar
