/-
The public contracts of the attacker policies (`redteam/policies.py`): adaptive values and vectors, parameter domains
and bounds, candidates, feedback and visible trials, with the checks of their constructors and the integrity seals.

A constructor (`make`) runs the field validators in order, then the model validators, and seals the contract with the
digest of its document. `assertPristine` computes the seal again, and the `reconstruct` functions build a contract anew.
A validator's `ValueError` comes out of the constructor as a validation error, its `TypeError` as it is.

Not modelled: the attribute and subclass checks of `assert_pristine` (a record has exactly its fields), the rest of
pydantic's error report (the first failing field is given), and the policies themselves.
-/
import Apar.Core.DecimalText
import Apar.Core.JsonTrees
import Apar.Contracts.Decision

namespace Apar

open Exec

/-- what the policy contracts and their wire raise; `digits` is the interpreter's refusal to convert a long integer -/
inductive PolicyError where
  | wire (message : PyStr)
  | candidate (message : PyStr)
  | type (message : PyStr)
  | validation (message : PyStr)
  | digits
deriving DecidableEq

namespace Redteam

def candidateError (message : String) : PolicyError := .candidate (PyStr.ofString message)

def typeError (message : String) : PolicyError := .type (PyStr.ofString message)

def validationError (message : String) : PolicyError := .validation (PyStr.ofString message)

/-- an error raised within a validator -/
def validating {α : Type} (x : Except PolicyError α) : Except PolicyError α :=
  match x with
  | .error (.candidate message) => .error (.validation message)
  | y => y

def publicReasonFamilies : List PyStr :=
  ["amount", "approved", "authentication", "authorization", "entity", "evaluation_failure", "integrity",
    "invalid_candidate", "other", "policy", "recovery", "velocity"].map PyStr.ofString

def publicCampaignFamilies : List PyStr :=
  ["agentic_intent_abuse", "app_scam_mule", "card_testing_cnp", "synthetic_merchant_refund"].map PyStr.ofString

/-- `_exact_text` -/
def exactText (label : String) (value : PyStr) : Except PolicyError Unit :=
  check (value ≠ []) (validationError (label ++ " must not be empty"))

/-- `_digest` -/
def digest [Sha256] (document : JsonTree Empty) : PyStr :=
  PyStr.ofString (Sha256.hexdigestBytes (document.text.flatMap String.utf8EncodeChar))

/-- `_assert_digest` -/
def assertDigest (label : String) (value : PyStr) : Except PolicyError Unit := do
  exactText label value
  check (value.length = 64 ∧ value.all (hexChars.map PyStr.ofChar).contains)
    (validationError (label ++ " must be lowercase SHA-256 hex"))

/-- a document with the given fields -/
def document {F : Type} (fields : List (String × JsonTree F)) : JsonTree F :=
  .dict (fields.map fun p => (PyStr.ofString p.1, p.2))

/-! ## Adaptive values -/

inductive AdaptiveValue where
  | decimal (d : DecimalTuple)
  | integer (n : ℤ)
  | string (s : PyStr)
  | stringTuple (items : List PyStr)
deriving DecidableEq

namespace AdaptiveValue

/-- `_adaptive_value` -/
def adaptiveValue (value : AdaptiveValue) : Except PolicyError Unit :=
  match value with
  | .stringTuple [] =>
    .error (typeError "adaptive value must be an exact int, string, finite Decimal, or string tuple")
  | _ => .ok ()

/-- `str(d)` -/
def decimalText (d : DecimalTuple) : PyStr := d.text.map PyStr.ofChar

/-- `_tagged_value` -/
def taggedValue {F : Type} : AdaptiveValue → JsonTree F
  | .decimal d => document [("type", .str (PyStr.ofString "decimal")), ("value", .str (decimalText d))]
  | .integer n => document [("type", .str (PyStr.ofString "integer")), ("value", .int n)]
  | .string s => document [("type", .str (PyStr.ofString "string")), ("value", .str s)]
  | .stringTuple items => document [("type", .str (PyStr.ofString "string_tuple")), ("value", .list (items.map .str))]

/-- `_same_value`: decimals are compared digit by digit -/
def sameValue (left right : AdaptiveValue) : Bool := left = right

/-- `_no_op_alias` -/
def noOpAlias (left right : AdaptiveValue) : Bool :=
  match left, right with
  | .decimal a, .decimal b => Decimal.numEq a.toDecimal b.toDecimal
  | _, _ => sameValue left right

end AdaptiveValue

inductive DomainKind where
  | categorical
  | discrete
  | linear
  | log
deriving DecidableEq

namespace DomainKind

def value : DomainKind → String
  | categorical => "categorical"
  | discrete => "discrete"
  | linear => "linear"
  | log => "log"

/-- `DomainKind(text)` -/
def ofValue? (text : PyStr) : Option DomainKind :=
  [categorical, discrete, linear, log].find? fun kind => PyStr.ofString kind.value = text

end DomainKind

/-! ## Parameters and vectors -/

structure AdaptiveParameter where
  name : PyStr
  value : AdaptiveValue
  integritySeal : PyStr
deriving DecidableEq

structure AdaptiveVector where
  entries : List AdaptiveParameter
  integritySeal : PyStr
deriving DecidableEq

variable [Sha256]

namespace AdaptiveParameter

def document {F : Type} (p : AdaptiveParameter) : JsonTree F :=
  Redteam.document [("name", .str p.name), ("value", p.value.taggedValue)]

def make (name : PyStr) (value : AdaptiveValue) : Except PolicyError AdaptiveParameter := do
  exactText "parameter name" name
  value.adaptiveValue
  let p : AdaptiveParameter := ⟨name, value, []⟩
  pure { p with integritySeal := digest p.document }

def assertPristine (p : AdaptiveParameter) : Except PolicyError Unit :=
  check (p.integritySeal = digest p.document) (candidateError "adaptive parameter integrity seal changed")

end AdaptiveParameter

namespace AdaptiveVector

def names (v : AdaptiveVector) : List PyStr := v.entries.map AdaptiveParameter.name

def document {F : Type} (v : AdaptiveVector) : JsonTree F := .list (v.entries.map AdaptiveParameter.document)

/-- the seal, once there is one -/
def fingerprint (v : AdaptiveVector) : PyStr := if v.integritySeal ≠ [] then v.integritySeal else digest v.document

def make (entries : List AdaptiveParameter) : Except PolicyError AdaptiveVector := do
  validating (entries.forM AdaptiveParameter.assertPristine)
  let names := entries.map AdaptiveParameter.name
  check (names = sortedSet names) (validationError "adaptive parameter names must be unique and sorted")
  let v : AdaptiveVector := ⟨entries, []⟩
  pure { v with integritySeal := v.fingerprint }

/-- `get`, of a name that is not empty -/
def get (v : AdaptiveVector) (name : PyStr) : Except PolicyError AdaptiveValue :=
  match v.entries.find? fun entry => entry.name = name with
  | some entry => .ok entry.value
  | none => .error (.candidate (PyStr.ofString "undeclared adaptive parameter: " ++ name))

def assertPristine (v : AdaptiveVector) : Except PolicyError Unit := do
  v.entries.forM AdaptiveParameter.assertPristine
  check (v.integritySeal = digest v.document) (candidateError "adaptive vector integrity seal changed")

end AdaptiveVector

def reconstructVector (value : AdaptiveVector) : Except PolicyError AdaptiveVector := do
  value.assertPristine
  let entries ← value.entries.mapM fun entry => AdaptiveParameter.make entry.name entry.value
  AdaptiveVector.make entries

/-! ## Domains and bounds -/

structure ParameterDomain where
  name : PyStr
  kind : DomainKind
  values : List AdaptiveValue
  integritySeal : PyStr
deriving DecidableEq

namespace ParameterDomain

def document {F : Type} (d : ParameterDomain) : JsonTree F :=
  Redteam.document [("name", .str d.name), ("kind", .str (PyStr.ofString d.kind.value)),
    ("values", .list (d.values.map AdaptiveValue.taggedValue))]

/-- two values of the list alias each other -/
def hasAlias : List AdaptiveValue → Bool
  | [] => false
  | left :: rest => rest.any (AdaptiveValue.noOpAlias left) || hasAlias rest

def make (name : PyStr) (kind : DomainKind) (values : List AdaptiveValue) : Except PolicyError ParameterDomain := do
  exactText "domain name" name
  check (values ≠ []) (typeError "domain values must be a non-empty exact tuple")
  values.forM AdaptiveValue.adaptiveValue
  check (!hasAlias values) (validationError "domain values contain numerically equal no-op aliases")
  let d : ParameterDomain := ⟨name, kind, values, []⟩
  pure { d with integritySeal := digest d.document }

def assertPristine (d : ParameterDomain) : Except PolicyError Unit :=
  check (d.integritySeal = digest d.document) (candidateError "parameter domain integrity seal changed")

end ParameterDomain

structure ParameterBounds where
  family : PyStr
  defaults : AdaptiveVector
  domains : List ParameterDomain
  feasibleVectors : List AdaptiveVector
  integritySeal : PyStr
deriving DecidableEq

namespace ParameterBounds

def names (b : ParameterBounds) : List PyStr := b.domains.map ParameterDomain.name

def document {F : Type} (b : ParameterBounds) : JsonTree F :=
  Redteam.document [("family", .str b.family), ("defaults", b.defaults.document),
    ("domains", .list (b.domains.map ParameterDomain.document)),
    ("feasible_vectors", .list (b.feasibleVectors.map AdaptiveVector.document))]

def boundsDigest (b : ParameterBounds) : PyStr := if b.integritySeal ≠ [] then b.integritySeal else digest b.document

/-- every domain allows the vector's value -/
def checkVector (b : ParameterBounds) (vector : AdaptiveVector) : Except PolicyError Unit := do
  check (vector.names = b.names) (validationError "every feasible vector must contain exactly the domain names")
  b.domains.forM fun domain => do
    let value ← validating (vector.get domain.name)
    check (domain.values.any (AdaptiveValue.sameValue value))
      (.validation (PyStr.ofString "vector value is outside domain: " ++ domain.name))

/-- `bounds_are_closed` -/
def boundsAreClosed (b : ParameterBounds) : Except PolicyError Unit := do
  check (b.names = sortedSet b.names ∧ b.defaults.names = b.names)
    (validationError "domains and defaults must have exact unique sorted names")
  let fingerprints := b.feasibleVectors.map AdaptiveVector.fingerprint
  check (fingerprints = sortedSet fingerprints)
    (validationError "feasible vectors must be unique and fingerprint-sorted")
  b.feasibleVectors.forM b.checkVector
  check (fingerprints.contains b.defaults.fingerprint) (validationError "default vector must be feasible")
  b.domains.forM fun domain => do
    let represented ← validating (b.feasibleVectors.mapM fun vector => vector.get domain.name)
    check (domain.values.all fun value => represented.any (AdaptiveValue.sameValue value))
      (.validation (PyStr.ofString "domain advertises an infeasible value: " ++ domain.name))

def make (family : PyStr) (defaults : AdaptiveVector) (domains : List ParameterDomain)
    (feasibleVectors : List AdaptiveVector) : Except PolicyError ParameterBounds := do
  exactText "family" family
  check (publicCampaignFamilies.contains family) (validationError "unsupported public campaign family")
  validating defaults.assertPristine
  validating (domains.forM ParameterDomain.assertPristine)
  check (feasibleVectors ≠ []) (typeError "feasible_vectors must be a non-empty exact tuple")
  validating (feasibleVectors.forM AdaptiveVector.assertPristine)
  let b : ParameterBounds := ⟨family, defaults, domains, feasibleVectors, []⟩
  b.boundsAreClosed
  pure { b with integritySeal := b.boundsDigest }

def assertPristine (b : ParameterBounds) : Except PolicyError Unit := do
  b.defaults.assertPristine
  b.domains.forM ParameterDomain.assertPristine
  b.feasibleVectors.forM AdaptiveVector.assertPristine
  check (b.integritySeal = digest b.document) (candidateError "parameter bounds integrity seal changed")

/-- `validate_vector` -/
def validateVector (b : ParameterBounds) (vector : AdaptiveVector) : Except PolicyError AdaptiveVector := do
  let rebuilt ← reconstructVector vector
  check (rebuilt.names = b.names) (candidateError "candidate fields do not match public bounds")
  check ((b.feasibleVectors.map AdaptiveVector.fingerprint).contains rebuilt.fingerprint)
    (candidateError "candidate is not a declared feasible vector")
  pure rebuilt

end ParameterBounds

def reconstructBounds (value : ParameterBounds) : Except PolicyError ParameterBounds := do
  value.assertPristine
  let defaults ← reconstructVector value.defaults
  let domains ← value.domains.mapM fun item => ParameterDomain.make item.name item.kind item.values
  let vectors ← value.feasibleVectors.mapM reconstructVector
  ParameterBounds.make value.family defaults domains vectors

/-! ## Candidates -/

structure AttackCandidate where
  params : AdaptiveVector
  parentId : Option PyStr
  generation : ℤ
  integritySeal : PyStr
deriving DecidableEq

namespace AttackCandidate

/-- `_computed_candidate_id` -/
def computedCandidateId (c : AttackCandidate) : PyStr :=
  digest (Redteam.document [("fingerprint", .str c.params.fingerprint), ("generation", .int c.generation),
    ("parent_id", (c.parentId.map JsonTree.str).getD .null)])

def candidateId (c : AttackCandidate) : PyStr :=
  if c.integritySeal ≠ [] then c.integritySeal else c.computedCandidateId

/-- `parent_is_canonical` -/
def parentIsCanonical (parentId : Option PyStr) : Except PolicyError Unit :=
  match parentId with
  | none => .ok ()
  | some parent => assertDigest "parent_id" parent

def make (params : AdaptiveVector) (parentId : Option PyStr) (generation : ℤ) :
    Except PolicyError AttackCandidate := do
  validating params.assertPristine
  parentIsCanonical parentId
  check (0 ≤ generation) (typeError "generation must be an exact non-negative integer")
  check (generation ≤ 1000) (validationError "generation exceeds 1000")
  let c : AttackCandidate := ⟨params, parentId, generation, []⟩
  pure { c with integritySeal := c.candidateId }

def assertPristine (c : AttackCandidate) : Except PolicyError Unit := do
  c.params.assertPristine
  check (c.integritySeal = c.computedCandidateId) (candidateError "candidate integrity seal changed")

end AttackCandidate

def reconstructCandidate (value : AttackCandidate) : Except PolicyError AttackCandidate := do
  value.assertPristine
  let params ← reconstructVector value.params
  AttackCandidate.make params value.parentId value.generation

/-! ## Feedback and trials -/

structure Feedback where
  action : Action
  reasonFamily : PyStr
  realizedValue : Option DecimalTuple
  integritySeal : PyStr
deriving DecidableEq

namespace Feedback

/-- `realized_value_is_exact`, under a decimal context -/
def realizedValueIsExact (ctx : DecimalContext) (realizedValue : Option DecimalTuple) : Except PolicyError Unit :=
  match realizedValue with
  | none => .ok ()
  | some value => do
    check (Decimal.ble 0 value.toDecimal) (validationError "realized_value must be finite and non-negative")
    match Decimal.quantize ctx value.toDecimal (-2) with
    | none => .error (validationError "realized_value cannot be canonicalized")
    | some canonical =>
      check (value.exp = -2 ∧ Decimal.numEq value.toDecimal canonical)
        (validationError "realized_value must be canonically quantized")

/-- `action_and_reason_are_consistent` -/
def actionAndReasonAreConsistent (action : Action) (reasonFamily : PyStr) : Except PolicyError Unit := do
  check (action = .approve ↔ reasonFamily = PyStr.ofString "approved")
    (validationError "approved reason_family must exactly match approve action")
  check (reasonFamily ∉ ["evaluation_failure", "invalid_candidate"].map PyStr.ofString ∨ action = .decline)
    (validationError "failure reason families must decline")

/-- `_computed_seal` -/
def computedSeal (f : Feedback) : PyStr :=
  digest (Redteam.document [("action", .str (PyStr.ofString f.action.value)), ("reason_family", .str f.reasonFamily),
    ("realized_value", (f.realizedValue.map fun d => JsonTree.str (AdaptiveValue.decimalText d)).getD .null)])

def make (ctx : DecimalContext) (action : Action) (reasonFamily : PyStr) (realizedValue : Option DecimalTuple) :
    Except PolicyError Feedback := do
  exactText "reason_family" reasonFamily
  check (publicReasonFamilies.contains reasonFamily) (validationError "reason_family is not in the public allowlist")
  realizedValueIsExact ctx realizedValue
  actionAndReasonAreConsistent action reasonFamily
  let f : Feedback := ⟨action, reasonFamily, realizedValue, []⟩
  pure { f with integritySeal := f.computedSeal }

def assertPristine (f : Feedback) : Except PolicyError Unit :=
  check (f.integritySeal = f.computedSeal) (candidateError "feedback integrity seal changed")

end Feedback

def reconstructFeedback (ctx : DecimalContext) (value : Feedback) : Except PolicyError Feedback := do
  value.assertPristine
  Feedback.make ctx value.action value.reasonFamily value.realizedValue

/-- the price of an action -/
def penalty : Action → Decimal
  | .approve => 0
  | .challenge => ⟨25, -2⟩
  | .decline => ⟨1, 0⟩

/-- `(realized or Decimal(0)) - penalty` -/
def objectiveOf (ctx : DecimalContext) (action : Action) (realized : Option DecimalTuple) : DecimalTuple :=
  let base : Decimal := match realized with
    | some d => if d.coeff = 0 then 0 else d.toDecimal
    | none => 0
  .ofDecimal (Decimal.sub ctx base (penalty action))

/-- `visible_objective` -/
def visibleObjective (ctx : DecimalContext) (feedback : Feedback) : Except PolicyError DecimalTuple := do
  let checked ← reconstructFeedback ctx feedback
  pure (objectiveOf ctx checked.action checked.realizedValue)

structure VisibleTrial where
  candidate : AttackCandidate
  feedback : Feedback
  objectiveValue : DecimalTuple
  integritySeal : PyStr
deriving DecidableEq

namespace VisibleTrial

/-- `_computed_seal` -/
def computedSeal (t : VisibleTrial) : PyStr :=
  digest (Redteam.document [("candidate_id", .str t.candidate.candidateId), ("feedback", .str t.feedback.computedSeal),
    ("objective", .str (AdaptiveValue.decimalText t.objectiveValue))])

def make (ctx : DecimalContext) (candidate : AttackCandidate) (feedback : Feedback) (objectiveValue : DecimalTuple) :
    Except PolicyError VisibleTrial := do
  validating candidate.assertPristine
  validating feedback.assertPristine
  let objective ← validating (visibleObjective ctx feedback)
  check (Decimal.numEq objectiveValue.toDecimal objective.toDecimal)
    (validationError "objective_value must be derived only from public feedback")
  let t : VisibleTrial := ⟨candidate, feedback, objectiveValue, []⟩
  pure { t with integritySeal := t.computedSeal }

def assertPristine (t : VisibleTrial) : Except PolicyError Unit := do
  t.candidate.assertPristine
  t.feedback.assertPristine
  check (t.integritySeal = t.computedSeal) (candidateError "visible trial integrity seal changed")

end VisibleTrial

/-! ## Histories -/

/-- the lineage of a candidate at an index of the history, the identifiers before it given -/
def checkParent (index : ℕ) (seen : List PyStr) (candidate : AttackCandidate) : Except PolicyError Unit := do
  check (index ≠ 0 ∨ candidate.parentId = none) (candidateError "root candidate cannot have a parent")
  check (index = 0 ∨ seen.any fun id => candidate.parentId = some id)
    (candidateError "candidate parent must reference earlier history")

/-- the loop of `reconstruct_history` -/
def checkLineage (index : ℕ) (seen : List PyStr) : List VisibleTrial → Except PolicyError Unit
  | [] => .ok ()
  | trial :: rest => do
    checkParent index seen trial.candidate
    checkLineage (index + 1) (seen ++ [trial.candidate.candidateId]) rest

def reconstructHistory (value : List VisibleTrial) : Except PolicyError (List VisibleTrial) := do
  value.forM VisibleTrial.assertPristine
  let ordered := sortBy (fun item : VisibleTrial => item.candidate.generation) value
  check (ordered.map (fun item => item.candidate.generation) = (List.range ordered.length).map Int.ofNat)
    (candidateError "visible history generations must be contiguous")
  checkLineage 0 [] ordered
  pure ordered

def validateCandidateLineage (candidate : AttackCandidate) (history : List VisibleTrial) :
    Except PolicyError AttackCandidate := do
  let checked ← reconstructCandidate candidate
  let visible ← reconstructHistory history
  check (checked.generation = visible.length) (candidateError "candidate generation must equal visible history length")
  check (visible ≠ [] ∨ checked.parentId = none) (candidateError "root candidate cannot have a parent")
  check (visible = [] ∨ visible.any fun trial => checked.parentId = some trial.candidate.candidateId)
    (candidateError "candidate parent must reference visible history")
  pure checked

end Redteam

end Apar
