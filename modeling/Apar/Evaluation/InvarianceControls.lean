/-
The metamorphic controls over sentinel features (`evaluation/v5_controls.py`): the development rows are transformed, the
features rebuilt, and the control passes if the numeric matrix and the scores of it are what they were.

- `identityRename`: every identifier of the rows and their executions is replaced by `uuid5` of a name of it.
- `featureLeakage`: the label, the family, the campaign, the lifecycle state and predictive features with forbidden names
  are replaced. The catalog cannot hold such names: `validateSentinelPredictiveFeatureNames` rejects them.

`uuid5` and the scoring of a matrix by the trained arms are parameters. The controls `future_causality` and
`equal_time_isolation` are not here, and of the result only whether it passed.

- `sentinel_structure_only`: features do not see names or labels, and so both controls pass on every corpus.
-/
import Apar.Features.SentinelRenaming

namespace Apar

open Exec Sentinel

namespace Controls

/-! ## Forbidden feature names -/

def forbiddenPredictiveTokens : List String :=
  ["campaign", "campaigns", "family", "families", "fraud", "future", "generator", "generators", "groundtruth", "label",
    "labels", "outcome", "outcomes", "scenario", "scenarios", "seed", "seeds", "split", "splits", "target", "targets"]

/-- `[a-z0-9]` -/
def isTokenChar (c : Char) : Bool := ('a' ≤ c && c ≤ 'z') || ('0' ≤ c && c ≤ '9')

/-- `re.sub(r"(?<=[a-z0-9])(?=[A-Z])", "_", name)` -/
def splitWords : List Char → List Char
  | a :: b :: rest =>
    if isTokenChar a && ('A' ≤ b && b ≤ 'Z') then a :: '_' :: splitWords (b :: rest) else a :: splitWords (b :: rest)
  | cs => cs

/-- `str.lower`; what it makes of a character outside ASCII is a parameter -/
def lower (unicodeLower : Char → List Char) (cs : List Char) : List Char :=
  cs.flatMap fun c => if c.toNat < 128 then [c.toLower] else unicodeLower c

/-- `re.findall(r"[a-z0-9]+", ...)` -/
def tokens (cs : List Char) : List (List Char) := (cs.splitOnP fun c => !isTokenChar c).filter (· ≠ [])

/-- the name has a forbidden token -/
def leaks (unicodeLower : Char → List Char) (name : String) : Bool :=
  (tokens (lower unicodeLower (splitWords name.toList))).any fun token =>
    forbiddenPredictiveTokens.contains (String.ofList token)

/-- `validate_sentinel_predictive_feature_names` -/
def validateSentinelPredictiveFeatureNames (unicodeLower : Char → List Char) (names : List String) :
    Except String (List String) := do
  check (names.all (· ≠ "")) "predictive feature names must be non-empty strings"
  let leaking := names.filter (leaks unicodeLower)
  check leaking.isEmpty ("forbidden predictive feature semantics: " ++ ", ".intercalate (sortBy id leaking))
  return names

/-! ## Rows and executions -/

/-- `V5DecisionRow` with everything a control changes; the projection reads the part it extends -/
structure V5DecisionRow (F : Type) extends Sentinel.V5DecisionRow F where
  paymentId : String
  campaignId : String
  family : String
  isFraud : Bool
  lifecycleState : String
  sourceCommandId : String
  sourceEventId : String
  executionEvidenceSha256 : String

/-- the identifiers of one lineage link -/
structure LinkIdentities where
  commandId : String
  eventId : String
  paymentId : String
  actorId : String
  counterpartyId : String

/-- the identifiers of one trust record -/
structure TrustIdentities where
  requestId : String
  receiptHash : String
  requestHash : String
  signatureHash : String
  authenticationEvidenceId : Option String

/-- the identifiers of an execution manifest -/
structure ExecutionIdentities where
  campaignId : String
  evidenceSha256 : String
  artifactSha256 : String
  accountIds : List String
  credentialIds : List String
  deviceIds : List String
  merchantIds : List String
  payeeIds : List String
  trustRequestIds : List String
  authenticationEvidenceIds : List String
  lineage : List LinkIdentities
  trustRecords : List TrustIdentities

inductive ControlError where
  | sentinel (error : SentinelError)
  | keyError (key : String)
  /-- what scoring the arms raises -/
  | scoring (message : String)

variable {F : Type}

def LinkIdentities.values (link : LinkIdentities) : List String :=
  [link.commandId, link.eventId, link.paymentId, link.actorId, link.counterpartyId]

def TrustIdentities.values (trust : TrustIdentities) : List String :=
  [trust.requestId, trust.receiptHash, trust.requestHash, trust.signatureHash] ++
    trust.authenticationEvidenceId.toList

def ExecutionIdentities.values (e : ExecutionIdentities) : List String :=
  [e.campaignId, e.evidenceSha256, e.artifactSha256] ++ e.accountIds ++ e.credentialIds ++ e.deviceIds ++
    e.merchantIds ++ e.payeeIds ++ e.trustRequestIds ++ e.authenticationEvidenceIds ++
    e.lineage.flatMap LinkIdentities.values ++ e.trustRecords.flatMap TrustIdentities.values

def V5DecisionRow.values (row : V5DecisionRow F) : List String :=
  [row.actorId, row.counterpartyId, row.campaignId, row.paymentId, row.eventId, row.sourceEventId,
    row.sourceCommandId, row.executionEvidenceSha256]

/-- `all_values`, of every identity domain -/
def allValues (rows : List (V5DecisionRow F)) (executions : List ExecutionIdentities) : List String :=
  executions.flatMap ExecutionIdentities.values ++ rows.flatMap V5DecisionRow.values

/-! ## Transformations -/

section transformations

variable (uuid5 : String → String)

/-- the mapping of `_identity_projection` -/
def identityProjection (rows : List (V5DecisionRow F)) (executions : List ExecutionIdentities) (label : String) :
    Dict String String :=
  Dict.ofList ((sortedSet (allValues rows executions)).map fun value => (value, uuid5 (label ++ ":" ++ value)))

/-- `mapping[key]` -/
def lookup {V : Type} (mapping : Dict String V) (key : String) : Except ControlError V :=
  match mapping.get? key with
  | some value => .ok value
  | none => .error (.keyError key)

/-- one row of `_renamed_rows` -/
def renamedRow (mapping : Dict String String) (row : V5DecisionRow F) : Except ControlError (V5DecisionRow F) := do
  let actorId ← lookup mapping row.actorId
  let counterpartyId ← lookup mapping row.counterpartyId
  let campaignId ← lookup mapping row.campaignId
  let paymentId ← lookup mapping row.paymentId
  let eventId ← lookup mapping row.eventId
  let sourceCommandId ← lookup mapping row.sourceCommandId
  let sourceEventId ← lookup mapping row.sourceEventId
  let executionEvidenceSha256 ← lookup mapping row.executionEvidenceSha256
  return { row with
    actorId := actorId
    counterpartyId := counterpartyId
    campaignId := campaignId
    paymentId := paymentId
    eventId := eventId
    sourceCommandId := sourceCommandId
    sourceEventId := sourceEventId
    executionEvidenceSha256 := executionEvidenceSha256 }

/-- `_renamed_rows` -/
def renamedRows (mapping : Dict String String) (rows : List (V5DecisionRow F)) :
    Except ControlError (List (V5DecisionRow F)) := rows.mapM (renamedRow mapping)

variable [PyFloat F]

/-- a row of `feature_leakage` -/
def mutatedRow (index : ℕ) (row : V5DecisionRow F) : V5DecisionRow F :=
  let number (k : ℕ) : F := PyFloat.ofInt (index + k)
  { row with
    isFraud := !row.isFraud
    family := "mutated-family-" ++ toString index
    campaignId := uuid5 ("leak-campaign:" ++ row.campaignId)
    lifecycleState := "mutated-final-outcome"
    predictiveFeatures := (((row.predictiveFeatures.set "split" (number 1)).set "seed" (number 2)).set "generator"
      (number 3)).set "final_outcome" (number 4) }

def mutatedRows (rows : List (V5DecisionRow F)) : List (V5DecisionRow F) := rows.mapIdx (mutatedRow uuid5)

end transformations

/-! ## Matrices -/

section matrices

variable [PyFloat F] [Sha256] {S : Type}

/-- the features of the rows, with what they raise -/
def buildFeatures (rows : List (V5DecisionRow F)) (catalog : SentinelFeatureCatalog) :
    Except ControlError (SentinelFeatureBatch F) :=
  match buildSentinelFeatures (rows.map V5DecisionRow.toV5DecisionRow) catalog with
  | .ok batch => .ok batch
  | .error e => .error (.sentinel e)

/-- `by_event` -/
def byEvent (batch : SentinelFeatureBatch F) : Dict String (List F) :=
  Dict.ofList ((batch.provenance.zip batch.matrix).map fun p => (p.1.eventId, p.2))

/-- the matrix rows of a batch in the order of the given events -/
def matrixOf (batch : SentinelFeatureBatch F) (eventIds : List String) : Except ControlError (List (List F)) :=
  eventIds.mapM (lookup (byEvent batch))

/-- `_feature_matrix` -/
def featureMatrix (rows : List (V5DecisionRow F)) (catalog : SentinelFeatureCatalog) :
    Except ControlError (List (List F) × SentinelFeatureBatch F) := do
  let batch ← buildFeatures rows catalog
  let matrix ← matrixOf batch (rows.map fun row => row.eventId)
  return (matrix, batch)

/-- `_aligned_matrix` -/
def alignedMatrix (sourceRows transformedRows : List (V5DecisionRow F)) (eventMapping : Dict String String)
    (catalog : SentinelFeatureCatalog) : Except ControlError (List (List F)) := do
  let batch ← buildFeatures transformedRows catalog
  let eventIds ← sourceRows.mapM fun row => lookup eventMapping row.eventId
  matrixOf batch eventIds

/-! ## Controls -/

/-- what the controls read of `_ControlRuntime` -/
structure ControlRuntime (F S : Type) where
  scores : S
  developmentRows : List (V5DecisionRow F)
  developmentExecutions : List ExecutionIdentities
  developmentBatch : SentinelFeatureBatch F
  developmentMatrix : List (List F)

/-- the signature of `score_v5_arm_set`, of a matrix and its provenance, by the trained arms over the development rows -/
abbrev ScoreArmSet (F S : Type) := List (List F) → List SentinelFeatureProvenance → Except ControlError S

/-- the development part of `_build_runtime` -/
def buildRuntime (scoreArmSet : ScoreArmSet F S) (rows : List (V5DecisionRow F)) (executions : List ExecutionIdentities)
    (catalog : SentinelFeatureCatalog) : Except ControlError (ControlRuntime F S) := do
  let (matrix, batch) ← featureMatrix rows catalog
  let scores ← scoreArmSet matrix batch.provenance
  return ⟨scores, rows, executions, batch, matrix⟩

/-- `a == b` of numbers -/
def numbersEqual (a b : F) : Bool := !PyFloat.lt a b && !PyFloat.lt b a

/-- `np.array_equal` -/
def arrayEqual (xs ys : List (List F)) : Bool :=
  xs.length == ys.length && (xs.zip ys).all fun rows =>
    rows.1.length == rows.2.length && (rows.1.zip rows.2).all fun p => numbersEqual p.1 p.2

/-- whether the control passed: the end of `_invariance_control` -/
def invariant [DecidableEq S] (scoreArmSet : ScoreArmSet F S) (runtime : ControlRuntime F S)
    (catalog : SentinelFeatureCatalog) (afterMatrix : List (List F)) : Except ControlError Bool := do
  let matrixEqual := arrayEqual runtime.developmentMatrix afterMatrix
  -- `_score_rows` builds the features of the rows again and scores the matrix it is given
  let _ ← featureMatrix runtime.developmentRows catalog
  let rescored ← scoreArmSet afterMatrix runtime.developmentBatch.provenance
  let scoreEqual := decide (runtime.scores = rescored)
  return matrixEqual && scoreEqual

/-- `_invariance_control` of `identity_rename` -/
def identityRename [DecidableEq S] (uuid5 : String → String) (scoreArmSet : ScoreArmSet F S)
    (runtime : ControlRuntime F S) (catalog : SentinelFeatureCatalog) (label : String) : Except ControlError Bool := do
  let rows := runtime.developmentRows
  let mapping := identityProjection uuid5 rows runtime.developmentExecutions label
  let transformed ← renamedRows mapping rows
  let eventMapping := Dict.ofList ((rows.zip transformed).map fun p => (p.1.eventId, p.2.eventId))
  let afterMatrix ← alignedMatrix rows transformed eventMapping catalog
  invariant scoreArmSet runtime catalog afterMatrix

/-- `_invariance_control` of `feature_leakage` -/
def featureLeakage [DecidableEq S] (uuid5 : String → String) (scoreArmSet : ScoreArmSet F S)
    (runtime : ControlRuntime F S) (catalog : SentinelFeatureCatalog) : Except ControlError Bool := do
  let rows := runtime.developmentRows
  let transformed := mutatedRows uuid5 rows
  let eventMapping := Dict.ofList (rows.map fun row => (row.eventId, row.eventId))
  let afterMatrix ← alignedMatrix rows transformed eventMapping catalog
  invariant scoreArmSet runtime catalog afterMatrix

end matrices

/-! ## Rebuilt matrices -/

section rebuilt

variable [PyFloat F] [Sha256]

variable {b : SentinelFeatureBatch F} {catalog : SentinelFeatureCatalog} {rows : List (V5DecisionRow F)}
  {matrix : List (List F)}

theorem buildFeatures_eq_ok : buildFeatures rows catalog = .ok b ↔
      buildSentinelFeatures (rows.map V5DecisionRow.toV5DecisionRow) catalog = .ok b := by
  unfold buildFeatures
  cases buildSentinelFeatures (rows.map V5DecisionRow.toV5DecisionRow) catalog with
  | ok b => simp
  | error e => simp

omit [PyFloat F] [Sha256] in
theorem lookup_eq_ok {V : Type} {mapping : Dict String V} {key : String} {v : V} :
    lookup mapping key = .ok v ↔ mapping.get? key = some v := by
  unfold lookup
  cases mapping.get? key with
  | none => simp
  | some w => simp

/-- a batch indexes the vectors of its emissions -/
theorem items_byEvent {rows : List (Sentinel.V5DecisionRow F)} (hn : (rows.map fun r => r.eventId).Nodup)
    (h : buildSentinelFeatures rows catalog = .ok b) :
    ∃ emissions, List.Forall₂ (fun row e => projected catalog rows row = .ok e) (sortBy decisionKey rows) emissions ∧
      (byEvent b).items = emissions.map fun e => (e.provenance.eventId, e.vector) := by
  obtain ⟨emissions, hemissions, -, hmatrix, hprovenance⟩ := buildSentinelFeatures_rows h
  refine ⟨emissions, hemissions, ?_⟩
  have hids := eventIds_of_projected hemissions
  have hnodup : ((sortBy decisionKey rows).map fun r => r.eventId).Nodup :=
    (((sortBy_perm decisionKey rows).map _).nodup_iff).2 hn
  rw [← hids] at hnodup
  unfold byEvent
  rw [hprovenance, hmatrix, List.zip_map', List.map_map]
  exact Dict.items_ofList (by rw [List.map_map]; exact hnodup)

theorem byEvent_of_built {rows : List (Sentinel.V5DecisionRow F)} (hn : (rows.map fun r => r.eventId).Nodup)
    (h : buildSentinelFeatures rows catalog = .ok b) {row : Sentinel.V5DecisionRow F} (hrow : row ∈ rows)
    {vector : List F} {provenance : SentinelFeatureProvenance} (hheld : b.row? row.eventId = some (vector, provenance))
    : (byEvent b).get? row.eventId = some vector := by
  obtain ⟨emissions, hemissions, hitems⟩ := items_byEvent hn h
  obtain ⟨e, he, hlook⟩ := emission?_of_built hn h hrow
  obtain ⟨e', hmem, he'⟩ := forall₂_mem_left hemissions (mem_sortBy.2 hrow)
  rw [he, Except.ok.injEq] at he'
  subst he'
  rw [SentinelFeatureBatch.row?, hlook, Option.map_some, Option.some.injEq, Prod.mk.injEq] at hheld
  rw [← hheld.1, Dict.get?_eq_some, hitems, List.mem_map]
  exact ⟨e, hmem, by rw [(projected_sources he).1]⟩

theorem featureMatrix_finite (hn : (rows.map fun r => r.eventId).Nodup)
    (h : featureMatrix rows catalog = .ok (matrix, b)) {vector : List F} (hvector : vector ∈ matrix) :
    ∀ x ∈ vector, FloatText.isFinite x = true := by
  simp only [featureMatrix, except_bind_eq_ok, except_pure_eq_ok, Prod.mk.injEq, buildFeatures_eq_ok] at h
  obtain ⟨b, hb, matrix, hmatrix, rfl, rfl⟩ := h
  obtain ⟨emissions, hemissions, hitems⟩ := items_byEvent (by rw [List.map_map]; exact hn) hb
  obtain ⟨id, -, hlook⟩ := forall₂_mem_right (mapM_eq_ok.1 hmatrix) hvector
  rw [lookup_eq_ok, Dict.get?_eq_some, hitems, List.mem_map] at hlook
  obtain ⟨e, hmem, heq⟩ := hlook
  obtain ⟨row, -, he⟩ := forall₂_mem_right hemissions hmem
  simp only [projected, Cohorts.emitted, emitRow, except_bind_eq_ok, check_eq_ok, except_pure_eq_ok] at he
  obtain ⟨_, -, _, hfinite, _, -, rfl⟩ := he
  cases heq
  exact List.all_eq_true.1 hfinite

/-- **A rebuilt matrix.** Renamed rows, aligned with the rows they come from, have the matrix of those. -/
theorem alignedMatrix_renamed {ρ ν : String → String} {ps : List (V5DecisionRow F × V5DecisionRow F)}
    (hr : Renaming catalog ρ ν (ps.map fun p => (p.1.toV5DecisionRow, p.2.toV5DecisionRow))) (hsum : ExactSums F)
    (eventMapping : Dict String String) (hmapping : ∀ p ∈ ps, eventMapping.get? p.1.eventId = some p.2.eventId)
    (h : featureMatrix (ps.map Prod.fst) catalog = .ok (matrix, b)) :
    alignedMatrix (ps.map Prod.fst) (ps.map Prod.snd) eventMapping catalog = .ok matrix := by
  simp only [featureMatrix, except_bind_eq_ok, except_pure_eq_ok, Prod.mk.injEq, buildFeatures_eq_ok] at h
  obtain ⟨b, hb, matrix, hmatrix, rfl, rfl⟩ := h
  have hfst : (ps.map fun p => (p.1.toV5DecisionRow, p.2.toV5DecisionRow)).map Prod.fst =
      (ps.map Prod.fst).map V5DecisionRow.toV5DecisionRow := by
    rw [List.map_map, List.map_map]
    rfl
  have hsnd : (ps.map fun p => (p.1.toV5DecisionRow, p.2.toV5DecisionRow)).map Prod.snd =
      (ps.map Prod.snd).map V5DecisionRow.toV5DecisionRow := by
    rw [List.map_map, List.map_map]
    rfl
  obtain ⟨hreturns, hrows⟩ := buildSentinelFeatures_paired hr hsum
  rw [hfst, hsnd] at hreturns hrows
  obtain ⟨b', hb'⟩ := hreturns.1 ⟨_, hb⟩
  have hn := hr.nodup
  have hn' := hr.nodup_renamed
  rw [List.map_map] at hn hn'
  have hids : (ps.map Prod.fst).mapM (fun row => lookup eventMapping row.eventId) =
      .ok (ps.map fun p => p.2.eventId) := by
    rw [mapM_eq_ok, List.forall₂_map_left_iff, List.forall₂_map_right_iff]
    exact List.forall₂_same.2 fun p hp => lookup_eq_ok.2 (hmapping p hp)
  have hlookup : ∀ p ∈ ps, lookup (byEvent b') p.2.eventId = lookup (byEvent b) p.1.eventId := by
    intro p hp
    obtain ⟨vector, provenance, hleft, hright⟩ := hrows _ _ hb hb' _ (List.mem_map.2 ⟨p, hp, rfl⟩)
    have hget := byEvent_of_built (by rw [List.map_map, List.map_map]; exact hn) hb
      (List.mem_map.2 ⟨p.1, List.mem_map.2 ⟨p, hp, rfl⟩, rfl⟩) hleft
    have hget' := byEvent_of_built (by rw [List.map_map, List.map_map]; exact hn') hb'
      (List.mem_map.2 ⟨p.2, List.mem_map.2 ⟨p, hp, rfl⟩, rfl⟩) hright
    rw [lookup_eq_ok.2 hget, lookup_eq_ok.2 hget']
  unfold alignedMatrix
  rw [buildFeatures_eq_ok.2 hb', hids]
  unfold matrixOf at hmatrix ⊢
  rw [mapM_eq_ok, List.forall₂_map_left_iff, List.forall₂_map_left_iff] at hmatrix
  have hsame : ps.mapM (fun p => lookup (byEvent b') p.2.eventId) = .ok matrix := by
    rw [mapM_congr_mem hlookup, mapM_eq_ok]
    exact hmatrix
  show (ps.map fun p => p.2.eventId).mapM (lookup (byEvent b')) = .ok matrix
  rw [mapM_eq_ok] at hsame
  rw [mapM_eq_ok, List.forall₂_map_left_iff]
  exact hsame

omit [Sha256] in
theorem arrayEqual_self (hlt : ∀ x : F, FloatText.isFinite x = true → PyFloat.lt x x = false)
    (h : ∀ vector ∈ matrix, ∀ x ∈ vector, FloatText.isFinite x = true) : arrayEqual matrix matrix = true := by
  have hzip : ∀ {α : Type} {xs : List α} {P : α × α → Prop}, (∀ x ∈ xs, P (x, x)) → ∀ p ∈ xs.zip xs, P p := by
    intro α xs P hP p hp
    rw [List.zip_eq_zipWith, List.zipWith_self, List.mem_map] at hp
    obtain ⟨x, hx, rfl⟩ := hp
    exact hP x hx
  unfold arrayEqual
  rw [Bool.and_eq_true, List.all_eq_true]
  refine ⟨by simp, hzip fun vector hvector => ?_⟩
  rw [Bool.and_eq_true, List.all_eq_true]
  refine ⟨by simp, hzip fun x hx => ?_⟩
  simp [numbersEqual, hlt x (h vector hvector x hx)]

theorem invariant_passes {S : Type} [DecidableEq S]
    (hlt : ∀ x : F, FloatText.isFinite x = true → PyFloat.lt x x = false) {scoreArmSet : ScoreArmSet F S}
    (hn : (rows.map fun r => r.eventId).Nodup) {executions : List ExecutionIdentities} {runtime : ControlRuntime F S}
    (h : buildRuntime scoreArmSet rows executions catalog = .ok runtime) :
    invariant scoreArmSet runtime catalog runtime.developmentMatrix = .ok true := by
  simp only [buildRuntime, except_bind_eq_ok, except_pure_eq_ok] at h
  obtain ⟨⟨matrix, b⟩, hmatrix, scores, hscores, rfl⟩ := h
  unfold invariant
  rw [hmatrix, except_ok_bind, hscores, except_ok_bind,
    arrayEqual_self hlt fun vector hvector => featureMatrix_finite hn hmatrix hvector]
  simp

end rebuilt

/-! ## Renamed identities -/

section identities

variable {uuid5 : String → String} {rows : List (V5DecisionRow F)} {executions : List ExecutionIdentities}
  {label : String}

/-- the names that `uuid5` is asked about -/
def uuidNames (rows : List (V5DecisionRow F)) (executions : List ExecutionIdentities) (label : String) : Set String :=
  {name | ∃ value ∈ allValues rows executions, name = label ++ ":" ++ value}

theorem identityProjection_get? {value : String} (h : value ∈ allValues rows executions) :
    (identityProjection uuid5 rows executions label).get? value = some (uuid5 (label ++ ":" ++ value)) := by
  have hkeys : (((sortedSet (allValues rows executions)).map fun value =>
      (value, uuid5 (label ++ ":" ++ value))).map Prod.fst).Nodup := by
    rw [List.map_map]
    simpa [Function.comp_def] using sortedSet_nodup (allValues rows executions)
  rw [identityProjection, Dict.get?_eq_some, Dict.items_ofList hkeys, List.mem_map]
  exact ⟨value, mem_sortedSet.2 h, rfl⟩

theorem mem_allValues {row : V5DecisionRow F} (hrow : row ∈ rows) {value : String} (h : value ∈ row.values) :
    value ∈ allValues rows executions :=
  List.mem_append_right _ (List.mem_flatMap.2 ⟨row, hrow, h⟩)

/-- a row under the names of a mapping -/
def V5DecisionRow.rename (φ : String → String) (row : V5DecisionRow F) : V5DecisionRow F :=
  { row with
    actorId := φ row.actorId
    counterpartyId := φ row.counterpartyId
    campaignId := φ row.campaignId
    paymentId := φ row.paymentId
    eventId := φ row.eventId
    sourceCommandId := φ row.sourceCommandId
    sourceEventId := φ row.sourceEventId
    executionEvidenceSha256 := φ row.executionEvidenceSha256 }

/-- every identifier of the rows is in the mapping -/
theorem renamedRows_ok : renamedRows (identityProjection uuid5 rows executions label) rows =
    .ok (rows.map (V5DecisionRow.rename fun value => uuid5 (label ++ ":" ++ value))) := by
  unfold renamedRows
  rw [mapM_eq_ok, List.forall₂_map_right_iff, List.forall₂_same]
  intro row hrow
  have hget : ∀ value ∈ row.values, lookup (identityProjection uuid5 rows executions label) value =
      .ok (uuid5 (label ++ ":" ++ value)) := fun value hvalue =>
    lookup_eq_ok.2 (identityProjection_get? (mem_allValues hrow hvalue))
  unfold renamedRow
  rw [hget row.actorId (by simp [V5DecisionRow.values]), except_ok_bind,
    hget row.counterpartyId (by simp [V5DecisionRow.values]), except_ok_bind,
    hget row.campaignId (by simp [V5DecisionRow.values]), except_ok_bind,
    hget row.paymentId (by simp [V5DecisionRow.values]), except_ok_bind,
    hget row.eventId (by simp [V5DecisionRow.values]), except_ok_bind,
    hget row.sourceCommandId (by simp [V5DecisionRow.values]), except_ok_bind,
    hget row.sourceEventId (by simp [V5DecisionRow.values]), except_ok_bind,
    hget row.executionEvidenceSha256 (by simp [V5DecisionRow.values]), except_ok_bind]
  rfl

/-- the rows with themselves under the names of a mapping -/
def renamedPairs (φ : String → String) (rows : List (V5DecisionRow F)) : List (V5DecisionRow F × V5DecisionRow F) :=
  rows.map fun r => (r, r.rename φ)

/-- a mapping without collisions renames structure only -/
theorem renaming_identities (catalog : SentinelFeatureCatalog) (hn : (rows.map fun r => r.eventId).Nodup)
    (huuid : Set.InjOn uuid5 (uuidNames rows executions label)) :
    Renaming catalog (fun value => uuid5 (label ++ ":" ++ value)) (fun value => uuid5 (label ++ ":" ++ value))
      ((renamedPairs (fun value => uuid5 (label ++ ":" ++ value)) rows).map fun p =>
        (p.1.toV5DecisionRow, p.2.toV5DecisionRow)) := by
  have hinj : Set.InjOn (fun value => uuid5 (label ++ ":" ++ value)) {value | value ∈ allValues rows executions} := by
    intro a ha b hb hab
    have := huuid ⟨a, ha, rfl⟩ ⟨b, hb, rfl⟩ hab
    simpa using this
  unfold renamedPairs
  rw [List.map_map]
  refine { renamed := ?_, nodup := ?_, events := ?_, nodes := ?_ }
  · intro p hp
    obtain ⟨r, -, rfl⟩ := List.mem_map.1 hp
    exact ⟨rfl, rfl, rfl, rfl, rfl, fun _ _ => rfl⟩
  · rw [List.map_map]
    exact hn
  · refine hinj.mono ?_
    rintro i ⟨p, hp, rfl⟩
    obtain ⟨r, hr, rfl⟩ := List.mem_map.1 hp
    exact mem_allValues hr (by simp [V5DecisionRow.values])
  · refine hinj.mono ?_
    rintro n ⟨s, hs, hn⟩
    rw [List.map_map, List.mem_map] at hs
    obtain ⟨r, hr, rfl⟩ := hs
    rcases hn with rfl | rfl
    · exact mem_allValues hr (by simp [V5DecisionRow.values])
    · exact mem_allValues hr (by simp [V5DecisionRow.values])

/-- **`identity_rename` passes.** -/
theorem identityRename_passes [PyFloat F] [Sha256] {S : Type} [DecidableEq S] (hsum : ExactSums F)
    (hlt : ∀ x : F, FloatText.isFinite x = true → PyFloat.lt x x = false) {scoreArmSet : ScoreArmSet F S}
    (hn : (rows.map fun r => r.eventId).Nodup) (huuid : Set.InjOn uuid5 (uuidNames rows executions label))
    {catalog : SentinelFeatureCatalog} {runtime : ControlRuntime F S}
    (h : buildRuntime scoreArmSet rows executions catalog = .ok runtime) :
    identityRename uuid5 scoreArmSet runtime catalog label = .ok true := by
  have hpasses := invariant_passes hlt hn h
  simp only [buildRuntime, except_bind_eq_ok, except_pure_eq_ok] at h
  obtain ⟨⟨matrix, b⟩, hmatrix, scores, hscores, rfl⟩ := h
  have hfst : (renamedPairs (fun value => uuid5 (label ++ ":" ++ value)) rows).map Prod.fst = rows := by
    unfold renamedPairs
    rw [List.map_map]
    exact List.map_id _
  have hsnd : (renamedPairs (fun value => uuid5 (label ++ ":" ++ value)) rows).map Prod.snd =
      rows.map (V5DecisionRow.rename fun value => uuid5 (label ++ ":" ++ value)) := by
    unfold renamedPairs
    rw [List.map_map]
    rfl
  unfold identityRename
  dsimp only
  rw [renamedRows_ok, except_ok_bind]
  have haligned := alignedMatrix_renamed (renaming_identities catalog hn huuid) hsum
    (Dict.ofList ((rows.zip (rows.map (V5DecisionRow.rename fun value => uuid5 (label ++ ":" ++ value)))).map
      fun p => (p.1.eventId, p.2.eventId))) ?_ (hfst.symm ▸ hmatrix)
  · rw [hfst, hsnd] at haligned
    rw [haligned, except_ok_bind]
    exact hpasses
  · intro p hp
    obtain ⟨r, hr, rfl⟩ := List.mem_map.1 hp
    have hpairs : ((rows.zip (rows.map (V5DecisionRow.rename fun value => uuid5 (label ++ ":" ++ value)))).map
        fun p => (p.1.eventId, p.2.eventId)) = rows.map fun r => (r.eventId, uuid5 (label ++ ":" ++ r.eventId)) := by
      rw [List.zip_map_right, List.map_map, List.zip_eq_zipWith, List.zipWith_self, List.map_map]
      rfl
    rw [hpairs, Dict.get?_eq_some, Dict.items_ofList (by rw [List.map_map]; exact hn), List.mem_map]
    exact ⟨r, hr, rfl⟩

end identities

/-! ## Mutated labels -/

section mutations

variable {uuid5 : String → String} {rows : List (V5DecisionRow F)} {catalog : SentinelFeatureCatalog}
  {unicodeLower : Char → List Char}

theorem not_mem_of_leaks {names names' : List String} {name : String}
    (h : validateSentinelPredictiveFeatureNames unicodeLower names = .ok names')
    (hleaks : leaks unicodeLower name = true) : name ∉ names := by
  simp only [validateSentinelPredictiveFeatureNames, except_bind_eq_ok, check_eq_ok] at h
  obtain ⟨_, -, _, hempty, -⟩ := h
  intro hmem
  have : name ∈ names.filter (leaks unicodeLower) := List.mem_filter.2 ⟨hmem, hleaks⟩
  rw [List.isEmpty_iff.1 hempty] at this
  cases this

/-- the names that `feature_leakage` writes are forbidden -/
theorem leaks_mutated (name : String) (h : name ∈ ["split", "seed", "generator", "final_outcome"]) :
    leaks unicodeLower name = true := by
  simp only [List.mem_cons, List.not_mem_nil, or_false] at h
  rcases h with rfl | rfl | rfl | rfl
  · rfl
  · rfl
  · rfl
  · rfl

variable [PyFloat F]

/-- the rows with themselves mutated -/
def mutatedPairs (uuid5 : String → String) (rows : List (V5DecisionRow F)) :
    List (V5DecisionRow F × V5DecisionRow F) := rows.mapIdx fun i r => (r, mutatedRow uuid5 i r)

theorem mutatedPairs_fst : (mutatedPairs uuid5 rows).map Prod.fst = rows := by
  refine List.ext_getElem? fun i => ?_
  rw [mutatedPairs, List.getElem?_map, List.getElem?_mapIdx]
  cases rows[i]? with
  | none => rfl
  | some r => rfl

theorem mutatedPairs_snd : (mutatedPairs uuid5 rows).map Prod.snd = mutatedRows uuid5 rows := by
  refine List.ext_getElem? fun i => ?_
  rw [mutatedPairs, mutatedRows, List.getElem?_map, List.getElem?_mapIdx, List.getElem?_mapIdx]
  cases rows[i]? with
  | none => rfl
  | some r => rfl

theorem mem_mutatedPairs {p : V5DecisionRow F × V5DecisionRow F} (hp : p ∈ mutatedPairs uuid5 rows) :
    ∃ i, p.2 = mutatedRow uuid5 i p.1 := by
  obtain ⟨i, hi, rfl⟩ := List.mem_mapIdx.1 hp
  exact ⟨i, rfl⟩

/-- a mutation keeps every name and every feature of a validated catalog -/
theorem renaming_mutated {names : List String}
    (hcatalog : validateSentinelPredictiveFeatureNames unicodeLower catalog.featureNames = .ok names)
    (hn : (rows.map fun r => r.eventId).Nodup) :
    Renaming catalog id id ((mutatedPairs uuid5 rows).map fun p => (p.1.toV5DecisionRow, p.2.toV5DecisionRow)) := by
  refine { renamed := ?_, nodup := ?_, events := Set.injOn_id _, nodes := Set.injOn_id _ }
  · intro q hq
    obtain ⟨p, hp, rfl⟩ := List.mem_map.1 hq
    obtain ⟨i, hp⟩ := mem_mutatedPairs hp
    refine ⟨?_, ?_, ?_, ?_, ?_, fun name hname => ?_⟩
    · rw [hp]; rfl
    · rw [hp]; rfl
    · rw [hp]; rfl
    · rw [hp]; rfl
    · rw [hp]; rfl
    · have hother : ∀ forbidden ∈ ["split", "seed", "generator", "final_outcome"], name ≠ forbidden := by
        rintro forbidden hforbidden rfl
        exact not_mem_of_leaks hcatalog (leaks_mutated _ hforbidden) hname
      rw [hp]
      simp only [mutatedRow, Dict.get?_set]
      rw [if_neg (hother _ (by simp)), if_neg (hother _ (by simp)), if_neg (hother _ (by simp)),
        if_neg (hother _ (by simp))]
  · rw [List.map_map]
    have hids : ((mutatedPairs uuid5 rows).map Prod.fst).map (fun r => r.eventId) = rows.map fun r => r.eventId := by
      rw [mutatedPairs_fst]
    rw [List.map_map] at hids
    exact hids ▸ hn

/-- **`feature_leakage` passes.** -/
theorem featureLeakage_passes [Sha256] {S : Type} [DecidableEq S] (hsum : ExactSums F)
    (hlt : ∀ x : F, FloatText.isFinite x = true → PyFloat.lt x x = false) {scoreArmSet : ScoreArmSet F S}
    {executions : List ExecutionIdentities} {names : List String}
    (hcatalog : validateSentinelPredictiveFeatureNames unicodeLower catalog.featureNames = .ok names)
    (hn : (rows.map fun r => r.eventId).Nodup) {runtime : ControlRuntime F S}
    (h : buildRuntime scoreArmSet rows executions catalog = .ok runtime) :
    featureLeakage uuid5 scoreArmSet runtime catalog = .ok true := by
  have hpasses := invariant_passes hlt hn h
  simp only [buildRuntime, except_bind_eq_ok, except_pure_eq_ok] at h
  obtain ⟨⟨matrix, b⟩, hmatrix, scores, hscores, rfl⟩ := h
  unfold featureLeakage
  dsimp only
  have hrenaming : Renaming catalog id id ((mutatedPairs uuid5 rows).map fun p => (p.1.toV5DecisionRow, p.2.toV5DecisionRow)) :=
    renaming_mutated hcatalog hn
  have haligned := alignedMatrix_renamed hrenaming hsum (Dict.ofList (rows.map fun row => (row.eventId, row.eventId))) ?_
    (by rw [mutatedPairs_fst]; exact hmatrix)
  · rw [mutatedPairs_fst, mutatedPairs_snd] at haligned
    rw [haligned, except_ok_bind]
    exact hpasses
  · intro p hp
    have hrow : p.1 ∈ rows := by
      have hmem : p.1 ∈ (mutatedPairs uuid5 rows).map Prod.fst := List.mem_map.2 ⟨p, hp, rfl⟩
      rwa [mutatedPairs_fst] at hmem
    obtain ⟨i, hi⟩ := mem_mutatedPairs hp
    have hid : p.2.eventId = p.1.eventId := by rw [hi]; rfl
    rw [hid, Dict.get?_eq_some, Dict.items_ofList (by rw [List.map_map]; exact hn), List.mem_map]
    exact ⟨p.1, hrow, rfl⟩

end mutations

/-- **Sentinel features see structure only.** With exact sums, for rows of distinct event ids:

- rows under other names, by a map injective on their event ids and one map injective on their actor and counterparty
  ids, with any other labels, families, campaigns, payments, lifecycle states and features outside the catalog, are
  projected where the rows are, and every event has the same matrix row and the renamed provenance;
- the control `identity_rename` passes wherever `uuid5` does not collide;
- the control `feature_leakage` passes for every catalog that the validators accept. -/
theorem sentinel_structure_only [PyFloat F] [Sha256] (hsum : ExactSums F) (rows : List (V5DecisionRow F))
    (hn : (rows.map fun r => r.eventId).Nodup) (catalog : SentinelFeatureCatalog) :
    (∀ (ρ ν : String → String) (rows' : List (V5DecisionRow F)),
      List.Forall₂ (fun row row' => row.toV5DecisionRow.Renamed catalog ρ ν row'.toV5DecisionRow) rows rows' →
      Set.InjOn ρ {i | ∃ row ∈ rows, i = row.eventId} →
      Set.InjOn ν (nodes (rows.map V5DecisionRow.toV5DecisionRow)) →
      ((∃ b, buildFeatures rows catalog = .ok b) ↔ ∃ b', buildFeatures rows' catalog = .ok b') ∧
      ∀ b b', buildFeatures rows catalog = .ok b → buildFeatures rows' catalog = .ok b' →
        ∀ row ∈ rows, ∃ vector provenance, b.row? row.eventId = some (vector, provenance) ∧
          b'.row? (ρ row.eventId) = some (vector, provenance.renamed ρ)) ∧
    ∀ {S : Type} [DecidableEq S] (scoreArmSet : ScoreArmSet F S) (executions : List ExecutionIdentities)
      (runtime : ControlRuntime F S) (uuid5 : String → String),
      (∀ x : F, FloatText.isFinite x = true → PyFloat.lt x x = false) →
      buildRuntime scoreArmSet rows executions catalog = .ok runtime →
      (∀ label, Set.InjOn uuid5 (uuidNames rows executions label) →
        identityRename uuid5 scoreArmSet runtime catalog label = .ok true) ∧
      ∀ unicodeLower names, validateSentinelPredictiveFeatureNames unicodeLower catalog.featureNames = .ok names →
        featureLeakage uuid5 scoreArmSet runtime catalog = .ok true := by
  refine ⟨?_, ?_⟩
  · intro ρ ν rows' hrows hρ hν
    obtain ⟨ps, rfl, rfl, hps⟩ : ∃ ps : List (V5DecisionRow F × V5DecisionRow F), ps.map Prod.fst = rows ∧
        ps.map Prod.snd = rows' ∧ ∀ p ∈ ps, p.1.toV5DecisionRow.Renamed catalog ρ ν p.2.toV5DecisionRow := by
      refine ⟨rows.zip rows', List.map_fst_zip hrows.length_eq.le, List.map_snd_zip hrows.length_eq.ge, ?_⟩
      rintro ⟨row, row'⟩ hp
      exact (List.forall₂_iff_zip.1 hrows).2 hp
    have hr : Renaming catalog ρ ν (ps.map fun p => (p.1.toV5DecisionRow, p.2.toV5DecisionRow)) := by
      refine { renamed := ?_, nodup := ?_, events := hρ.mono ?_, nodes := hν.mono ?_ }
      · intro q hq
        obtain ⟨p, hp, rfl⟩ := List.mem_map.1 hq
        exact hps p hp
      · rw [List.map_map] at hn ⊢
        exact hn
      · rintro i ⟨q, hq, rfl⟩
        obtain ⟨p, hp, rfl⟩ := List.mem_map.1 hq
        exact ⟨p.1, List.mem_map.2 ⟨p, hp, rfl⟩, rfl⟩
      · rw [List.map_map, List.map_map]
        exact subset_rfl
    have hpaired := buildSentinelFeatures_paired hr hsum
    rw [List.map_map, List.map_map] at hpaired
    simp only [buildFeatures_eq_ok, List.map_map]
    refine ⟨hpaired.1, fun b b' hb hb' row hrow => ?_⟩
    obtain ⟨p, hp, rfl⟩ := List.mem_map.1 hrow
    have hrow' := hpaired.2 b b' hb hb' _ (List.mem_map.2 ⟨p, hp, rfl⟩)
    rw [(hps p hp).eventId] at hrow'
    exact hrow'
  · intro S _ scoreArmSet executions runtime uuid5 hlt hruntime
    exact ⟨fun label huuid => identityRename_passes hsum hlt hn huuid hruntime,
      fun unicodeLower names hcatalog => featureLeakage_passes hsum hlt hcatalog hn hruntime⟩

/-! ## A sample corpus -/

namespace Sample

/-- a digest of nothing -/
@[reducible] def noDigest : Sha256 := ⟨fun _ => "", fun _ => ""⟩

def row (eventId actorId : String) (hour : ℤ) (isFraud : Bool) : V5DecisionRow ℚ where
  eventId := eventId
  actorId := actorId
  counterpartyId := "shop"
  amount := ⟨100, -2⟩
  decisionAt := ⟨hour * 3600000000, some 0⟩
  predictiveFeatures := ∅
  paymentId := "payment-" ++ eventId
  campaignId := "campaign"
  family := "legitimate"
  isFraud := isFraud
  lifecycleState := "settled"
  sourceCommandId := "command-" ++ eventId
  sourceEventId := eventId
  executionEvidenceSha256 := "evidence"

/-- two payments of one hour and one of the next -/
def rows : List (V5DecisionRow ℚ) := [row "e1" "ann" 0 false, row "e2" "bob" 0 true, row "e3" "ann" 1 false]

def catalog : SentinelFeatureCatalog := ⟨["actor_count_1h", "graph_shared_neighbor_count"], "catalog"⟩

theorem exactSums : @ExactSums ℚ PyFloat.rational := fun _ _ h => h.sum_eq

theorem corpus_invariant :
    let _ := PyFloat.rational
    let _ := noDigest
    ∃ runtime, buildRuntime (fun matrix _ => .ok matrix) rows [] catalog = .ok runtime ∧
      identityRename (fun name => "id-" ++ name) (fun matrix _ => .ok matrix) runtime catalog "rename" = .ok true ∧
      featureLeakage (fun name => "id-" ++ name) (fun matrix _ => .ok matrix) runtime catalog = .ok true := by
  let _ := PyFloat.rational
  let _ := noDigest
  have hbuilt : ∀ {x : Except ControlError (ControlRuntime ℚ (List (List ℚ)))}, x.toOption.isSome = true →
      ∃ r, x = .ok r := by
    intro x h
    cases x with
    | error e => cases h
    | ok r => exact ⟨r, rfl⟩
  obtain ⟨runtime, hruntime⟩ := hbuilt (x := buildRuntime (fun matrix _ => .ok matrix) rows [] catalog)
    (by decide +kernel)
  have hcontrols := (sentinel_structure_only exactSums rows (by decide) catalog).2 (fun matrix _ => .ok matrix) []
    runtime (fun name => "id-" ++ name) (fun x _ => decide_eq_false (lt_irrefl x)) hruntime
  refine ⟨runtime, hruntime, hcontrols.1 "rename" fun a _ b _ h => by simpa using h, ?_⟩
  exact hcontrols.2 (fun c => [c]) catalog.featureNames rfl

end Sample

end Controls

end Apar
