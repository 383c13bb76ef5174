/-
The columns an arm reads (`_feature_indices` in `evaluation/v5_arms.py`; `V5ArmSpecification` and
`_spec_feature_indices` in `evaluation/v5_evaluation.py`): an arm is fitted on some columns of the feature matrix, and
its score is checked against the columns that its specification names.

The two agree except where a name repeats (`same_columns_iff`): fitting the ensemble without graph features goes by the
groups of the columns, scoring it goes by their names, and takes the first column of a name.

Modelled of the specification: what its validator asks of features and switches. Its thresholds, artifacts, training
partitions and digest read no column.
-/
import Apar.Core.Columns
import Apar.Core.Doubles
import Apar.Evaluation.InvarianceControls

namespace Apar

open Exec

namespace Arms

inductive V5Arm where
  | rulesOnly
  | ensembleNoGraph
  | ensembleWithGraph
  | fullSentinel
  | hardenedSentinel
deriving DecidableEq, Repr

/-- `SentinelFeatureCatalog`, with the groups of its columns -/
structure FeatureCatalog where
  featureNames : List String
  featureGroups : List String
  catalogSha256 : String

/-- `SentinelFeatureCatalog.no_forbidden_fields` -/
def FeatureCatalog.noForbiddenFields (unicodeLower : Char → List Char) (c : FeatureCatalog) : Except String Unit := do
  check (c.featureGroups = [] || c.featureGroups.length = c.featureNames.length)
    "feature names and groups must align exactly"
  let _ ← Controls.validateSentinelPredictiveFeatureNames unicodeLower c.featureNames

structure Switches where
  model : Bool
  graph : Bool
  rules : Bool
  trust : Bool
  novelty : Bool
  disagreement : Bool
deriving DecidableEq

structure V5ArmSpecification where
  arm : V5Arm
  catalogFeatureNames : List String
  catalogFeatureGroups : List String
  featureNames : List String
  graphFeatureNames : List String
  nonGraphFeatureNames : List String
  catalogSha256 : String
  modelSeeds : List ℤ
  switches : Switches

/-- `_RULE_FEATURES` -/
def ruleFeatures : List String :=
  ["actor_count_1m", "actor_count_10m", "graph_counterparty_fanin", "graph_actor_fanout", "actor_amount_zscore_24h",
    "counterparty_amount_zscore_24h", "graph_shared_neighbor_count", "pair_prior_count", "dq_degraded_state"]

/-- `_EXPECTED_SWITCHES.get(arm)` -/
def expectedSwitches : V5Arm → Option Switches
  | .rulesOnly => some ⟨false, true, true, true, false, false⟩
  | .ensembleNoGraph => some ⟨true, false, false, false, false, false⟩
  | .ensembleWithGraph => some ⟨true, true, false, false, false, false⟩
  | .fullSentinel => some ⟨true, true, true, true, true, true⟩
  | .hardenedSentinel => none

/-- `group not in {"graph", "integrity"}` -/
def isNonGraph (group : String) : Bool := group ≠ "graph" && group ≠ "integrity"

namespace V5ArmSpecification

/-- the catalog names whose group passes, in order -/
def namesOf (spec : V5ArmSpecification) (p : String → Bool) : List String :=
  ((spec.catalogFeatureNames.zip spec.catalogFeatureGroups).filter fun g => p g.2).map Prod.fst

/-- the features that an arm is declared to read -/
def expectedFeatures (spec : V5ArmSpecification) : Option (List String) :=
  match spec.arm with
  | .rulesOnly => some ruleFeatures
  | .ensembleNoGraph => some (spec.namesOf isNonGraph)
  | .ensembleWithGraph | .fullSentinel => some (spec.namesOf (· ≠ "integrity"))
  | .hardenedSentinel => none

/-- `V5ArmSpecification.specification_is_bound`, of features and switches -/
def specificationIsBound (unicodeLower : Char → List Char) (spec : V5ArmSpecification) : Except String Unit := do
  for names in [spec.catalogFeatureNames, spec.featureNames, spec.graphFeatureNames, spec.nonGraphFeatureNames] do
    let _ ← Controls.validateSentinelPredictiveFeatureNames unicodeLower names
  check (!spec.switches.model || (3 ≤ spec.modelSeeds.length && spec.modelSeeds.length ≤ 5))
    "model member count exceeds production profile bounds"
  check ((spec.graphFeatureNames ++ spec.nonGraphFeatureNames).isPerm spec.featureNames)
    "arm graph and non-graph feature subsets must reconstruct features"
  check (spec.catalogFeatureNames.length = spec.catalogFeatureGroups.length)
    "arm catalog feature names and groups must align"
  check (some spec.featureNames = spec.expectedFeatures) "arm feature subset does not match frozen semantics"
  check (spec.graphFeatureNames = spec.featureNames.filter (spec.namesOf (· = "graph")).contains)
    "arm graph feature subset does not match catalog groups"
  check (!(!decide spec.featureNames.Nodup && spec.arm = .rulesOnly)) "rule feature names must be unique"
  check (spec.switches.model == !spec.modelSeeds.isEmpty) "arm model switch and seed binding disagree"
  check (some spec.switches = expectedSwitches spec.arm) "arm switches do not match frozen semantics"
  check (!(spec.arm = .rulesOnly && spec.graphFeatureNames = []))
    "rules-only specification must bind RuleEngine graph inputs"
  check (!(spec.arm = .ensembleNoGraph && spec.graphFeatureNames ≠ [])) "no-graph ensemble cannot retain graph features"
  check (!((spec.arm = .ensembleWithGraph || spec.arm = .fullSentinel) && spec.graphFeatureNames = []))
    "graph-enabled arm must retain graph features"
  check (!(spec.switches.model && spec.featureNames.contains "integrity_pass"))
    "learned arms cannot contain verifier outcome features"

end V5ArmSpecification

/-! ## The columns -/

/-- `_feature_indices`: where an arm is fitted -/
def featureIndices (spec : V5ArmSpecification) (catalog : FeatureCatalog) : Except String (List ℕ) :=
  if spec.featureNames = catalog.featureNames then .ok (List.range catalog.featureNames.length)
  else if spec.switches.model && !spec.switches.graph then .ok (Columns.select isNonGraph catalog.featureGroups)
  else
    (Columns.resolve catalog.featureNames [] spec.featureNames).mapError fun name =>
      "arm feature " ++ name ++ " is absent from the bound catalog"

/-- `_spec_feature_indices`: what a score is checked against -/
def specFeatureIndices (spec : V5ArmSpecification) : Except String (List ℕ) :=
  (Columns.resolve spec.catalogFeatureNames [] spec.featureNames).mapError fun _ =>
    "arm specification feature is absent from catalog names"

/-- `tuple(row[index] for index in indices)` -/
def takeColumns (row : List Double) (indices : List ℕ) : Option (List Double) := indices.mapM (row[·]?)

/-- what the validator of a score asks of the features of a row -/
def checkRow (spec : V5ArmSpecification) (row subset : List Double) : Except String Unit := do
  let indices ← specFeatureIndices spec
  check (row.length = spec.catalogFeatureNames.length) "arm row catalog feature count mismatch"
  check (takeColumns row indices = some subset) "arm row subset feature values mismatch"

/-- the specification and the catalog are accepted, and the one was declared over the other -/
structure AcceptedAgainst (unicodeLower : Char → List Char) (spec : V5ArmSpecification) (catalog : FeatureCatalog) :
    Prop where
  spec_accepted : spec.specificationIsBound unicodeLower = .ok ()
  catalog_accepted : catalog.noForbiddenFields unicodeLower = .ok ()
  grouped : catalog.featureGroups ≠ []
  names_eq : spec.catalogFeatureNames = catalog.featureNames
  groups_eq : spec.catalogFeatureGroups = catalog.featureGroups
  digest_eq : spec.catalogSha256 = catalog.catalogSha256

/-- fitting and scoring read the same columns, so that what was read on fitting passes the check of a score -/
def SameColumns (spec : V5ArmSpecification) (catalog : FeatureCatalog) : Prop :=
  (featureIndices spec catalog).toOption = (specFeatureIndices spec).toOption ∧
    ∀ indices (row subset : List Double), featureIndices spec catalog = .ok indices → row.length = catalog.featureNames.length →
      takeColumns row indices = some subset → checkRow spec row subset = .ok ()

/-- in the ensemble without graph features, no graph or integrity column stands before a column of its name that the
ensemble reads -/
def NoEarlierNamesake (spec : V5ArmSpecification) : Prop :=
  spec.arm = .ensembleNoGraph → ∀ i j : ℕ, i < j → spec.catalogFeatureNames[i]? = spec.catalogFeatureNames[j]? →
    (∃ g, spec.catalogFeatureGroups[j]? = some g ∧ isNonGraph g) →
      ∃ g, spec.catalogFeatureGroups[i]? = some g ∧ isNonGraph g

/-! ## Where they differ -/

/-- what the checks say about features and switches -/
theorem facts_of_bound {unicodeLower : Char → List Char} {spec : V5ArmSpecification}
    (h : spec.specificationIsBound unicodeLower = .ok ()) :
    spec.catalogFeatureNames.length = spec.catalogFeatureGroups.length ∧
      some spec.featureNames = spec.expectedFeatures ∧ some spec.switches = expectedSwitches spec.arm := by
  unfold V5ArmSpecification.specificationIsBound at h
  simp only [except_bind_eq_ok, check_eq_ok, decide_eq_true_eq, exists_and_left, exists_const] at h
  obtain ⟨_, -, -, -, hlength, hfeatures, -, -, -, hswitches, -⟩ := h
  exact ⟨hlength, hfeatures, hswitches⟩

theorem goes_by_groups {spec : V5ArmSpecification} (h : some spec.switches = expectedSwitches spec.arm) :
    (spec.switches.model && !spec.switches.graph) = true ↔ spec.arm = .ensembleNoGraph := by
  cases harm : spec.arm with
  | hardenedSentinel =>
    rw [harm] at h
    cases h
  | rulesOnly | ensembleNoGraph | ensembleWithGraph | fullSentinel =>
    rw [harm] at h
    rw [Option.some.inj h]
    decide

theorem sameColumns_of_eq {spec : V5ArmSpecification} {catalog : FeatureCatalog}
    (hnames : spec.catalogFeatureNames = catalog.featureNames)
    (h : (featureIndices spec catalog).toOption = (specFeatureIndices spec).toOption) : SameColumns spec catalog := by
  refine ⟨h, fun indices row subset hindices hrow htake => ?_⟩
  rw [hindices] at h
  have hspec : specFeatureIndices spec = .ok indices := by
    cases hs : specFeatureIndices spec with
    | error e => rw [hs] at h; cases h
    | ok is =>
      rw [hs] at h
      cases h
      rfl
  unfold checkRow
  rw [hspec, hnames, except_ok_bind]
  simp [check, hrow, htake]
  rfl

/-- **Fitting and scoring read the same columns** of an accepted specification and catalog exactly when no graph or
integrity column stands before a column of the same name that the ensemble without graph features reads. -/
theorem same_columns_iff {unicodeLower : Char → List Char} {spec : V5ArmSpecification} {catalog : FeatureCatalog}
    (h : AcceptedAgainst unicodeLower spec catalog) : SameColumns spec catalog ↔ NoEarlierNamesake spec := by
  obtain ⟨hlength, hfeatures, hswitches⟩ := facts_of_bound h.spec_accepted
  have hsame : SameColumns spec catalog ↔
      (featureIndices spec catalog).toOption = (specFeatureIndices spec).toOption :=
    ⟨fun hs => hs.1, sameColumns_of_eq h.names_eq⟩
  rw [hsame]
  unfold featureIndices specFeatureIndices
  rw [← h.names_eq, ← h.groups_eq]
  by_cases hall : spec.featureNames = spec.catalogFeatureNames
  · -- every column is read
    rw [if_pos hall, hall, Columns.resolve_self]
    refine iff_of_true rfl ?_
    intro harm i j hij _ ⟨g, hg, _⟩
    have hread : spec.featureNames = spec.namesOf isNonGraph := by
      rw [V5ArmSpecification.expectedFeatures, harm] at hfeatures
      exact Option.some.inj hfeatures
    have hfilter : (spec.catalogFeatureNames.zip spec.catalogFeatureGroups).filter (fun g => isNonGraph g.2) =
        spec.catalogFeatureNames.zip spec.catalogFeatureGroups := by
      refine List.filter_sublist.eq_of_length ?_
      have := congrArg List.length (hall.symm.trans hread)
      rw [V5ArmSpecification.namesOf, List.length_map] at this
      rw [← this, List.length_zip, ← hlength, min_self]
    have hi : i < spec.catalogFeatureGroups.length := hij.trans (List.getElem?_eq_some_iff.1 hg).1
    have hmem : (spec.catalogFeatureNames[i], spec.catalogFeatureGroups[i]) ∈
        spec.catalogFeatureNames.zip spec.catalogFeatureGroups := by
      rw [← List.getElem_zip (h := by rw [List.length_zip, hlength, min_self]; exact hi)]
      exact List.getElem_mem _
    exact ⟨_, List.getElem?_eq_getElem hi, List.filter_eq_self.1 hfilter _ hmem⟩
  · rw [if_neg hall]
    by_cases harm : spec.arm = .ensembleNoGraph
    · rw [if_pos ((goes_by_groups hswitches).2 harm)]
      have hread : spec.featureNames = spec.namesOf isNonGraph := by
        rw [V5ArmSpecification.expectedFeatures, harm] at hfeatures
        exact Option.some.inj hfeatures
      have hresolve := Columns.resolve_eq_iff [] (Columns.select_names isNonGraph hlength)
        (Columns.select_sorted _ _) (by simp)
      have hok : ∀ x : Except String (List ℕ), some (Columns.select isNonGraph spec.catalogFeatureGroups) =
          x.toOption ↔ x = .ok (Columns.select isNonGraph spec.catalogFeatureGroups) := by
        intro x
        cases x <;> simp [Except.toOption, eq_comm]
      have herror : ∀ x : Except String (List ℕ),
          (x.mapError fun _ => "arm specification feature is absent from catalog names") =
            .ok (Columns.select isNonGraph spec.catalogFeatureGroups) ↔
          x = .ok (Columns.select isNonGraph spec.catalogFeatureGroups) := by
        intro x
        cases x <;> simp [Except.mapError]
      change some _ = _ ↔ _
      rw [hok, herror, hread, V5ArmSpecification.namesOf, hresolve]
      simp only [Columns.mem_select, List.not_mem_nil, false_or]
      exact ⟨fun hall _ i j hij hname hj => hall j hj i hij hname, fun hno j hj i hij hname => hno harm i j hij hname hj⟩
    · rw [if_neg (mt (goes_by_groups hswitches).1 harm)]
      refine iff_of_true ?_ fun hno => absurd hno harm
      cases Columns.resolve spec.catalogFeatureNames [] spec.featureNames <;> rfl

/-! ## Two catalogs -/

namespace Sample

/-- a column for the ensemble without graph features, beside another -/
def catalog (groups : List String) (names : List String) : FeatureCatalog where
  featureNames := names
  featureGroups := groups
  catalogSha256 := "c"

/-- the ensemble without graph features over a catalog with one column for it -/
def noGraph (c : FeatureCatalog) (name : String) : V5ArmSpecification where
  arm := .ensembleNoGraph
  catalogFeatureNames := c.featureNames
  catalogFeatureGroups := c.featureGroups
  featureNames := [name]
  graphFeatureNames := []
  nonGraphFeatureNames := [name]
  catalogSha256 := c.catalogSha256
  modelSeeds := [11, 12, 13]
  switches := ⟨true, false, false, false, false, false⟩

/-- distinct names -/
def distinct : FeatureCatalog := catalog ["transaction", "graph"] ["amount", "graph_actor_fanout"]

/-- an integrity column under the name of a later one -/
def repeated : FeatureCatalog := catalog ["integrity", "transaction"] ["amount", "amount"]

theorem distinct_accepted : AcceptedAgainst (fun c => [c]) (noGraph distinct "amount") distinct := by
  refine ⟨?_, ?_, by decide, rfl, rfl, rfl⟩ <;> decide +kernel

theorem repeated_accepted : AcceptedAgainst (fun c => [c]) (noGraph repeated "amount") repeated := by
  refine ⟨?_, ?_, by decide, rfl, rfl, rfl⟩ <;> decide +kernel

end Sample

/-- distinct names: the one column is the first for both -/
theorem same_columns_distinct :
    SameColumns (Sample.noGraph Sample.distinct "amount") Sample.distinct ↔
      NoEarlierNamesake (Sample.noGraph Sample.distinct "amount") :=
  same_columns_iff Sample.distinct_accepted

/-- **A column of integrity facts under the name of a feature.** The ensemble is fitted on the second column, and its
score is checked against the first, where it fails. -/
theorem repeated_name_reads_another_column :
    AcceptedAgainst (fun c => [c]) (Sample.noGraph Sample.repeated "amount") Sample.repeated ∧
      featureIndices (Sample.noGraph Sample.repeated "amount") Sample.repeated = .ok [1] ∧
      specFeatureIndices (Sample.noGraph Sample.repeated "amount") = .ok [0] ∧
      checkRow (Sample.noGraph Sample.repeated "amount") [.fin 1, .fin 40] [.fin 40] =
        .error "arm row subset feature values mismatch" := by
  refine ⟨Sample.repeated_accepted, ?_, ?_, ?_⟩ <;> decide +kernel

end Arms

end Apar
