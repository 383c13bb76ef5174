/-
Isolation forests (`V5IsolationTreeManifest` and `V5IsolationForestManifest` in `evaluation/v5_evaluation.py`): trees in
parallel arrays, their validators, the descent to a leaf and the score of a vector.

A tree is checked node by node and is then one rooted tree (`rooted`), so that a descent rises through the arrays and
ends (`walk_of_accepted`). A score adds the path lengths of the leaves and raises two to a quotient, which stays small
enough to be a float (`rawScore_of_accepted`).

The natural logarithm and the powers of two are the C library's (`Libm`).
-/
import Apar.Core.Doubles
import Apar.Core.JsonDocuments
import Apar.Core.Rooted

namespace Apar

open Exec

namespace Isolation

inductive ForestError where
  | value (message : String)
  | index
  | overflow
  | zeroDivision
deriving DecidableEq, Repr

open ForestError

/-- `math.log` of a positive float and `2.0 ** x` where it is in range -/
structure Libm where
  log : ℚ → ℚ
  exp2 : ℚ → ℚ
  le_log : ∀ x, 2 ≤ x → 11 / 16 ≤ log x

/-- `xs[i]` -/
def item {α : Type} (xs : List α) (i : ℕ) : Except ForestError α :=
  match xs[i]? with
  | some x => .ok x
  | none => .error index

theorem item_of_lt {α : Type} {xs : List α} {i : ℕ} (h : i < xs.length) : item xs i = .ok xs[i] := by
  unfold item
  rw [List.getElem?_eq_getElem h]

/-! ## Trees -/

/-- `_MAX_ISOLATION_TREES` -/
def maxTrees : ℕ := 512

/-- `_MAX_ISOLATION_NODES` -/
def maxNodes : ℕ := 262144

/-- `_MAX_ESTIMATOR_FEATURES_PER_TREE` -/
def maxFeatures : ℕ := 256

/-- `_MAX_ISOLATION_ESTIMATOR_FEATURES` -/
def maxEstimatorFeatures : ℕ := maxTrees * maxFeatures

structure Tree where
  childrenLeft : List ℤ
  childrenRight : List ℤ
  feature : List ℤ
  threshold : List Double
  decisionPathLengths : List Double
  averagePathLengths : List Double
  estimatorFeatures : List ℤ
deriving DecidableEq

namespace Tree

/-- the number of nodes -/
def size (t : Tree) : ℕ := t.childrenLeft.length

/-- the loop over the nodes: the children of the splits, in order -/
def childNodes (size features : ℕ) : ℕ → List (ℤ × ℤ × ℤ) → Except ForestError (List ℤ)
  | _, [] => .ok []
  | node, (left, right, feature) :: rest => do
    check (decide (left = -1) == decide (right = -1)) (value "isolation tree child indices must align")
    if left = -1 then do
      check (feature = -2) (value "isolation tree leaf feature marker is invalid")
      childNodes size features (node + 1) rest
    else do
      check (!(left ≤ node || right ≤ node || size ≤ left || size ≤ right || left = right))
        (value "isolation tree child indices are invalid")
      check (!(feature < 0 || features ≤ feature)) (value "isolation tree split feature is invalid")
      let nodes ← childNodes size features (node + 1) rest
      pure (left :: right :: nodes)

/-- `V5IsolationTreeManifest.arrays_form_one_bounded_tree` -/
def arraysFormOneBoundedTree (t : Tree) : Except ForestError Unit := do
  check ([t.childrenRight.length, t.feature.length, t.threshold.length, t.decisionPathLengths.length,
      t.averagePathLengths.length].all (· = t.size) && t.size ≠ 0 && t.size ≤ maxNodes)
    (value "isolation tree arrays must align and remain bounded")
  check (t.estimatorFeatures.length ≤ maxFeatures) (value "estimator feature count exceeds production profile limit")
  check (t.estimatorFeatures ≠ [] && t.estimatorFeatures.all (0 ≤ ·))
    (value "isolation tree estimator feature indices are invalid")
  check ((t.threshold ++ t.decisionPathLengths ++ t.averagePathLengths).all Double.isFinite)
    (value "isolation tree numeric arrays must be finite")
  let nodes ← childNodes t.size t.estimatorFeatures.length 0 (t.childrenLeft.zip (t.childrenRight.zip t.feature))
  check (sortBy id nodes = (List.range' 1 (t.size - 1)).map Int.ofNat)
    (value "isolation tree nodes must form one exact rooted tree")
  check (!(t.decisionPathLengths.any (·.le (.fin 0)) || t.averagePathLengths.any (!(Double.fin 0).le ·)))
    (value "isolation tree path lengths are invalid")

/-- the next node of a descent, none at a leaf -/
def move (t : Tree) (values : List Double) (node : ℕ) : Except ForestError (Option ℤ) := do
  let left ← item t.childrenLeft node
  if left = -1 then pure none
  else do
    let split ← item t.feature node
    check (!(split < 0 || t.estimatorFeatures.length ≤ split)) (value "isolation tree split feature is invalid")
    let source ← item t.estimatorFeatures split.toNat
    check (!(source < 0 || values.length ≤ source)) (value "isolation tree source feature is invalid")
    let x ← item values source.toNat
    let threshold ← item t.threshold node
    if x.single.le threshold then pure (some left)
    else do
      let right ← item t.childrenRight node
      pure (some right)

/-- the descent from a node, of at most `remaining` more moves: where it ends, and its moves -/
def walkFrom (t : Tree) (values : List Double) : ℕ → ℕ → Except ForestError (ℕ × ℕ)
  | 0, node => do
    match ← t.move values node with
    | none => pure (node, 0)
    | some _ => throw (value "isolation tree traversal is invalid")
  | remaining + 1, node => do
    match ← t.move values node with
    | none => pure (node, 0)
    | some next => do
      check (!(next < 0 || t.size ≤ next)) (value "isolation tree traversal is invalid")
      let (leaf, moves) ← walkFrom t values remaining next.toNat
      pure (leaf, moves + 1)

def walk (t : Tree) (values : List Double) : Except ForestError (ℕ × ℕ) := t.walkFrom values t.size 0

/-- `V5IsolationTreeManifest.leaf_index` -/
def leafIndex (t : Tree) (features : List Double) : Except ForestError ℕ := do
  let (leaf, _) ← t.walk features
  pure leaf

/-- the node `c` is a child of the node `i` in the arrays -/
def IsChild (t : Tree) (i c : ℕ) : Prop := t.childrenLeft[i]? = some (c : ℤ) ∨ t.childrenRight[i]? = some (c : ℤ)

/-! ## What the validator checks -/

variable {t : Tree}

/-- what the loop requires of a node -/
def NodeOk (size features node : ℕ) (row : ℤ × ℤ × ℤ) : Prop :=
  (row.1 = -1 ∧ row.2.1 = -1 ∧ row.2.2 = -2) ∨
    (row.1 ≠ -1 ∧ row.2.1 ≠ -1 ∧ (node < row.1 ∧ row.1 < size) ∧ (node < row.2.1 ∧ row.2.1 < size) ∧
      0 ≤ row.2.2 ∧ row.2.2 < features)

/-- the children that a row lists -/
def rowChildren (row : ℤ × ℤ × ℤ) : List ℤ := if row.1 = -1 then [] else [row.1, row.2.1]

theorem childNodes_eq_ok {size features node : ℕ} {rows : List (ℤ × ℤ × ℤ)} {nodes : List ℤ}
    (h : childNodes size features node rows = .ok nodes) :
    nodes = rows.flatMap rowChildren ∧ ∀ k row, rows[k]? = some row → NodeOk size features (node + k) row := by
  induction rows generalizing node nodes with
  | nil =>
    have hnil : [] = nodes := Except.ok.inj h
    exact ⟨hnil.symm, by simp⟩
  | cons row rows ih =>
    obtain ⟨left, right, feature⟩ := row
    rw [childNodes, except_bind_eq_ok] at h
    obtain ⟨_, halign, h⟩ := h
    rw [check_eq_ok, beq_iff_eq, decide_eq_decide] at halign
    by_cases hleaf : left = -1
    · rw [if_pos hleaf, except_bind_eq_ok] at h
      obtain ⟨_, hmark, h⟩ := h
      rw [check_eq_ok, decide_eq_true_eq] at hmark
      obtain ⟨hnodes, hrows⟩ := ih h
      refine ⟨by simp [hnodes, rowChildren, hleaf], ?_⟩
      intro k r hr
      cases k with
      | zero =>
        cases hr
        exact Or.inl ⟨hleaf, halign.1 hleaf, hmark⟩
      | succ k =>
        have := hrows k r hr
        rwa [Nat.add_right_comm] at this
    · rw [if_neg hleaf, except_bind_eq_ok] at h
      obtain ⟨_, hchild, h⟩ := h
      rw [except_bind_eq_ok] at h
      obtain ⟨_, hsplit, h⟩ := h
      rw [except_bind_eq_ok] at h
      obtain ⟨more, hmore, h⟩ := h
      simp only [check_eq_ok, Bool.not_eq_true', Bool.or_eq_false_iff, decide_eq_false_iff_not, not_le,
        not_lt] at hchild hsplit
      rw [except_pure_eq_ok] at h
      obtain ⟨hnodes, hrows⟩ := ih hmore
      refine ⟨by simp [← h, hnodes, rowChildren, hleaf], ?_⟩
      intro k r hr
      cases k with
      | zero =>
        cases hr
        refine Or.inr ⟨hleaf, mt halign.2 hleaf, ⟨hchild.1.1.1.1, hchild.1.1.2⟩, ⟨hchild.1.1.1.2, hchild.1.2⟩, hsplit⟩
      | succ k =>
        have := hrows k r hr
        rwa [Nat.add_right_comm] at this

/-- an accepted tree -/
structure Sound (t : Tree) : Prop where
  right_length : t.childrenRight.length = t.size
  feature_length : t.feature.length = t.size
  threshold_length : t.threshold.length = t.size
  decision_length : t.decisionPathLengths.length = t.size
  average_length : t.averagePathLengths.length = t.size
  size_pos : 0 < t.size
  estimator_nonneg : ∀ i ∈ t.estimatorFeatures, 0 ≤ i
  decision_finite : ∀ x ∈ t.decisionPathLengths, x.isFinite = true
  average_finite : ∀ x ∈ t.averagePathLengths, x.isFinite = true
  node_ok : ∀ k row, (t.childrenLeft.zip (t.childrenRight.zip t.feature))[k]? = some row →
    NodeOk t.size t.estimatorFeatures.length k row
  listed : ((t.childrenLeft.zip (t.childrenRight.zip t.feature)).flatMap rowChildren).Perm
    ((List.range' 1 (t.size - 1)).map Int.ofNat)
  decision_pos : ∀ x ∈ t.decisionPathLengths, x.le (.fin 0) = false
  average_nonneg : ∀ x ∈ t.averagePathLengths, (Double.fin 0).le x = true

theorem sound_of_accepted (h : t.arraysFormOneBoundedTree = .ok ()) : t.Sound := by
  unfold arraysFormOneBoundedTree at h
  simp only [except_bind_eq_ok, check_eq_ok, Bool.and_eq_true, List.all_cons, List.all_nil, decide_eq_true_eq,
    List.all_append, List.all_eq_true, Bool.not_eq_true', Bool.or_eq_false_iff, List.any_eq_false, Bool.not_eq_true,
    Bool.not_eq_false, exists_const, and_true] at h
  obtain ⟨⟨⟨⟨hright, hfeature, hthreshold, hdecision, haverage⟩, hpos⟩, -⟩, -, ⟨-, hestimator⟩,
    ⟨⟨-, hdfinite⟩, hafinite⟩, nodes, hnodes, hlisted, hdpos, hapos⟩ := h
  obtain ⟨rfl, hrows⟩ := childNodes_eq_ok hnodes
  refine ⟨hright, hfeature, hthreshold, hdecision, haverage, by omega, hestimator, hdfinite, hafinite, ?_, ?_, hdpos,
    hapos⟩
  · intro k row hrow
    simpa using hrows k row hrow
  · rw [← hlisted]
    exact (sortBy_perm _ _).symm

/-! ## One rooted tree -/

theorem flatMap_range {α β : Type} (f : α → List β) (xs : List α) :
    ((List.range xs.length).flatMap fun i => (xs[i]?.map f).getD []) = xs.flatMap f := by
  induction xs with
  | nil => rfl
  | cons x xs ih =>
    rw [List.length_cons, List.range_succ_eq_map, List.flatMap_cons, List.flatMap_map, List.flatMap_cons, ← ih]
    rfl

/-- the children of a node, as numbers -/
def children (t : Tree) (i : ℕ) : List ℕ :=
  match t.childrenLeft[i]?, t.childrenRight[i]? with
  | some left, some right => if left = -1 then [] else [left.toNat, right.toNat]
  | _, _ => []

/-- the node a step of the arrays leads to -/
theorem Sound.row (h : t.Sound) {i : ℕ} (hi : i < t.size) :
    ∃ left right feature, t.childrenLeft[i]? = some left ∧ t.childrenRight[i]? = some right ∧
      t.feature[i]? = some feature ∧ NodeOk t.size t.estimatorFeatures.length i (left, right, feature) := by
  have hr : i < t.childrenRight.length := by rw [h.right_length]; exact hi
  have hf : i < t.feature.length := by rw [h.feature_length]; exact hi
  refine ⟨_, _, _, List.getElem?_eq_getElem hi, List.getElem?_eq_getElem hr, List.getElem?_eq_getElem hf, ?_⟩
  refine h.node_ok i _ ?_
  rw [List.getElem?_zip_eq_some]
  refine ⟨List.getElem?_eq_getElem hi, ?_⟩
  rw [List.getElem?_zip_eq_some]
  exact ⟨List.getElem?_eq_getElem hr, List.getElem?_eq_getElem hf⟩

theorem Sound.step_iff (h : t.Sound) {i c : ℕ} : Rooted.Step t.size t.children i c ↔ t.IsChild i c := by
  unfold Rooted.Step IsChild
  by_cases hi : i < t.size
  · obtain ⟨left, right, feature, hl, hr, -, hok⟩ := h.row hi
    unfold children
    rw [hl, hr]
    rcases hok with ⟨hl1, hr1, -⟩ | ⟨hl1, -, hl2, hr2, -⟩
    · simp only at hl1 hr1
      simp [hl1, hr1]
    · simp only at hl1 hl2 hr2
      simp only [hi, hl1, if_false, List.mem_cons, List.not_mem_nil, or_false, true_and, Option.some.injEq]
      omega
  · have hl : t.childrenLeft[i]? = none := List.getElem?_eq_none (by unfold size at hi; omega)
    have hr : t.childrenRight[i]? = none := List.getElem?_eq_none (by have := h.right_length; omega)
    simp [hi, hl, hr]

/-- the children that the loop collects are those of the nodes in turn -/
theorem Sound.listed_children (h : t.Sound) :
    ((t.childrenLeft.zip (t.childrenRight.zip t.feature)).flatMap rowChildren).map Int.toNat =
      (List.range t.size).flatMap t.children := by
  have hlength : (t.childrenLeft.zip (t.childrenRight.zip t.feature)).length = t.size := by
    rw [List.length_zip, List.length_zip, h.right_length, h.feature_length, min_self]
    exact min_self _
  rw [← flatMap_range, hlength, List.map_flatMap]
  refine List.flatMap_congr fun i hi => ?_
  obtain ⟨left, right, feature, hl, hr, hf, -⟩ := h.row (List.mem_range.1 hi)
  have hrow : (t.childrenLeft.zip (t.childrenRight.zip t.feature))[i]? = some (left, right, feature) := by
    rw [List.getElem?_zip_eq_some]
    exact ⟨hl, List.getElem?_zip_eq_some.2 ⟨hr, hf⟩⟩
  rw [hrow, children, hl, hr, Option.map_some, Option.getD_some, rowChildren]
  by_cases hleaf : left = -1
  · simp [hleaf]
  · simp [hleaf]

/-- **The arrays of an accepted tree are one rooted tree.** -/
theorem Sound.rooted (h : t.Sound) : Rooted t.size t.children := by
  refine ⟨?_, ?_⟩
  · intro i hi c hc
    obtain ⟨left, right, feature, hl, hr, -, hok⟩ := h.row hi
    unfold children at hc
    rw [hl, hr] at hc
    rcases hok with ⟨hl1, -⟩ | ⟨hl1, -, hl2, hr2, -⟩
    · simp only at hl1
      simp [hl1] at hc
    · simp only at hl1 hl2 hr2
      simp only [hl1, if_false, List.mem_cons, List.not_mem_nil, or_false] at hc
      omega
  · rw [← h.listed_children]
    have hmap := h.listed.map Int.toNat
    have hback : Int.toNat ∘ Int.ofNat = id := funext fun n => Int.toNat_natCast n
    rwa [List.map_map, hback, List.map_id] at hmap

/-! ## The descent -/

/-- one step of a descent: it ends at a leaf, or goes on to a child -/
theorem Sound.move_cases (h : t.Sound) {values : List Double} (hvalues : ∀ i ∈ t.estimatorFeatures, i < values.length)
    {node : ℕ} (hnode : node < t.size) :
    (t.childrenLeft[node]? = some (-1) ∧ t.move values node = .ok none) ∨
      ∃ next : ℕ, t.move values node = .ok (some (next : ℤ)) ∧ t.IsChild node next ∧ node < next ∧ next < t.size := by
  obtain ⟨left, right, feature, hl, hr, hf, hok⟩ := h.row hnode
  have hleft : item t.childrenLeft node = .ok left := by unfold item; rw [hl]
  have hright : item t.childrenRight node = .ok right := by unfold item; rw [hr]
  have hfeature : item t.feature node = .ok feature := by unfold item; rw [hf]
  rcases hok with ⟨hl1, -⟩ | ⟨hl1, -, hl2, hr2, hlow, hhigh⟩
  · left
    simp only at hl1
    subst hl1
    refine ⟨hl, ?_⟩
    unfold move
    rw [hleft, except_ok_bind]
    rfl
  · right
    simp only at hl1 hl2 hr2 hlow hhigh
    -- the split reads a value that is there
    have hsplit : feature.toNat < t.estimatorFeatures.length := by omega
    have hsource := List.getElem_mem hsplit
    have hnonneg := h.estimator_nonneg _ hsource
    have hbound := hvalues _ hsource
    have hthreshold : node < t.threshold.length := by rw [h.threshold_length]; exact hnode
    have hread : (t.estimatorFeatures[feature.toNat]).toNat < values.length := by omega
    have hmove : t.move values node =
        if values[(t.estimatorFeatures[feature.toNat]).toNat].single.le t.threshold[node] then
          .ok (some left)
        else .ok (some right) := by
      unfold move
      rw [hleft, except_ok_bind, if_neg hl1, hfeature, except_ok_bind]
      rw [show check (!(decide (feature < 0) || decide ((t.estimatorFeatures.length : ℤ) ≤ feature)))
        (value "isolation tree split feature is invalid") = .ok () by
          simp [check, not_lt.2 hlow, not_le.2 hhigh], except_ok_bind, item_of_lt hsplit, except_ok_bind]
      rw [show check (!(decide (t.estimatorFeatures[feature.toNat] < 0) ||
          decide ((values.length : ℤ) ≤ t.estimatorFeatures[feature.toNat])))
        (value "isolation tree source feature is invalid") = .ok () by
          simp [check, not_lt.2 hnonneg, not_le.2 hbound], except_ok_bind,
        item_of_lt hread, except_ok_bind, item_of_lt hthreshold, except_ok_bind, hright, except_ok_bind]
      rfl
    by_cases hle : values[(t.estimatorFeatures[feature.toNat]).toNat].single.le t.threshold[node] = true
    · refine ⟨left.toNat, ?_, Or.inl ?_, by omega, by omega⟩
      · rw [hmove, if_pos hle, Int.toNat_of_nonneg (by omega)]
      · rw [hl, Int.toNat_of_nonneg (by omega)]
    · refine ⟨right.toNat, ?_, Or.inr ?_, by omega, by omega⟩
      · rw [hmove, if_neg hle, Int.toNat_of_nonneg (by omega)]
      · rw [hr, Int.toNat_of_nonneg (by omega)]

/-- a descent with enough moves left ends at a leaf; each move rises in the arrays -/
theorem Sound.walkFrom (h : t.Sound) {values : List Double} (hvalues : ∀ i ∈ t.estimatorFeatures, i < values.length)
    (remaining : ℕ) {node : ℕ} (hnode : node < t.size) (hleft : t.size ≤ node + remaining) :
    ∃ leaf moves, t.walkFrom values remaining node = .ok (leaf, moves) ∧ t.childrenLeft[leaf]? = some (-1) ∧
      leaf < t.size ∧ node + moves ≤ leaf ∧ Relation.ReflTransGen t.IsChild node leaf := by
  induction remaining generalizing node with
  | zero => omega
  | succ remaining ih =>
    rcases h.move_cases hvalues hnode with ⟨hend, hmove⟩ | ⟨next, hmove, hchild, hafter, hnext⟩
    · refine ⟨node, 0, ?_, hend, hnode, le_rfl, .refl⟩
      rw [Tree.walkFrom, hmove]
      rfl
    · obtain ⟨leaf, moves, hwalk, hend, hlt, hcount, hpath⟩ := ih hnext (by omega)
      refine ⟨leaf, moves + 1, ?_, hend, hlt, by omega, Relation.ReflTransGen.head hchild hpath⟩
      rw [Tree.walkFrom, hmove, except_ok_bind]
      simp only [Int.toNat_natCast]
      rw [show check (!(decide ((next : ℤ) < 0) || decide ((t.size : ℤ) ≤ next)))
        (value "isolation tree traversal is invalid") = .ok () by
          simp [check, hnext], except_ok_bind, hwalk]
      rfl

/-- **A descent ends at a leaf after fewer moves than the tree has nodes.** -/
theorem Sound.walk (h : t.Sound) {values : List Double} (hvalues : ∀ i ∈ t.estimatorFeatures, i < values.length) :
    ∃ leaf moves, t.walk values = .ok (leaf, moves) ∧ t.leafIndex values = .ok leaf ∧ moves < t.size ∧
      leaf < t.size ∧ t.childrenLeft[leaf]? = some (-1) ∧ Relation.ReflTransGen t.IsChild 0 leaf := by
  obtain ⟨leaf, moves, hwalk, hend, hlt, hcount, hpath⟩ := h.walkFrom hvalues t.size h.size_pos (by omega)
  refine ⟨leaf, moves, hwalk, ?_, by omega, hlt, hend, hpath⟩
  unfold leafIndex Tree.walk
  rw [hwalk]
  rfl

end Tree

/-! ## Forests -/

structure Forest where
  featureCount : ℤ
  maxSamples : ℤ
  offset : Double
  trees : List Tree
  artifactSha256 : String

namespace Forest

variable [Sha256] [FloatText Double]

/-- `model_dump(mode="json")` of a tree -/
def treeDocument (t : Tree) : JsonTree Double :=
  .object [("children_left", .list (t.childrenLeft.map .int)), ("children_right", .list (t.childrenRight.map .int)),
    ("feature", .list (t.feature.map .int)), ("threshold", .list (t.threshold.map .float)),
    ("decision_path_lengths", .list (t.decisionPathLengths.map .float)),
    ("average_path_lengths", .list (t.averagePathLengths.map .float)),
    ("estimator_features", .list (t.estimatorFeatures.map .int))]

/-- `V5IsolationForestManifest.computed_digest` -/
def computedDigest (f : Forest) : Except ForestError String :=
  let document : JsonTree Double :=
    .object [("serialization", .textValue "sklearn-isolation-forest-tree-arrays-v1"),
      ("feature_count", .int f.featureCount), ("max_samples", .int f.maxSamples), ("offset", .float f.offset),
      ("trees", .list (f.trees.map treeDocument))]
  match document.canonicalBytes with
  | some raw => .ok (Sha256.hexdigestBytes raw)
  | none => .error (value "the manifest has no canonical JSON")

/-- the fields of `V5IsolationForestManifest` and of its trees -/
def fields (f : Forest) : Except ForestError Unit := do
  f.trees.forM Tree.arraysFormOneBoundedTree
  check (0 < f.featureCount) (value "Input should be greater than 0")
  check (0 < f.maxSamples) (value "Input should be greater than 0")
  check (1 ≤ f.trees.length) (value "Tuple should have at least 1 item after validation")
  check (f.trees.length ≤ maxTrees) (value "Tuple should have at most 512 items after validation")
  check (isDigestText f.artifactSha256) (value "String should match pattern '^[0-9a-f]\x7b64\x7d$'")

/-- `V5IsolationForestManifest.forest_is_content_addressed` -/
def forestIsContentAddressed (f : Forest) : Except ForestError Unit := do
  check (f.trees.length ≤ maxTrees) (value "isolation forest tree count exceeds production profile limit")
  check ((f.trees.map Tree.size).sum ≤ maxNodes) (value "isolation forest node count exceeds production profile limit")
  check (f.featureCount ≤ maxFeatures) (value "isolation forest feature count exceeds production profile limit")
  check ((f.trees.map fun t => t.estimatorFeatures.length).sum ≤ maxEstimatorFeatures)
    (value "isolation forest estimator feature count exceeds production profile limit")
  check f.offset.isFinite (value "isolation forest offset must be finite")
  check (f.trees.all fun t => t.estimatorFeatures = (List.range f.featureCount.toNat).map Int.ofNat)
    (value "isolation forest requires exact ordered estimator features")
  let digest ← f.computedDigest
  check (f.artifactSha256 = digest) (value "IsolationForest artifact digest mismatch")

def validate (f : Forest) : Except ForestError Unit := do
  f.fields
  f.forestIsContentAddressed

omit [Sha256] [FloatText Double]

variable (m : Libm)

/-- `float(numpy.euler_gamma)` -/
def eulerGamma : Double := .ofRat (5772156649015328606065120900824024310421 / 10 ^ 40)

/-- `float(n)` where an integer meets a float -/
def toFloat (n : ℤ) : Except ForestError Double :=
  match Double.ofInt n with
  | some x => .ok x
  | none => .error overflow

/-- `math.log(x)` -/
def log : Double → Except ForestError Double
  | .nan => .ok .nan
  | .inf negative => if negative then .error (value "math domain error") else .ok (.inf false)
  | .fin x => if 0 < x then .ok (.fin (m.log x)) else .error (value "math domain error")

/-- `x / y` -/
def divide (x y : Double) : Except ForestError Double :=
  match x.div y with
  | some z => .ok z
  | none => .error zeroDivision

/-- `2.0 ** x` -/
def twoPow (x : Double) : Except ForestError Double :=
  match x.twoPow (fun e => .fin (m.exp2 e)) with
  | some y => .ok y
  | none => .error overflow

/-- `_average_path_length` -/
def averagePathLength (sampleCount : ℤ) : Except ForestError Double :=
  if sampleCount ≤ 1 then .ok (.fin 0)
  else if sampleCount = 2 then .ok (.fin 1)
  else do
    let count ← toFloat sampleCount
    let logged ← log m (count.sub (.fin 1))
    let quotient ← divide ((Double.fin 2).mul (count.sub (.fin 1))) count
    pure (((Double.fin 2).mul (logged.add eulerGamma)).sub quotient)

/-- what a tree adds to the depth of a vector -/
def addPath (features : List Double) (depth : Double) (t : Tree) : Except ForestError Double := do
  let leaf ← t.leafIndex features
  let decision ← item t.decisionPathLengths leaf
  let average ← item t.averagePathLengths leaf
  pure (depth.add ((decision.add average).sub (.fin 1)))

/-- `V5IsolationForestManifest.raw_score` -/
def rawScore (f : Forest) (features : List Double) : Except ForestError Double := do
  check ((features.length : ℤ) = f.featureCount && features.all Double.isFinite)
    (value "novelty replay feature vector is invalid")
  let depth ← f.trees.foldlM (addPath features) (.fin 0)
  let average ← averagePathLength m f.maxSamples
  let trees ← toFloat f.trees.length
  let denominator := trees.mul average
  let anomaly ← if denominator = .fin 0 then pure (.fin 1) else do
    let quotient ← divide depth.neg denominator
    twoPow m quotient
  pure (anomaly.neg.sub f.offset)

/-! ## A score is a float -/

open Binary64 (nearest)

theorem nearest_neg_natCast {k : ℕ} (h : k < 2 ^ 53) : nearest (-(k : ℚ)) = -k := by
  rw [Binary64.nearest_neg, Binary64.nearest_natCast h]

theorem neg_limit_lt {x : ℚ} (h : -1000 ≤ x) : -Double.limit < x := by
  have : (1000 : ℚ) < Double.limit := Double.lt_limit (by norm_num)
  linarith

/-- a path adds at least minus one -/
theorem atLeast_addPath {t : Tree} (h : t.Sound) {features : List Double}
    (hvalues : ∀ i ∈ t.estimatorFeatures, i < features.length) {depth : Double} {k : ℕ} (hk : k < 1000)
    (hdepth : depth.AtLeast (-k)) :
    ∃ next, addPath features depth t = .ok next ∧ next.AtLeast (-(k + 1 : ℕ)) := by
  obtain ⟨leaf, _, -, hleaf, -, hlt, -, -⟩ := h.walk hvalues
  have hd : leaf < t.decisionPathLengths.length := by rw [h.decision_length]; exact hlt
  have ha : leaf < t.averagePathLengths.length := by rw [h.average_length]; exact hlt
  have hdecision : t.decisionPathLengths[leaf].AtLeast 0 := by
    have hfinite := h.decision_finite _ (List.getElem_mem hd)
    have hpos := h.decision_pos _ (List.getElem_mem hd)
    cases hx : t.decisionPathLengths[leaf] with
    | nan => rw [hx] at hfinite; cases hfinite
    | inf s => rw [hx] at hfinite; cases hfinite
    | fin x =>
      rw [hx] at hpos
      simp only [Double.le, decide_eq_false_iff_not, not_le] at hpos
      exact hpos.le
  have haverage : t.averagePathLengths[leaf].AtLeast 0 := by
    have hnonneg := h.average_nonneg _ (List.getElem_mem ha)
    cases hx : t.averagePathLengths[leaf] with
    | nan => rw [hx] at hnonneg; cases hnonneg
    | inf s => rw [hx] at hnonneg; simpa [Double.le, Double.AtLeast] using hnonneg
    | fin x => rw [hx] at hnonneg; simpa [Double.le, Double.AtLeast] using hnonneg
  refine ⟨depth.add ((t.decisionPathLengths[leaf].add t.averagePathLengths[leaf]).sub (.fin 1)), ?_, ?_⟩
  · unfold addPath
    rw [hleaf, except_ok_bind, item_of_lt hd, except_ok_bind, item_of_lt ha, except_ok_bind]
    rfl
  · have hsum := hdecision.add haverage (by simp) (neg_limit_lt (by norm_num))
    have hminus : (Double.fin (-1)).AtLeast (-1) := le_refl (-1 : ℚ)
    have hone : nearest (0 + 0 + -1 : ℚ) = 0 + 0 + -1 := by
      rw [add_zero, zero_add, Binary64.nearest_neg, Binary64.nearest_one]
    have hpath := hsum.add hminus hone (neg_limit_lt (by norm_num))
    have hcast : -(k : ℚ) + (0 + 0 + -1) = -((k + 1 : ℕ) : ℚ) := by push_cast; ring
    have hsmall : ((k + 1 : ℕ) : ℚ) ≤ 1000 := by exact_mod_cast hk
    have := hdepth.add hpath (by rw [hcast]; exact nearest_neg_natCast (by omega))
      (neg_limit_lt (by rw [hcast]; linarith))
    rwa [hcast] at this

/-- a length that a depth can be divided by -/
def Usable (x : Double) : Prop := x.AtLeast (1 / 2) ∨ x = .inf true ∨ x = .nan

theorem toFloat_of_lt {n : ℤ} (hpos : 0 ≤ n) (h : n < 2 ^ 1024 - 2 ^ 970) : toFloat n = .ok (.fin (nearest n)) := by
  unfold toFloat
  rw [Double.ofInt_isSome hpos h]

/-- the average path length of one sample is nothing, that of more is a divisor -/
theorem averagePathLength_cases {n : ℤ} (hpos : 0 < n) (h : n < 2 ^ 1024 - 2 ^ 970) :
    ∃ x, averagePathLength m n = .ok x ∧ (x = .fin 0 ∨ Usable x) := by
  unfold averagePathLength
  by_cases hone : n ≤ 1
  · exact ⟨.fin 0, if_pos hone, Or.inl rfl⟩
  rw [if_neg hone]
  by_cases htwo : n = 2
  · refine ⟨.fin 1, if_pos htwo, Or.inr (Or.inl ?_)⟩
    show (1 / 2 : ℚ) ≤ 1
    norm_num
  rw [if_neg htwo, toFloat_of_lt hpos.le h, except_ok_bind]
  -- the samples and one less, as floats
  have hrange : |nearest n| < Double.limit := by
    by_contra hnot
    have hnone : Double.ofInt n = none := if_neg hnot
    rw [Double.ofInt_isSome hpos.le h] at hnone
    cases hnone
  have hcount : 3 ≤ nearest n := by
    have h3 : nearest ((3 : ℕ) : ℚ) = ((3 : ℕ) : ℚ) := Binary64.nearest_natCast (by norm_num)
    rw [Nat.cast_ofNat] at h3
    exact Binary64.le_nearest h3 (by exact_mod_cast (by omega : 3 ≤ n))
  have hself := Binary64.nearest_nearest (n : ℚ)
  generalize nearest (n : ℚ) = count at hrange hcount hself
  have hupper : nearest (count + -1) ≤ count := Binary64.nearest_le hself (by linarith)
  have hlower : 2 ≤ nearest (count + -1) := by
    have h2 : nearest ((2 : ℕ) : ℚ) = ((2 : ℕ) : ℚ) := Binary64.nearest_natCast (by norm_num)
    rw [Nat.cast_ofNat] at h2
    exact Binary64.le_nearest h2 (by linarith)
  have hless : (Double.fin count).sub (.fin 1) = .fin (nearest (count + -1)) := by
    refine if_pos ?_
    rw [abs_of_pos (by linarith)] at hrange ⊢
    exact hupper.trans_lt hrange
  have hlessSelf := Binary64.nearest_nearest (count + -1)
  rw [hless]
  generalize nearest (count + -1) = less at hupper hlower hlessSelf
  have hlog : log m (.fin less) = .ok (.fin (m.log less)) := if_pos (by linarith)
  rw [hlog, except_ok_bind]
  -- twice the logarithm and Euler's constant
  have hgamma : eulerGamma.AtLeast (9 / 16) := by
    refine Double.atLeast_ofRat ?_ (neg_limit_lt (by norm_num)) (by norm_num)
    exact Binary64.nearest_of_dyadic (z := 9) (e := -4) (by norm_num) (by norm_num) (by norm_num)
  have hlogged : (Double.fin (m.log less)).AtLeast (11 / 16) := m.le_log less hlower
  have hsum : ((Double.fin (m.log less)).add eulerGamma).AtLeast (5 / 4) := by
    have := hlogged.add hgamma
      (Binary64.nearest_of_dyadic (z := 5) (e := -2) (by norm_num) (by norm_num) (by norm_num))
      (neg_limit_lt (by norm_num))
    refine this.mono (by norm_num)
  have htwice : ((Double.fin 2).mul ((Double.fin (m.log less)).add eulerGamma)).AtLeast (5 / 2) := by
    have h2 : (Double.fin 2).AtLeast 2 := le_refl (2 : ℚ)
    refine (h2.mul hsum (by norm_num) (by norm_num) ?_).mono (by norm_num)
    exact Binary64.nearest_of_dyadic (z := 5) (e := -1) (by norm_num) (by norm_num) (by norm_num)
  -- the quotient is at most two, or infinite
  have hdouble : (Double.fin 2).mul (.fin less) = .fin (2 * less) ∨ (Double.fin 2).mul (.fin less) = .inf false := by
    have hmul : (Double.fin 2).mul (.fin less) = .ofRat (2 * less) := rfl
    rw [hmul, Double.ofRat, Binary64.nearest_double hlessSelf]
    split_ifs
    · exact Or.inl rfl
    · refine Or.inr ?_
      have hneg : ¬2 * less < 0 := by linarith
      simp [hneg]
  have hcountPos : count ≠ 0 := by linarith
  rcases hdouble with hfin | hinf
  · have hle : 2 * less / count ≤ 2 := by
      rw [div_le_iff₀ (by linarith)]
      linarith
    have hnonneg : 0 ≤ 2 * less / count := div_nonneg (by linarith) (by linarith)
    have h2 : nearest (2 : ℚ) = 2 := by
      have := Binary64.nearest_natCast (n := 2) (by norm_num)
      rwa [Nat.cast_ofNat] at this
    have hq0 := Binary64.nearest_nonneg hnonneg
    have hq2 := Binary64.nearest_le h2 hle
    have hdivide : divide (.fin (2 * less)) (.fin count) = .ok (.fin (nearest (2 * less / count))) := by
      have hround : Double.ofRat (2 * less / count) = .fin (nearest (2 * less / count)) := by
        refine if_pos ?_
        rw [abs_of_nonneg hq0]
        exact Double.lt_limit (hq2.trans (by norm_num))
      simp only [divide, Double.div, if_neg hcountPos, hround]
    rw [hfin, hdivide, except_ok_bind]
    refine ⟨_, rfl, Or.inr (Or.inl ?_)⟩
    have hminus : (Double.fin (-nearest (2 * less / count))).AtLeast (-2) := neg_le_neg hq2
    refine (htwice.add hminus ?_ (neg_limit_lt (by norm_num))).mono (by norm_num)
    exact Binary64.nearest_of_dyadic (z := 1) (e := -1) (by norm_num) (by norm_num) (by norm_num)
  · have hdivide : divide (.inf false) (.fin count) = .ok (.inf false) := by
      have hneg : ¬count < 0 := by linarith
      simp [divide, Double.div, hcountPos, hneg]
    rw [hinf, hdivide, except_ok_bind]
    refine ⟨_, rfl, Or.inr (Or.inr ?_)⟩
    cases (Double.fin 2).mul ((Double.fin (m.log less)).add eulerGamma) with
    | nan => exact Or.inr rfl
    | fin x => exact Or.inl rfl
    | inf s => cases s <;> simp [Double.sub, Double.neg, Double.add]

/-- a quotient that is not large, or not finite -/
def Small (x : Double) : Prop := ∀ y, x = .fin y → y ≤ 2

theorem divide_small {trees : ℕ} (hpos : 0 < trees) {depth denominator : Double}
    (hdepth : depth.AtLeast (-trees))
    (hden : denominator.AtLeast (trees / 2) ∨ denominator = .inf true ∨ denominator = .nan) :
    ∃ x, divide depth.neg denominator = .ok x ∧ Small x := by
  have htrees : (0 : ℚ) < trees := by exact_mod_cast hpos
  cases hd : denominator with
  | nan =>
    refine ⟨.nan, ?_, fun y hy => by cases hy⟩
    cases depth <;> rfl
  | inf s =>
    cases depth with
    | nan => exact hdepth.elim
    | inf t => exact ⟨.nan, rfl, fun y hy => by cases hy⟩
    | fin x =>
      refine ⟨.fin 0, rfl, fun y hy => ?_⟩
      cases hy
      norm_num
  | fin d =>
    rw [hd] at hden
    have hlow : (trees : ℚ) / 2 ≤ d := by
      rcases hden with h | h | h
      · exact h
      · cases h
      · cases h
    have hdpos : 0 < d := by linarith
    cases depth with
    | nan => exact hdepth.elim
    | inf t =>
      have ht : t = false := hdepth
      subst ht
      refine ⟨.inf true, ?_, fun y hy => by cases hy⟩
      simp [divide, Double.neg, Double.div, hdpos.ne', hdpos.le]
    | fin x =>
      have hx : -(trees : ℚ) ≤ x := hdepth
      refine ⟨Double.ofRat (-x / d), ?_, fun y hy => ?_⟩
      · simp [divide, Double.neg, Double.div, hdpos.ne']
      · have hle : -x / d ≤ 2 := by
          rw [div_le_iff₀ hdpos]
          linarith
        have h2 : nearest (2 : ℚ) = 2 := by
          have := Binary64.nearest_natCast (n := 2) (by norm_num)
          rwa [Nat.cast_ofNat] at this
        have hround := Binary64.nearest_le h2 hle
        unfold Double.ofRat at hy
        split_ifs at hy
        cases hy
        exact hround

theorem twoPow_of_small {x : Double} (h : Small x) : ∃ y, twoPow m x = .ok y := by
  unfold twoPow
  cases x with
  | nan => exact ⟨.nan, rfl⟩
  | inf s => exact ⟨_, rfl⟩
  | fin e =>
    have hlt : ¬(1024 : ℚ) ≤ e := by linarith [h e rfl]
    refine ⟨.fin (m.exp2 e), ?_⟩
    simp [Double.twoPow, hlt]

/-- the depth of a vector, over the trees -/
theorem foldlM_addPath {features : List Double} {trees : List Tree} (h : ∀ t ∈ trees, t.Sound)
    (hvalues : ∀ t ∈ trees, ∀ i ∈ t.estimatorFeatures, i < features.length) {depth : Double} {k : ℕ}
    (hk : k + trees.length ≤ 1000) (hdepth : depth.AtLeast (-k)) :
    ∃ total, trees.foldlM (addPath features) depth = .ok total ∧ total.AtLeast (-(k + trees.length : ℕ)) := by
  induction trees generalizing depth k with
  | nil => exact ⟨depth, rfl, hdepth⟩
  | cons t trees ih =>
    rw [List.length_cons] at hk
    obtain ⟨next, hnext, hbound⟩ := atLeast_addPath (h t List.mem_cons_self) (hvalues t List.mem_cons_self)
      (by omega) hdepth
    obtain ⟨total, htotal, hfinal⟩ := ih (fun u hu => h u (List.mem_cons_of_mem t hu))
      (fun u hu => hvalues u (List.mem_cons_of_mem t hu)) (k := k + 1) (by omega) hbound
    refine ⟨total, ?_, ?_⟩
    · rw [List.foldlM_cons, hnext, except_ok_bind, htotal]
    · rw [List.length_cons]
      have hcast : k + 1 + trees.length = k + (trees.length + 1) := by omega
      rwa [hcast] at hfinal

theorem facts_of_accepted [Sha256] [FloatText Double] {f : Forest} (h : f.validate = .ok ()) :
    (∀ t ∈ f.trees, t.Sound) ∧ 0 < f.maxSamples ∧ 0 < f.trees.length ∧ f.trees.length ≤ 512 ∧
      ∀ t ∈ f.trees, t.estimatorFeatures = (List.range f.featureCount.toNat).map Int.ofNat := by
  rw [validate, except_bind_eq_ok] at h
  obtain ⟨_, hfields, hforest⟩ := h
  unfold fields at hfields
  rw [except_bind_eq_ok] at hfields
  obtain ⟨_, htrees, hfields⟩ := hfields
  unfold forestIsContentAddressed at hforest
  simp only [except_bind_eq_ok, check_eq_ok, decide_eq_true_eq, List.all_eq_true, exists_and_left, exists_const]
    at hfields hforest
  obtain ⟨-, hsamples, hpos, hmax, -⟩ := hfields
  obtain ⟨-, -, -, -, -, hfeatures, -⟩ := hforest
  exact ⟨fun t ht => Tree.sound_of_accepted (forM_mem htrees ht), hsamples, hpos, hmax, hfeatures⟩

/-- **A score of an accepted forest is a float**, for every vector of finite values of its length. -/
theorem rawScore_of_accepted [Sha256] [FloatText Double] {f : Forest} (h : f.validate = .ok ())
    (hsamples : f.maxSamples < 2 ^ 1024 - 2 ^ 970) {features : List Double}
    (hlength : (features.length : ℤ) = f.featureCount) (hfinite : ∀ x ∈ features, x.isFinite = true) :
    ∃ score, f.rawScore m features = .ok score := by
  obtain ⟨hsound, hpos, hsome, hmax, hestimator⟩ := facts_of_accepted h
  have hvalues : ∀ t ∈ f.trees, ∀ i ∈ t.estimatorFeatures, i < features.length := by
    intro t ht i hi
    rw [hestimator t ht, List.mem_map] at hi
    obtain ⟨j, hj, rfl⟩ := hi
    rw [List.mem_range] at hj
    show (j : ℤ) < features.length
    omega
  have hcheck : check ((features.length : ℤ) = f.featureCount && features.all Double.isFinite)
      (value "novelty replay feature vector is invalid") = .ok () := by
    rw [check_eq_ok, Bool.and_eq_true, decide_eq_true_eq, List.all_eq_true]
    exact ⟨hlength, hfinite⟩
  have hzero : (Double.fin 0).AtLeast (-(0 : ℕ)) := by simp [Double.AtLeast]
  obtain ⟨depth, hdepth, hlow⟩ := foldlM_addPath hsound hvalues (by omega) hzero
  rw [Nat.zero_add] at hlow
  obtain ⟨average, haverage, hcases⟩ := averagePathLength_cases m hpos hsamples
  have hcount : nearest ((f.trees.length : ℤ) : ℚ) = f.trees.length := by
    rw [Int.cast_natCast]
    exact Binary64.nearest_natCast (by omega)
  have hbig : (f.trees.length : ℤ) < 2 ^ 1024 - 2 ^ 970 := Double.lt_overflow (by omega)
  have htrees : toFloat f.trees.length = .ok (.fin f.trees.length) := by
    rw [toFloat_of_lt (by omega) hbig, hcount]
  unfold rawScore
  rw [hcheck, except_ok_bind, hdepth, except_ok_bind, haverage, except_ok_bind, htrees, except_ok_bind]
  by_cases hzero : (Double.fin f.trees.length).mul average = .fin 0
  · rw [if_pos hzero]
    exact ⟨_, rfl⟩
  rw [if_neg hzero]
  have hpositive : (0 : ℚ) < f.trees.length := by exact_mod_cast hsome
  -- the denominator is a divisor, since the average length is not nothing
  have hden : ((Double.fin f.trees.length).mul average).AtLeast (f.trees.length / 2) ∨
      (Double.fin f.trees.length).mul average = .inf true ∨ (Double.fin f.trees.length).mul average = .nan := by
    rcases hcases with hnone | huse | hinf | hnan
    · refine absurd ?_ hzero
      rw [hnone]
      simp [Double.mul, Double.ofRat, Double.lt_limit]
    · left
      have hself : (Double.fin f.trees.length).AtLeast f.trees.length := le_refl (f.trees.length : ℚ)
      have hhalf : nearest ((f.trees.length : ℚ) * (1 / 2)) = f.trees.length * (1 / 2) := by
        refine Binary64.nearest_of_dyadic (z := f.trees.length) (e := -1) (by norm_num) ?_ (by norm_num)
        rw [abs_of_nonneg (by omega)]
        omega
      refine (hself.mul huse hpositive (by norm_num) hhalf).mono (le_of_eq ?_)
      ring
    · right
      left
      rw [hinf]
      simp [Double.mul, hpositive.ne', hpositive.le]
    · right
      right
      rw [hnan]
      rfl
  obtain ⟨quotient, hquotient, hsmall⟩ := divide_small hsome hlow hden
  obtain ⟨anomaly, hanomaly⟩ := twoPow_of_small m hsmall
  rw [hquotient, except_ok_bind, hanomaly]
  exact ⟨_, rfl⟩

end Forest

/-! ## The result -/

/-- **Isolation trees are safely traversed.** In an accepted tree every vector with an entry for each estimator feature
descends to a leaf, in fewer moves than the tree has nodes; every node but the root has one parent and is reached from
the root; and an accepted forest, of a sample count that is a float, scores every vector of its length. -/
theorem trees_traversable [Sha256] [FloatText Double] (m : Libm) :
    (∀ (t : Tree) (values : List Double), t.arraysFormOneBoundedTree = .ok () →
      (∀ x ∈ values, x.isFinite = true) → (∀ i ∈ t.estimatorFeatures, i < values.length) →
        ∃ leaf moves, t.walk values = .ok (leaf, moves) ∧ t.leafIndex values = .ok leaf ∧ moves < t.size ∧
          t.childrenLeft[leaf]? = some (-1)) ∧
    (∀ t : Tree, t.arraysFormOneBoundedTree = .ok () → ∀ c, c ≠ 0 → c < t.size →
      (∃! i, t.IsChild i c) ∧ Relation.ReflTransGen t.IsChild 0 c) ∧
    ∀ (f : Forest) (features : List Double), f.validate = .ok () → f.maxSamples < 2 ^ 1024 - 2 ^ 970 →
      (features.length : ℤ) = f.featureCount → (∀ x ∈ features, x.isFinite = true) →
        ∃ score, f.rawScore m features = .ok score := by
  refine ⟨?_, ?_, ?_⟩
  · intro t values ht _ hvalues
    obtain ⟨leaf, moves, hwalk, hleaf, hmoves, -, hend, -⟩ := (Tree.sound_of_accepted ht).walk hvalues
    exact ⟨leaf, moves, hwalk, hleaf, hmoves, hend⟩
  · intro t ht c hc hlt
    have h := Tree.sound_of_accepted ht
    have hstep : Rooted.Step t.size t.children = t.IsChild := by
      funext i j
      exact propext h.step_iff
    rw [← hstep]
    exact ⟨h.rooted.existsUnique_parent hc hlt, h.rooted.reachable c hlt⟩
  · intro f features hf hsamples hlength hfinite
    exact f.rawScore_of_accepted m hf hsamples hlength hfinite

namespace Sample

/-- exact where the sample calls it -/
def libm : Libm where
  log _ := 6931471805599453 / 10 ^ 16
  exp2 x := 2 ^ ⌊x⌋
  le_log := fun _ _ => by norm_num

/-- floats that are whole numbers -/
@[reducible] def floatText : FloatText Double where
  isFinite := Double.isFinite
  repr x :=
    match x with
    | .fin q => Decimal.intText q.num ++ ['.', '0']
    | _ => []

/-- one text for everything -/
@[reducible] def sha : Sha256 where
  hexdigest _ := String.ofList (List.replicate 64 'a')
  hexdigestBytes _ := String.ofList (List.replicate 64 'a')

/-- a split on one feature, and its two leaves -/
def stump (feature : ℤ) : Tree where
  childrenLeft := [1, -1, -1]
  childrenRight := [2, -1, -1]
  feature := [0, -2, -2]
  threshold := [.fin 3, .fin (-2), .fin (-2)]
  decisionPathLengths := [.fin 1, .fin 2, .fin 2]
  averagePathLengths := [.fin 0, .fin 0, .fin 0]
  estimatorFeatures := [feature]

def forest : Forest where
  featureCount := 1
  maxSamples := 2
  offset := .fin (-1)
  trees := [stump 0]
  artifactSha256 := String.ofList (List.replicate 64 'a')

theorem forest_accepted : @Forest.validate sha floatText forest = .ok () := by
  decide +kernel

end Sample

/-- the stump, and the forest of it -/
theorem trees_traversable_stump :
    (∃ leaf moves, (Sample.stump 0).walk [.fin 5] = .ok (leaf, moves) ∧
      (Sample.stump 0).leafIndex [.fin 5] = .ok leaf ∧ moves < (Sample.stump 0).size ∧
      (Sample.stump 0).childrenLeft[leaf]? = some (-1)) ∧
    ((∃! i, (Sample.stump 0).IsChild i 2) ∧ Relation.ReflTransGen (Sample.stump 0).IsChild 0 2) ∧
    ∃ score, Sample.forest.rawScore Sample.libm [.fin 5] = .ok score :=
  letI := Sample.sha
  letI := Sample.floatText
  have h := trees_traversable Sample.libm
  ⟨h.1 _ _ (by decide +kernel) (by decide) (by decide), h.2.1 _ (by decide +kernel) 2 (by decide) (by decide),
    h.2.2 _ _ Sample.forest_accepted (Double.lt_overflow (by decide)) rfl (by decide)⟩

/-- **An estimator feature beyond the vector.** The validator asks only that the indices of the estimator features are
not negative, so that a vector of as many entries may have none at an index, and the descent raises. -/
theorem stump_reads_beyond :
    (Sample.stump 5).arraysFormOneBoundedTree = .ok () ∧
      (Sample.stump 5).estimatorFeatures.length ≤ [Double.fin 1].length ∧
      (Sample.stump 5).leafIndex [.fin 1] = .error (.value "isolation tree source feature is invalid") := by
  refine ⟨?_, ?_, ?_⟩ <;> decide +kernel

end Isolation

end Apar
