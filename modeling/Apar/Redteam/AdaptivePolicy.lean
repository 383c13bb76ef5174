/-
The adaptive policy (`redteam/policies.py`, `AdaptiveTournamentPolicy`): the next candidate of a visible history.

The first candidate is the defaults. Once the defaults have been tried their boundary frontier comes first; after it, a
tournament of up to three trials selects a parent, and among the parent's mutations, untried ones before tried ones and
one-field ones before others, a score selects the next vector, ties drawn at random.

The random generator is a parameter with the contract of the two calls made of it, and so is the arithmetic of the scores.
What the inner comprehensions could raise is `ProposalError`.

- `propose_made`: over feasible trials the policy comes to a feasible vector and a trial to be its parent.
- `propose_legal`: a history of at most 1000 trials is continued by a valid candidate, which repeats a vector only when
  there is nothing else to try.
- `propose_long`: a longer history is not continued, since generations end at 1000.
-/
import Apar.Core.DecimalProducts
import Apar.Core.Floats
import Apar.Redteam.BoundaryFrontier

namespace Apar

open Exec

namespace Redteam

/-! ## Parameters -/

/-- the calls made of `numpy.random.Generator`, each with the state it leaves -/
structure Draws (G : Type) where
  /-- `choice(n, size=k, replace=False)` -/
  choice : (n k : ℕ) → k ≤ n → G → {indices : List (Fin n) // indices.length = k ∧ indices.Nodup} × G
  /-- `integers(0, n)` -/
  integers : (n : ℕ) → 0 < n → G → Fin n × G

/-- the arithmetic of the scores, on floats that are numbers -/
class ScoreMath (F : Type) extends PyFloat F where
  /-- `math.log(x)` -/
  log : F → F
  /-- `a == b` -/
  same : F → F → Bool
  same_self : ∀ x, same x x = true

/-- what `propose` raises -/
inductive ProposalError where
  | policy (e : PolicyError)
  /-- `next` of an index that is not there -/
  | stopIteration
  /-- `min`, `max` or a draw of nothing -/
  | empty
  | divisionByZero
deriving DecidableEq

/-- what the contracts raise goes through -/
def policy {α : Type} (x : Except PolicyError α) : Except ProposalError α :=
  match x with
  | .ok a => .ok a
  | .error e => .error (.policy e)

/-- the fields that change, each with its steps in the domain or the digest of its new category -/
abbrev Direction := List (PyStr × (ℤ ⊕ PyStr))

/-- a score: its value, its novelty and the fingerprint it is for -/
structure Score (F : Type) where
  value : F
  novelty : ℕ
  fingerprint : PyStr

namespace Score

variable {F : Type} [ScoreMath F]

/-- `a == b` -/
def same (a b : Score F) : Bool := ScoreMath.same a.value b.value && a.novelty = b.novelty && a.fingerprint = b.fingerprint

/-- `a < b` -/
def lt (a b : Score F) : Bool :=
  if ScoreMath.same a.value b.value then toLex (a.novelty, a.fingerprint) < toLex (b.novelty, b.fingerprint)
  else PyFloat.lt a.value b.value

theorem same_self (a : Score F) : a.same a = true := by
  simp [same, ScoreMath.same_self]

end Score

/-- the index of a value of a domain -/
def indexOf (values : List AdaptiveValue) (value : AdaptiveValue) : Except ProposalError ℤ :=
  match values.findIdx? fun item => AdaptiveValue.sameValue item value with
  | none => .error .stopIteration
  | some index => .ok index

theorem indexOf_ok {values : List AdaptiveValue} {value : AdaptiveValue} (h : value ∈ values) :
    ∃ index, indexOf values value = .ok index := by
  cases hfind : values.findIdx? fun item => AdaptiveValue.sameValue item value with
  | none =>
    have hnone := List.findIdx?_eq_none_iff.1 hfind value h
    simp [AdaptiveValue.sameValue] at hnone
  | some index => exact ⟨index, by rw [indexOf, hfind]⟩

section

variable [Sha256]

/-- `_direction` -/
def direction (source destination : AdaptiveVector) (b : ParameterBounds) : Except ProposalError Direction :=
  b.domains.foldlM (fun changes domain => do
    let old ← policy (source.get domain.name)
    let new ← policy (destination.get domain.name)
    if AdaptiveValue.sameValue old new then pure changes
    else do
      let oldIndex ← indexOf domain.values old
      let newIndex ← indexOf domain.values new
      let change := if domain.kind ≠ .categorical then .inl (newIndex - oldIndex) else .inr (digest new.taggedValue)
      pure (changes ++ [(domain.name, change)])) []

abbrev Observations := Dict (PyStr × Direction) (List Decimal)

/-- one trial, under its direction from its parent -/
def observe (byId : Dict PyStr VisibleTrial) (b : ParameterBounds) (observations : Observations) (trial : VisibleTrial) :
    Except ProposalError Observations :=
  match trial.candidate.parentId.bind byId.get? with
  | none => .ok observations
  | some parent => do
    let changes ← direction parent.candidate.params trial.candidate.params b
    let key := (parent.feedback.reasonFamily, changes)
    let gain := Decimal.sub .default trial.objectiveValue.toDecimal parent.objectiveValue.toDecimal
    pure (observations.set key (observations.getD key [] ++ [gain]))

/-- `_direction_statistics` -/
def directionStatistics (history : List VisibleTrial) (b : ParameterBounds) :
    Except ProposalError (Dict (PyStr × Direction) (ℕ × Decimal)) := do
  let byId := Dict.ofList (history.map fun trial => (trial.candidate.candidateId, trial))
  let observations ← history.foldlM (observe byId b) ∅
  pure (Dict.ofList (observations.items.map fun p => (p.1, p.2.length, Decimal.sum .default p.2)))

section

variable {F : Type} [ScoreMath F]

/-- the mean gain of a direction and the bonus for exploring it -/
def gainAndBonus (count : ℕ) (total : Decimal) (observationCount : ℕ) : Except ProposalError F :=
  let log := ScoreMath.log (PyFloat.ofInt (observationCount + 2 : ℕ) : F)
  if count ≠ 0 then
    match Decimal.div 28 total ⟨count, 0⟩ with
    | none => .error .divisionByZero
    | some mean => .ok (PyFloat.ofDecimal mean + PyFloat.sqrt (log / PyFloat.ofInt count))
  else .ok (PyFloat.ofInt 0 + (PyFloat.sqrt log + PyFloat.ofInt 1))

/-- `_ucb_score` -/
def ucbScore (vector : AdaptiveVector) (parent : VisibleTrial) (b : ParameterBounds)
    (statistics : Dict (PyStr × Direction) (ℕ × Decimal)) (seen : List PyStr) (observationCount : ℕ) :
    Except ProposalError (Score F) := do
  let changes ← direction parent.candidate.params vector b
  let (count, total) := statistics.getD (parent.feedback.reasonFamily, changes) (0, 0)
  let gain ← gainAndBonus count total observationCount
  let novelty : ℕ := if vector.fingerprint ∉ seen then 1 else 0
  pure ⟨gain + PyFloat.ofInt novelty, novelty, vector.fingerprint⟩

end

/-! ## The tournament -/

/-- `normalize_internal_history` -/
def normalizeInternalHistory (value : List VisibleTrial) : Except PolicyError (List VisibleTrial) := do
  let ordered := sortBy (fun item : VisibleTrial => item.candidate.generation) value
  check (ordered.map (fun item => item.candidate.generation) = (List.range ordered.length).map Int.ofNat)
    (candidateError "visible history generations must be contiguous")
  checkLineage 0 [] ordered
  pure ordered

/-- `trial` comes before `best` as the parent: the greater objective, or the lesser identifier -/
def precedes (best trial : VisibleTrial) : Bool :=
  let key (t : VisibleTrial) : Decimal := Decimal.fix .default t.objectiveValue.toDecimal.neg
  if Decimal.numEq (key best) (key trial) then trial.candidate.candidateId < best.candidate.candidateId
  else Decimal.ble (key trial) (key best)

/-- the trials that were evaluated, by identifier -/
def eligibleTrials (visible : List VisibleTrial) : List VisibleTrial :=
  sortBy (fun trial : VisibleTrial => trial.candidate.candidateId) (visible.filter fun trial =>
    trial.feedback.reasonFamily ∉ ["evaluation_failure", "invalid_candidate"].map PyStr.ofString)

variable {G F : Type} [ScoreMath F]

/-- the parent: the best of up to three eligible trials, or the last trial when none is eligible -/
def selectParent (draws : Draws G) (visible : List VisibleTrial) (last : VisibleTrial) (g : G) :
    Except ProposalError (VisibleTrial × G) :=
  let eligible := eligibleTrials visible
  if eligible = [] then .ok (last, g)
  else
    let (indices, g) := draws.choice eligible.length (min 3 eligible.length) (Nat.min_le_right _ _) g
    match Selection.maxBy precedes (indices.1.map eligible.get) with
    | none => .error .empty
    | some parent => .ok (parent, g)

/-- the untried vectors, or all of them; of these the ones that change one field, or all of them -/
def preferred (seen : List PyStr) (b : ParameterBounds) (parent : VisibleTrial) (alternatives : List AdaptiveVector) :
    Except PolicyError (List AdaptiveVector) := do
  let unseen := alternatives.filter fun vector => vector.fingerprint ∉ seen
  let choices := if unseen ≠ [] then unseen else alternatives
  let oneField ← Selection.keepM (fun vector => do
    let changed ← b.changedFieldCount parent.candidate.params vector
    pure (decide (changed = 1))) choices
  pure (if oneField ≠ [] then oneField else choices)

/-- a vector of the best score -/
def drawBest (draws : Draws G) (scored : List (Score F × AdaptiveVector)) (g : G) :
    Except ProposalError (AdaptiveVector × G) :=
  match Selection.maxBy Score.lt (scored.map Prod.fst) with
  | none => .error .empty
  | some bestScore =>
    let best := (scored.filter fun p => p.1.same bestScore).map Prod.snd
    if h : 0 < best.length then
      let (index, g) := draws.integers best.length h g
      .ok (best.get index, g)
    else .error .empty

/-- the vector proposed under a parent -/
def selectVector (F : Type) [ScoreMath F] (draws : Draws G) (visible : List VisibleTrial) (b : ParameterBounds)
    (parent : VisibleTrial) (g : G) : Except ProposalError (AdaptiveVector × G) := do
  let alternatives ← policy (b.mutations parent.candidate.params)
  if alternatives = [] then pure (parent.candidate.params, g)
  else do
    let seen := triedFingerprints visible
    let choices ← policy (preferred seen b parent alternatives)
    let statistics ← directionStatistics visible b
    let scored ← choices.mapM fun vector => do
      let score : Score F ← ucbScore vector parent b statistics seen visible.length
      pure (score, vector)
    drawBest draws scored g

/-- `propose`, with the state of the generator -/
def propose (F : Type) [ScoreMath F] (draws : Draws G) (history : List VisibleTrial) (b : ParameterBounds) (g : G) :
    Except ProposalError (AttackCandidate × G) := do
  let visible ← policy (normalizeInternalHistory history)
  match visible.getLast? with
  | none => do
    let candidate ← policy (AttackCandidate.make b.defaults none 0)
    pure (candidate, g)
  | some last => do
    let defaultParent := visible.find? fun trial => trial.candidate.params.fingerprint = b.defaults.fingerprint
    let boundaryFrontier ← policy (defaultBoundaryFrontier visible b)
    match defaultParent, boundaryFrontier with
    | some parent, vector :: _ => do
      let candidate ← policy (AttackCandidate.make vector (some parent.candidate.candidateId) visible.length)
      pure (candidate, g)
    | _, _ => do
      let (parent, g) ← selectParent draws visible last g
      let (vector, g) ← selectVector F draws visible b parent g
      let candidate ← policy (AttackCandidate.make vector (some parent.candidate.candidateId) visible.length)
      pure (candidate, g)

/-! ## Nothing raises on feasible vectors -/

section

variable {b : ParameterBounds}

theorem direction_ok (hb : b.Built) {source destination : AdaptiveVector} (hsource : source ∈ b.feasibleVectors)
    (hdestination : destination ∈ b.feasibleVectors) : ∃ changes, direction source destination b = .ok changes := by
  refine foldlM_exists_ok (fun changes domain hdomain => ?_) []
  obtain ⟨old, hold, hget⟩ := hb.closed.allowed source hsource domain hdomain
  obtain ⟨new, hnew, hget'⟩ := hb.closed.allowed destination hdestination domain hdomain
  obtain ⟨oldIndex, holdIndex⟩ := indexOf_ok hold
  obtain ⟨newIndex, hnewIndex⟩ := indexOf_ok hnew
  rw [AdaptiveVector.get_eq_ok.2 hget, AdaptiveVector.get_eq_ok.2 hget', policy, policy, except_ok_bind, except_ok_bind]
  by_cases hsame : AdaptiveValue.sameValue old new = true
  · exact ⟨changes, by rw [if_pos hsame]; rfl⟩
  · rw [if_neg hsame, holdIndex, hnewIndex, except_ok_bind, except_ok_bind]
    exact ⟨_, rfl⟩

variable {visible : List VisibleTrial} {parent t : VisibleTrial} {vector : AdaptiveVector}

theorem directionStatistics_ok (hb : b.Built) (hfeasible : ∀ t ∈ visible, t.candidate.params ∈ b.feasibleVectors) :
    ∃ statistics, directionStatistics visible b = .ok statistics := by
  have hobserve : ∀ observations, ∀ trial ∈ visible, ∃ next,
      observe (Dict.ofList (visible.map fun trial => (trial.candidate.candidateId, trial))) b observations trial =
        .ok next := by
    intro observations trial htrial
    unfold observe
    cases hparent : trial.candidate.parentId.bind
        (Dict.ofList (visible.map fun trial => (trial.candidate.candidateId, trial))).get? with
    | none => exact ⟨observations, rfl⟩
    | some parent =>
      obtain ⟨id, -, hget⟩ := Option.bind_eq_some_iff.1 hparent
      obtain ⟨t, ht, heq⟩ := List.mem_map.1 (Dict.mem_of_get?_ofList hget)
      rw [Prod.mk.injEq] at heq
      obtain ⟨changes, hchanges⟩ := direction_ok hb (heq.2 ▸ hfeasible t ht) (hfeasible trial htrial)
      dsimp only
      rw [hchanges, except_ok_bind]
      exact ⟨_, rfl⟩
  obtain ⟨observations, hobservations⟩ := foldlM_exists_ok hobserve ∅
  rw [directionStatistics, hobservations, except_ok_bind]
  exact ⟨_, rfl⟩

omit [Sha256] in
theorem gainAndBonus_ok (count : ℕ) (total : Decimal) (observationCount : ℕ) :
    ∃ gain : F, gainAndBonus count total observationCount = .ok gain := by
  unfold gainAndBonus
  by_cases hcount : count ≠ 0
  · rw [if_pos hcount]
    have hdiv : ∃ mean, Decimal.div 28 total ⟨count, 0⟩ = some mean := by
      unfold Decimal.div
      rw [if_neg (Int.natCast_ne_zero.2 hcount)]
      dsimp only
      split_ifs <;> exact ⟨_, rfl⟩
    obtain ⟨mean, hmean⟩ := hdiv
    rw [hmean]
    exact ⟨_, rfl⟩
  · rw [if_neg hcount]
    exact ⟨_, rfl⟩

theorem ucbScore_ok (hb : b.Built) (hvector : vector ∈ b.feasibleVectors)
    (hparent : parent.candidate.params ∈ b.feasibleVectors) (statistics : Dict (PyStr × Direction) (ℕ × Decimal))
    (seen : List PyStr) (observationCount : ℕ) :
    ∃ score : Score F, ucbScore vector parent b statistics seen observationCount = .ok score := by
  obtain ⟨changes, hchanges⟩ := direction_ok hb hparent hvector
  rw [ucbScore, hchanges, except_ok_bind]
  obtain ⟨gain, hgain⟩ := gainAndBonus_ok (F := F) (statistics.getD (parent.feedback.reasonFamily, changes) (0, 0)).1
    (statistics.getD (parent.feedback.reasonFamily, changes) (0, 0)).2 observationCount
  dsimp only
  rw [hgain, except_ok_bind]
  exact ⟨_, rfl⟩

/-- the parent is a trial of the history -/
theorem selectParent_ok (draws : Draws G) {last : VisibleTrial} (hlast : last ∈ visible) (g : G) :
    ∃ parent g', selectParent draws visible last g = .ok (parent, g') ∧ parent ∈ visible := by
  unfold selectParent
  by_cases heligible : eligibleTrials visible = []
  · exact ⟨last, g, if_pos heligible, hlast⟩
  · rw [if_neg heligible]
    obtain ⟨⟨indices, hlength, hnodup⟩, g'⟩ := draws.choice (eligibleTrials visible).length
      (min 3 (eligibleTrials visible).length) (Nat.min_le_right _ _) g
    dsimp only
    have hnonempty : indices.map (eligibleTrials visible).get ≠ [] := by
      intro hnil
      rw [List.map_eq_nil_iff] at hnil
      rw [hnil, List.length_nil] at hlength
      have := List.length_pos_iff.2 heligible
      omega
    obtain ⟨parent, hparent⟩ := @Selection.maxBy_isSome _ precedes _ hnonempty
    rw [hparent]
    refine ⟨parent, g', rfl, ?_⟩
    obtain ⟨index, -, rfl⟩ := List.mem_map.1 (Selection.maxBy_mem hparent)
    exact List.mem_of_mem_filter (mem_sortBy.1 (List.get_mem _ _))

/-- some of the alternatives are preferred, and tried ones only when all are tried -/
theorem preferred_ok (hb : b.Built) (hparent : parent.candidate.params ∈ b.feasibleVectors)
    {alternatives : List AdaptiveVector} (hfeasible : ∀ v ∈ alternatives, v ∈ b.feasibleVectors)
    (hne : alternatives ≠ []) (seen : List PyStr) :
    ∃ choices, preferred seen b parent alternatives = .ok choices ∧ choices ≠ [] ∧
      (∀ v ∈ choices, v ∈ alternatives ∧ (v.fingerprint ∈ seen → ∀ w ∈ alternatives, w.fingerprint ∈ seen)) := by
  obtain ⟨unseen, hunseen⟩ : ∃ unseen, unseen = alternatives.filter fun vector => vector.fingerprint ∉ seen := ⟨_, rfl⟩
  obtain ⟨choices, hchoices⟩ : ∃ choices, choices = if unseen ≠ [] then unseen else alternatives := ⟨_, rfl⟩
  have hkept : choices ≠ [] ∧
      ∀ v ∈ choices, v ∈ alternatives ∧ (v.fingerprint ∈ seen → ∀ w ∈ alternatives, w.fingerprint ∈ seen) := by
    by_cases hempty : unseen = []
    · rw [hchoices, if_neg (not_not.2 hempty)]
      refine ⟨hne, fun v hv => ⟨hv, fun _ w hw => ?_⟩⟩
      rw [hunseen, List.filter_eq_nil_iff] at hempty
      simpa using hempty w hw
    · rw [hchoices, if_pos hempty]
      refine ⟨hempty, fun v hv => ?_⟩
      rw [hunseen, List.mem_filter, decide_eq_true_eq] at hv
      exact ⟨hv.1, fun hseen => absurd hseen hv.2⟩
  have honeField : Selection.keepM (fun vector => do
      let changed ← b.changedFieldCount parent.candidate.params vector
      pure (decide (changed = 1))) choices =
      .ok (choices.filter fun v => (b.differing parent.candidate.params v).length = 1) := by
    refine Selection.keepM_eq fun v hv => ?_
    have hv' := hfeasible v (hkept.2 v hv).1
    rw [ParameterBounds.changedFieldCount_eq (hb.validateVector hparent) (hb.validateVector hv')]
    rfl
  have hmade : preferred seen b parent alternatives =
      .ok (if choices.filter (fun v => (b.differing parent.candidate.params v).length = 1) ≠ [] then
        choices.filter fun v => (b.differing parent.candidate.params v).length = 1 else choices) := by
    rw [preferred, ← hunseen, ← hchoices, honeField, except_ok_bind]
    rfl
  by_cases hone : choices.filter (fun v => (b.differing parent.candidate.params v).length = 1) = []
  · exact ⟨choices, by rw [hmade, if_neg (not_not.2 hone)], hkept⟩
  · refine ⟨_, by rw [hmade, if_pos hone], hone, fun v hv => hkept.2 v (List.mem_of_mem_filter hv)⟩

omit [Sha256] in
/-- a draw among the vectors of the best score -/
theorem drawBest_ok (draws : Draws G) {scored : List (Score F × AdaptiveVector)} (hne : scored ≠ []) (g : G) :
    ∃ vector g', drawBest draws scored g = .ok (vector, g') ∧ vector ∈ scored.map Prod.snd := by
  obtain ⟨bestScore, hbest⟩ := @Selection.maxBy_isSome _ Score.lt (scored.map Prod.fst)
    fun h => hne (List.map_eq_nil_iff.1 h)
  have hpos : 0 < ((scored.filter fun p => p.1.same bestScore).map Prod.snd).length := by
    obtain ⟨p, hp, heq⟩ := List.mem_map.1 (Selection.maxBy_mem hbest)
    refine List.length_pos_of_mem (List.mem_map_of_mem (List.mem_filter.2 ⟨hp, ?_⟩))
    rw [heq]
    exact bestScore.same_self
  unfold drawBest
  rw [hbest]
  dsimp only
  rw [dif_pos hpos]
  refine ⟨_, _, rfl, ?_⟩
  obtain ⟨p, hp, heq⟩ := List.mem_map.1 (List.get_mem ((scored.filter fun p => p.1.same bestScore).map Prod.snd)
    (draws.integers _ hpos g).1)
  rw [← heq]
  exact List.mem_map_of_mem (List.mem_of_mem_filter hp)

/-- a vector of the bounds is selected; a tried one only when every mutation of the parent has been tried -/
theorem selectVector_ok (hb : b.Built) (draws : Draws G)
    (hfeasible : ∀ t ∈ visible, t.candidate.params ∈ b.feasibleVectors) (hparent : parent ∈ visible) (g : G) :
    ∃ vector g', selectVector F draws visible b parent g = .ok (vector, g') ∧ vector ∈ b.feasibleVectors ∧
      (vector.fingerprint ∈ triedFingerprints visible → ∀ v ∈ b.feasibleVectors,
        1 ≤ (b.differing parent.candidate.params v).length → (b.differing parent.candidate.params v).length ≤ 3 →
          v.fingerprint ∈ triedFingerprints visible) := by
  obtain ⟨alternatives, halternatives⟩ : ∃ alternatives, alternatives = b.feasibleVectors.filter fun v =>
    1 ≤ (b.differing parent.candidate.params v).length ∧ (b.differing parent.candidate.params v).length ≤ 3 := ⟨_, rfl⟩
  have hmem : ∀ v, v ∈ alternatives ↔ v ∈ b.feasibleVectors ∧ 1 ≤ (b.differing parent.candidate.params v).length ∧
      (b.differing parent.candidate.params v).length ≤ 3 := by
    intro v
    rw [halternatives, List.mem_filter, decide_eq_true_eq]
  have hmutations := ParameterBounds.mutations_eq hb (hb.validateVector (hfeasible parent hparent))
  rw [← halternatives] at hmutations
  rw [selectVector, hmutations, policy, except_ok_bind]
  by_cases hempty : alternatives = []
  · rw [if_pos hempty]
    refine ⟨_, g, rfl, hfeasible parent hparent, fun _ v hv hlow hhigh => ?_⟩
    have hnone : v ∈ alternatives := (hmem v).2 ⟨hv, hlow, hhigh⟩
    rw [hempty] at hnone
    exact absurd hnone List.not_mem_nil
  · rw [if_neg hempty]
    obtain ⟨choices, hchoices, hne, hpreferred⟩ := preferred_ok hb (hfeasible parent hparent)
      (fun v hv => ((hmem v).1 hv).1) hempty (triedFingerprints visible)
    obtain ⟨statistics, hstatistics⟩ := directionStatistics_ok hb hfeasible
    have hscores : ∀ vector ∈ choices, ∃ p : Score F × AdaptiveVector, (do
        let score : Score F ← ucbScore vector parent b statistics (triedFingerprints visible) visible.length
        pure (score, vector)) = .ok p ∧ p.2 = vector := by
      intro vector hvector
      obtain ⟨score, hscore⟩ := ucbScore_ok (F := F) hb ((hmem vector).1 (hpreferred vector hvector).1).1
        (hfeasible parent hparent) statistics (triedFingerprints visible) visible.length
      exact ⟨(score, vector), by rw [hscore, except_ok_bind]; rfl, rfl⟩
    obtain ⟨scored, hscored, hvectors⟩ := mapM_exists_ok hscores
    have hsnd : scored.map Prod.snd = choices := by
      have hsame : List.Forall₂ (fun vector (p : Score F × AdaptiveVector) => vector = p.2) choices scored :=
        hvectors.imp fun _ _ h => h.symm
      exact (List.forall₂_eq_eq_eq ▸ List.forall₂_map_right_iff.2 hsame : choices = scored.map Prod.snd).symm
    have hscoredNe : scored ≠ [] := by
      intro hnil
      rw [hnil, List.map_nil] at hsnd
      exact hne hsnd.symm
    obtain ⟨vector, g', hdraw, hvector⟩ := drawBest_ok draws hscoredNe g
    rw [hsnd] at hvector
    dsimp only
    rw [hchoices, policy, except_ok_bind, hstatistics, except_ok_bind, hscored, except_ok_bind]
    refine ⟨vector, g', hdraw, ((hmem vector).1 (hpreferred vector hvector).1).1, fun hseen v hv hlow hhigh => ?_⟩
    exact (hpreferred vector hvector).2 hseen v ((hmem v).2 ⟨hv, hlow, hhigh⟩)

/-! ## The proposal -/

/-- a history that `reconstruct_history` accepts, of feasible vectors, with the trials in order -/
structure ValidHistory (b : ParameterBounds) (history visible : List VisibleTrial) : Prop where
  built : ∀ t ∈ history, t.Built .default
  feasible : ∀ t ∈ history, t.candidate.params ∈ b.feasibleVectors
  accepted : reconstructHistory history = .ok visible

variable {history visible : List VisibleTrial}

theorem ValidHistory.mem (h : ValidHistory b history visible) : t ∈ visible ↔ t ∈ history := by
  rw [(reconstructHistory_eq_ok.1 h.accepted).2.1, mem_sortBy]

theorem ValidHistory.length (h : ValidHistory b history visible) : visible.length = history.length := by
  rw [(reconstructHistory_eq_ok.1 h.accepted).2.1]
  exact (sortBy_perm _ _).length_eq

theorem ValidHistory.mem_tried (h : ValidHistory b history visible) {fingerprint : PyStr} :
    fingerprint ∈ triedFingerprints visible ↔ fingerprint ∈ triedFingerprints history := by
  rw [triedFingerprints, triedFingerprints, List.mem_map, List.mem_map]
  exact exists_congr fun t => and_congr_left fun _ => h.mem

theorem ValidHistory.normalize (h : ValidHistory b history visible) : normalizeInternalHistory history = .ok visible := by
  obtain ⟨-, hsorted, hgenerations, hlineage⟩ := reconstructHistory_eq_ok.1 h.accepted
  simp only [normalizeInternalHistory, except_bind_eq_ok, check_eq_ok, decide_eq_true_eq, except_pure_eq_ok, exists_const,
    ← hsorted]
  exact ⟨hgenerations, (), hlineage, trivial⟩

/-- **The proposal**: a feasible vector under a trial of the history; a vector tried before only once the frontier is
exhausted, or the defaults were never tried, and every mutation of the parent has been tried. -/
theorem propose_made (hb : b.Built) (h : ValidHistory b history visible) (hne : visible ≠ []) (draws : Draws G) (g : G) :
    ∃ vector parent g', propose F draws history b g =
        (do
          let candidate ← policy (AttackCandidate.make vector (some parent.candidate.candidateId) visible.length)
          pure (candidate, g')) ∧
      vector ∈ b.feasibleVectors ∧ parent ∈ visible ∧
      (vector.fingerprint ∈ triedFingerprints visible →
        (defaultBoundaryFrontier visible b = .ok [] ∨ b.defaults.fingerprint ∉ triedFingerprints visible) ∧
        ∀ v ∈ b.feasibleVectors, 1 ≤ (b.differing parent.candidate.params v).length →
          (b.differing parent.candidate.params v).length ≤ 3 → v.fingerprint ∈ triedFingerprints visible) := by
  have hfeasible : ∀ t ∈ visible, t.candidate.params ∈ b.feasibleVectors := fun t ht => h.feasible t (h.mem.1 ht)
  have hlast : visible.getLast? = some (visible.getLast hne) := List.getLast?_eq_some_getLast hne
  rw [propose, h.normalize, policy, except_ok_bind, hlast, frontier_eq hb, policy]
  dsimp only
  rw [except_ok_bind]
  obtain ⟨parent, g₁, hparent, hparentMem⟩ := selectParent_ok draws (List.getLast_mem hne) g
  obtain ⟨vector, g₂, hvector, hvectorMem, hall⟩ := selectVector_ok (F := F) hb draws hfeasible hparentMem g₁
  have htournament : (do
      let (parent, g) ← selectParent draws visible (visible.getLast hne) g
      let (vector, g) ← selectVector F draws visible b parent g
      let candidate ← policy (AttackCandidate.make vector (some parent.candidate.candidateId) visible.length)
      pure (candidate, g)) =
      (do
        let candidate ← policy (AttackCandidate.make vector (some parent.candidate.candidateId) visible.length)
        pure (candidate, g₂)) := by
    rw [hparent, except_ok_bind]
    dsimp only
    rw [hvector, except_ok_bind]
  cases hdefault : visible.find? fun trial => trial.candidate.params.fingerprint = b.defaults.fingerprint with
  | none =>
    refine ⟨vector, parent, g₂, htournament, hvectorMem, hparentMem, fun hseen => ⟨.inr fun htried => ?_, hall hseen⟩⟩
    obtain ⟨t, ht, heq⟩ := List.mem_map.1 htried
    exact absurd (decide_eq_true heq) (List.find?_eq_none.1 hdefault t ht)
  | some defaultParent =>
    cases hfrontier : (listedRows visible b).map FrontierRow.vector with
    | nil => exact ⟨vector, parent, g₂, htournament, hvectorMem, hparentMem, fun hseen => ⟨.inl rfl, hall hseen⟩⟩
    | cons first rest =>
      have hfirst : first ∈ (listedRows visible b).map FrontierRow.vector := by
        rw [hfrontier]
        exact List.mem_cons_self
      obtain ⟨row, hrow, rfl⟩ := List.mem_map.1 hfirst
      obtain ⟨-, ⟨hmem, huntried⟩, -, -⟩ := mem_listedRows.1 hrow
      refine ⟨row.vector, defaultParent, g, rfl, hmem, List.mem_of_find?_eq_some hdefault, fun hseen => ?_⟩
      exact absurd hseen huntried

/-- the identifier of a built candidate can be a parent -/
theorem parentIsCanonical_id (hdigest : ∀ bytes, isDigestText (Sha256.hexdigestBytes bytes) = true) {c : AttackCandidate}
    (hc : c.Built) : AttackCandidate.parentIsCanonical (some c.candidateId) = .ok () := by
  obtain ⟨document, hid⟩ : ∃ document, c.candidateId = digest document := by
    rw [AttackCandidate.candidateId, hc.sealed]
    split_ifs
    · exact ⟨_, rfl⟩
    · exact ⟨_, rfl⟩
  have htext := hdigest (document.text.flatMap String.utf8EncodeChar)
  rw [isDigestText, Bool.and_eq_true, beq_iff_eq, List.all_eq_true] at htext
  rw [AttackCandidate.parentIsCanonical, hid, digest, PyStr.ofString]
  simp only [assertDigest, exactText, except_bind_eq_ok, check_eq_ok, decide_eq_true_eq, exists_const]
  refine ⟨?_, by rw [List.length_map]; exact htext.1, List.all_eq_true.2 fun x hx => ?_⟩
  · intro hnil
    rw [List.map_eq_nil_iff] at hnil
    rw [hnil] at htext
    exact absurd htext.1 (by decide)
  · obtain ⟨ch, hch, rfl⟩ := List.mem_map.1 hx
    exact List.contains_iff_mem.2 (List.mem_map_of_mem (List.contains_iff_mem.1 (htext.2 ch hch)))

theorem make_candidate (hvector : vector.Built) {parentId : Option PyStr}
    (hparent : AttackCandidate.parentIsCanonical parentId = .ok ()) {n : ℕ} (hn : n ≤ 1000) :
    ∃ c, AttackCandidate.make vector parentId n = .ok c ∧ c.Built ∧ c.params = vector ∧ c.parentId = parentId ∧
      c.generation = n := by
  obtain ⟨c, hc⟩ : ∃ c, AttackCandidate.make vector parentId n = .ok c := by
    simp only [AttackCandidate.make, except_bind_eq_ok, validating_eq_ok, check_eq_ok, except_pure_eq_ok]
    exact ⟨_, (), hvector.pristine, (), hparent, (), decide_eq_true (Int.natCast_nonneg n), (),
      decide_eq_true (by exact_mod_cast hn), rfl⟩
  have hseal := (AttackCandidate.make_seal hc).2
  refine ⟨c, hc, ⟨?_, ?_⟩, ?_, ?_, ?_⟩
  · rw [hseal]
    exact hvector
  · rw [hseal] at hc ⊢
    exact hc
  all_goals rw [hseal]

theorem make_candidate_long (hvector : vector.Built) {parentId : Option PyStr}
    (hparent : AttackCandidate.parentIsCanonical parentId = .ok ()) {n : ℕ} (hn : 1000 < n) :
    AttackCandidate.make vector parentId n = .error (validationError "generation exceeds 1000") := by
  have hlong : ¬ ((n : ℤ) ≤ 1000) := by omega
  rw [AttackCandidate.make, hvector.pristine, hparent]
  simp [validating, check, hlong, bind, Except.bind]

/-- **Proposals are legal**: a history of at most 1000 trials is continued by a candidate with a feasible vector and a
parent in the history. It repeats a vector only once the frontier of the defaults is exhausted, or the defaults were never
tried, and every vector that differs from its parent in one to three fields has been tried. -/
theorem propose_legal (hdigest : ∀ bytes, isDigestText (Sha256.hexdigestBytes bytes) = true) (hb : b.Built)
    (h : ValidHistory b history visible) (hlength : history.length ≤ 1000) (draws : Draws G) (g : G) :
    ∃ c g', propose F draws history b g = .ok (c, g') ∧ b.validateVector c.params = .ok c.params ∧
      validateCandidateLineage c history = .ok c ∧
      (c.params.fingerprint ∈ triedFingerprints history →
        (defaultBoundaryFrontier visible b = .ok [] ∨ b.defaults.fingerprint ∉ triedFingerprints history) ∧
        ∃ parent ∈ history, c.parentId = some parent.candidate.candidateId ∧
          ∀ v ∈ b.feasibleVectors, 1 ≤ (b.differing parent.candidate.params v).length →
            (b.differing parent.candidate.params v).length ≤ 3 → v.fingerprint ∈ triedFingerprints history) := by
  have hlineage : ∀ c : AttackCandidate, c.Built → c.generation = visible.length →
      (visible = [] → c.parentId = none) →
      (visible ≠ [] → ∃ parent ∈ visible, c.parentId = some parent.candidate.candidateId) →
      validateCandidateLineage c history = .ok c := by
    intro c hc hgeneration hroot hchild
    simp only [validateCandidateLineage, except_bind_eq_ok, check_eq_ok, decide_eq_true_eq, except_pure_eq_ok, exists_const,
      List.any_eq_true]
    exact ⟨c, reconstructCandidate_built hc, visible, h.accepted, hgeneration, or_iff_not_imp_left.2 fun hnil =>
      hroot (not_not.1 hnil), or_iff_not_imp_left.2 hchild, rfl⟩
  by_cases hempty : visible = []
  · obtain ⟨c, hc, hbuilt, hparams, hparent, hgeneration⟩ :=
      make_candidate (n := 0) hb.defaults (rfl : AttackCandidate.parentIsCanonical none = .ok ()) (by omega)
    have hnone : history = [] := List.length_eq_zero_iff.1 (by rw [← h.length, hempty, List.length_nil])
    refine ⟨c, g, ?_, ?_, hlineage c hbuilt ?_ (fun _ => hparent) (fun hne => absurd hempty hne), fun hseen => ?_⟩
    · rw [propose, h.normalize, policy, except_ok_bind, hempty]
      have hzero : AttackCandidate.make b.defaults none 0 = .ok c := hc
      rw [List.getLast?_nil]
      dsimp only
      rw [hzero, policy, except_ok_bind]
      rfl
    · rw [hparams]
      exact hb.validateVector_defaults
    · rw [hgeneration, hempty, List.length_nil]
    · rw [hnone] at hseen
      exact absurd hseen List.not_mem_nil
  · obtain ⟨vector, parent, g', hpropose, hvector, hparent, hrepeat⟩ := propose_made (F := F) hb h hempty draws g
    have hparentBuilt := (h.built parent (h.mem.1 hparent)).candidate
    obtain ⟨c, hc, hbuilt, hparams, hparentId, hgeneration⟩ := make_candidate (hb.vectors vector hvector)
      (parentIsCanonical_id hdigest hparentBuilt) (n := visible.length) (h.length ▸ hlength)
    refine ⟨c, g', ?_, ?_, ?_, fun hseen => ?_⟩
    · rw [hpropose, hc, policy, except_ok_bind]
      rfl
    · rw [hparams]
      exact hb.validateVector hvector
    · exact hlineage c hbuilt hgeneration (fun hnil => absurd hnil hempty) fun _ => ⟨parent, hparent, hparentId⟩
    · rw [hparams, ← h.mem_tried] at hseen
      obtain ⟨hfrontier, hall⟩ := hrepeat hseen
      rw [h.mem_tried] at hfrontier
      refine ⟨hfrontier, parent, h.mem.1 hparent, hparentId, fun v hv hlow hhigh => ?_⟩
      exact h.mem_tried.1 (hall v hv hlow hhigh)

theorem propose_long (hdigest : ∀ bytes, isDigestText (Sha256.hexdigestBytes bytes) = true) (hb : b.Built)
    (h : ValidHistory b history visible) (hlength : 1000 < history.length) (draws : Draws G) (g : G) :
    propose F draws history b g = .error (.policy (validationError "generation exceeds 1000")) := by
  have hne : visible ≠ [] := by
    intro hnil
    rw [← h.length, hnil, List.length_nil] at hlength
    omega
  obtain ⟨vector, parent, g', hpropose, hvector, hparent, -⟩ := propose_made (F := F) hb h hne draws g
  rw [hpropose, make_candidate_long (hb.vectors vector hvector)
    (parentIsCanonical_id hdigest (h.built parent (h.mem.1 hparent)).candidate) (h.length ▸ hlength)]
  rfl

/-! ## Histories of every length -/

/-- feedback that names no reason of its own -/
def declined : Feedback :=
  let f : Feedback := ⟨.decline, PyStr.ofString "velocity", none, []⟩
  { f with integritySeal := f.computedSeal }

theorem declined_built : declined.Built .default := by
  have hne : PyStr.ofString "velocity" ≠ [] := by decide
  have hpublic : publicReasonFamilies.contains (PyStr.ofString "velocity") = true := by decide
  have hconsistent : Feedback.actionAndReasonAreConsistent .decline (PyStr.ofString "velocity") = .ok () := by decide
  exact Feedback.make_eq_ok.2 ⟨hne, hpublic, rfl, hconsistent, rfl⟩

theorem InOrder.append {xs : List VisibleTrial} (h : InOrder xs) (hgeneration : t.candidate.generation = xs.length)
    (hparent : checkParent xs.length (candidateIds xs) t.candidate = .ok ()) : InOrder (xs ++ [t]) := by
  refine ⟨?_, checkLineage_append.2 ⟨h.2, ?_⟩⟩
  · have hlast : generations [t] = [Int.ofNat xs.length] := by
      rw [generations, List.map_cons, List.map_nil, hgeneration]
      rfl
    rw [List.length_append, List.length_singleton, List.range_succ, List.map_append, ← h.1, List.map_cons, List.map_nil,
      ← hlast, generations, generations, generations, List.map_append]
  · rw [checkLineage, Nat.zero_add, List.nil_append, hparent]
    rfl

/-- **Histories of every length** up to 1001 are valid -/
theorem exists_history (hdigest : ∀ bytes, isDigestText (Sha256.hexdigestBytes bytes) = true) (hb : b.Built) {n : ℕ}
    (hn : n ≤ 1001) : ∃ history, ValidHistory b history history ∧ history.length = n := by
  obtain ⟨vector, hvector, -⟩ := List.mem_map.1 hb.closed.defaults
  induction n with
  | zero => exact ⟨[], ⟨nofun, nofun, rfl⟩, rfl⟩
  | succ n ih =>
    obtain ⟨history, h, hlength⟩ := ih (by omega)
    have horder : InOrder history := (reconstructHistory_eq_ok.1 h.accepted).2.2
    have hparent : AttackCandidate.parentIsCanonical (history.getLast?.map fun t => t.candidate.candidateId) = .ok () := by
      cases hlast : history.getLast? with
      | none => rfl
      | some t => exact parentIsCanonical_id hdigest (h.built t (List.mem_of_getLast? hlast)).candidate
    obtain ⟨c, -, hc, hparams, hparentId, hgeneration⟩ :=
      make_candidate (hb.vectors vector hvector) hparent (n := history.length) (by omega)
    obtain ⟨t, -, rfl, -, ht⟩ := VisibleTrial.make_objective hc declined_built
    have hbuilt : ∀ u ∈ history ++ [t], u.Built .default := by
      intro u hu
      rcases List.mem_append.1 hu with hu | hu
      · exact h.built u hu
      · rw [List.mem_singleton.1 hu]
        exact ht
    have hlineage : checkParent history.length (candidateIds history) t.candidate = .ok () := by
      rw [checkParent, hparentId]
      cases hlast : history.getLast? with
      | none =>
        rw [List.getLast?_eq_none_iff.1 hlast]
        rfl
      | some last =>
        have hmem := List.mem_of_getLast? hlast
        have hid : (candidateIds history).any (fun id => some last.candidate.candidateId = some id) = true :=
          List.any_eq_true.2 ⟨_, List.mem_map_of_mem hmem, decide_eq_true rfl⟩
        have hpos : history.length ≠ 0 := (List.length_pos_of_mem hmem).ne'
        simp only [except_bind_eq_ok, check_eq_ok, decide_eq_true_eq, exists_const, Option.map_some]
        exact ⟨.inl hpos, .inr hid⟩
    refine ⟨history ++ [t], ⟨hbuilt, fun u hu => ?_, ?_⟩, by rw [List.length_append, hlength, List.length_singleton]⟩
    · rcases List.mem_append.1 hu with hu | hu
      · exact h.feasible u hu
      · rw [List.mem_singleton.1 hu, hparams]
        exact hvector
    · exact reconstructHistory_inOrder (fun u hu => (hbuilt u hu).pristine) (horder.append hgeneration hlineage)

end

end

namespace Sample

theorem checksum_digest (bytes : List UInt8) : isDigestText (Wire.checksum.hexdigestBytes bytes) = true := by
  have hhex : ∀ k, Uuid.hexChar (k % 16) ∈ hexChars := by
    have key : ∀ a < 16, Uuid.hexChar a ∈ hexChars := by decide
    exact fun k => key _ (Nat.mod_lt _ (by norm_num))
  have hzero : '0' ∈ hexChars := by decide
  have htext : isDigestText (String.ofList (List.replicate 63 '0' ++
      [Uuid.hexChar ((bytes.map UInt8.toNat).sum % 16)])) = true := by
    simp [isDigestText, hhex, hzero]
  exact htext

/-- the first indices, always -/
def firstDraws : Draws Unit where
  choice n k h _ :=
    ⟨⟨(List.finRange k).map (Fin.castLE h), by rw [List.length_map, List.length_finRange],
      (List.nodup_finRange k).map (Fin.castLE_injective h)⟩, ()⟩
  integers _ h _ := ⟨⟨0, h⟩, ()⟩

/-- rational scores -/
@[reducible] def rationalScores : ScoreMath ℚ :=
  { PyFloat.rational with
    log := fun x => x
    same := fun a b => decide (a = b)
    same_self := fun _ => decide_eq_true rfl }

end Sample

open Sample in
/-- three trials of the one vector of the bounds -/
theorem propose_legal_three : let _ := Wire.checksum
    ∃ history, history.length = 3 ∧
      ∃ c g', @propose _ Unit ℚ rationalScores firstDraws history (Wire.sampleBounds (.integer 1)) () = .ok (c, g') ∧
        (Wire.sampleBounds (.integer 1)).validateVector c.params = .ok c.params ∧
        validateCandidateLineage c history = .ok c := by
  let _ := Wire.checksum
  have hbuilt : (Wire.sampleBounds (.integer 1)).Built := Wire.sampleBounds_built rfl
  obtain ⟨history, h, hlength⟩ := exists_history checksum_digest hbuilt (n := 3) (by omega)
  obtain ⟨c, g', hpropose, hvalid, hlineage, -⟩ :=
    @propose_legal _ Unit ℚ rationalScores _ _ _ checksum_digest hbuilt h (by omega) firstDraws ()
  exact ⟨history, hlength, c, g', hpropose, hvalid, hlineage⟩

open Sample in
/-- **The 1002nd trial**: whatever the generator draws, its generation is beyond the last one. -/
theorem propose_long_fails : let _ := Wire.checksum
    ∃ history, ValidHistory (Wire.sampleBounds (.integer 1)) history history ∧ history.length = 1001 ∧
      ∀ (G F : Type) (_ : ScoreMath F) (draws : Draws G) (g : G),
        propose F draws history (Wire.sampleBounds (.integer 1)) g =
          .error (.policy (validationError "generation exceeds 1000")) := by
  let _ := Wire.checksum
  have hbuilt : (Wire.sampleBounds (.integer 1)).Built := Wire.sampleBounds_built rfl
  obtain ⟨history, h, hlength⟩ := exists_history checksum_digest hbuilt (n := 1001) le_rfl
  exact ⟨history, h, hlength, fun G F _ draws g => propose_long checksum_digest hbuilt h (by omega) draws g⟩

end Redteam

end Apar
