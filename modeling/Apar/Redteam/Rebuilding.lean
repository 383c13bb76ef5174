/-
Rebuilding policy contracts. What a constructor returned is `Built`: its parts are, and the constructor run on them
returns it again. A built contract is pristine and is its own reconstruction; and a pristine contract that can be
reconstructed is built.

- `reconstructVector_built`, `reconstructBounds_built`, `reconstructCandidate_built`: reconstruction changes nothing.
- `built_of_reconstruct`: a pristine candidate that can be reconstructed was built.
- `reconstructHistory_eq_ok`: when a history is accepted, and what is returned.
-/
import Apar.Redteam.Policies

namespace Apar

open Exec

namespace Redteam

variable [Sha256]

omit [Sha256] in
@[simp] theorem validating_eq_ok {α : Type} {x : Except PolicyError α} {a : α} : validating x = .ok a ↔ x = .ok a := by
  unfold validating
  split <;> simp

/-! ## Parameters and vectors -/

namespace AdaptiveParameter

/-- accepted by the constructor -/
def Built (p : AdaptiveParameter) : Prop := make p.name p.value = .ok p

variable {p : AdaptiveParameter}

theorem make_eq_ok {name : PyStr} {value : AdaptiveValue} :
    make name value = .ok p ↔
      name ≠ [] ∧ value.adaptiveValue = .ok () ∧ p = ⟨name, value, digest (document ⟨name, value, []⟩)⟩ := by
  simp only [make, exactText, except_bind_eq_ok, check_eq_ok, decide_eq_true_eq, except_pure_eq_ok, exists_const]
  constructor
  · rintro ⟨hname, _, hvalue, rfl⟩
    exact ⟨hname, hvalue, rfl⟩
  · rintro ⟨hname, hvalue, rfl⟩
    exact ⟨hname, (), hvalue, rfl⟩

theorem built_of_make {name : PyStr} {value : AdaptiveValue} (h : make name value = .ok p) : p.Built := by
  obtain ⟨-, -, rfl⟩ := make_eq_ok.1 h
  exact h

theorem Built.pristine (h : p.Built) : p.assertPristine = .ok () := by
  obtain ⟨-, -, heq⟩ := make_eq_ok.1 h
  rw [assertPristine, check_eq_ok, decide_eq_true_eq]
  exact congrArg AdaptiveParameter.integritySeal heq

theorem built_of_pristine {q : AdaptiveParameter} (hp : p.assertPristine = .ok ()) (h : make p.name p.value = .ok q) :
    p.Built ∧ q = p := by
  rw [assertPristine, check_eq_ok, decide_eq_true_eq] at hp
  have hq : q = p := by
    rw [(make_eq_ok.1 h).2.2]
    obtain ⟨name, value, sealed⟩ := p
    simp only [mk.injEq, true_and]
    exact hp.symm
  exact ⟨hq ▸ h, hq⟩

end AdaptiveParameter

namespace AdaptiveVector

structure Built (v : AdaptiveVector) : Prop where
  entries : ∀ e ∈ v.entries, e.Built
  make : make v.entries = .ok v

/-- the values of a vector -/
def values (v : AdaptiveVector) : List AdaptiveValue := v.entries.map AdaptiveParameter.value

theorem make_eq_ok {entries : List AdaptiveParameter} {v : AdaptiveVector} :
    make entries = .ok v ↔ entries.forM AdaptiveParameter.assertPristine = .ok () ∧
      entries.map AdaptiveParameter.name = sortedSet (entries.map AdaptiveParameter.name) ∧
      v = ⟨entries, digest (document ⟨entries, []⟩)⟩ := by
  simp only [make, except_bind_eq_ok, validating_eq_ok, check_eq_ok, decide_eq_true_eq, except_pure_eq_ok,
    exists_const]
  constructor
  · rintro ⟨_, hentries, hnames, rfl⟩
    exact ⟨hentries, hnames, rfl⟩
  · rintro ⟨hentries, hnames, rfl⟩
    exact ⟨(), hentries, hnames, rfl⟩

theorem built_of_make {entries : List AdaptiveParameter} {v : AdaptiveVector} (hentries : ∀ e ∈ entries, e.Built)
    (h : AdaptiveVector.make entries = .ok v) : v.Built := by
  obtain ⟨-, -, rfl⟩ := make_eq_ok.1 h
  exact ⟨hentries, h⟩

theorem Built.pristine {v : AdaptiveVector} (h : v.Built) : v.assertPristine = .ok () := by
  obtain ⟨hentries, -, heq⟩ := make_eq_ok.1 h.make
  rw [assertPristine, hentries]
  exact check_eq_ok.2 (decide_eq_true (congrArg AdaptiveVector.integritySeal heq))

end AdaptiveVector

theorem reconstructVector_built {v : AdaptiveVector} (h : v.Built) : reconstructVector v = .ok v := by
  have hentries : v.entries.mapM (fun entry => AdaptiveParameter.make entry.name entry.value) = .ok v.entries :=
    mapM_self h.entries
  simp only [reconstructVector, except_bind_eq_ok]
  exact ⟨(), h.pristine, v.entries, hentries, h.make⟩

/-- a pristine vector that can be reconstructed was built -/
theorem built_of_reconstructVector {v w : AdaptiveVector} (h : reconstructVector v = .ok w) : v.Built ∧ w = v := by
  simp only [reconstructVector, AdaptiveVector.assertPristine, except_bind_eq_ok] at h
  obtain ⟨_, ⟨_, hpristine, hseal⟩, entries, hentries, hmake⟩ := h
  rw [mapM_eq_ok] at hentries
  have hrebuilt : List.Forall₂ (fun e e' => e.Built ∧ e' = e) v.entries entries := by
    have key : ∀ xs ys, (∀ e ∈ xs, e.assertPristine = .ok ()) →
        List.Forall₂ (fun e e' => AdaptiveParameter.make e.name e.value = .ok e') xs ys →
        List.Forall₂ (fun e e' => e.Built ∧ e' = e) xs ys := by
      intro xs ys hxs hall
      induction hall with
      | nil => exact .nil
      | cons hab _ ih =>
        exact .cons (AdaptiveParameter.built_of_pristine (hxs _ (by simp)) hab) (ih fun e he => hxs e (by simp [he]))
    exact key _ _ (fun e he => forM_mem hpristine he) hentries
  have hsame : entries = v.entries := by
    have : List.Forall₂ Eq entries v.entries := hrebuilt.flip.imp fun _ _ h => h.2
    exact List.forall₂_eq_eq_eq ▸ this
  have hbuilt : ∀ e ∈ v.entries, e.Built := by
    intro e he
    obtain ⟨_, -, hb, -⟩ := forall₂_mem_left hrebuilt he
    exact hb
  rw [hsame] at hmake
  have hw : w = v := by
    rw [check_eq_ok, decide_eq_true_eq] at hseal
    rw [(AdaptiveVector.make_eq_ok.1 hmake).2.2]
    obtain ⟨entries', sealed⟩ := v
    simp only [AdaptiveVector.mk.injEq, true_and]
    exact hseal.symm
  exact ⟨⟨hbuilt, hw ▸ hmake⟩, hw⟩

/-! ## Domains and bounds -/

namespace ParameterDomain

/-- accepted by the constructor -/
def Built (d : ParameterDomain) : Prop := make d.name d.kind d.values = .ok d

theorem make_eq_ok {name : PyStr} {kind : DomainKind} {values : List AdaptiveValue} {d : ParameterDomain} :
    make name kind values = .ok d ↔ name ≠ [] ∧ values ≠ [] ∧ values.forM AdaptiveValue.adaptiveValue = .ok () ∧
      hasAlias values = false ∧ d = ⟨name, kind, values, digest (document ⟨name, kind, values, []⟩)⟩ := by
  simp only [make, exactText, except_bind_eq_ok, check_eq_ok, decide_eq_true_eq, except_pure_eq_ok, exists_const,
    Bool.not_eq_true']
  constructor
  · rintro ⟨hname, hvalues, _, hadaptive, halias, rfl⟩
    exact ⟨hname, hvalues, hadaptive, halias, rfl⟩
  · rintro ⟨hname, hvalues, hadaptive, halias, rfl⟩
    exact ⟨hname, hvalues, (), hadaptive, halias, rfl⟩

theorem Built.pristine {d : ParameterDomain} (h : d.Built) : d.assertPristine = .ok () := by
  obtain ⟨-, -, -, -, heq⟩ := make_eq_ok.1 h
  rw [assertPristine, check_eq_ok, decide_eq_true_eq]
  exact congrArg ParameterDomain.integritySeal heq

end ParameterDomain

namespace ParameterBounds

/-- accepted by the constructor, from accepted parts -/
structure Built (b : ParameterBounds) : Prop where
  defaults : b.defaults.Built
  domains : ∀ d ∈ b.domains, d.Built
  vectors : ∀ v ∈ b.feasibleVectors, v.Built
  make : make b.family b.defaults b.domains b.feasibleVectors = .ok b

/-- every parameter value of the bounds -/
def values (b : ParameterBounds) : List AdaptiveValue :=
  b.defaults.values ++ b.domains.flatMap ParameterDomain.values ++ b.feasibleVectors.flatMap AdaptiveVector.values

theorem make_seal {family : PyStr} {defaults : AdaptiveVector} {domains : List ParameterDomain}
    {vectors : List AdaptiveVector} {b : ParameterBounds} (h : make family defaults domains vectors = .ok b) :
    family ≠ [] ∧
      b = ⟨family, defaults, domains, vectors, digest (document ⟨family, defaults, domains, vectors, []⟩)⟩ := by
  simp only [make, exactText, except_bind_eq_ok, check_eq_ok, decide_eq_true_eq, except_pure_eq_ok, exists_const] at h
  obtain ⟨hfamily, _, _, _, _, _, _, _, _, _, _, rfl⟩ := h
  exact ⟨hfamily, rfl⟩

theorem Built.pristine {b : ParameterBounds} (h : b.Built) : b.assertPristine = .ok () := by
  have hdomains := forM_eq_ok fun d hd => (h.domains d hd).pristine
  have hvectors := forM_eq_ok fun v hv => (h.vectors v hv).pristine
  rw [assertPristine, h.defaults.pristine, hdomains, hvectors]
  exact check_eq_ok.2 (decide_eq_true (congrArg ParameterBounds.integritySeal (make_seal h.make).2))

end ParameterBounds

theorem reconstructBounds_built {b : ParameterBounds} (h : b.Built) : reconstructBounds b = .ok b := by
  have hdomains : b.domains.mapM (fun item => ParameterDomain.make item.name item.kind item.values) = .ok b.domains :=
    mapM_self h.domains
  have hvectors : b.feasibleVectors.mapM reconstructVector = .ok b.feasibleVectors :=
    mapM_self fun v hv => reconstructVector_built (h.vectors v hv)
  simp only [reconstructBounds, except_bind_eq_ok]
  exact ⟨(), h.pristine, b.defaults, reconstructVector_built h.defaults, b.domains, hdomains, b.feasibleVectors, hvectors,
    h.make⟩

/-! ## Candidates -/

namespace AttackCandidate

/-- accepted by the constructor, from an accepted vector -/
structure Built (c : AttackCandidate) : Prop where
  params : c.params.Built
  make : make c.params c.parentId c.generation = .ok c

theorem make_seal {params : AdaptiveVector} {parentId : Option PyStr} {generation : ℤ} {c : AttackCandidate}
    (h : make params parentId generation = .ok c) :
    0 ≤ generation ∧ c = ⟨params, parentId, generation, computedCandidateId ⟨params, parentId, generation, []⟩⟩ := by
  simp only [make, except_bind_eq_ok, check_eq_ok, decide_eq_true_eq, except_pure_eq_ok, exists_const] at h
  obtain ⟨_, _, _, _, hgeneration, _, rfl⟩ := h
  exact ⟨hgeneration, rfl⟩

theorem Built.sealed {c : AttackCandidate} (h : c.Built) : c.integritySeal = c.computedCandidateId :=
  congrArg AttackCandidate.integritySeal (make_seal h.make).2

theorem Built.pristine {c : AttackCandidate} (h : c.Built) : c.assertPristine = .ok () := by
  rw [assertPristine, h.params.pristine]
  exact check_eq_ok.2 (decide_eq_true h.sealed)

end AttackCandidate

theorem reconstructCandidate_built {c : AttackCandidate} (h : c.Built) : reconstructCandidate c = .ok c := by
  simp only [reconstructCandidate, except_bind_eq_ok]
  exact ⟨(), h.pristine, c.params, reconstructVector_built h.params, h.make⟩

theorem built_of_reconstructCandidate {c d : AttackCandidate} (h : reconstructCandidate c = .ok d) :
    c.Built ∧ d = c := by
  simp only [reconstructCandidate, AttackCandidate.assertPristine, except_bind_eq_ok, check_eq_ok,
    decide_eq_true_eq] at h
  obtain ⟨_, ⟨_, _, hseal⟩, params, hparams, hmake⟩ := h
  obtain ⟨hbuilt, rfl⟩ := built_of_reconstructVector hparams
  have hd : d = c := by
    rw [(AttackCandidate.make_seal hmake).2]
    obtain ⟨params, parentId, generation, sealed⟩ := c
    simp only [AttackCandidate.mk.injEq, true_and]
    exact hseal.symm
  exact ⟨⟨hbuilt, hd ▸ hmake⟩, hd⟩

/-! ## Feedback and trials -/

namespace Feedback

/-- accepted by the constructor -/
def Built (ctx : DecimalContext) (f : Feedback) : Prop := make ctx f.action f.reasonFamily f.realizedValue = .ok f

variable {ctx : DecimalContext}

theorem make_eq_ok {action : Action} {reasonFamily : PyStr} {realizedValue : Option DecimalTuple} {f : Feedback} :
    make ctx action reasonFamily realizedValue = .ok f ↔ reasonFamily ≠ [] ∧
      publicReasonFamilies.contains reasonFamily = true ∧ realizedValueIsExact ctx realizedValue = .ok () ∧
      actionAndReasonAreConsistent action reasonFamily = .ok () ∧
      f = ⟨action, reasonFamily, realizedValue, computedSeal ⟨action, reasonFamily, realizedValue, []⟩⟩ := by
  simp only [make, exactText, except_bind_eq_ok, check_eq_ok, decide_eq_true_eq, except_pure_eq_ok, exists_const]
  constructor
  · rintro ⟨hreason, hpublic, _, hrealized, _, hconsistent, rfl⟩
    exact ⟨hreason, hpublic, hrealized, hconsistent, rfl⟩
  · rintro ⟨hreason, hpublic, hrealized, hconsistent, rfl⟩
    exact ⟨hreason, hpublic, (), hrealized, (), hconsistent, rfl⟩

theorem built_of_make {action : Action} {reasonFamily : PyStr} {realizedValue : Option DecimalTuple} {f : Feedback}
    (h : make ctx action reasonFamily realizedValue = .ok f) : f.Built ctx := by
  obtain ⟨-, -, -, -, rfl⟩ := make_eq_ok.1 h
  exact h

theorem Built.pristine {f : Feedback} (h : f.Built ctx) : f.assertPristine = .ok () := by
  obtain ⟨-, -, -, -, heq⟩ := make_eq_ok.1 h
  rw [assertPristine, check_eq_ok, decide_eq_true_eq]
  exact congrArg Feedback.integritySeal heq

theorem Built.objective {f : Feedback} (h : f.Built ctx) :
    visibleObjective ctx f = .ok (objectiveOf ctx f.action f.realizedValue) := by
  simp only [visibleObjective, reconstructFeedback, except_bind_eq_ok, except_pure_eq_ok]
  exact ⟨f, ⟨(), h.pristine, h⟩, rfl⟩

end Feedback

namespace VisibleTrial

/-- accepted by the constructor, from accepted parts -/
structure Built (ctx : DecimalContext) (t : VisibleTrial) : Prop where
  candidate : t.candidate.Built
  feedback : t.feedback.Built ctx
  make : make ctx t.candidate t.feedback t.objectiveValue = .ok t

theorem make_seal {ctx : DecimalContext} {candidate : AttackCandidate} {feedback : Feedback}
    {objectiveValue : DecimalTuple} {t : VisibleTrial} (h : make ctx candidate feedback objectiveValue = .ok t) :
    t = ⟨candidate, feedback, objectiveValue, computedSeal ⟨candidate, feedback, objectiveValue, []⟩⟩ := by
  simp only [make, except_bind_eq_ok, except_pure_eq_ok] at h
  obtain ⟨_, _, _, _, _, _, _, _, rfl⟩ := h
  rfl

theorem Built.pristine {ctx : DecimalContext} {t : VisibleTrial} (h : t.Built ctx) : t.assertPristine = .ok () := by
  rw [assertPristine, h.candidate.pristine, h.feedback.pristine]
  exact check_eq_ok.2 (decide_eq_true (congrArg VisibleTrial.integritySeal (make_seal h.make)))

/-- a trial with the objective of its feedback is accepted -/
theorem make_objective {ctx : DecimalContext} {candidate : AttackCandidate} {feedback : Feedback}
    (hc : candidate.Built) (hf : feedback.Built ctx) :
    ∃ t, make ctx candidate feedback (objectiveOf ctx feedback.action feedback.realizedValue) = .ok t ∧
      t.candidate = candidate ∧ t.feedback = feedback ∧ t.Built ctx := by
  obtain ⟨value, hvalue⟩ : ∃ value, value = objectiveOf ctx feedback.action feedback.realizedValue := ⟨_, rfl⟩
  have hobjective := hf.objective
  rw [← hvalue] at hobjective ⊢
  obtain ⟨t, ht⟩ : ∃ t, make ctx candidate feedback value = .ok t := by
    refine ⟨⟨candidate, feedback, value, computedSeal ⟨candidate, feedback, value, []⟩⟩, ?_⟩
    simp only [make, except_bind_eq_ok, validating_eq_ok, check_eq_ok, Decimal.numEq_iff, except_pure_eq_ok]
    exact ⟨(), hc.pristine, (), hf.pristine, value, hobjective, (), rfl, trivial⟩
  have heq := make_seal ht
  refine ⟨t, ht, by rw [heq], by rw [heq], ?_, ?_, ?_⟩
  · rw [heq]
    exact hc
  · rw [heq]
    exact hf
  · rw [heq] at ht ⊢
    exact ht

end VisibleTrial

/-! ## Histories -/

def candidateIds (trials : List VisibleTrial) : List PyStr := trials.map fun t => t.candidate.candidateId

def generations (trials : List VisibleTrial) : List ℤ := trials.map fun t => t.candidate.generation

/-- a history in order: contiguous generations, and each candidate's parent before it -/
def InOrder (trials : List VisibleTrial) : Prop :=
  generations trials = (List.range trials.length).map Int.ofNat ∧ checkLineage 0 [] trials = .ok ()

variable {xs ys : List VisibleTrial}

theorem checkLineage_append {index : ℕ} {seen : List PyStr} :
    checkLineage index seen (xs ++ ys) = .ok () ↔ checkLineage index seen xs = .ok () ∧
      checkLineage (index + xs.length) (seen ++ candidateIds xs) ys = .ok () := by
  induction xs generalizing index seen with
  | nil => simp [checkLineage, candidateIds]
  | cons x xs ih =>
    simp only [List.cons_append, checkLineage, except_bind_eq_ok, ih, exists_and_right, and_assoc]
    have hindex : index + (x :: xs).length = index + 1 + xs.length := by
      rw [List.length_cons]
      omega
    have hseen : seen ++ candidateIds (x :: xs) = seen ++ [x.candidate.candidateId] ++ candidateIds xs := by
      simp [candidateIds]
    rw [hindex, hseen]

/-- the order of a history is about its candidates alone -/
theorem checkLineage_congr {index : ℕ} {seen : List PyStr}
    (h : xs.map VisibleTrial.candidate = ys.map VisibleTrial.candidate) :
    checkLineage index seen xs = checkLineage index seen ys := by
  induction xs generalizing index seen ys with
  | nil =>
    rw [List.map_nil, eq_comm, List.map_eq_nil_iff] at h
    rw [h]
  | cons x xs ih =>
    cases ys with
    | nil => cases h
    | cons y ys =>
      rw [List.map_cons, List.map_cons, List.cons.injEq] at h
      rw [checkLineage, checkLineage, h.1]
      congr 1
      funext _
      exact ih h.2

theorem candidateIds_congr (h : xs.map VisibleTrial.candidate = ys.map VisibleTrial.candidate) :
    candidateIds xs = candidateIds ys := by
  have := congrArg (List.map AttackCandidate.candidateId) h
  rwa [List.map_map, List.map_map] at this

theorem InOrder.congr (h : InOrder xs) (heq : xs.map VisibleTrial.candidate = ys.map VisibleTrial.candidate) :
    InOrder ys := by
  have hlen : xs.length = ys.length := by simpa using congrArg List.length heq
  have hgen : generations xs = generations ys := by
    have := congrArg (List.map AttackCandidate.generation) heq
    rwa [List.map_map, List.map_map] at this
  refine ⟨?_, ?_⟩
  · rw [← hgen, ← hlen]
    exact h.1
  · rw [← checkLineage_congr heq]
    exact h.2

theorem InOrder.left (h : InOrder (xs ++ ys)) : InOrder xs := by
  refine ⟨?_, (checkLineage_append.1 h.2).1⟩
  have hgen := congrArg (List.take xs.length) h.1
  have hlen : (generations xs).length = xs.length := List.length_map _
  unfold generations at hgen hlen ⊢
  rw [List.map_append, ← hlen, List.take_left, ← List.map_take, List.take_range, hlen, List.length_append,
    Nat.min_eq_left (by omega)] at hgen
  exact hgen

theorem InOrder.next {x : VisibleTrial} (h : InOrder (xs ++ x :: ys)) :
    x.candidate.generation = xs.length ∧ checkParent xs.length (candidateIds xs) x.candidate = .ok () := by
  refine ⟨?_, ?_⟩
  · have hget := congrArg (fun l => l[xs.length]?) h.1
    unfold generations at hget
    simp only [List.map_append, List.map_cons, List.length_append, List.length_cons] at hget
    rw [List.getElem?_append_right (by rw [List.length_map]), List.length_map, Nat.sub_self,
      List.getElem?_map, List.getElem?_range (by omega)] at hget
    simpa using hget
  · have := (checkLineage_append.1 h.2).2
    rw [checkLineage, except_bind_eq_ok] at this
    obtain ⟨_, hparent, -⟩ := this
    rwa [Nat.zero_add, List.nil_append] at hparent

theorem InOrder.sorted (h : InOrder xs) : sortBy (fun item : VisibleTrial => item.candidate.generation) xs = xs := by
  refine sortBy_of_sorted ?_
  have hpair : (generations xs).Pairwise (· ≤ ·) := by
    rw [h.1, List.pairwise_map]
    exact List.pairwise_lt_range.imp fun hab => Int.ofNat_le.2 hab.le
  exact List.pairwise_map.1 hpair

theorem reconstructHistory_eq_ok {value out : List VisibleTrial} :
    reconstructHistory value = .ok out ↔ value.forM VisibleTrial.assertPristine = .ok () ∧
      out = sortBy (fun item : VisibleTrial => item.candidate.generation) value ∧ InOrder out := by
  simp only [reconstructHistory, except_bind_eq_ok, check_eq_ok, decide_eq_true_eq, except_pure_eq_ok, InOrder,
    generations, exists_const]
  constructor
  · rintro ⟨_, hpristine, hgen, _, hlineage, rfl⟩
    exact ⟨hpristine, rfl, hgen, hlineage⟩
  · rintro ⟨hpristine, rfl, hgen, hlineage⟩
    exact ⟨(), hpristine, hgen, (), hlineage, rfl⟩

theorem reconstructHistory_inOrder (hpristine : ∀ t ∈ xs, t.assertPristine = .ok ()) (h : InOrder xs) :
    reconstructHistory xs = .ok xs :=
  reconstructHistory_eq_ok.2 ⟨forM_eq_ok hpristine, h.sorted.symm, h⟩

/-- the next candidate of a history has its lineage in the trials before it, whatever their feedback -/
theorem validateCandidateLineage_next {before after : List VisibleTrial} {t : VisibleTrial}
    (hpristine : ∀ t ∈ xs, t.assertPristine = .ok ())
    (heq : xs.map VisibleTrial.candidate = before.map VisibleTrial.candidate) (h : InOrder (before ++ t :: after))
    (ht : t.candidate.Built) : validateCandidateLineage t.candidate xs = .ok t.candidate := by
  have horder : InOrder xs := h.left.congr heq.symm
  have hlen : xs.length = before.length := by simpa using congrArg List.length heq
  obtain ⟨hgen, hparent⟩ := h.next
  rw [← hlen, ← candidateIds_congr heq] at hparent
  simp only [checkParent, except_bind_eq_ok, check_eq_ok, decide_eq_true_eq, exists_const] at hparent
  have hnil : xs.length = 0 ↔ xs = [] := List.length_eq_zero_iff
  simp only [validateCandidateLineage, except_bind_eq_ok, check_eq_ok, decide_eq_true_eq, except_pure_eq_ok,
    exists_const]
  refine ⟨t.candidate, reconstructCandidate_built ht, xs, reconstructHistory_inOrder hpristine horder, ?_, ?_, ?_,
    rfl⟩
  · rw [hgen, hlen]
  · rw [ne_eq, ← hnil]
    exact hparent.1
  · rw [← hnil]
    refine hparent.2.imp id fun hany => ?_
    rw [candidateIds, List.any_map] at hany
    exact hany

end Redteam

end Apar
