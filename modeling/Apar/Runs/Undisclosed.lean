/-
What the scenario does not disclose has no influence on the search (`RunRunner._search`).

The feedback is masked before it enters the history, so two evaluators that agree on what is disclosed drive two runs
side by side (`searchStep_two`): equal requests, equal histories, equal errors. Every history a search builds is
`Transportable`: its feedback is masked already, its candidates came through the wire, and its objectives are those the
wire computes; so writing and reading it gives it back.

- `undisclosed_feedback`: both, for every number of generations; a declaration with duplicates is never written.
- `duplicate_not_written`: such a declaration.
-/
import Apar.Runs.Disclosure
import Apar.Runs.Search

namespace Apar

open Exec Redteam Wire

namespace RunSearch

variable {F E Obs Obs' : Type} [FloatRead F] [Sha256]

/-! ## Two evaluators -/

/-- two returned feedbacks agree on the declared fields -/
structure FeedbackAgrees (declared : List FeedbackField) (f f' : Feedback) : Prop where
  action : actionIsDeclared declared = true → f'.action = f.action
  reason : declared.contains .reasonFamily = true → f'.reasonFamily = f.reasonFamily
  realized : declared.contains .realizedValue = true → f'.realizedValue = f.realizedValue

/-- two evaluators whose feedback agrees, for every candidate and history length; what they observe may differ -/
def EvaluatorsAgree (declared : List FeedbackField) (evaluate : Evaluator E Obs) (evaluate' : Evaluator E Obs') : Prop :=
  ∀ n candidate, AgreeUpTo (fun a b => FeedbackAgrees declared a.1 b.1) (evaluate n candidate) (evaluate' n candidate)

theorem maskFeedback_eq (ctx : DecimalContext) (declared : List FeedbackField) (f : Feedback) :
    maskFeedback ctx declared f =
      Feedback.make ctx (shownAction declared f) (shownReason declared f) (shownRealized declared f) := rfl

variable {declared : List FeedbackField} {evaluate : Evaluator E Obs} {value : JsonTree F} {b : ParameterBounds}
  {history trials : List VisibleTrial} {ctx : DecimalContext}

/-- the masked feedback depends on the declared fields only -/
theorem maskFeedback_agree (ctx : DecimalContext) {f f' : Feedback} (h : FeedbackAgrees declared f f') :
    maskFeedback ctx declared f' = maskFeedback ctx declared f := by
  have haction : shownAction declared f' = shownAction declared f := by
    unfold shownAction
    split_ifs with hd
    · exact h.action hd
    · rfl
  have hreason : shownReason declared f' = shownReason declared f := by
    unfold shownReason
    rw [haction]
    split_ifs with hd
    · exact h.reason hd
    all_goals rfl
  have hrealized : shownRealized declared f' = shownRealized declared f := by
    unfold shownRealized
    split_ifs with hd
    · exact h.realized hd
    · rfl
  rw [maskFeedback_eq, maskFeedback_eq, haction, hreason, hrealized]

/-- two searches that have sent the same requests and built the same history -/
structure Same (s : State F Obs) (t : State F Obs') : Prop where
  requests : s.requests = t.requests
  history : s.history = t.history

/-- **One generation, side by side.** -/
theorem searchStep_two (g : Setting F E) {evaluate' : Evaluator E Obs'}
    (h : EvaluatorsAgree g.bundle.feedback evaluate evaluate') (generation : ℕ) :
    TwoRuns Same Eq (searchStep g evaluate generation) (searchStep g evaluate' generation) := by
  unfold searchStep
  refine (TwoRuns.raising (.refl _)).bind fun seed _ hseed => ?_
  subst hseed
  refine TwoRuns.get.bind fun s t hst => ?_
  rw [hst.history]
  refine (TwoRuns.raising (.refl _)).bind fun request _ hrequest => ?_
  subst hrequest
  refine (TwoRuns.raising (.refl _)).bind fun bytes _ hbytes => ?_
  subst hbytes
  refine (TwoRuns.modify fun s t hst => ⟨by rw [hst.requests], hst.history⟩).bind fun _ _ _ => ?_
  refine (TwoRuns.raising (.refl _)).bind fun stdout _ hstdout => ?_
  subst hstdout
  refine (TwoRuns.raising (.refl _)).bind fun candidate _ hcandidate => ?_
  subst hcandidate
  refine (TwoRuns.raising (h _ _)).bind fun returned returned' hreturned => ?_
  rw [maskFeedback_agree g.ctx hreturned]
  refine (TwoRuns.raising (.refl _)).bind fun feedback _ hfeedback => ?_
  subst hfeedback
  refine (TwoRuns.raising (.refl _)).bind fun trial _ htrial => ?_
  subst htrial
  exact TwoRuns.modify fun s t hst => ⟨hst.requests, by rw [hst.history]⟩

/-! ## What the wire reads -/

omit [FloatRead F] [Sha256] in
/-- no value that is read is the empty string -/
theorem decodeTagged_ne {v : AdaptiveValue} (h : decodeTagged value = .ok v) : v ≠ .string [] := by
  simp only [decodeTagged, except_bind_eq_ok] at h
  obtain ⟨_, -, kind, -, h⟩ := h
  unfold decodeKind at h
  by_cases hdecimal : kind = PyStr.ofString "decimal"
  · rw [if_pos hdecimal] at h
    simp only [except_bind_eq_ok, except_pure_eq_ok] at h
    obtain ⟨_, -, _, -, rfl⟩ := h
    simp
  rw [if_neg hdecimal] at h
  split at h
  · cases h
    simp
  · rename_i s _ hs
    cases h
    intro hempty
    cases hempty
    split_ifs at hs
    exact absurd (Option.filter_eq_some_iff.1 hs).2 (by decide)
  · split_ifs at h
    simp only [except_bind_eq_ok] at h
    obtain ⟨_, -, h⟩ := h
    split at h
    · cases h
      simp
    · cases h

omit [FloatRead F] in
theorem vectorFromWire_spec {v : AdaptiveVector} (h : vectorFromWire value = .ok v) : .string [] ∉ v.values := by
  simp only [vectorFromWire, except_bind_eq_ok] at h
  obtain ⟨_, -, entries, hentries, hmake⟩ := h
  obtain ⟨-, -, rfl⟩ := AdaptiveVector.make_eq_ok.1 hmake
  intro hempty
  obtain ⟨e, he, hvalue⟩ := List.mem_map.1 hempty
  obtain ⟨raw, -, hread⟩ := forall₂_mem_right (mapM_eq_ok.1 hentries) he
  simp only [parameterFromWire, except_bind_eq_ok] at hread
  obtain ⟨_, -, name, -, read, htagged, hparameter⟩ := hread
  obtain ⟨-, -, rfl⟩ := AdaptiveParameter.make_eq_ok.1 hparameter
  exact decodeTagged_ne htagged hvalue

/-- a candidate that can follow a history in order -/
structure Follows (b : ParameterBounds) (history : List VisibleTrial) (c : AttackCandidate) : Prop where
  built : c.Built
  nonempty : .string [] ∉ c.params.values
  vector : ∃ v, b.validateVector c.params = .ok v
  generation : c.generation = history.length
  parent : checkParent history.length (candidateIds history) c = .ok ()

omit [FloatRead F] in
/-- **A candidate that came through the wire** follows the history it was read against. -/
theorem candidateFromWire_spec {c : AttackCandidate} (horder : InOrder history)
    (h : candidateFromWire value history b = .ok c) : Follows b history c := by
  simp only [candidateFromWire, except_bind_eq_ok, check_eq_ok, except_pure_eq_ok, exists_const] at h
  obtain ⟨_, -, parent, -, params, hparams, generation, -, candidate, hmake, _, -, -, checked, hlineage, v, hvector,
    rfl⟩ := h
  simp only [validateCandidateLineage, except_bind_eq_ok, check_eq_ok, decide_eq_true_eq, except_pure_eq_ok,
    exists_const] at hlineage
  obtain ⟨rebuilt, hrebuilt, visible, hvisible, hgeneration, hroot, hparent, rfl⟩ := hlineage
  obtain ⟨hbuilt, rfl⟩ := built_of_reconstructCandidate hrebuilt
  obtain ⟨-, hsorted, -⟩ := reconstructHistory_eq_ok.1 hvisible
  rw [horder.sorted] at hsorted
  subst hsorted
  refine ⟨hbuilt, ?_, ⟨v, hvector⟩, hgeneration, ?_⟩
  · rw [(AttackCandidate.make_seal hmake).2]
    exact vectorFromWire_spec hparams
  · simp only [checkParent, except_bind_eq_ok, check_eq_ok, decide_eq_true_eq, exists_const]
    have hnil : visible.length = 0 ↔ visible = [] := List.length_eq_zero_iff
    rw [ne_eq, hnil]
    refine ⟨hroot, hparent.imp id fun hany => ?_⟩
    rw [candidateIds, List.any_map]
    exact hany

omit [FloatRead F] in
theorem inOrder_snoc {t : VisibleTrial} (h : InOrder history) (hgeneration : t.candidate.generation = history.length)
    (hparent : checkParent history.length (candidateIds history) t.candidate = .ok ()) : InOrder (history ++ [t]) := by
  refine ⟨?_, ?_⟩
  · have hgen := h.1
    unfold Redteam.generations at hgen ⊢
    rw [List.map_append, hgen, List.length_append, List.length_singleton, List.range_succ, List.map_append]
    simp [hgeneration]
  · rw [checkLineage_append]
    refine ⟨h.2, ?_⟩
    rw [checkLineage, except_bind_eq_ok]
    refine ⟨(), ?_, rfl⟩
    rw [Nat.zero_add, List.nil_append]
    exact hparent

/-! ## Histories of the runner -/

/-- a trial that the wire carries without loss -/
structure Transportable (ctx : DecimalContext) (b : ParameterBounds) (declared : List FeedbackField)
    (t : VisibleTrial) : Prop where
  built : t.Built ctx
  nonempty : .string [] ∉ t.candidate.params.values
  vector : ∃ v, b.validateVector t.candidate.params = .ok v
  disclosable : Disclosable declared t.feedback
  shows : Shows declared t t
  objective : t.objectiveValue = objectiveOf ctx t.feedback.action t.feedback.realizedValue

/-- masking feedback twice is masking it once -/
theorem shown_mask {f g : Feedback} (h : maskFeedback ctx declared f = .ok g) :
    g.action = shownAction declared g ∧ g.reasonFamily = shownReason declared g ∧
      g.realizedValue = shownRealized declared g := by
  rw [maskFeedback_eq] at h
  obtain ⟨-, -, -, -, rfl⟩ := Feedback.make_eq_ok.1 h
  unfold shownReason shownRealized shownAction
  refine ⟨?_, ?_, ?_⟩ <;> dsimp only <;> split_ifs <;> simp_all

omit [FloatRead F] in
/-- **The trial of a generation** is carried without loss. -/
theorem trialOf_spec {c : AttackCandidate} {f g : Feedback} {t : VisibleTrial} (hc : Follows b history c)
    (hmask : maskFeedback ctx declared f = .ok g) (ht : trialOf ctx c g = .ok t) :
    t.candidate = c ∧ Transportable ctx b declared t := by
  have hg : g.Built ctx := Feedback.built_of_make hmask
  obtain ⟨haction, hreason, hrealized⟩ := shown_mask hmask
  simp only [trialOf, except_bind_eq_ok] at ht
  obtain ⟨objective, hobjective, hmake⟩ := ht
  rw [hg.objective, Except.ok.injEq] at hobjective
  subst hobjective
  have heq := VisibleTrial.make_seal hmake
  have hcandidate : t.candidate = c := by rw [heq]
  have hfeedback : t.feedback = g := by rw [heq]
  have hvalue : t.objectiveValue = objectiveOf ctx g.action g.realizedValue := by rw [heq]
  have hdisclosable : Disclosable declared g := by
    rw [← make_shown hg, ← haction, ← hreason, ← hrealized]
    exact ⟨g, hg⟩
  refine ⟨hcandidate, ⟨hcandidate.symm ▸ hc.built, hfeedback.symm ▸ hg, ?_⟩, ?_, ?_, ?_, ?_, ?_⟩
  · rw [hcandidate, hfeedback, hvalue]
    exact hmake
  · exact hcandidate.symm ▸ hc.nonempty
  · exact hcandidate.symm ▸ hc.vector
  · exact hfeedback.symm ▸ hdisclosable
  · rw [Shows, hfeedback]
    exact ⟨rfl, haction, hreason, hrealized⟩
  · rw [hvalue, hfeedback]

/-- the history of a search, as far as it has come -/
structure Kept (g : Setting F E) (s : State F Obs) : Prop where
  trials : ∀ t ∈ s.history, Transportable g.ctx g.bounds g.bundle.feedback t
  inOrder : InOrder s.history

omit [FloatRead F] [Sha256] in
@[simp] theorem contract_eq_ok {α : Type} {x : Except PolicyError α} {a : α} :
    (contract x : Except (SearchError E) α) = .ok a ↔ x = .ok a := by
  cases x <;> simp [contract, Except.mapError]

omit [FloatRead F] in
theorem requestDocument_nodup {bounds : ParameterBounds} {kind : AttackerPolicyKind} {replayCache request : JsonTree F}
    {seed : ℤ} (h : requestDocument bounds kind replayCache seed history declared = .ok request) : declared.Nodup := by
  simp only [requestDocument, feedbackFieldsToWire, checkedFeedbackFields, except_bind_eq_ok, check_eq_ok,
    decide_eq_true_eq] at h
  obtain ⟨_, -, _, ⟨_, ⟨_, -, hnodup⟩, -⟩, -⟩ := h
  exact hnodup

/-- **Step.** A generation keeps the history, and passes a declaration without duplicates only. -/
theorem searchStep_kept {g : Setting F E} {generation : ℕ} {s s' : State F Obs} (hs : Kept g s)
    (h : searchStep g evaluate generation s = .ok ⟨⟩ s') : Kept g s' ∧ g.bundle.feedback.Nodup := by
  simp only [searchStep, bind_eq_ok, raising_eq_ok, get_eq_ok, modify_eq_ok, contract_eq_ok] at h
  obtain ⟨seed, _, ⟨-, rfl⟩, _, _, ⟨rfl, rfl⟩, request, _, ⟨hrequest, rfl⟩, bytes, _, ⟨-, rfl⟩, _, _, rfl, stdout, _,
    ⟨-, rfl⟩, candidate, _, ⟨hcandidate, rfl⟩, returned, _, ⟨-, rfl⟩, feedback, _, ⟨hfeedback, rfl⟩, trial, _,
    ⟨htrial, rfl⟩, rfl⟩ := h
  refine ⟨?_, requestDocument_nodup hrequest⟩
  have hfollows : Follows g.bounds s.history candidate := by
    simp only [candidateOf, except_bind_eq_ok, contract_eq_ok] at hcandidate
    obtain ⟨_, -, _, -, _, -, hread⟩ := hcandidate
    exact candidateFromWire_spec hs.inOrder hread
  obtain ⟨rfl, htransportable⟩ := trialOf_spec hfollows hfeedback htrial
  refine ⟨?_, inOrder_snoc hs.inOrder hfollows.generation hfollows.parent⟩
  intro t ht
  rcases List.mem_append.1 ht with ht | ht
  · exact hs.trials t ht
  · rw [List.mem_singleton.1 ht]
    exact htransportable

/-- **Run.** So do all generations; the first passes a declaration without duplicates only. -/
theorem generations_kept {g : Setting F E} {n : ℕ} {s : State F Obs} (h : generations g evaluate n = .ok ⟨⟩ s) :
    Kept g s ∧ (0 < n → g.bundle.feedback.Nodup) := by
  induction n generalizing s with
  | zero =>
    cases h
    exact ⟨⟨fun t ht => absurd ht List.not_mem_nil, rfl, rfl⟩, fun h => absurd h (lt_irrefl 0)⟩
  | succ n ih =>
    unfold generations turns at h
    obtain ⟨_, t, ht, hstep⟩ := bind_eq_ok.1 h
    obtain ⟨hkept, hnodup⟩ := searchStep_kept (ih ht).1 hstep
    exact ⟨hkept, fun _ => hnodup⟩

/-! ## Transport -/

omit [FloatRead F] in
theorem trialFromWire_objective {t : VisibleTrial} (h : trialFromWire ctx b declared trials value = .ok t) :
    t.objectiveValue = objectiveOf ctx t.feedback.action t.feedback.realizedValue := by
  simp only [trialFromWire, except_bind_eq_ok] at h
  obtain ⟨_, -, _, -, _, -, action, -, realized, -, reason, -, feedback, hfeedback, hmake⟩ := h
  obtain ⟨-, -, -, -, rfl⟩ := Feedback.make_eq_ok.1 hfeedback
  rw [VisibleTrial.make_seal hmake]

omit [FloatRead F] in
theorem trialsFromWire_objective {values : List (JsonTree F)} {out : List VisibleTrial}
    (htrials : ∀ t ∈ trials, t.objectiveValue = objectiveOf ctx t.feedback.action t.feedback.realizedValue)
    (h : trialsFromWire ctx b declared trials values = .ok out) :
    ∀ t ∈ out, t.objectiveValue = objectiveOf ctx t.feedback.action t.feedback.realizedValue := by
  induction values generalizing trials with
  | nil =>
    cases h
    exact htrials
  | cons value values ih =>
    simp only [trialsFromWire, except_bind_eq_ok] at h
    obtain ⟨t, ht, hrest⟩ := h
    refine ih (fun u hu => ?_) hrest
    rcases List.mem_append.1 hu with hu | hu
    · exact htrials u hu
    · rw [List.mem_singleton.1 hu]
      exact trialFromWire_objective ht

omit [FloatRead F] in
theorem Transportable.eq {t t' : VisibleTrial} (h : Transportable ctx b declared t) (hshows : Shows declared t t')
    (hbuilt : t'.Built ctx)
    (hobjective : t'.objectiveValue = objectiveOf ctx t'.feedback.action t'.feedback.realizedValue) : t' = t := by
  obtain ⟨-, haction, hreason, hrealized⟩ := h.shows
  obtain ⟨hc', haction', hreason', hrealized'⟩ := hshows
  have hfeedback : t'.feedback = t.feedback := by
    have hmake := hbuilt.feedback
    unfold Feedback.Built at hmake
    rw [haction', hreason', hrealized', ← haction, ← hreason, ← hrealized] at hmake
    exact Except.ok.inj (hmake.symm.trans h.built.feedback)
  have hvalue : t'.objectiveValue = t.objectiveValue := by
    rw [hobjective, h.objective, hfeedback]
  have hmake := hbuilt.make
  rw [hc', hfeedback, hvalue] at hmake
  exact Except.ok.inj (hmake.symm.trans h.built.make)

omit [FloatRead F] in
/-- **A history of the runner survives the wire.** -/
theorem Kept.transport (hdigest : ∀ bytes, Sha256.hexdigestBytes bytes ≠ "") {g : Setting F E} {s : State F Obs}
    (hs : Kept g s) (hnodup : g.bundle.feedback.Nodup) :
    ∃ doc : JsonTree F, historyToWire s.history g.bundle.feedback = .ok doc ∧
      historyFromWire g.ctx doc g.bounds g.bundle.feedback = .ok s.history := by
  have hbuilt : ∀ t ∈ s.history, t.Built g.ctx := fun t ht => (hs.trials t ht).built
  have hvisible := reconstructHistory_inOrder (fun t ht => (hbuilt t ht).pristine) hs.inOrder
  refine ⟨_, historyToWire_built hbuilt hvisible g.bundle.feedback_ne hnodup, ?_⟩
  obtain ⟨hread, hreads⟩ := trialsFromWire_document (F := F) hdigest [] s.history hbuilt
    (fun t ht => (hs.trials t ht).vector) hs.inOrder [] (List.Forall₂.nil (R := Shows g.bundle.feedback))
    fun t ht => absurd ht List.not_mem_nil
  obtain ⟨out, hout⟩ := hreads fun t ht => ⟨(hs.trials t ht).nonempty, (hs.trials t ht).disclosable⟩
  obtain ⟨-, hshows, hok⟩ := hread out hout
  have hobjective := trialsFromWire_objective (fun t ht => absurd ht List.not_mem_nil) hout
  have heq : out = s.history := by
    rw [List.nil_append] at hshows
    have hall : List.Forall₂ (fun t t' => t' = t) s.history out := by
      refine List.forall₂_iff_get.2 ⟨hshows.length_eq, fun i h₁ h₂ => ?_⟩
      exact (hs.trials _ (List.get_mem _ _)).eq (hshows.get h₁ h₂) (hok _ (List.get_mem _ _))
        (hobjective _ (List.get_mem _ _))
    exact List.forall₂_eq_eq_eq ▸ hall.flip
  rw [heq] at hout
  simp only [historyFromWire, except_bind_eq_ok]
  exact ⟨(), checkedFeedbackFields_ok g.bundle.feedback_ne hnodup, _, rfl, s.history, hout, hvisible⟩

/-- **What is not disclosed does not steer the search.** Two evaluators that agree on the declared feedback lead to the
same requests at every number of generations, and to the same error or the same history, so the same winner. And every
history a search builds is what the wire gives back of it, exactly when the declaration has no duplicates; a search with
duplicates does not pass its first generation. -/
theorem undisclosed_feedback (hdigest : ∀ bytes, Sha256.hexdigestBytes bytes ≠ "") (g : Setting F E) :
    (∀ (evaluate : Evaluator E Obs) (evaluate' : Evaluator E Obs'),
      EvaluatorsAgree g.bundle.feedback evaluate evaluate' →
      (∀ n, Alike Same Eq (generations g evaluate n) (generations g evaluate' n)) ∧
      Alike (fun s t => Same s t ∧ winner s.history = winner t.history) Eq (search g evaluate) (search g evaluate')) ∧
    ∀ (evaluate : Evaluator E Obs) n s, generations g evaluate n = .ok ⟨⟩ s →
      ((∃ doc : JsonTree F, historyToWire s.history g.bundle.feedback = .ok doc ∧
        historyFromWire g.ctx doc g.bounds g.bundle.feedback = .ok s.history) ↔ g.bundle.feedback.Nodup) ∧
      (0 < n → g.bundle.feedback.Nodup) := by
  refine ⟨fun evaluate evaluate' hagree => ?_, fun evaluate n s hs => ?_⟩
  · have hall : ∀ n, Alike Same Eq (generations g evaluate n) (generations g evaluate' n) := fun n =>
      TwoRuns.turns (searchStep_two g hagree) n _ _ ⟨rfl, rfl⟩
    exact ⟨hall, (hall _).mono fun s t hst => ⟨hst, by rw [hst.history]⟩⟩
  · obtain ⟨hkept, hnodup⟩ := generations_kept hs
    refine ⟨⟨?_, hkept.transport hdigest⟩, hnodup⟩
    rintro ⟨doc, hdoc, -⟩
    simp only [historyToWire, checkedFeedbackFields, except_bind_eq_ok, check_eq_ok, decide_eq_true_eq] at hdoc
    obtain ⟨_, -, _, ⟨_, -, hnodup'⟩, -⟩ := hdoc
    exact hnodup'

end RunSearch

/-! ## A generation -/

namespace RunSearch

/-- a response with the root candidate of the sample bounds -/
def sampleResponse : JsonTree Unit :=
  letI := checksum
  document [("audit", .null), ("candidate", candidateDocument (sampleCandidate sampleValue)), ("ok", .bool true)]

def sampleBundle (feedback : List FeedbackField) (feedback_ne : feedback ≠ []) : ScenarioBundle :=
  ⟨PyStr.ofString "scenario", 1, PyStr.ofString "card", 1, feedback, feedback_ne⟩

/-- a worker that proposes the root candidate, whatever it is asked -/
def sampleSetting (seed : ℤ) (feedback : List FeedbackField) (feedback_ne : feedback ≠ []) : Setting Unit Empty :=
  letI := checksum
  letI := noFloats
  { limit := none
    ctx := .default
    readAudit := fun _ => some ⟨.fixed, false, none, 0, seed⟩
    replayCache := .null
    worker := fun _ => .ok (encodeUtf8 sampleResponse.text)
    bundle := sampleBundle feedback feedback_ne
    policy := ⟨PyStr.ofString "app_scam_mule", .static, .fixed, 1⟩
    bounds := sampleBounds sampleValue }

/-- an evaluator that declines every candidate for a reason, without a realised value -/
def declining (reason : String) : Evaluator Empty Unit :=
  letI := checksum
  fun _ _ => .ok (sampleFeedback .decline reason none, ())

theorem sampleResponse_readable : sampleResponse.Readable none := by
  refine ⟨?_, ?_, ?_, rfl⟩ <;> decide +kernel

theorem document_sorted {F : Type} {fields : List (String × JsonTree F)}
    (hnames : (fields.map fun p => PyStr.ofString p.1).Pairwise (· ≤ ·)) (h : ∀ p ∈ fields, p.2.sorted = p.2) :
    (document fields).sorted = document fields := by
  have hitems : (fields.map fun p => (PyStr.ofString p.1, p.2)).map (fun i => (i.1, JsonTree.sorted i.2)) =
      fields.map fun p => (PyStr.ofString p.1, p.2) := by
    rw [List.map_map]
    exact List.map_congr_left fun p hp => by rw [Function.comp_apply, h p hp]
  unfold document
  rw [JsonTree.sorted_dict, hitems, sortBy_of_sorted]
  rw [List.pairwise_map] at hnames ⊢
  exact hnames

theorem sampleResponse_sorted : sampleResponse.sorted = sampleResponse := by
  let _ := checksum
  have hvalue : (sampleValue.taggedValue : JsonTree Unit).sorted = sampleValue.taggedValue :=
    document_sorted (by decide) (by simp [JsonTree.sorted])
  have hparams : ((sampleCandidate sampleValue).params.document : JsonTree Unit).sorted =
      (sampleCandidate sampleValue).params.document := by
    unfold AdaptiveVector.document
    rw [JsonTree.sorted_list, List.map_map]
    congr 1
    refine List.map_congr_left fun p hp => ?_
    cases List.mem_singleton.1 hp
    exact document_sorted (by decide) (by simp [JsonTree.sorted, hvalue])
  refine document_sorted (by decide) ?_
  have hcandidate : (candidateDocument (sampleCandidate sampleValue) : JsonTree Unit).sorted =
      candidateDocument (sampleCandidate sampleValue) := by
    refine document_sorted (by decide) ?_
    simp only [List.forall_mem_cons]
    exact ⟨rfl, rfl, hparams, rfl, fun _ h => absurd h List.not_mem_nil⟩
  simp only [List.forall_mem_cons]
  exact ⟨rfl, hcandidate, rfl, fun _ h => absurd h List.not_mem_nil⟩

/-- an object in canonical form is what is loaded from its text -/
theorem loadOutput_document {F E : Type} [FloatRead F] {limit : Option ℕ} {fields : List (String × JsonTree F)}
    (hread : (document fields).Readable limit) (hsorted : (document fields).sorted = document fields) :
    loadOutput (E := E) limit (encodeUtf8 (document fields).text) = .ok (document fields) := by
  have hloads := (strictJsonLoads_canonicalJsonBytes hread).2
  rw [hsorted] at hloads
  unfold loadOutput
  rw [hloads]
  rfl

theorem canonicalJsonBytes_unit (t : JsonTree Unit) :
    letI := noFloats
    canonicalJsonBytes none t = .ok (encodeUtf8 t.text) := by
  let _ := noFloats
  have hall : ∀ p : JsonTree Unit → Bool, (∀ t, p t = true) → ∀ t : JsonTree Unit, t.all p = true := by
    intro p hp t
    induction t using JsonTree.induct with
    | null => simp [hp]
    | bool b => simp [hp]
    | int n => simp [hp]
    | float x => simp [hp]
    | str s => simp [hp]
    | list xs ih => simpa [hp] using ih
    | dict items ih => simpa [hp] using ih
  refine canonicalJsonBytes_eq_ok.2 ⟨hall _ (fun t => ?_) t, hall _ (fun t => ?_) t, rfl⟩ <;> cases t <;> rfl

/-- the sample search passes its first generation -/
theorem sampleSetting_runs {feedback : List FeedbackField} (feedback_ne : feedback ≠ []) (hnodup : feedback.Nodup)
    {reason : String} (hpublic : publicReasonFamilies.contains (PyStr.ofString reason) = true)
    (hconsistent : Feedback.actionAndReasonAreConsistent .decline (PyStr.ofString reason) = .ok ())
    (hdisclosable : letI := checksum; Disclosable feedback (sampleFeedback .decline reason none)) :
    letI := checksum
    letI := noFloats
    ∃ seed s, generations (sampleSetting seed feedback feedback_ne) (declining reason) 1 = .ok ⟨⟩ s := by
  let _ := checksum
  let _ := noFloats
  have hvalue : sampleValue.adaptiveValue = .ok () := rfl
  obtain ⟨seed, hseed⟩ : ∃ seed, proposalSeed Unit none (sampleBundle feedback feedback_ne)
      ⟨PyStr.ofString "app_scam_mule", .static, .fixed, 1⟩ 0 = .ok seed := by
    unfold proposalSeed
    rw [canonicalJsonBytes_unit]
    exact ⟨_, rfl⟩
  have hnone : ∀ t ∈ ([] : List VisibleTrial), t.Built .default := fun t ht => absurd ht List.not_mem_nil
  obtain ⟨request, hrequest⟩ : ∃ request, requestDocument (sampleBounds sampleValue) .fixed .null seed [] feedback =
      .ok (request : JsonTree Unit) := by
    simp only [requestDocument, feedbackFieldsToWire, except_bind_eq_ok, except_pure_eq_ok]
    exact ⟨_, _, boundsToWire_built (sampleBounds_built hvalue), _, ⟨(), checkedFeedbackFields_ok feedback_ne hnodup, rfl⟩,
      _, historyToWire_built hnone (reconstructHistory_inOrder (fun t ht => absurd ht List.not_mem_nil) ⟨rfl, rfl⟩) feedback_ne hnodup, rfl⟩
  have hload : loadOutput (F := Unit) (E := Empty) none (encodeUtf8 sampleResponse.text) = .ok sampleResponse :=
    loadOutput_document sampleResponse_readable sampleResponse_sorted
  have hcandidate : candidateOf (F := Unit) (E := Empty) none (fun _ => some ⟨.fixed, false, none, 0, seed⟩)
      (sampleBounds sampleValue) .fixed seed [] (encodeUtf8 sampleResponse.text) =
      .ok (sampleCandidate sampleValue) := by
    obtain ⟨items, hitems, hfields⟩ : ∃ items, object sampleResponse ["audit", "candidate", "ok"] "response" = .ok items ∧
        field items "ok" = .bool true ∧ field items "candidate" = candidateDocument (sampleCandidate sampleValue) := by
      refine ⟨_, object_document rfl _, ?_, ?_⟩ <;> simp [field_cons]
    have hresponse : checkResponse (E := Empty) sampleResponse = .ok items := by
      unfold checkResponse
      rw [hitems]
      dsimp only
      rw [hfields.1]
    simp only [candidateOf, except_bind_eq_ok, contract_eq_ok]
    refine ⟨_, hload, items, hresponse, (), ?_, ?_⟩
    · exact check_eq_ok.2 (decide_eq_true ⟨rfl, rfl, rfl, rfl, rfl⟩)
    · rw [hfields.2]
      exact candidateFromWire_document checksum_ne (sampleCandidate_lineage hvalue) (sampleVector_valid hvalue)
        (sampleCandidate_built hvalue) (by decide +kernel)
  have hfeedback : (sampleFeedback .decline reason none).Built .default :=
    sampleFeedback_built .decline reason none hpublic rfl hconsistent
  obtain ⟨masked, hmasked⟩ := (make_shown hfeedback).2 hdisclosable
  rw [← maskFeedback_eq] at hmasked
  have hmaskedBuilt : masked.Built .default := Feedback.built_of_make hmasked
  obtain ⟨trial, htrial⟩ : ∃ t, trialOf .default (sampleCandidate sampleValue) masked = .ok t := by
    obtain ⟨t, ht, -⟩ := VisibleTrial.make_objective (sampleCandidate_built hvalue) hmaskedBuilt
    simp only [trialOf, except_bind_eq_ok]
    exact ⟨t, _, hmaskedBuilt.objective, ht⟩
  refine ⟨seed, ⟨[request], [trial], [()]⟩, ?_⟩
  simp only [generations, turns, searchStep, bind_eq_ok, raising_eq_ok, get_eq_ok, modify_eq_ok, contract_eq_ok,
    pure_eq_ok]
  exact ⟨⟨⟩, _, ⟨trivial, rfl⟩, seed, _, ⟨hseed, rfl⟩, _, _, ⟨rfl, rfl⟩, request, _, ⟨hrequest, rfl⟩, _, _,
    ⟨canonicalJsonBytes_unit request, rfl⟩, (), _, rfl, _, _, ⟨rfl, rfl⟩, _, _, ⟨hcandidate, rfl⟩, _, _, ⟨rfl, rfl⟩, masked, _,
    ⟨hmasked, rfl⟩, trial, _, ⟨htrial, rfl⟩, rfl⟩

theorem declining_agree (reason reason' : String) :
    EvaluatorsAgree [.action] (declining reason) (declining reason') := by
  intro n candidate
  refine .ok ⟨fun _ => rfl, fun h => ?_, fun h => ?_⟩
  · cases h
  · cases h

theorem undisclosed_feedback_sample :
    letI := checksum
    letI := noFloats
    ∃ seed s t, generations (sampleSetting seed [.action] (by decide)) (declining "velocity") 1 = .ok ⟨⟩ s ∧
      generations (sampleSetting seed [.action] (by decide)) (declining "amount") 1 = .ok ⟨⟩ t ∧
      t.requests = s.requests ∧ t.history = s.history ∧
      ∃ doc : JsonTree Unit, historyToWire s.history [.action] = .ok doc ∧
        historyFromWire .default doc (sampleBounds sampleValue) [.action] = .ok s.history := by
  let _ := checksum
  let _ := noFloats
  obtain ⟨seed, s, hs⟩ := @sampleSetting_runs [.action] (by decide) (by decide) "velocity" (by decide) (by decide)
    (fun h => by cases h)
  have hall := @undisclosed_feedback Unit Empty Unit Unit noFloats checksum checksum_ne
    (sampleSetting seed [.action] (by decide))
  have hnodup : ([.action] : List FeedbackField).Nodup := by decide
  have htransport := ((hall.2 (declining "velocity") 1 s hs).1).2 hnodup
  have hrun := (hall.1 (declining "velocity") (declining "amount") (declining_agree "velocity" "amount")).1 1
  rw [hs] at hrun
  generalize ht : generations (sampleSetting seed [.action] (by decide)) (declining "amount") 1 = run at hrun
  cases hrun with
  | ok hvalue hst =>
    exact ⟨seed, s, _, hs, ht, hst.requests.symm, hst.history.symm, htransport⟩

/-- a declaration that names a field twice: no history is written, not even that of the start -/
theorem duplicate_not_written :
    letI := checksum
    letI := noFloats
    ∃ s, generations (sampleSetting 0 [.action, .action] (by decide)) (declining "velocity") 0 = .ok ⟨⟩ s ∧
      ¬ ∃ doc : JsonTree Unit, historyToWire s.history [.action, .action] = .ok doc ∧
        historyFromWire .default doc (sampleBounds sampleValue) [.action, .action] = .ok s.history := by
  let _ := checksum
  let _ := noFloats
  refine ⟨⟨[], [], []⟩, rfl, ?_⟩
  rintro ⟨doc, hdoc, -⟩
  simp only [historyToWire, checkedFeedbackFields, except_bind_eq_ok, check_eq_ok, decide_eq_true_eq] at hdoc
  obtain ⟨_, -, _, ⟨_, -, hnodup⟩, -⟩ := hdoc
  exact absurd hnodup (by decide)

end RunSearch

end Apar
