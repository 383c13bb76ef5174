/-
What the wire discloses of a history (`history_to_wire`, `history_from_wire`).

- `trialFromWire_document`: one trial is read back with its disclosed feedback, neutral values elsewhere, exactly when
  no value of its candidate is the empty string and its reason family suits the action it is read with.
- `historyFromWire_document`: the same of a history, by induction over its trials.
- `history_disclosure`: that, and what is not disclosed leaves the document as it is.
-/
import Apar.Runs.WireRoundTrip

namespace Apar

open Exec Redteam

namespace Wire

/-! ## Disclosed feedback -/

/-- the action the attacker is shown -/
def shownAction (declared : List FeedbackField) (f : Feedback) : Action :=
  if actionIsDeclared declared then f.action else .challenge

/-- the reason family the attacker is shown -/
def shownReason (declared : List FeedbackField) (f : Feedback) : PyStr :=
  if declared.contains .reasonFamily then f.reasonFamily
  else PyStr.ofString (if shownAction declared f = .approve then "approved" else "other")

/-- the realised value the attacker is shown -/
def shownRealized (declared : List FeedbackField) (f : Feedback) : Option DecimalTuple :=
  if declared.contains .realizedValue then f.realizedValue else none

/-- a reason family that a challenge may have, where it is disclosed without the action -/
def Disclosable (declared : List FeedbackField) (f : Feedback) : Prop :=
  declared.contains .reasonFamily = true → actionIsDeclared declared = false →
    f.reasonFamily ∉ ["approved", "evaluation_failure", "invalid_candidate"].map PyStr.ofString

/-- a trial as the attacker sees it -/
def Shows (declared : List FeedbackField) (t t' : VisibleTrial) : Prop :=
  t'.candidate = t.candidate ∧ t'.feedback.action = shownAction declared t.feedback ∧
    t'.feedback.reasonFamily = shownReason declared t.feedback ∧
    t'.feedback.realizedValue = shownRealized declared t.feedback

/-- two trials with one candidate and the same disclosed feedback -/
def Agree (declared : List FeedbackField) (t t' : VisibleTrial) : Prop :=
  t'.candidate = t.candidate ∧
    (actionIsDeclared declared = true → t'.feedback.action = t.feedback.action) ∧
    (declared.contains .reasonFamily = true → t'.feedback.reasonFamily = t.feedback.reasonFamily) ∧
    (declared.contains .realizedValue = true → t'.feedback.realizedValue = t.feedback.realizedValue)

theorem consistent_eq_ok {action : Action} {reason : PyStr} :
    Feedback.actionAndReasonAreConsistent action reason = .ok () ↔
      (action = .approve ↔ reason = PyStr.ofString "approved") ∧
      (reason ∉ ["evaluation_failure", "invalid_candidate"].map PyStr.ofString ∨ action = .decline) := by
  simp only [Feedback.actionAndReasonAreConsistent, except_bind_eq_ok, check_eq_ok, decide_eq_true_eq, exists_const]

/-- the feedback shown is consistent exactly when it was disclosable -/
theorem consistent_shown {declared : List FeedbackField} {f : Feedback}
    (hf : Feedback.actionAndReasonAreConsistent f.action f.reasonFamily = .ok ()) :
    Feedback.actionAndReasonAreConsistent (shownAction declared f) (shownReason declared f) = .ok () ↔
      Disclosable declared f := by
  unfold Disclosable shownReason
  cases hreason : declared.contains FeedbackField.reasonFamily with
  | false =>
    have hneutral : ∀ action : Action, Feedback.actionAndReasonAreConsistent action
        (PyStr.ofString (if action = .approve then "approved" else "other")) = .ok () := by
      intro action
      cases action <;> decide
    simp only [Bool.false_eq_true, if_false, false_implies, iff_true]
    exact hneutral _
  | true =>
    simp only [if_true, true_implies]
    unfold shownAction
    cases haction : actionIsDeclared declared with
    | true => simpa using hf
    | false =>
      rw [if_neg (by decide), consistent_eq_ok]
      simp only [List.map_cons, List.map_nil, List.mem_cons, List.not_mem_nil, or_false, not_or, true_implies]
      constructor
      · rintro ⟨happroved, hfailure | hdecline⟩
        · exact ⟨fun h => absurd (happroved.2 h) (by decide), hfailure⟩
        · exact absurd hdecline (by decide)
      · rintro ⟨happroved, hfailure⟩
        exact ⟨⟨fun h => absurd h (by decide), fun h => absurd h happroved⟩, .inl hfailure⟩

section

variable {F : Type} [Sha256] {ctx : DecimalContext}

variable {declared fields : List FeedbackField} {items : List (PyStr × JsonTree F)} {t t' : VisibleTrial}
  {xs ys visible : List VisibleTrial}

/-- the feedback shown is accepted exactly when it was disclosable -/
theorem make_shown {f : Feedback} (hf : f.Built ctx) :
    (∃ g, Feedback.make ctx (shownAction declared f) (shownReason declared f) (shownRealized declared f) = .ok g) ↔
      Disclosable declared f := by
  obtain ⟨hne, hpublic, hrealized, hconsistent, -⟩ := Feedback.make_eq_ok.1 hf
  have hreason : shownReason declared f ≠ [] ∧ publicReasonFamilies.contains (shownReason declared f) = true := by
    unfold shownReason
    split_ifs
    · exact ⟨hne, hpublic⟩
    · decide
    · decide
  have hvalue : Feedback.realizedValueIsExact ctx (shownRealized declared f) = .ok () := by
    unfold shownRealized
    split_ifs
    · exact hrealized
    · rfl
  rw [← consistent_shown hconsistent]
  constructor
  · rintro ⟨g, hg⟩
    exact (Feedback.make_eq_ok.1 hg).2.2.2.1
  · intro h
    exact ⟨_, Feedback.make_eq_ok.2 ⟨hreason.1, hreason.2, hvalue, h, rfl⟩⟩

/-! ## One trial -/

/-- the field names of a trial's feedback -/
def feedbackNames (declared : List FeedbackField) : List String :=
  (if actionIsDeclared declared then ["action"] else []) ++
    (if declared.contains .reasonFamily then ["reason_family"] else []) ++
    (if declared.contains .realizedValue then ["realized_value"] else [])

omit [Sha256] in
theorem object_feedback (declared : List FeedbackField) (f : Feedback) :
    ∃ items : List (PyStr × JsonTree F),
      object (feedbackToWire declared f) (feedbackNames declared) "visible feedback" = .ok items ∧
        Assoc.get? (PyStr.ofString "action") items =
          (if actionIsDeclared declared then some (.str (PyStr.ofString f.action.value)) else none) ∧
        field items "reason_family" = (if declared.contains .reasonFamily then .str f.reasonFamily else .null) ∧
        field items "realized_value" = (if declared.contains .realizedValue then
          (f.realizedValue.map fun d => JsonTree.str (AdaptiveValue.decimalText d)).getD .null else .null) := by
  unfold feedbackToWire feedbackNames
  cases actionIsDeclared declared <;> cases declared.contains FeedbackField.reasonFamily <;>
    cases declared.contains FeedbackField.realizedValue <;>
    exact ⟨_, object_document rfl _, by simp [Assoc.get?, PyStr.ofString_inj], by simp [field, Assoc.get?, PyStr.ofString_inj],
      by simp [field, Assoc.get?, PyStr.ofString_inj]⟩

omit [Sha256] in
theorem actionOfValue?_value (action : Action) : actionOfValue? (PyStr.ofString action.value) = some action := by
  cases action <;> decide

omit [Sha256] in
theorem actionFromWire_document {f : Feedback} (h : Assoc.get? (PyStr.ofString "action") items =
      (if actionIsDeclared declared then some (.str (PyStr.ofString f.action.value)) else none)) :
    actionFromWire items = .ok (shownAction declared f) := by
  unfold actionFromWire shownAction
  rw [h]
  cases actionIsDeclared declared with
  | false => rfl
  | true =>
    have htext : text (.str (PyStr.ofString f.action.value) : JsonTree F) "feedback action" =
        .ok (PyStr.ofString f.action.value) := text_str (ofString_ne_nil (by cases f.action <;> decide)) _
    simp only [if_true, htext, except_ok_bind, actionOfValue?_value]
    rfl

omit [Sha256] in
theorem realizedFromWire_document {f : Feedback}
    (h : field items "realized_value" = (if declared.contains .realizedValue then
      (f.realizedValue.map fun d => JsonTree.str (AdaptiveValue.decimalText d)).getD .null else .null)) :
    realizedFromWire items = .ok (shownRealized declared f) := by
  unfold realizedFromWire shownRealized
  rw [h]
  cases declared.contains FeedbackField.realizedValue with
  | false => rfl
  | true =>
    cases f.realizedValue with
    | none => rfl
    | some d =>
      simp only [if_true, Option.map_some, Option.getD_some, text_str (decimalText_ne_nil d)]
      show (decimal _ _ _ >>= _) = _
      rw [decimal_decimalText]
      rfl

theorem reasonFromWire_document {f : Feedback} (hf : f.Built ctx)
    (h : field items "reason_family" = (if declared.contains .reasonFamily then .str f.reasonFamily else .null)) :
    reasonFromWire (shownAction declared f) items = .ok (shownReason declared f) := by
  unfold reasonFromWire shownReason
  rw [h]
  cases declared.contains FeedbackField.reasonFamily with
  | false => rfl
  | true =>
    simp only [if_true]
    exact text_str (Feedback.make_eq_ok.1 hf).1 _

/-- the document of a trial -/
def trialDocument (declared : List FeedbackField) (t : VisibleTrial) : JsonTree F :=
  document [("candidate", candidateDocument t.candidate), ("feedback", feedbackToWire declared t.feedback)]

theorem trialToWire_built (ht : t.Built ctx) :
    trialToWire declared t = .ok (trialDocument declared t : JsonTree F) := by
  rw [trialToWire, candidateToWire_pristine ht.candidate.pristine]
  rfl

omit [Sha256] in
theorem object_trial (c f : JsonTree F) :
    ∃ items : List (PyStr × JsonTree F),
      object (document [("candidate", c), ("feedback", f)]) ["candidate", "feedback"] "visible trial" = .ok items ∧
        field items "candidate" = c ∧ field items "feedback" = f := by
  refine ⟨_, object_document rfl _, ?_, ?_⟩ <;> simp [field_cons]

/-- **One trial.** A trial is read exactly when its candidate has no empty string and its reason is disclosable, and
then it shows what it should. -/
theorem trialFromWire_document (hdigest : ∀ bytes, Sha256.hexdigestBytes bytes ≠ "") {b : ParameterBounds}
    (declared : List FeedbackField) {trials : List VisibleTrial} {v : AdaptiveVector} (ht : t.Built ctx)
    (hlineage : validateCandidateLineage t.candidate trials = .ok t.candidate)
    (hvector : b.validateVector t.candidate.params = .ok v) :
    (∀ t', trialFromWire ctx b declared trials (trialDocument declared t : JsonTree F) = .ok t' →
      .string [] ∉ t.candidate.params.values ∧ Disclosable declared t.feedback ∧ Shows declared t t' ∧ t'.Built ctx) ∧
    (.string [] ∉ t.candidate.params.values → Disclosable declared t.feedback →
      ∃ t', trialFromWire ctx b declared trials (trialDocument declared t : JsonTree F) = .ok t') := by
  obtain ⟨items, hitems, hcandidate, hfeedback⟩ :=
    object_trial (F := F) (candidateDocument t.candidate) (feedbackToWire declared t.feedback)
  obtain ⟨fields, hfields, haction, hreason, hrealized⟩ := object_feedback (F := F) declared t.feedback
  have haction' := actionFromWire_document haction
  have hrealized' := realizedFromWire_document hrealized
  have hreason' := reasonFromWire_document ht.feedback hreason
  have hread : ∀ t', trialFromWire ctx b declared trials (trialDocument declared t : JsonTree F) = .ok t' ↔
      ∃ c g, candidateFromWire (candidateDocument t.candidate : JsonTree F) trials b = .ok c ∧
        Feedback.make ctx (shownAction declared t.feedback) (shownReason declared t.feedback)
          (shownRealized declared t.feedback) = .ok g ∧
        VisibleTrial.make ctx c g (objectiveOf ctx (shownAction declared t.feedback) (shownRealized declared t.feedback)) =
          .ok t' := by
    intro t'
    unfold trialDocument
    unfold feedbackNames at hfields
    simp only [trialFromWire, except_bind_eq_ok]
    constructor
    · rintro ⟨items', hitems', c, hc, fields', hfields', action, ha, realized, hr, reason, hs, g, hg, hmake⟩
      rw [hitems, Except.ok.injEq] at hitems'
      subst hitems'
      rw [hfeedback, hfields, Except.ok.injEq] at hfields'
      subst hfields'
      rw [haction', Except.ok.injEq] at ha
      subst ha
      rw [hrealized', Except.ok.injEq] at hr
      subst hr
      rw [hreason', Except.ok.injEq] at hs
      subst hs
      exact ⟨c, g, hcandidate ▸ hc, hg, hmake⟩
    · rintro ⟨c, g, hc, hg, hmake⟩
      exact ⟨items, hitems, c, by rw [hcandidate]; exact hc, fields, by rw [hfeedback]; exact hfields, _, haction', _,
        hrealized', _, hreason', g, hg, hmake⟩
  have hobjective : ∀ g, Feedback.make ctx (shownAction declared t.feedback) (shownReason declared t.feedback)
      (shownRealized declared t.feedback) = .ok g → g.action = shownAction declared t.feedback ∧
        g.reasonFamily = shownReason declared t.feedback ∧ g.realizedValue = shownRealized declared t.feedback := by
    intro g hg
    obtain ⟨-, -, -, -, rfl⟩ := Feedback.make_eq_ok.1 hg
    exact ⟨rfl, rfl, rfl⟩
  refine ⟨?_, ?_⟩
  · intro t' ht'
    obtain ⟨c, g, hc, hg, hmake⟩ := (hread t').1 ht'
    have hne := candidateFromWire_ne hc
    rw [candidateFromWire_document hdigest hlineage hvector ht.candidate hne, Except.ok.injEq] at hc
    obtain ⟨ha, hs, hr⟩ := hobjective g hg
    subst hc
    rw [← ha, ← hr] at hmake
    obtain ⟨u, hu, hcu, hfu, hbuilt⟩ := VisibleTrial.make_objective ht.candidate (Feedback.built_of_make hg)
    rw [hu, Except.ok.injEq] at hmake
    subst hmake
    exact ⟨hne, (make_shown ht.feedback).1 ⟨g, hg⟩, ⟨hcu, hfu ▸ ha, hfu ▸ hs, hfu ▸ hr⟩, hbuilt⟩
  · intro hne hdisclosable
    obtain ⟨g, hg⟩ := (make_shown ht.feedback).2 hdisclosable
    obtain ⟨ha, hs, hr⟩ := hobjective g hg
    obtain ⟨u, hu, -, -, -⟩ := VisibleTrial.make_objective ht.candidate (Feedback.built_of_make hg)
    rw [ha, hr] at hu
    exact ⟨u, (hread u).2 ⟨t.candidate, g, candidateFromWire_document hdigest hlineage hvector ht.candidate hne, hg, hu⟩⟩

/-! ## Histories -/

omit [Sha256] in
theorem shows_candidates (h : List.Forall₂ (Shows declared) xs ys) :
    ys.map VisibleTrial.candidate = xs.map VisibleTrial.candidate := by
  induction h with
  | nil => rfl
  | cons hxy _ ih => rw [List.map_cons, List.map_cons, hxy.1, ih]

/-- **The trials of a history**, those before them read already. -/
theorem trialsFromWire_document (hdigest : ∀ bytes, Sha256.hexdigestBytes bytes ≠ "") {b : ParameterBounds}
    (before rest : List VisibleTrial) (hbuilt : ∀ t ∈ rest, t.Built ctx)
    (hvector : ∀ t ∈ rest, ∃ v, b.validateVector t.candidate.params = .ok v) (horder : InOrder (before ++ rest))
    (trials : List VisibleTrial) (hshown : List.Forall₂ (Shows declared) before trials)
    (htrials : ∀ t ∈ trials, t.Built ctx) :
    (∀ out, trialsFromWire ctx b declared trials (rest.map (trialDocument (F := F) declared)) = .ok out →
      (∀ t ∈ rest, .string [] ∉ t.candidate.params.values ∧ Disclosable declared t.feedback) ∧
        List.Forall₂ (Shows declared) (before ++ rest) out ∧ ∀ t ∈ out, t.Built ctx) ∧
    ((∀ t ∈ rest, .string [] ∉ t.candidate.params.values ∧ Disclosable declared t.feedback) →
      ∃ out, trialsFromWire ctx b declared trials (rest.map (trialDocument (F := F) declared)) = .ok out) := by
  induction rest generalizing before trials with
  | nil =>
    refine ⟨?_, fun _ => ⟨trials, rfl⟩⟩
    intro out hout
    cases hout
    rw [List.append_nil]
    exact ⟨fun t ht => absurd ht List.not_mem_nil, hshown, htrials⟩
  | cons t rest ih =>
    obtain ⟨v, hv⟩ := hvector t (by simp)
    have ht := hbuilt t (by simp)
    have hlineage := validateCandidateLineage_next (fun u hu => (htrials u hu).pristine) (shows_candidates hshown) horder
      ht.candidate
    obtain ⟨hread, hreads⟩ := trialFromWire_document (F := F) hdigest declared ht hlineage hv
    have hnext : ∀ t', Shows declared t t' → t'.Built ctx → _ := fun t' hshows hbuilt' =>
      ih (before ++ [t]) (fun u hu => hbuilt u (by simp [hu]))
        (fun u hu => hvector u (by simp [hu])) (by rwa [List.append_assoc, List.singleton_append])
        (trials ++ [t']) (List.rel_append hshown (.cons hshows .nil)) (by
          intro u hu
          rcases List.mem_append.1 hu with hu | hu
          · exact htrials u hu
          · exact List.mem_singleton.1 hu ▸ hbuilt')
    rw [List.append_assoc, List.singleton_append] at hnext
    simp only [List.map_cons, trialsFromWire, except_bind_eq_ok]
    refine ⟨?_, ?_⟩
    · rintro out ⟨t', ht', hout⟩
      obtain ⟨hne, hdisclosable, hshows, hbuilt'⟩ := hread t' ht'
      obtain ⟨hrest, hall, hok⟩ := (hnext t' hshows hbuilt').1 out hout
      exact ⟨List.forall_mem_cons.2 ⟨⟨hne, hdisclosable⟩, hrest⟩, hall, hok⟩
    · intro hcond
      obtain ⟨hne, hdisclosable⟩ := hcond t (by simp)
      obtain ⟨t', ht'⟩ := hreads hne hdisclosable
      obtain ⟨-, -, hshows, hbuilt'⟩ := hread t' ht'
      obtain ⟨out, hout⟩ := (hnext t' hshows hbuilt').2 fun u hu => hcond u (by simp [hu])
      exact ⟨out, t', ht', hout⟩

omit [Sha256] in
theorem checkedFeedbackFields_ok (hne : fields ≠ []) (hnodup : fields.Nodup) :
    checkedFeedbackFields fields = .ok () := by
  simp only [checkedFeedbackFields, except_bind_eq_ok, check_eq_ok]
  exact ⟨(), decide_eq_true hne, decide_eq_true hnodup⟩

theorem historyToWire_built {h : List VisibleTrial} (hbuilt : ∀ t ∈ visible, t.Built ctx)
    (hvisible : reconstructHistory h = .ok visible) (hne : fields ≠ []) (hnodup : fields.Nodup) :
    historyToWire h fields = .ok (.list (visible.map (trialDocument (F := F) fields))) := by
  have htrials : visible.mapM (trialToWire (F := F) fields) = .ok (visible.map (trialDocument fields)) := by
    rw [mapM_eq_ok, List.forall₂_map_right_iff, List.forall₂_same]
    exact fun t ht => trialToWire_built (hbuilt t ht)
  simp only [historyToWire, except_bind_eq_ok, except_pure_eq_ok]
  exact ⟨visible, hvisible, (), checkedFeedbackFields_ok hne hnodup, _, htrials, rfl⟩

/-- **A history is read back** with its disclosed feedback exactly when no candidate has an empty string and every
reason family is disclosable. -/
theorem historyFromWire_document (hdigest : ∀ bytes, Sha256.hexdigestBytes bytes ≠ "") {b : ParameterBounds}
    (hbuilt : ∀ t ∈ visible, t.Built ctx) (horder : InOrder visible)
    (hvector : ∀ t ∈ visible, ∃ v, b.validateVector t.candidate.params = .ok v) (hne : fields ≠ [])
    (hnodup : fields.Nodup) :
    (∃ out, historyFromWire ctx (.list (visible.map (trialDocument (F := F) fields))) b fields = .ok out ∧
      List.Forall₂ (Shows fields) visible out) ↔
    ∀ t ∈ visible, .string [] ∉ t.candidate.params.values ∧ Disclosable fields t.feedback := by
  obtain ⟨hread, hreads⟩ := trialsFromWire_document (F := F) hdigest [] visible hbuilt hvector horder
    [] (List.Forall₂.nil (R := Shows fields)) (fun t ht => absurd ht List.not_mem_nil)
  simp only [historyFromWire, except_bind_eq_ok]
  constructor
  · rintro ⟨out, ⟨_, -, items, hitems, trials, htrials, -⟩, -⟩
    cases hitems
    exact (hread trials htrials).1
  · intro hcond
    obtain ⟨out, hout⟩ := hreads hcond
    obtain ⟨-, hshows, hok⟩ := hread out hout
    have horder' : InOrder out := horder.congr (shows_candidates hshows).symm
    exact ⟨out, ⟨(), checkedFeedbackFields_ok hne hnodup, _, rfl, out, hout,
      reconstructHistory_inOrder (fun t ht => (hok t ht).pristine) horder'⟩, hshows⟩

/-! ## What is not disclosed -/

omit [Sha256] in
theorem feedbackToWire_agree (h : Agree declared t t') :
    feedbackToWire (F := F) declared t'.feedback = feedbackToWire declared t.feedback := by
  obtain ⟨-, haction, hreason, hrealized⟩ := h
  unfold feedbackToWire
  congr 2
  · congr 1
    · split_ifs with ha
      · rw [haction ha]
      · rfl
    · split_ifs with hr
      · rw [hreason hr]
      · rfl
  · split_ifs with hv
    · rw [hrealized hv]
    · rfl

theorem trialToWire_agree (h : Agree declared t t') : trialToWire (F := F) declared t' = trialToWire declared t := by
  rw [trialToWire, trialToWire, feedbackToWire_agree h, h.1]

theorem mapM_trialToWire_agree (h : List.Forall₂ (Agree declared) xs ys) :
    ys.mapM (trialToWire (F := F) declared) = xs.mapM (trialToWire declared) := by
  induction h with
  | nil => rfl
  | cons hxy _ ih => rw [List.mapM_cons, List.mapM_cons, trialToWire_agree hxy, ih]

end

section

variable {F : Type} [Sha256]

/-- **Disclosure on the wire.** A valid history is read back with every disclosed field as it was and neutral values
elsewhere, exactly when no parameter value is the empty string and no reason family is disclosed without its action that
a challenge cannot have. Histories that differ only in what is not disclosed have the same document. -/
theorem history_disclosure (hdigest : ∀ bytes, Sha256.hexdigestBytes bytes ≠ "") (ctx : DecimalContext) :
    (∀ (h visible : List VisibleTrial) (fields : List FeedbackField) (b : ParameterBounds),
      (∀ t ∈ h, t.Built ctx) → reconstructHistory h = .ok visible → fields ≠ [] → fields.Nodup →
      (∀ t ∈ h, ∃ v, b.validateVector t.candidate.params = .ok v) →
      ∃ doc : JsonTree F, historyToWire h fields = .ok doc ∧
        ((∃ out, historyFromWire ctx doc b fields = .ok out ∧ List.Forall₂ (Shows fields) visible out) ↔
          ∀ t ∈ h, .string [] ∉ t.candidate.params.values ∧ Disclosable fields t.feedback)) ∧
    (∀ (h h' visible visible' : List VisibleTrial) (fields : List FeedbackField),
      reconstructHistory h = .ok visible → reconstructHistory h' = .ok visible' → List.Forall₂ (Agree fields) h h' →
      historyToWire (F := F) h fields = historyToWire h' fields) := by
  refine ⟨?_, ?_⟩
  · intro h visible fields b hbuilt hvisible hne hnodup hvector
    obtain ⟨-, hsorted, horder⟩ := reconstructHistory_eq_ok.1 hvisible
    have hmem : ∀ t, t ∈ visible ↔ t ∈ h := fun t => by rw [hsorted, mem_sortBy]
    have hbuilt' : ∀ t ∈ visible, t.Built ctx := fun t ht => hbuilt t ((hmem t).1 ht)
    refine ⟨_, historyToWire_built hbuilt' hvisible hne hnodup, ?_⟩
    rw [historyFromWire_document hdigest hbuilt' horder (fun t ht => hvector t ((hmem t).1 ht)) hne hnodup]
    exact forall_congr' fun t => imp_congr (hmem t) Iff.rfl
  · intro h h' visible visible' fields hvisible hvisible' hagree
    obtain ⟨-, hsorted, -⟩ := reconstructHistory_eq_ok.1 hvisible
    obtain ⟨-, hsorted', -⟩ := reconstructHistory_eq_ok.1 hvisible'
    have hkeys : ∀ a b, Agree fields a b → a.candidate.generation = b.candidate.generation := fun a b hab => by rw [hab.1]
    have hall : List.Forall₂ (Agree fields) visible visible' := by
      rw [hsorted, hsorted']
      exact forall₂_sortBy hkeys hagree
    unfold historyToWire
    rw [hvisible, hvisible']
    show (checkedFeedbackFields fields >>= fun _ => visible.mapM (trialToWire fields) >>= _) =
      (checkedFeedbackFields fields >>= fun _ => visible'.mapM (trialToWire fields) >>= _)
    rw [mapM_trialToWire_agree hall]

/-! ## A trial -/

def sampleFeedback (action : Action) (reason : String) (realized : Option DecimalTuple) : Feedback :=
  let f : Feedback := ⟨action, PyStr.ofString reason, realized, []⟩
  { f with integritySeal := f.computedSeal }

/-- the root candidate of the sample bounds with some feedback -/
def sampleTrial (action : Action) (reason : String) (realized : Option DecimalTuple) : VisibleTrial :=
  let t : VisibleTrial := ⟨sampleCandidate sampleValue, sampleFeedback action reason realized,
    objectiveOf .default action realized, []⟩
  { t with integritySeal := t.computedSeal }

theorem sampleFeedback_built (action : Action) (reason : String) (realized : Option DecimalTuple)
    (hpublic : publicReasonFamilies.contains (PyStr.ofString reason) = true)
    (hrealized : Feedback.realizedValueIsExact .default realized = .ok ())
    (hconsistent : Feedback.actionAndReasonAreConsistent action (PyStr.ofString reason) = .ok ()) :
    (sampleFeedback action reason realized).Built .default := by
  have hne : PyStr.ofString reason ≠ [] := by
    intro h
    rw [h] at hpublic
    revert hpublic
    decide
  exact Feedback.make_eq_ok.2 ⟨hne, hpublic, hrealized, hconsistent, rfl⟩

theorem sampleTrial_built {action : Action} {reason : String} {realized : Option DecimalTuple}
    (hf : (sampleFeedback action reason realized).Built .default) :
    (sampleTrial action reason realized).Built .default := by
  have hvalue : sampleValue.adaptiveValue = .ok () := rfl
  obtain ⟨t, ht, -, -, hbuilt⟩ := VisibleTrial.make_objective (sampleCandidate_built hvalue) hf
  have heq : t = sampleTrial action reason realized := VisibleTrial.make_seal ht
  exact heq ▸ hbuilt

theorem sampleTrial_inOrder (action : Action) (reason : String) (realized : Option DecimalTuple) :
    InOrder [sampleTrial action reason realized] := ⟨rfl, rfl⟩

theorem sampleTrial_history {action : Action} {reason : String} {realized : Option DecimalTuple}
    (h : (sampleTrial action reason realized).Built .default) :
    reconstructHistory [sampleTrial action reason realized] = .ok [sampleTrial action reason realized] :=
  reconstructHistory_inOrder (fun _ ht => List.mem_singleton.1 ht ▸ h.pristine) (sampleTrial_inOrder _ _ _)

end

/-- 12.50, approved -/
theorem history_disclosure_sample :
    let _ := checksum
    let t := sampleTrial .approve "approved" (some ⟨false, 1250, -2⟩)
    let u := sampleTrial .decline "velocity" (some ⟨false, 1250, -2⟩)
    (∃ doc : JsonTree Empty, historyToWire [t] [.action, .reasonFamily, .realizedValue] = .ok doc ∧
      ∃ out, historyFromWire .default doc (sampleBounds sampleValue) [.action, .reasonFamily, .realizedValue] = .ok out ∧
        List.Forall₂ (Shows [.action, .reasonFamily, .realizedValue]) [t] out) ∧
    historyToWire (F := Empty) [t] [.realizedValue] = historyToWire [u] [.realizedValue] := by
  let _ := checksum
  have hvalue : sampleValue.adaptiveValue = .ok () := rfl
  have ht := sampleTrial_built (sampleFeedback_built .approve "approved" (some ⟨false, 1250, -2⟩)
    (by decide) (by decide) (by decide))
  have hu := sampleTrial_built (sampleFeedback_built .decline "velocity" (some ⟨false, 1250, -2⟩)
    (by decide) (by decide) (by decide))
  refine ⟨?_, ?_⟩
  · obtain ⟨doc, hwrite, hread⟩ := (history_disclosure (F := Empty) checksum_ne .default).1
      [sampleTrial .approve "approved" (some ⟨false, 1250, -2⟩)] _ [.action, .reasonFamily, .realizedValue]
      (sampleBounds sampleValue) (fun t h => List.mem_singleton.1 h ▸ ht) (sampleTrial_history ht) (by decide) (by decide)
      (fun t h => List.mem_singleton.1 h ▸ ⟨_, sampleVector_valid hvalue⟩)
    refine ⟨doc, hwrite, hread.2 ?_⟩
    intro t h
    rw [List.mem_singleton.1 h]
    refine ⟨by decide, ?_⟩
    intro _ haction
    cases haction
  · refine (history_disclosure (F := Empty) checksum_ne .default).2 _ _ _ _ [.realizedValue] (sampleTrial_history ht)
      (sampleTrial_history hu) (.cons ⟨rfl, ?_, ?_, fun _ => rfl⟩ .nil)
    · intro h
      cases h
    · intro h
      cases h

/-- an approved trial whose reason alone is disclosed is written, and not read -/
theorem approved_reason_not_read :
    let _ := checksum
    let t := sampleTrial .approve "approved" none
    t.Built .default ∧ reconstructHistory [t] = .ok [t] ∧
      (∃ v, (sampleBounds sampleValue).validateVector t.candidate.params = .ok v) ∧
      ∃ doc : JsonTree Empty, historyToWire [t] [.reasonFamily] = .ok doc ∧
        ∀ out, historyFromWire .default doc (sampleBounds sampleValue) [.reasonFamily] ≠ .ok out := by
  let _ := checksum
  have hvalue : sampleValue.adaptiveValue = .ok () := rfl
  have ht := sampleTrial_built (sampleFeedback_built .approve "approved" none
    (by decide) rfl (by decide))
  have hbuilt : ∀ t ∈ [sampleTrial .approve "approved" none], t.Built .default := fun t h => List.mem_singleton.1 h ▸ ht
  have hvector : ∀ t ∈ [sampleTrial .approve "approved" none],
      ∃ v, (sampleBounds sampleValue).validateVector t.candidate.params = .ok v :=
    fun t h => List.mem_singleton.1 h ▸ ⟨_, sampleVector_valid hvalue⟩
  refine ⟨ht, sampleTrial_history ht, hvector _ (by simp), _,
    historyToWire_built hbuilt (sampleTrial_history ht) (by decide) (by decide), ?_⟩
  intro out hout
  simp only [historyFromWire, except_bind_eq_ok] at hout
  obtain ⟨_, -, items, hitems, trials, htrials, -⟩ := hout
  cases hitems
  have hread := (trialsFromWire_document (F := Empty) checksum_ne [] _ hbuilt hvector (sampleTrial_inOrder _ _ _)
    [] (List.Forall₂.nil (R := Shows [.reasonFamily])) (fun t h => absurd h List.not_mem_nil)).1 trials htrials
  have hdisclosable := (hread.1 (sampleTrial .approve "approved" none) (List.mem_singleton.2 rfl)).2
  exact hdisclosable rfl rfl (by decide)

end Wire

end Apar
