/-
The assertions about a hidden evaluation authority and its calls, and what the steps of a call do to them.

A call that has reserved the evaluation is alone: the lifecycle is not READY from its reservation on, and another call
reserves only when it is. The stage of the call says what the lifecycle and the events are. A call that is issuing is alone
in the same way, and no call leaves ISSUING behind.

- `freezeStep_cases`: what a step of `freeze_and_issue` does.
- `evaluateNext_spec`: what a statement of `evaluate_hidden_replay` outside the lock sections establishes.
- `evaluateStep_ok`: a step of `evaluate_hidden_replay` keeps the assertions about the authority and about the call.
-/
import Apar.EvaluationHidden.Authority

namespace Apar

namespace HiddenAuthority

/-! ## Assertions -/

/-- what a call of `evaluate_hidden_replay` has done to the authority -/
inductive Stage where
  | idle
  | reserved
  | stored (receipt : FreezeReceipt)
  | consumed (receipt : FreezeReceipt)
  | invoked
  | finishing
  | closed

/-- the lifecycle and the events at a stage of call `i` -/
def Stage.Holds (s : Authority) (i : ℕ) : Stage → Prop
  | idle => True
  | reserved => s.lifecycle = .reserved ∧ s.events = []
  | stored receipt => s.lifecycle = .reserved ∧ s.events = [.stored i receipt]
  | consumed receipt => s.lifecycle = .consumed ∧ s.events = [.stored i receipt]
  | invoked | closed => s.lifecycle = .consumed
  | finishing => s.lifecycle ≠ .ready

namespace EvaluatePhase

def stage : EvaluatePhase → Stage
  | start | reserving | finishing false _ | done false _ => .idle
  | consuming _ _ receipt _ => .stored receipt
  | requesting _ _ receipt _ => .consumed receipt
  | invoking request => .consumed request.freezeReceipt
  | concluding => .invoked
  | finishing true _ => .finishing
  | done true _ => .closed
  | _ => .reserved

/-- `reserved_here` -/
def reservedHere : EvaluatePhase → Bool
  | start | reserving => false
  | finishing reservedHere _ | done reservedHere _ => reservedHere
  | _ => true

/-- the capability has been compared with the active one -/
def presented : EvaluatePhase → Bool
  | start | reserving | checkingActive _ | checkingCapability _ | concluding | finishing _ _ | done _ _ => false
  | _ => true

/-- the release and seal times that have been compared -/
def times : EvaluatePhase → Option (ℤ × ℤ)
  | capping r | freezing r | drawing r _ | documenting r _ _ | digesting r _ _ | binding r _ _ _
  | digestingBindings r _ _ _ | signing r _ | storing r _ _ | consuming r _ _ _ | requesting r _ _ _ =>
    some (r.releaseTime, r.sealTime)
  | invoking q => some (q.releasedAt, q.sealedAt)
  | _ => none

end EvaluatePhase

def Presented (s : Authority) (args : EvaluateArgs) : Prop :=
  ∃ c, args.capability = .bound c ∧ s.activeCapability = some c

def Timed (s : Authority) (times : ℤ × ℤ) : Prop :=
  ∃ t, s.capabilityIssuedAt = some t ∧ t ≤ times.1 ∧ times.1 ≤ times.2

/-- the assertion about a call of `evaluate_hidden_replay` -/
structure EvaluateOk (s : Authority) (i : ℕ) (args : EvaluateArgs) (p : EvaluatePhase) : Prop where
  stage : p.stage.Holds s i
  presented : p.presented = true → Presented s args
  times : ∀ x, p.times = some x → Timed s x
  refused : ∀ {r}, p = .finishing false r ∨ p = .done false r → ∃ e, r = .error e

namespace FreezePhase

/-- between the two lock sections of `freeze_and_issue` -/
def issuing : FreezePhase → Bool
  | start | locking | done _ => false
  | _ => true

/-- the call is issuing, or has issued the capability -/
def claimed : FreezePhase → Bool
  | start | locking | done (.error _) => false
  | _ => true

end FreezePhase

/-- the assertion about a call of `freeze_and_issue` -/
structure FreezeOk (s : Authority) (p : FreezePhase) : Prop where
  issuing : p.issuing = true → s.issuanceState = .issuing
  issued : ∀ {c}, p = .done (.ok c) → s.activeCapability = some c

namespace Local

def Ok (s : Authority) (i : ℕ) : Local → Prop
  | freeze _ p => FreezeOk s p
  | evaluate args p => EvaluateOk s i args p

def reservedHere : Local → Bool
  | freeze _ _ => false
  | evaluate _ p => p.reservedHere

def claimed : Local → Bool
  | freeze _ p => p.claimed
  | evaluate _ _ => false

/-- a call of `freeze_and_issue` that is in its issuing section -/
def issuing : Local → Bool
  | freeze _ p => p.issuing
  | evaluate _ _ => false

end Local

/-- a receipt is stored once and the worker is invoked once, in this order and by one call -/
def Recorded (events : List Event) : Prop :=
  events = [] ∨ (∃ i receipt, events = [.stored i receipt]) ∨
    ∃ i request, events = [.stored i request.freezeReceipt, .invoked i request]

/-- the assertion about the authority -/
structure Sound (s : Authority) : Prop where
  active : s.activeCapability ≠ none → s.issuanceState = .frozen
  ready : s.lifecycle = .ready → s.events = []
  recorded : Recorded s.events

def outline : Calls.Outline Authority Local where
  shared := Sound
  call s i l := l.Ok s i
  pair _ l m := ¬ (l.reservedHere = true ∧ m.reservedHere = true) ∧ ¬ (l.claimed = true ∧ m.claimed = true)

/-- the authority only advances -/
structure Later (s s' : Authority) : Prop where
  active : s.activeCapability ≠ none → s'.activeCapability = s.activeCapability ∧
    s'.activeAttestation = s.activeAttestation ∧ s'.capabilityDigest = s.capabilityDigest ∧
    s'.capabilityIssuedAt = s.capabilityIssuedAt
  ready : s.lifecycle ≠ .ready → s'.lifecycle ≠ .ready
  consumed : s.lifecycle = .consumed → s'.lifecycle = .consumed
  events : s.events <+: s'.events

theorem Later.refl (s : Authority) : Later s s := ⟨fun _ => ⟨rfl, rfl, rfl, rfl⟩, id, id, List.prefix_rfl⟩

theorem Later.trans {s t u : Authority} (h : Later s t) (h' : Later t u) : Later s u where
  active := by
    intro hs
    have hst := h.active hs
    have htu := h'.active (hst.1 ▸ hs)
    exact ⟨htu.1.trans hst.1, htu.2.1.trans hst.2.1, htu.2.2.1.trans hst.2.2.1, htu.2.2.2.trans hst.2.2.2⟩
  ready := h'.ready ∘ h.ready
  consumed := h'.consumed ∘ h.consumed
  events := h.events.trans h'.events

theorem Presented.later {s s' : Authority} {args : EvaluateArgs} (h : Presented s args) (hl : Later s s') :
    Presented s' args := by
  rcases h with ⟨c, hc, hactive⟩
  exact ⟨c, hc, (hl.active (by rw [hactive]; exact Option.some_ne_none c)).1.trans hactive⟩

/-! ## Steps of `freeze_and_issue` -/

section Freeze

variable [Sha256] {s : Authority} {input : Input} {args : FreezeArgs} {p : FreezePhase}

/-- what a step of `freeze_and_issue` does: it takes the issuing section, gives it back, issues, or changes nothing but the
numbering -/
theorem freezeStep_cases (input : Input) (s : Authority) (args : FreezeArgs) (p : FreezePhase) :
    (p = .locking ∧ s.issuanceState = .unissued ∧ s.activeCapability = none ∧
      freezeStep input s args p = ({ s with issuanceState := .issuing }, .verifying)) ∨
    (∃ e, p = .restoring e ∧ freezeStep input s args p =
      (if s.issuanceState = .issuing then { s with issuanceState := .unissued } else s, .done (.error e))) ∨
    (∃ a t d c, p = .publishing a t d c ∧ s.issuanceState = .issuing ∧ s.activeCapability = none ∧
      freezeStep input s args p =
        (⟨some c, some a, some d, some t, s.releaseSequence, s.lifecycle, .frozen, s.nextCapability, s.events⟩,
          .done (.ok c))) ∨
    ∃ n p', freezeStep input s args p = ({ s with nextCapability := n }, p') ∧
      (p'.issuing = p.issuing ∨ p'.issuing = false ∧ (s.issuanceState ≠ .issuing ∨ s.activeCapability ≠ none)) ∧
      (p'.claimed = true → p.claimed = true) ∧ ∀ c, p' = .done (.ok c) → p = .done (.ok c) := by
  have silent : ∀ p' : FreezePhase, freezeStep input s args p = (s, p') → p'.issuing = p.issuing →
      (p'.claimed = true → p.claimed = true) → (∀ c, p' = .done (.ok c) → p = .done (.ok c)) →
      ∃ n p', freezeStep input s args p = ({ s with nextCapability := n }, p') ∧
        (p'.issuing = p.issuing ∨ p'.issuing = false ∧ (s.issuanceState ≠ .issuing ∨ s.activeCapability ≠ none)) ∧
        (p'.claimed = true → p.claimed = true) ∧ ∀ c, p' = .done (.ok c) → p = .done (.ok c) :=
    fun p' h hissuing hclaimed hdone => ⟨s.nextCapability, p', h, Or.inl hissuing, hclaimed, hdone⟩
  cases p with
  | start =>
    refine Or.inr (Or.inr (Or.inr ?_))
    cases hinstance : args.isInstance with
    | false => exact silent (.done (.error _)) (by rw [freezeStep, hinstance]; rfl) rfl nofun nofun
    | true => exact silent .locking (by rw [freezeStep, hinstance]; rfl) rfl nofun nofun
  | locking =>
    by_cases hfree : s.issuanceState ≠ .unissued ∨ s.activeCapability ≠ none
    · exact Or.inr (Or.inr (Or.inr (silent (.done (.error _)) (by rw [freezeStep, if_pos hfree]) rfl nofun nofun)))
    · have hnot := not_or.1 hfree
      exact Or.inl ⟨rfl, not_not.1 hnot.1, not_not.1 hnot.2, by rw [freezeStep, if_neg hfree]⟩
  | verifying =>
    refine Or.inr (Or.inr (Or.inr ?_))
    cases hatt : args.attestation with
    | none => exact silent (.restoring _) (by rw [freezeStep, hatt]) rfl (fun _ => rfl) nofun
    | some a =>
      cases hfault : input.fault with
      | some e => exact silent (.restoring e) (by rw [freezeStep, hatt, hfault]) rfl (fun _ => rfl) nofun
      | none =>
        cases hv : input.verified with
        | true => exact silent (.timing a) (by rw [freezeStep, hatt, hfault, hv]; rfl) rfl (fun _ => rfl) nofun
        | false => exact silent (.restoring _) (by rw [freezeStep, hatt, hfault, hv]; rfl) rfl (fun _ => rfl) nofun
  | timing a =>
    refine Or.inr (Or.inr (Or.inr ?_))
    cases hfault : input.fault with
    | some e => exact silent (.restoring e) (by rw [freezeStep, hfault]) rfl (fun _ => rfl) nofun
    | none =>
      cases hutc : utc args.issuedAt "hidden capability issue time" with
      | ok t => exact silent (.ordering a t) (by rw [freezeStep, hfault, hutc]) rfl (fun _ => rfl) nofun
      | error e => exact silent (.restoring e) (by rw [freezeStep, hfault, hutc]) rfl (fun _ => rfl) nofun
  | ordering a t =>
    refine Or.inr (Or.inr (Or.inr ?_))
    cases hfault : input.fault with
    | some e => exact silent (.restoring e) (by rw [freezeStep, hfault]) rfl (fun _ => rfl) nofun
    | none =>
      by_cases hlt : a.frozenAt > t
      · exact silent (.restoring _) (by rw [freezeStep, hfault]; exact if_pos hlt) rfl (fun _ => rfl) nofun
      · exact silent (.digesting a t) (by rw [freezeStep, hfault]; exact if_neg hlt) rfl (fun _ => rfl) nofun
  | digesting a t =>
    refine Or.inr (Or.inr (Or.inr ?_))
    cases hfault : input.fault with
    | some e => exact silent (.restoring e) (by rw [freezeStep, hfault]) rfl (fun _ => rfl) nofun
    | none => exact silent (.creating a t _) (by rw [freezeStep, hfault]) rfl (fun _ => rfl) nofun
  | creating a t d =>
    refine Or.inr (Or.inr (Or.inr ?_))
    cases hfault : input.fault with
    | some e => exact silent (.restoring e) (by rw [freezeStep, hfault]) rfl (fun _ => rfl) nofun
    | none => exact ⟨_, .publishing a t d s.nextCapability, by rw [freezeStep, hfault], Or.inl rfl, fun _ => rfl, nofun⟩
  | restoring e => exact Or.inr (Or.inl ⟨e, rfl, rfl⟩)
  | publishing a t d c =>
    by_cases hlost : s.issuanceState ≠ .issuing ∨ s.activeCapability ≠ none
    · exact Or.inr (Or.inr (Or.inr ⟨s.nextCapability, .done (.error _), by rw [freezeStep, if_pos hlost],
        Or.inr ⟨rfl, hlost⟩, nofun, nofun⟩))
    · have hnot := not_or.1 hlost
      refine Or.inr (Or.inr (Or.inl ⟨a, t, d, c, rfl, not_not.1 hnot.1, not_not.1 hnot.2, ?_⟩))
      rw [freezeStep, if_neg hlost]
  | done r => exact Or.inr (Or.inr (Or.inr (silent (.done r) rfl rfl id fun _ h => h)))

/-- a step of `freeze_and_issue` keeps the lifecycle and the events -/
theorem freezeStep_lifecycle (input : Input) (s : Authority) (args : FreezeArgs) (p : FreezePhase) :
    (freezeStep input s args p).1.lifecycle = s.lifecycle ∧ (freezeStep input s args p).1.events = s.events := by
  rcases freezeStep_cases input s args p with ⟨_, _, _, heq⟩ | ⟨e, _, heq⟩ | ⟨_, _, _, _, _, _, _, heq⟩ | ⟨_, _, heq, _⟩
  · rw [heq]
    exact ⟨rfl, rfl⟩
  · rw [heq]
    dsimp only
    split_ifs
    · exact ⟨rfl, rfl⟩
    · exact ⟨rfl, rfl⟩
  · rw [heq]
    exact ⟨rfl, rfl⟩
  · rw [heq]
    exact ⟨rfl, rfl⟩

theorem freezeStep_later (hs : Sound s) (hp : FreezeOk s p) (input : Input) (args : FreezeArgs) :
    Later s (freezeStep input s args p).1 := by
  have hsame := freezeStep_lifecycle input s args p
  refine ⟨?_, by rw [hsame.1]; exact id, by rw [hsame.1]; exact id, by rw [hsame.2]⟩
  intro hactive
  rcases freezeStep_cases input s args p with ⟨_, _, hnone, _⟩ | ⟨e, rfl, heq⟩ | ⟨_, _, _, _, _, _, hnone, _⟩ | ⟨_, _, heq, _⟩
  · exact absurd hnone hactive
  · -- the call would be issuing
    have hissuing := hp.issuing rfl
    rw [hs.active hactive] at hissuing
    cases hissuing
  · exact absurd hnone hactive
  · rw [heq]
    exact ⟨rfl, rfl, rfl, rfl⟩

theorem freezeStep_sound (hs : Sound s) (hp : FreezeOk s p) (input : Input) (args : FreezeArgs) :
    Sound (freezeStep input s args p).1 := by
  have hsame := freezeStep_lifecycle input s args p
  refine ⟨?_, by rw [hsame.1, hsame.2]; exact hs.ready, by rw [hsame.2]; exact hs.recorded⟩
  rcases freezeStep_cases input s args p with ⟨_, _, hnone, heq⟩ | ⟨e, rfl, heq⟩ | ⟨_, _, _, _, _, _, _, heq⟩ | ⟨_, _, heq, _⟩
  · rw [heq]
    exact fun hactive => absurd hnone hactive
  · rw [heq]
    dsimp only
    split_ifs with hissuing
    · intro hactive
      have hfrozen := hs.active hactive
      rw [hissuing] at hfrozen
      cases hfrozen
    · exact hs.active
  · rw [heq]
    exact fun _ => rfl
  · rw [heq]
    exact hs.active

theorem freezeStep_ok (hp : FreezeOk s p) (input : Input) (args : FreezeArgs) :
    FreezeOk (freezeStep input s args p).1 (freezeStep input s args p).2 := by
  rcases freezeStep_cases input s args p with ⟨_, _, _, heq⟩ | ⟨e, rfl, heq⟩ | ⟨_, _, _, c, _, _, _, heq⟩ |
    ⟨n, p', heq, hissuing, _, hdone⟩
  · rw [heq]
    exact ⟨fun _ => rfl, nofun⟩
  · rw [heq]
    exact ⟨nofun, nofun⟩
  · rw [heq]
    refine ⟨nofun, fun h => ?_⟩
    cases h
    rfl
  · rw [heq]
    refine ⟨fun h => ?_, fun h => hp.issued (hdone _ h)⟩
    rcases hissuing with hsame | ⟨hfalse, _⟩
    · exact hp.issuing (hsame ▸ h)
    · rw [hfalse] at h
      cases h

/-- a step of `freeze_and_issue` keeps the assertion about another call of it -/
theorem FreezeOk.freezeStep {q : FreezePhase} (hq : FreezeOk s q) (hs : Sound s) (hp : FreezeOk s p)
    (hpq : ¬ (p.claimed = true ∧ q.claimed = true)) (input : Input) (args : FreezeArgs) :
    FreezeOk (freezeStep input s args p).1 q := by
  have hclaimed : q.issuing = true → q.claimed = true := by
    cases q <;> first | exact id | nofun
  constructor
  · intro hissuing
    have hstate := hq.issuing hissuing
    rcases freezeStep_cases input s args p with ⟨_, hfree, _, _⟩ | ⟨e, rfl, _⟩ | ⟨_, _, _, _, rfl, _, _, _⟩ | ⟨_, _, heq, _⟩
    · rw [hstate] at hfree
      cases hfree
    · exact absurd ⟨rfl, hclaimed hissuing⟩ hpq
    · exact absurd ⟨rfl, hclaimed hissuing⟩ hpq
    · rw [heq]
      exact hstate
  · intro c hc
    have hactive := hq.issued hc
    exact ((freezeStep_later hs hp input args).active (by rw [hactive]; exact Option.some_ne_none c)).1.trans hactive

/-- a step that takes the issuing section finds nobody who claims it -/
theorem freezeStep_claimed {q : FreezePhase} (hq : FreezeOk s q) (hpq : ¬ (p.claimed = true ∧ q.claimed = true))
    (input : Input) (args : FreezeArgs) :
    ¬ ((HiddenAuthority.freezeStep input s args p).2.claimed = true ∧ q.claimed = true) := by
  rintro ⟨hp', hq'⟩
  rcases freezeStep_cases input s args p with ⟨_, hfree, hnone, _⟩ | ⟨e, rfl, _⟩ | ⟨_, _, _, _, rfl, _, _, _⟩ |
    ⟨_, _, heq, _, hclaimed, _⟩
  · cases q with
    | done r =>
      cases r with
      | ok c =>
        rw [hq.issued rfl] at hnone
        cases hnone
      | error e => cases hq'
    | start => cases hq'
    | locking => cases hq'
    | _ =>
      rw [hq.issuing rfl] at hfree
      cases hfree
  · exact hpq ⟨rfl, hq'⟩
  · exact hpq ⟨rfl, hq'⟩
  · rw [heq] at hp'
    exact hpq ⟨hclaimed hp', hq'⟩

end Freeze

/-! ## Steps of `evaluate_hidden_replay` -/

section Evaluate

variable [Sha256] {trusted : Trusted} {s : Authority} {i : ℕ} {args : EvaluateArgs} {p : EvaluatePhase}

/-- the statements that leave the shared state as it is -/
def EvaluatePhase.silent : EvaluatePhase → Bool
  | start | reserving | storing _ _ _ | consuming _ _ _ _ | invoking _ | finishing _ _ | done _ _ => false
  | _ => true

theorem evaluateStep_silent (input : Input) (h : p.silent = true) :
    evaluateStep trusted input s i args p =
      (s, match input.fault, evaluateNext trusted input s args p with
        | none, .ok next => next
        | none, .error e => failed e
        | some e, _ => failed e) := by
  cases p <;> first | rfl | cases h

/-- the stage before and after a silent statement -/
theorem evaluateNext_spec {input : Input} {q : EvaluatePhase} (hp : p.silent = true)
    (h : evaluateNext trusted input s args p = .ok q) :
    (q.stage = p.stage ∨ p.stage = .invoked ∧ q.stage = .finishing) ∧
    (q.presented = true → p.presented = true ∨ Presented s args) ∧ (∀ x, q.times = some x → p.times = some x ∨ Timed s x) ∧
    q.reservedHere = true := by
  cases p with
  | start => cases hp
  | reserving => cases hp
  | storing _ _ _ => cases hp
  | consuming _ _ _ _ => cases hp
  | invoking _ => cases hp
  | finishing _ _ => cases hp
  | done _ _ => cases hp
  | checkingActive n =>
    rw [evaluateNext] at h
    split_ifs at h
    cases h
    exact ⟨Or.inl rfl, nofun, nofun, rfl⟩
  | checkingCapability n =>
    rw [evaluateNext] at h
    split at h
    next presented active hcap hactive =>
      split_ifs at h with hne
      cases h
      exact ⟨Or.inl rfl, fun _ => Or.inr ⟨active, not_not.1 hne ▸ hcap, hactive⟩, nofun, rfl⟩
    next => cases h
  | verifying n =>
    rw [evaluateNext] at h
    split_ifs at h
    cases h
    exact ⟨Or.inl rfl, fun _ => Or.inl rfl, nofun, rfl⟩
  | checkingRef n =>
    rw [evaluateNext] at h
    cases href : restrictedRef args.restrictedRef <;> rw [href] at h <;> cases h
    exact ⟨Or.inl rfl, fun _ => Or.inl rfl, nofun, rfl⟩
  | timingRelease n ref =>
    rw [evaluateNext] at h
    cases ht : utc args.releasedAt "hidden release time" <;> rw [ht] at h <;> cases h
    exact ⟨Or.inl rfl, fun _ => Or.inl rfl, nofun, rfl⟩
  | timingSeal n ref t =>
    rw [evaluateNext] at h
    cases ht : utc args.sealedAt "hidden seal time" <;> rw [ht] at h <;> cases h
    exact ⟨Or.inl rfl, fun _ => Or.inl rfl, nofun, rfl⟩
  | asserting r =>
    rw [evaluateNext] at h
    split_ifs at h
    cases h
    exact ⟨Or.inl rfl, fun _ => Or.inl rfl, nofun, rfl⟩
  | ordering r =>
    rw [evaluateNext] at h
    split at h
    next => cases h
    next t ht =>
      split_ifs at h with horder
      cases h
      have hnot := not_or.1 horder
      refine ⟨Or.inl rfl, fun _ => Or.inl rfl, fun x hx => ?_, rfl⟩
      cases hx
      exact Or.inr ⟨t, ht, not_lt.1 hnot.1, not_lt.1 hnot.2⟩
  | capping r =>
    rw [evaluateNext] at h
    split_ifs at h
    cases h
    exact ⟨Or.inl rfl, fun _ => Or.inl rfl, fun _ => Or.inl, rfl⟩
  | signing r d =>
    rw [evaluateNext] at h
    split at h
    next =>
      cases h
      exact ⟨Or.inl rfl, fun _ => Or.inl rfl, fun _ => Or.inl, rfl⟩
    next => cases h
  | requesting r d receipt ref =>
    rw [evaluateNext] at h
    split at h
    next =>
      cases h
      exact ⟨Or.inl rfl, fun _ => Or.inl rfl, fun _ => Or.inl, rfl⟩
    next => cases h
  | concluding =>
    cases h
    exact ⟨Or.inr ⟨rfl, rfl⟩, nofun, nofun, rfl⟩
  | freezing _ | drawing _ _ | documenting _ _ _ | digesting _ _ _ | binding _ _ _ _ | digestingBindings _ _ _ _ =>
    cases h
    exact ⟨Or.inl rfl, fun _ => Or.inl rfl, fun _ => Or.inl, rfl⟩

omit [Sha256] in
/-- a statement raises: the reservation stays until the `finally` clause -/
theorem EvaluateOk.failed (h : s.lifecycle ≠ .ready) (e : Exc) : EvaluateOk s i args (failed e) :=
  ⟨h, nofun, nofun, by rintro r (hr | hr) <;> cases hr⟩

omit [Sha256] in
theorem EvaluatePhase.reservedHere_of_silent (h : p.silent = true) : p.reservedHere = true := by
  cases p <;> first | rfl | cases h

omit [Sha256] in
theorem EvaluatePhase.stage_ne_idle (h : p.reservedHere = true) : p.stage ≠ .idle := by
  cases p with
  | finishing b r =>
    cases h
    nofun
  | done b r =>
    cases h
    nofun
  | start => cases h
  | reserving => cases h
  | _ => nofun

omit [Sha256] in
theorem Stage.not_ready {stage : Stage} (h : stage.Holds s i) (hidle : stage ≠ .idle) : s.lifecycle ≠ .ready := by
  intro hready
  cases stage with
  | idle => exact hidle rfl
  | finishing => exact h hready
  | invoked =>
    rw [Stage.Holds, hready] at h
    cases h
  | closed =>
    rw [Stage.Holds, hready] at h
    cases h
  | reserved =>
    rw [Stage.Holds, hready] at h
    cases h.1
  | stored receipt =>
    rw [Stage.Holds, hready] at h
    cases h.1
  | consumed receipt =>
    rw [Stage.Holds, hready] at h
    cases h.1

omit [Sha256] in
theorem EvaluateOk.not_ready (hp : EvaluateOk s i args p) (h : p.reservedHere = true) : s.lifecycle ≠ .ready :=
  Stage.not_ready hp.stage (EvaluatePhase.stage_ne_idle h)

theorem evaluateStep_silent_ok (hp : EvaluateOk s i args p) (h : p.silent = true) (input : Input) :
    EvaluateOk s i args (evaluateStep trusted input s i args p).2 := by
  have hready := hp.not_ready (EvaluatePhase.reservedHere_of_silent h)
  rw [evaluateStep_silent input h]
  dsimp only
  cases input.fault with
  | some e => exact EvaluateOk.failed hready e
  | none =>
    cases hnext : evaluateNext trusted input s args p with
    | error e => exact EvaluateOk.failed hready e
    | ok q =>
      rcases evaluateNext_spec h hnext with ⟨hstage, hpresented, htimes, hreserved⟩
      dsimp only
      refine ⟨?_, ?_, ?_, ?_⟩
      · rcases hstage with hsame | ⟨_, hfinish⟩
        · rw [hsame]
          exact hp.stage
        · rw [hfinish]
          exact hready
      · exact fun hq => (hpresented hq).elim hp.presented id
      · exact fun x hx => (htimes x hx).elim (hp.times x) id
      · rintro r (rfl | rfl)
        · cases hreserved
        · cases hreserved

/-- **A step of `evaluate_hidden_replay` keeps the assertions about the authority and about the call.** -/
theorem evaluateStep_ok (hs : Sound s) (hp : EvaluateOk s i args p) (input : Input) :
    Sound (evaluateStep trusted input s i args p).1 ∧
      EvaluateOk (evaluateStep trusted input s i args p).1 i args (evaluateStep trusted input s i args p).2 ∧
      Later s (evaluateStep trusted input s i args p).1 := by
  cases p with
  | start =>
    rw [evaluateStep]
    split_ifs
    · refine ⟨hs, ⟨trivial, nofun, nofun, ?_⟩, Later.refl s⟩
      rintro r (hr | hr) <;> cases hr
      exact ⟨_, rfl⟩
    · exact ⟨hs, ⟨trivial, nofun, nofun, by rintro r (hr | hr) <;> cases hr⟩, Later.refl s⟩
  | reserving =>
    rw [evaluateStep]
    split_ifs with hready
    · refine ⟨hs, ⟨trivial, nofun, nofun, ?_⟩, Later.refl s⟩
      rintro r (hr | hr) <;> cases hr
      exact ⟨_, rfl⟩
    · rw [not_not] at hready
      refine ⟨⟨hs.active, nofun, hs.recorded⟩, ⟨⟨rfl, hs.ready hready⟩, nofun, nofun, ?_⟩, ?_⟩
      · rintro r (hr | hr) <;> cases hr
      · refine ⟨fun _ => ⟨rfl, rfl, rfl, rfl⟩, fun _ => nofun, fun h => ?_, List.prefix_rfl⟩
        rw [hready] at h
        cases h
  | storing r d receipt =>
    have hstage : s.lifecycle = .reserved ∧ s.events = [] := hp.stage
    have hstored : Sound { s with events := s.events ++ [.stored i receipt] } := by
      refine ⟨hs.active, fun h => ?_, Or.inr (Or.inl ⟨i, receipt, by rw [hstage.2]; rfl⟩)⟩
      rw [hstage.1] at h
      cases h
    have hlater : Later s { s with events := s.events ++ [.stored i receipt] } :=
      ⟨fun _ => ⟨rfl, rfl, rfl, rfl⟩, id, id, List.prefix_append _ _⟩
    have hready : s.lifecycle ≠ .ready := by
      rw [hstage.1]
      nofun
    rw [evaluateStep]
    cases input.fault with
    | none =>
      refine ⟨hstored, ⟨⟨hstage.1, by rw [hstage.2]; rfl⟩, fun _ => hp.presented rfl, fun x hx => hp.times x hx, ?_⟩, hlater⟩
      rintro r (hr | hr) <;> cases hr
    | some e =>
      dsimp only
      split_ifs
      · refine ⟨hstored, EvaluateOk.failed ?_ e, hlater⟩
        exact hready
      · exact ⟨hs, EvaluateOk.failed hready e, Later.refl s⟩
  | consuming r d receipt ref =>
    have hstage : s.lifecycle = .reserved ∧ s.events = [.stored i receipt] := hp.stage
    rw [evaluateStep, if_neg (not_not.2 hstage.1)]
    refine ⟨⟨hs.active, nofun, hs.recorded⟩, ⟨⟨rfl, hstage.2⟩, fun _ => hp.presented rfl, fun x hx => hp.times x hx, ?_⟩, ?_⟩
    · rintro r (hr | hr) <;> cases hr
    · exact ⟨fun _ => ⟨rfl, rfl, rfl, rfl⟩, fun _ => nofun, fun _ => rfl, List.prefix_rfl⟩
  | invoking q =>
    have hstage : s.lifecycle = .consumed ∧ s.events = [.stored i q.freezeReceipt] := hp.stage
    rw [evaluateStep]
    refine ⟨⟨hs.active, fun h => ?_, Or.inr (Or.inr ⟨i, q, by rw [hstage.2]; rfl⟩)⟩, ?_, ?_⟩
    · rw [hstage.1] at h
      cases h
    · cases input.fault with
      | none => exact ⟨hstage.1, nofun, nofun, by rintro r (hr | hr) <;> cases hr⟩
      | some e =>
        refine EvaluateOk.failed ?_ e
        rw [hstage.1]
        nofun
    · exact ⟨fun _ => ⟨rfl, rfl, rfl, rfl⟩, id, id, List.prefix_append _ _⟩
  | finishing b r =>
    rw [evaluateStep]
    cases b with
    | false =>
      rw [if_neg (fun h => Bool.false_ne_true h.1)]
      refine ⟨hs, ⟨trivial, nofun, nofun, ?_⟩, Later.refl s⟩
      rintro r' (hr | hr) <;> cases hr
      exact hp.refused (Or.inl rfl)
    | true =>
      have hready : s.lifecycle ≠ .ready := hp.stage
      split_ifs with hreserved
      · refine ⟨⟨hs.active, nofun, hs.recorded⟩, ⟨rfl, nofun, nofun, by rintro r' (hr | hr) <;> cases hr⟩, ?_⟩
        exact ⟨fun _ => ⟨rfl, rfl, rfl, rfl⟩, fun _ => nofun, fun _ => rfl, List.prefix_rfl⟩
      · have hconsumed : s.lifecycle = .consumed := by
          cases hl : s.lifecycle with
          | ready => exact absurd hl hready
          | reserved => exact absurd ⟨rfl, hl⟩ hreserved
          | consumed => rfl
        exact ⟨hs, ⟨hconsumed, nofun, nofun, by rintro r' (hr | hr) <;> cases hr⟩, Later.refl s⟩
  | done b r => exact ⟨hs, hp, Later.refl s⟩
  | _ =>
    refine ⟨?_, evaluateStep_silent_ok hp rfl input, ?_⟩
    · rw [evaluateStep_silent input rfl]
      exact hs
    · rw [evaluateStep_silent input rfl]
      exact Later.refl s

/-- a step of `evaluate_hidden_replay` keeps the issuance -/
theorem evaluateStep_issuance (input : Input) (s : Authority) (i : ℕ) (args : EvaluateArgs) (p : EvaluatePhase) :
    (evaluateStep trusted input s i args p).1.issuanceState = s.issuanceState := by
  cases p with
  | start =>
    rw [evaluateStep]
    split_ifs <;> rfl
  | reserving =>
    rw [evaluateStep]
    split_ifs <;> rfl
  | storing r d receipt =>
    rw [evaluateStep]
    cases input.fault with
    | none => rfl
    | some e =>
      dsimp only
      split_ifs <;> rfl
  | consuming r d receipt ref =>
    rw [evaluateStep]
    split_ifs <;> rfl
  | finishing b r =>
    rw [evaluateStep]
    dsimp only
    split_ifs <;> rfl
  | _ => rfl

/-- what a step of `evaluate_hidden_replay` stores or sends to the worker -/
theorem evaluateStep_events (input : Input) (s : Authority) (i : ℕ) (args : EvaluateArgs) (p : EvaluatePhase) :
    (evaluateStep trusted input s i args p).1.events = s.events ∨
    (∃ receipt, (evaluateStep trusted input s i args p).1.events = s.events ++ [.stored i receipt]) ∨
    ∃ q, p = .invoking q ∧ (evaluateStep trusted input s i args p).1.events = s.events ++ [.invoked i q] := by
  cases p with
  | start =>
    rw [evaluateStep]
    split_ifs <;> exact Or.inl rfl
  | reserving =>
    rw [evaluateStep]
    split_ifs <;> exact Or.inl rfl
  | storing r d receipt =>
    rw [evaluateStep]
    cases input.fault with
    | none => exact Or.inr (Or.inl ⟨receipt, rfl⟩)
    | some e =>
      dsimp only
      split_ifs
      · exact Or.inr (Or.inl ⟨receipt, rfl⟩)
      · exact Or.inl rfl
  | consuming r d receipt ref =>
    rw [evaluateStep]
    split_ifs <;> exact Or.inl rfl
  | invoking q => exact Or.inr (Or.inr ⟨q, rfl, rfl⟩)
  | finishing b r =>
    rw [evaluateStep]
    dsimp only
    split_ifs <;> exact Or.inl rfl
  | _ => exact Or.inl rfl

/-- `reserved_here` stays -/
theorem evaluateStep_reservedHere (h : p.reservedHere = true) (input : Input) :
    (evaluateStep trusted input s i args p).2.reservedHere = true := by
  cases hsilent : p.silent with
  | true =>
    rw [evaluateStep_silent input hsilent]
    dsimp only
    cases input.fault with
    | some e => rfl
    | none =>
      cases hnext : evaluateNext trusted input s args p with
      | error e => rfl
      | ok q => exact (evaluateNext_spec hsilent hnext).2.2.2
  | false =>
    cases p with
    | start => cases h
    | reserving => cases h
    | storing r d receipt =>
      rw [evaluateStep]
      cases input.fault <;> rfl
    | consuming r d receipt ref =>
      rw [evaluateStep]
      split_ifs <;> rfl
    | invoking q =>
      rw [evaluateStep]
      cases input.fault <;> rfl
    | finishing b r => exact h
    | done b r => exact h
    | _ => cases hsilent

omit [Sha256] in
theorem EvaluatePhase.presented_of_times {x : ℤ × ℤ} (h : p.times = some x) : p.presented = true := by
  cases p <;> first | rfl | cases h

omit [Sha256] in
theorem EvaluatePhase.not_silent (h : p.reservedHere = false) : p.stage = .idle ∧ p.presented = false ∧ p.times = none := by
  cases p with
  | finishing b r =>
    cases h
    exact ⟨rfl, rfl, rfl⟩
  | done b r =>
    cases h
    exact ⟨rfl, rfl, rfl⟩
  | start => exact ⟨rfl, rfl, rfl⟩
  | reserving => exact ⟨rfl, rfl, rfl⟩
  | _ => cases h

omit [Sha256] in
theorem EvaluateOk.of_unreserved (hp : EvaluateOk s i args p) (h : p.reservedHere = false) (s' : Authority) :
    EvaluateOk s' i args p := by
  rcases EvaluatePhase.not_silent h with ⟨hstage, hpresented, htimes⟩
  refine ⟨?_, ?_, ?_, hp.refused⟩
  · rw [hstage]
    trivial
  · rw [hpresented]
    nofun
  · rw [htimes]
    nofun

omit [Sha256] in
theorem EvaluateOk.later {s' : Authority} (hp : EvaluateOk s i args p) (hl : Later s s')
    (hlifecycle : s'.lifecycle = s.lifecycle) (hevents : s'.events = s.events) : EvaluateOk s' i args p := by
  refine ⟨?_, fun h => (hp.presented h).later hl, fun x hx => ?_, hp.refused⟩
  · have hstage := hp.stage
    cases hcase : p.stage <;> rw [hcase] at hstage <;> simp only [Stage.Holds, hlifecycle, hevents] at hstage ⊢ <;>
      exact hstage
  · rcases hp.times x hx with ⟨t, ht, horder⟩
    rcases hp.presented (EvaluatePhase.presented_of_times hx) with ⟨c, _, hc⟩
    exact ⟨t, (hl.active (by rw [hc]; exact Option.some_ne_none c)).2.2.2.trans ht, horder⟩

/-- a call that has not reserved changes nothing once another has -/
theorem evaluateStep_unreserved (h : p.reservedHere = false) (hready : s.lifecycle ≠ .ready) (input : Input) :
    (evaluateStep trusted input s i args p).1 = s ∧ (evaluateStep trusted input s i args p).2.reservedHere = false := by
  cases p with
  | start =>
    rw [evaluateStep]
    split_ifs
    · exact ⟨rfl, rfl⟩
    · exact ⟨rfl, rfl⟩
  | reserving =>
    rw [evaluateStep, if_pos hready]
    exact ⟨rfl, rfl⟩
  | finishing b r =>
    cases h
    exact ⟨rfl, rfl⟩
  | done b r => exact ⟨rfl, h⟩
  | _ => cases h

end Evaluate

end HiddenAuthority

end Apar
