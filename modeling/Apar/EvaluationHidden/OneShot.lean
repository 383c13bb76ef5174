/-
A hidden evaluation authority evaluates once, whatever calls of `freeze_and_issue` and `evaluate_hidden_replay` overlap and
whatever their statements raise.

- `outline_valid`: the assertions are kept by every step of every call.
- `authority_later`: the active capability, the lifecycle and the events only ever advance.
- `act_invoked`: the worker is invoked by the call that has stored the receipt and consumed the lifecycle.
- `one_shot`: the properties of the authority, over every run.
-/
import Apar.EvaluationHidden.AuthoritySteps

namespace Apar

namespace HiddenAuthority

/-! ## The outline is valid -/

section Runs

variable [Sha256] {trusted : Trusted}

theorem step_later {s : Authority} {i : ℕ} {l : Local} (hs : Sound s) (hl : l.Ok s i) (input : Input) :
    Later s ((authority trusted).step i input s l).1 := by
  cases l with
  | freeze args p => exact freezeStep_later hs hl input args
  | evaluate args p => exact (evaluateStep_ok hs hl input).2.2

theorem evaluateStep_apart {s : Authority} {i j : ℕ} {args args' : EvaluateArgs} {p q : EvaluatePhase}
    (hq : EvaluateOk s j args' q) (hpq : ¬ (p.reservedHere = true ∧ q.reservedHere = true)) (input : Input) :
    ¬ ((evaluateStep trusted input s i args p).2.reservedHere = true ∧ q.reservedHere = true) := by
  rintro ⟨hp', hq'⟩
  cases hp : p.reservedHere with
  | true => exact hpq ⟨hp, hq'⟩
  | false =>
    rw [(evaluateStep_unreserved hp (hq.not_ready hq') input).2] at hp'
    cases hp'

/-- the steps of one call keep the assertion about another -/
theorem Local.Ok.other {s : Authority} {i j : ℕ} {l m : Local} (hs : Sound s) (hl : l.Ok s i) (hm : m.Ok s j)
    (hpair : outline.pair s l m) (input : Input) : m.Ok ((authority trusted).step i input s l).1 j := by
  cases l with
  | freeze args p =>
    cases m with
    | freeze args' q => exact FreezeOk.freezeStep hm hs hl hpair.2 input args
    | evaluate args' q =>
      have hsame := freezeStep_lifecycle input s args p
      exact EvaluateOk.later hm (freezeStep_later hs hl input args) hsame.1 hsame.2
  | evaluate args p =>
    have hlater : Later s (evaluateStep trusted input s i args p).1 := (evaluateStep_ok hs hl input).2.2
    cases m with
    | freeze args' q =>
      have hstate : (evaluateStep trusted input s i args p).1.issuanceState = s.issuanceState := evaluateStep_issuance ..
      refine ⟨fun h => hstate.trans (FreezeOk.issuing hm h), fun {c} hc => ?_⟩
      have hactive : s.activeCapability = some c := FreezeOk.issued hm hc
      exact (hlater.active (by rw [hactive]; exact Option.some_ne_none c)).1.trans hactive
    | evaluate args' q =>
      cases hq : q.reservedHere with
      | false => exact EvaluateOk.of_unreserved hm hq _
      | true =>
        have hp : p.reservedHere = false := Bool.eq_false_iff.2 fun h => hpair.1 ⟨h, hq⟩
        have hkept : (evaluateStep trusted input s i args p).1 = s :=
          (evaluateStep_unreserved hp (EvaluateOk.not_ready hm hq) input).1
        show EvaluateOk (evaluateStep trusted input s i args p).1 j args' q
        rw [hkept]
        exact hm

/-- **The outline is kept by every step.** -/
theorem outline_valid : outline.Valid (authority trusted) where
  start := by
    intro s i args _
    cases args with
    | freeze args => exact ⟨nofun, nofun⟩
    | evaluate args => exact ⟨trivial, nofun, nofun, by rintro r (hr | hr) <;> cases hr⟩
  startPair := by
    intro s args l
    cases args with
    | freeze args => exact ⟨⟨nofun, nofun⟩, ⟨(fun h => nomatch h.2), (fun h => nomatch h.2)⟩⟩
    | evaluate args => exact ⟨⟨nofun, nofun⟩, ⟨(fun h => nomatch h.2), (fun h => nomatch h.2)⟩⟩
  own := by
    intro i input s l hs hl
    cases l with
    | freeze args p => exact ⟨freezeStep_sound hs hl input args, freezeStep_ok hl input args⟩
    | evaluate args p =>
      rcases evaluateStep_ok hs hl input with ⟨hsound, hok, _⟩
      exact ⟨hsound, hok⟩
  other := by
    intro i input s l j m hs hl hm _ hlm hml
    refine ⟨hl.other hs hm hlm input, ?_⟩
    have hapart : outline.pair ((authority trusted).step i input s l).1 ((authority trusted).step i input s l).2 m := by
      cases l with
      | freeze args p =>
        cases m with
        | freeze args' q => exact ⟨nofun, freezeStep_claimed hm hlm.2 input args⟩
        | evaluate args' q => exact ⟨nofun, (fun h => nomatch h.2)⟩
      | evaluate args p =>
        cases m with
        | freeze args' q => exact ⟨(fun h => nomatch h.2), nofun⟩
        | evaluate args' q => exact ⟨evaluateStep_apart hm hlm.1 input, nofun⟩
    exact ⟨hapart, fun h => hapart.1 h.symm, fun h => hapart.2 h.symm⟩
  others := fun _ _ _ _ _ _ _ _ h => h

/-! ## Runs -/

/-- no call has begun on a new authority -/
def init : Calls.World Authority Local := ⟨newAuthority, []⟩

omit [Sha256] in
theorem init_holds : outline.Holds init where
  shared := ⟨fun h => absurd rfl h, fun _ => rfl, Or.inl rfl⟩
  call := nofun
  pair := nofun

variable {w : Calls.World Authority Local}

/-- **The authority only advances in a run.** -/
theorem authority_later (hw : outline.Holds w) (actions : List (Calls.Action Args Input)) :
    Later w.shared ((authority trusted).run w actions).shared :=
  Calls.run_rel (authority trusted) outline_valid Later.refl Later.trans
    (fun _ input _ _ hs hl => step_later hs hl input) hw actions

/-- the total of the free section, one unless the authority is ISSUING, and of the calls in their issuing section -/
theorem issuing_total (actions : List (Calls.Action Args Input)) :
    0 < Calls.total (fun s : Authority => if s.issuanceState = .issuing then 0 else 1)
      (fun l : Local => if l.issuing = true then 1 else 0) ((authority trusted).run init actions) := by
  refine Calls.total_run_pos outline_valid ?_ ?_ init_holds (by decide) actions
  · intro args
    cases args <;> rfl
  · intro i input s l hs hl hpos
    cases l with
    | evaluate args p =>
      have hstate : (evaluateStep trusted input s i args p).1.issuanceState = s.issuanceState := evaluateStep_issuance ..
      show 0 < (if (evaluateStep trusted input s i args p).1.issuanceState = .issuing then 0 else 1) + 0
      rwa [hstate]
    | freeze args p =>
      show 0 < (if (freezeStep input s args p).1.issuanceState = .issuing then 0 else 1) +
        (if (freezeStep input s args p).2.issuing = true then 1 else 0)
      rcases freezeStep_cases input s args p with ⟨_, _, _, heq⟩ | ⟨e, rfl, heq⟩ | ⟨_, _, _, _, _, _, _, heq⟩ |
        ⟨n, p', heq, hissuing, _, _⟩
      · rw [heq]
        exact Nat.one_pos
      · rw [heq, if_pos (FreezeOk.issuing hl rfl)]
        exact Nat.one_pos
      · rw [heq]
        exact Nat.one_pos
      · rw [heq]
        rcases hissuing with hsame | ⟨_, hlost⟩
        · rwa [hsame]
        · -- the issuance is never lost
          have hstate : s.issuanceState ≠ .issuing := by
            rcases hlost with hne | hactive
            · exact hne
            · rw [hs.active hactive]
              nofun
          rw [if_neg hstate]
          omega

/-- a call that has reserved stays so -/
theorem run_reservedHere {i : ℕ} {l : Local} (hl : w.calls[i]? = some l) (h : l.reservedHere = true)
    (actions : List (Calls.Action Args Input)) :
    ∃ l', ((authority trusted).run w actions).calls[i]? = some l' ∧ l'.reservedHere = true := by
  refine (authority trusted).run_invariant (P := fun w => ∃ l, w.calls[i]? = some l ∧ l.reservedHere = true) ?_ ⟨l, hl, h⟩
    actions
  rintro w a ⟨l, hl, h⟩
  rcases (authority trusted).act_cases w a with heq | ⟨args, _, heq⟩ | ⟨j, input, m, _, hm, heq⟩
  · rw [heq]
    exact ⟨l, hl, h⟩
  · rw [heq]
    refine ⟨l, ?_, h⟩
    show (w.calls ++ [_])[i]? = some l
    rwa [List.getElem?_append_left (List.getElem?_eq_some_iff.1 hl).1]
  · rw [heq]
    by_cases hij : j = i
    · subst hij
      obtain rfl := Option.some.inj (hm.symm.trans hl)
      refine ⟨_, List.getElem?_set_self (List.getElem?_eq_some_iff.1 hl).1, ?_⟩
      cases m with
      | freeze args p => cases h
      | evaluate args p => exact evaluateStep_reservedHere h input
    · refine ⟨l, ?_, h⟩
      show (w.calls.set j _)[i]? = some l
      rwa [List.getElem?_set_ne hij]

/-- **The worker is invoked after the freeze.** An action that invokes it finds the lifecycle CONSUMED and the receipt of
the same call stored; the call presented the active capability, with times in order -/
theorem act_invoked (hw : outline.Holds w) {a : Calls.Action Args Input} {i : ℕ} {q : Request}
    (hnew : .invoked i q ∈ ((authority trusted).act w a).shared.events) (hold : .invoked i q ∉ w.shared.events) :
    w.shared.lifecycle = .consumed ∧ w.shared.events = [.stored i q.freezeReceipt] ∧
      ∃ args, w.calls[i]? = some (.evaluate args (.invoking q)) ∧ Presented w.shared args ∧
        Timed w.shared (q.releasedAt, q.sealedAt) := by
  rcases (authority trusted).act_cases w a with heq | ⟨args, _, heq⟩ | ⟨j, input, l, _, hl, heq⟩
  · rw [heq] at hnew
    exact absurd hnew hold
  · rw [heq] at hnew
    exact absurd hnew hold
  · rw [heq] at hnew
    cases l with
    | freeze args p =>
      have hevents : (freezeStep input w.shared args p).1.events = w.shared.events := (freezeStep_lifecycle ..).2
      exact absurd (hevents ▸ hnew) hold
    | evaluate args p =>
      have hmem : .invoked i q ∈ (evaluateStep trusted input w.shared j args p).1.events := hnew
      have hevents : (evaluateStep trusted input w.shared j args p).1.events = w.shared.events ∨ _ ∨ _ :=
        evaluateStep_events input w.shared j args p
      rcases hevents with hsame | ⟨receipt, hstored⟩ | ⟨q', rfl, hsent⟩
      · exact absurd (hsame ▸ hmem) hold
      · rw [hstored, List.mem_append, List.mem_singleton] at hmem
        rcases hmem with hmem | hmem
        · exact absurd hmem hold
        · cases hmem
      · rw [hsent, List.mem_append, List.mem_singleton] at hmem
        rcases hmem with hmem | hmem
        · exact absurd hmem hold
        · cases hmem
          have hok : EvaluateOk w.shared i args (.invoking q) := hw.call hl
          exact ⟨hok.stage.1, hok.stage.2, args, hl, hok.presented rfl, hok.times _ rfl⟩

/-- **Hidden evaluation is one-shot.** In every run on a new authority:
the active capability, its attestation, its digest and its issue time never change once there is one, it is the one that a
call of `freeze_and_issue` returned, and one call at most returned any;
one call at most stores a receipt or invokes the worker, once each and in this order, the worker after the freeze;
once a call of `evaluate_hidden_replay` has reserved, no other ever reserves or returns an outcome;
the authority is not ISSUING unless a call is between the lock sections of `freeze_and_issue`. -/
theorem one_shot (trusted : Trusted) (actions later : List (Calls.Action Args Input)) :
    let w := (authority trusted).run init actions
    let w' := (authority trusted).run w later
    (w.shared.activeCapability ≠ none →
      w'.shared.activeCapability = w.shared.activeCapability ∧
      w'.shared.activeAttestation = w.shared.activeAttestation ∧
      w'.shared.capabilityDigest = w.shared.capabilityDigest ∧
      w'.shared.capabilityIssuedAt = w.shared.capabilityIssuedAt) ∧
    (∀ (i : ℕ) args c, w.calls[i]? = some (.freeze args (.done (.ok c))) → w.shared.activeCapability = some c ∧
      ∀ (j : ℕ) args' c', w.calls[j]? = some (.freeze args' (.done (.ok c'))) → j = i) ∧
    Recorded w.shared.events ∧
    (∀ a i q, .invoked i q ∈ ((authority trusted).act w a).shared.events → .invoked i q ∉ w.shared.events →
      w.shared.lifecycle = .consumed ∧ w.shared.events = [.stored i q.freezeReceipt] ∧
      ∃ args c t, w.calls[i]? = some (.evaluate args (.invoking q)) ∧
        args.capability = .bound c ∧ w.shared.activeCapability = some c ∧
        w.shared.capabilityIssuedAt = some t ∧ t ≤ q.releasedAt ∧ q.releasedAt ≤ q.sealedAt) ∧
    (∀ (i : ℕ) l, w.calls[i]? = some l → l.reservedHere = true → ∀ (j : ℕ) m, w'.calls[j]? = some m →
      (m.reservedHere = true ∨ ∃ args b outcome, m = .evaluate args (.done b (.ok outcome))) → j = i) ∧
    ((∀ l ∈ w.calls, l.issuing = false) → w.shared.issuanceState ≠ .issuing) := by
  intro w w'
  have hw : outline.Holds w := outline_valid.run init_holds actions
  have hw' : outline.Holds w' := outline_valid.run hw later
  refine ⟨(authority_later hw later).active, ?_, hw.shared.recorded, ?_, ?_, ?_⟩
  · intro i args c hi
    refine ⟨FreezeOk.issued (hw.call hi) rfl, fun j args' c' hj => ?_⟩
    by_contra hne
    exact (hw.pair hne hj hi).2 ⟨rfl, rfl⟩
  · intro a i q hnew hold
    rcases act_invoked hw hnew hold with ⟨hlifecycle, hevents, args, hcall, ⟨c, hc, hactive⟩, t, ht, horder⟩
    exact ⟨hlifecycle, hevents, args, c, t, hcall, hc, hactive, ht, horder⟩
  · intro i l hl hreserved j m hm hcase
    have hmr : m.reservedHere = true := by
      rcases hcase with h | ⟨args, b, outcome, rfl⟩
      · exact h
      · cases b with
        | true => rfl
        | false =>
          have hok : EvaluateOk w'.shared j args (.done false (.ok outcome)) := hw'.call hm
          rcases hok.refused (Or.inr rfl) with ⟨e, he⟩
          cases he
    rcases run_reservedHere hl hreserved later with ⟨l', hl', hreserved'⟩
    by_contra hne
    exact (hw'.pair hne hm hl').1 ⟨hmr, hreserved'⟩
  · intro hnone hissuing
    have hpos : 0 < Calls.total _ _ w := issuing_total actions
    have hzero : (w.calls.map fun l : Local => if l.issuing = true then 1 else 0).sum = 0 := by
      refine List.sum_eq_zero fun n hn => ?_
      rcases List.mem_map.1 hn with ⟨l, hl, rfl⟩
      rw [hnone l hl]
      rfl
    rw [Calls.total, hzero, if_pos hissuing] at hpos
    exact absurd hpos (lt_irrefl 0)

end Runs

end HiddenAuthority

end Apar
