/-
The artifact store publishes once, whatever calls of `put_bytes` and `read` overlap.

- `readStep_progress`: a step of a read of a published artifact that no system call fails comes closer to its bytes.
- `publish_once`: the properties of the store, over every run from an empty root. Nothing is assumed of the digest: a
  collision makes `put_bytes` fail.
-/
import Apar.Storage.PutSteps

namespace Apar

open Exec

namespace Artifacts

variable [Sha256]

/-! ## Reading back -/

/-- the steps that a load still takes, of an artifact with files of these sizes -/
def Load.left (payloadSize manifestSize : ℕ) : Load → ℕ
  | .opening => payloadSize + manifestSize + 6
  | .listing _ => payloadSize + manifestSize + 5
  | .openingFile _ .payload _ => payloadSize + manifestSize + 4
  | .reading _ .payload _ _ got => (payloadSize - got.length) + manifestSize + 3
  | .openingFile _ .manifest _ => manifestSize + 2
  | .reading _ .manifest _ _ got => (manifestSize - got.length) + 1
  | .done _ => 0

def ReadPhase.left (payloadSize manifestSize : ℕ) : ReadPhase → ℕ
  | .start => payloadSize + manifestSize + 7
  | .load l => l.left payloadSize manifestSize
  | .done _ => 0

/-- the steps that read an artifact -/
def readSteps (payload : List UInt8) (mediaType : String) : ℕ :=
  payload.length + (manifestBytes (artifactRef payload mediaType)).length + 7

/-- a load that has not failed, nor will return anything but the payload -/
def Load.Sound (payload : List UInt8) (mediaType : String) : Load → Prop
  | .done (.ok x) => x = (artifactRef payload mediaType, payload)
  | .done (.error _) => False
  | _ => True

def ReadPhase.Sound (payload : List UInt8) : ReadPhase → Prop
  | .done (.ok bytes) => bytes = payload
  | .done (.error _) => False
  | .load (.done _) => False
  | _ => True

section Progress

variable {fs : Fs} {payload : List UInt8} {mediaType : String} {fd : ℕ} {input : Input}

/-- **A load of a published artifact comes closer to its bytes.** -/
theorem Load.step_progress (hpub : Published fs (Sha256.hexdigestBytes payload) fd payload mediaType)
    (hfault : input.fault = false) {l : Load} (hsees : l.Sees fs (Sha256.hexdigestBytes payload))
    (hl : l.Sound payload mediaType) :
    (l.step (Sha256.hexdigestBytes payload) input fs).Sound payload mediaType ∧
      (l.step (Sha256.hexdigestBytes payload) input fs).left payload.length
        (manifestBytes (artifactRef payload mediaType)).length ≤
        l.left payload.length (manifestBytes (artifactRef payload mediaType)).length - 1 := by
  cases l with
  | opening =>
    rw [Load.step, hpub.text, hfault, hpub.root]
    exact ⟨trivial, le_rfl⟩
  | listing fd' =>
    rcases hsees with ⟨p, m, hpub'⟩
    rw [Load.step, hfault, hpub'.list_eq]
    exact ⟨trivial, le_rfl⟩
  | openingFile fd' e got =>
    rcases hsees with ⟨p, m, hpub', _⟩
    rcases hpub'.files e with ⟨f, hf⟩
    rw [Load.step, hfault, (Fs.view_eq_some.1 hf).1]
    cases e
    · refine ⟨trivial, ?_⟩
      simp only [Load.left, List.length_nil, Bool.false_eq_true, if_false]
      omega
    · refine ⟨trivial, ?_⟩
      simp only [Load.left, List.length_nil, Bool.false_eq_true, if_false]
      omega
  | reading fd' e got file bytes =>
    rcases hsees with ⟨p, m, hpub', hgot, hview, hbytes⟩
    rcases hpub.unique hpub' with ⟨rfl, rfl, href⟩
    have hcontents : ∀ e, contents p m e = contents p mediaType e := by
      intro e
      cases e
      · rfl
      · exact congrArg manifestBytes href
    rw [hcontents] at hview hbytes
    unfold Load.step
    dsimp only
    rw [hfault, if_neg Bool.false_ne_true, (Fs.view_eq_some.1 hview).2]
    cases hchunk : ((contents p mediaType e).drop bytes.length).take (min (max 1 input.count) 1048576) with
    | nil =>
      have hfull := prefix_eq hbytes (chunk_nil hchunk)
      subst hfull
      cases e with
      | payload =>
        refine ⟨trivial, ?_⟩
        simp only [Load.left]
        omega
      | manifest =>
        obtain rfl := hgot rfl
        have hverify := verifyArtifact_manifest hpub.media hpub.text
        simp only [contents, hverify]
        exact ⟨rfl, Nat.zero_le _⟩
    | cons b bs =>
      have hle := (prefix_chunk hbytes (min (max 1 input.count) 1048576)).length_le
      rw [hchunk] at hle
      cases e with
      | payload =>
        refine ⟨trivial, ?_⟩
        simp only [Load.left, contents, List.length_append, List.length_cons] at hle ⊢
        omega
      | manifest =>
        refine ⟨trivial, ?_⟩
        simp only [Load.left, contents, List.length_append, List.length_cons] at hle ⊢
        omega
  | done r => exact ⟨hl, Nat.zero_le _⟩

/-- **A read of a published artifact comes closer to its bytes.** -/
theorem readStep_progress (hpub : Published fs (Sha256.hexdigestBytes payload) fd payload mediaType)
    (hfault : input.fault = false) {r : ReadPhase} (hok : ReadOk fs (artifactRef payload mediaType) r)
    (hr : r.Sound payload) :
    (readStep (artifactRef payload mediaType) input fs r).Sound payload ∧
      (readStep (artifactRef payload mediaType) input fs r).left payload.length
        (manifestBytes (artifactRef payload mediaType)).length ≤
        r.left payload.length (manifestBytes (artifactRef payload mediaType)).length - 1 := by
  cases r with
  | start =>
    rw [readStep, artifactRef_shape hpub.media hpub.text]
    exact ⟨trivial, le_rfl⟩
  | load l =>
    have hl : l.Sound payload mediaType := by
      cases l with
      | done x => exact hr.elim
      | _ => trivial
    have hstep := Load.step_progress hpub hfault hok hl
    rw [readStep]
    show _ ∧ _ ≤ l.left _ _ - 1
    have hdigest : (artifactRef payload mediaType).sha256 = Sha256.hexdigestBytes payload := rfl
    rw [hdigest]
    cases hnext : l.step (Sha256.hexdigestBytes payload) input fs <;> rw [hnext] at hstep
    case done x =>
      cases x with
      | ok x =>
        obtain rfl : x = (artifactRef payload mediaType, payload) := hstep.1
        rw [afterLoad, if_neg (not_not.2 rfl)]
        exact ⟨rfl, Nat.zero_le _⟩
      | error e => exact hstep.1.elim
    all_goals exact ⟨trivial, hstep.2⟩
  | done x => exact ⟨hr, Nat.zero_le _⟩

end Progress

/-! ## Runs -/

/-- no call has begun, and the root is empty -/
def init : Calls.World Fs Local := ⟨Fs.empty, []⟩

theorem init_holds : outline.Holds init where
  shared := ⟨⟨nofun, nofun, nofun, nofun⟩, nofun⟩
  call := nofun
  pair := nofun

variable {w : Calls.World Fs Local}

/-- **A published directory never changes in a run.** -/
theorem Published.run (hw : outline.Holds w) {digest mediaType : String} {fd : ℕ} {payload : List UInt8}
    (h : Published w.shared digest fd payload mediaType) (actions : List (Calls.Action Args Input)) :
    Published (store.run w actions).shared digest fd payload mediaType := by
  refine Calls.run_rel store (R := fun fs fs' => Published fs digest fd payload mediaType →
    Published fs' digest fd payload mediaType) outline_valid (fun _ => id) (fun h₁ h₂ => h₂ ∘ h₁) ?_ hw actions h
  intro i input fs l hs hl hpub
  cases l with
  | put p m phase => exact hpub.frame hs hl (putStep_frame hs hl input)
  | read ref r => exact hpub

/-- **A read returns the bytes.** A read that begins once an artifact is published, and whose system calls do not fail -/
theorem read_returns (hw : outline.Holds w) {mediaType : String} {fd : ℕ} {payload : List UInt8}
    (h : Published w.shared (Sha256.hexdigestBytes payload) fd payload mediaType)
    (actions : List (Calls.Action Args Input))
    (hfault : ∀ input ∈ Calls.inputs w.calls.length actions, input.fault = false)
    (hsteps : readSteps payload mediaType ≤ (Calls.inputs w.calls.length actions).length) :
    (store.run (store.act w (.call (.read (artifactRef payload mediaType)))) actions).calls[w.calls.length]? =
      some (.read (artifactRef payload mediaType) (.done (.ok payload))) := by
  let ref := artifactRef payload mediaType
  let left : Local → ℕ
    | .read _ r => r.left payload.length (manifestBytes ref).length
    | .put _ _ _ => 0
  have hprogress := Calls.run_progress store outline_valid (i := w.calls.length) (fun input => input.fault = false)
    (fun fs l => Published fs (Sha256.hexdigestBytes payload) fd payload mediaType ∧
      ∃ r : ReadPhase, l = .read ref r ∧ r.Sound payload) left
    (by
      rintro input fs l hinput hs hok ⟨hpub, r, rfl, hr⟩
      have := readStep_progress hpub hinput hok hr
      exact ⟨⟨hpub, _, rfl, this.1⟩, this.2⟩)
    (by
      rintro j input fs k l hs hk ⟨hpub, hl⟩
      cases k with
      | put p m phase => exact ⟨hpub.frame hs hk (putStep_frame hs hk input), hl⟩
      | read ref r => exact ⟨hpub, hl⟩)
    (outline_valid.act hw (.call (.read ref))) (l := .read ref .start)
    (by
      show (w.calls ++ [_])[_]? = _
      rw [List.getElem?_append_right le_rfl, Nat.sub_self]
      rfl)
    ⟨h, .start, rfl, trivial⟩ actions hfault
  rcases hprogress with ⟨l, hl, ⟨_, r, rfl, hr⟩, hleft⟩
  have hzero : r.left payload.length (manifestBytes ref).length = 0 := by
    have : r.left payload.length (manifestBytes ref).length ≤ readSteps payload mediaType - _ := hleft
    omega
  rw [hl]
  cases r with
  | start => cases hzero
  | load l =>
    cases l with
    | openingFile fd e got => cases e <;> cases hzero
    | reading fd e got file bytes => cases e <;> cases hzero
    | done x => exact hr.elim
    | _ => cases hzero
  | done x =>
    cases x with
    | ok bytes =>
      obtain rfl : bytes = payload := hr
      rfl
    | error e => exact hr.elim

/-- the load a call is in the middle of, with its digest -/
def Local.load : Local → Option (String × Load)
  | .put payload _ (.lookup l) | .put payload _ (.reload _ l) => some (Sha256.hexdigestBytes payload, l)
  | .read ref (.load l) => some (ref.sha256, l)
  | _ => none

theorem Local.load_sees {fs : Fs} {l : Local} (hl : l.Ok fs) {digest : String} {load : Load}
    (h : l.load = some (digest, load)) : load.Sees fs digest := by
  cases l with
  | put payload mediaType phase =>
    cases phase with
    | lookup load' =>
      cases h
      exact PutOk.load hl rfl
    | reload n load' =>
      cases h
      exact PutOk.load hl rfl
    | _ => cases h
  | read ref r =>
    cases r with
    | load load' =>
      cases h
      exact hl
    | _ => cases h

/-- **Artifacts are published once.** In every run from an empty root:
every digest directory is complete, and stays as it is in every continuation;
every load that is under way sees complete directories only, whatever its next system call does;
a reference that `put_bytes` returned is read as the bytes that were put, by every read that returns, and every read that
begins afterwards returns when its system calls do not fail;
equal bytes have equal references. -/
theorem publish_once (actions : List (Calls.Action Args Input)) :
    let w := store.run init actions
    (∀ digest fd, isDigestText digest = true → w.shared.root digest = some fd →
      ∃ payload mediaType, ∀ later, Published (store.run w later).shared digest fd payload mediaType) ∧
    (∀ l ∈ w.calls, ∀ digest load, l.load = some (digest, load) →
      load.Sees w.shared digest ∧ ∀ input, (load.step digest input w.shared).Sees w.shared digest) ∧
    (∀ (i : ℕ) payload mediaType ref, w.calls[i]? = some (.put payload mediaType (.done (.ok ref))) → ∀ later : List _,
      (∀ (j : ℕ) bytes, (store.run w later).calls[j]? = some (.read ref (.done (.ok bytes))) → bytes = payload) ∧
      ((∀ input ∈ Calls.inputs w.calls.length later, input.fault = false) →
        readSteps payload ref.mediaType ≤ (Calls.inputs w.calls.length later).length →
        (store.run (store.act w (.call (.read ref))) later).calls[w.calls.length]? =
          some (.read ref (.done (.ok payload))))) ∧
    ∀ (i j : ℕ) payload mediaType mediaType' ref ref', w.calls[i]? = some (.put payload mediaType (.done (.ok ref))) →
      w.calls[j]? = some (.put payload mediaType' (.done (.ok ref'))) → ref = ref' := by
  intro w
  have hw : outline.Holds w := outline_valid.run init_holds actions
  have hput : ∀ {i : ℕ} {payload mediaType ref}, w.calls[i]? = some (.put payload mediaType (.done (.ok ref))) →
      ∃ fd m, Published w.shared (Sha256.hexdigestBytes payload) fd payload m ∧ ref = artifactRef payload m :=
    fun hi => PutOk.returned (hw.call hi) rfl
  refine ⟨?_, ?_, ?_, ?_⟩
  · intro digest fd htext hroot
    rcases hw.shared.published htext hroot with ⟨p, m, hpub⟩
    exact ⟨p, m, fun later => hpub.run hw later⟩
  · intro l hl digest load hload
    rcases List.getElem?_of_mem hl with ⟨i, hi⟩
    have hsees := Local.load_sees (hw.call hi) hload
    exact ⟨hsees, fun input => hsees.step hw.shared input⟩
  · intro i payload mediaType ref hi later
    rcases hput hi with ⟨fd, m, hpub, rfl⟩
    refine ⟨?_, fun hfault hsteps => read_returns hw hpub later hfault hsteps⟩
    intro j bytes hj
    have hread : ReadOk _ _ (.done (.ok bytes)) := (outline_valid.run hw later).call hj
    rcases hread with ⟨fd', m', hpub', _⟩
    exact ((hpub.run hw later).unique hpub').2.1
  · intro i j payload mediaType mediaType' ref ref' hi hj
    rcases hput hi with ⟨fd, m, hpub, rfl⟩
    rcases hput hj with ⟨fd', m', hpub', rfl⟩
    exact (hpub.unique hpub').2.2.symm

end Artifacts

end Apar
