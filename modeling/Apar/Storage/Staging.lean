/-
The staging directories of the artifact store, as a proof outline over the calls of one root.

The assertion about a `put_bytes` is its own staging directory: until its digest is published, the name of the staging
directory leads to the directory it made, with the files it has written so far, and no other call of the digest has that
name. Once the digest is published, staging directories no longer matter: the exclusive rename fails. A call holds
descriptors of staging directories of its own digest only, so no published directory is written to.

- `Frame`, `putStep_frame`: what one step of `put_bytes` leaves unchanged.
- `Published.frame`: a published directory never changes.
- `PutOk.frame`, `ReadOk.frame`: the steps of one call keep the assertions about the others.
-/
import Apar.Storage.Artifacts

namespace Apar

open Exec

namespace Artifacts

/-! ## Names -/

theorem stagingName_toList (digest token : String) :
    (stagingName digest token).toList = '.' :: (digest.toList ++ ('.' :: (token.toList ++ ".tmp".toList))) := by
  simp [stagingName]

variable {digest mediaType : String}

theorem digest_length (h : isDigestText digest = true) : digest.toList.length = 64 := by
  simp only [isDigestText, Bool.and_eq_true, beq_iff_eq] at h
  exact h.1

theorem stagingName_ne (h : isDigestText digest = true) (digest' token : String) :
    stagingName digest' token ≠ digest := by
  rintro rfl
  simp only [isDigestText, Bool.and_eq_true, List.all_eq_true, stagingName_toList] at h
  exact absurd (h.2 '.' List.mem_cons_self) (by decide)

theorem stagingName_inj {digest' token token' : String} (h : isDigestText digest = true)
    (h' : isDigestText digest' = true) (heq : stagingName digest token = stagingName digest' token') :
    digest = digest' := by
  have hlist := congrArg String.toList heq
  rw [stagingName_toList, stagingName_toList, List.cons.injEq] at hlist
  have hinj := List.append_inj hlist.2 ((digest_length h).trans (digest_length h').symm)
  exact String.toList_inj.1 hinj.1

/-! ## Directories as they are seen -/

/-- the files of a directory, with their contents -/
def Fs.view (fs : Fs) (fd : ℕ) (e : Entry) : Option (ℕ × List UInt8) := (fs.dirs fd e).map fun f => (f, fs.files f)

theorem Fs.view_eq_some {fs : Fs} {fd f : ℕ} {e : Entry} {bytes : List UInt8} :
    fs.view fd e = some (f, bytes) ↔ fs.dirs fd e = some f ∧ fs.files f = bytes := by
  simp only [Fs.view, Option.map_eq_some_iff, Prod.mk.injEq]
  constructor
  · rintro ⟨_, hf, rfl, hbytes⟩
    exact ⟨hf, hbytes⟩
  · rintro ⟨hf, hbytes⟩
    exact ⟨f, hf, rfl, hbytes⟩

variable [Sha256]

/-- a digest directory with both files complete -/
structure Published (fs : Fs) (digest : String) (fd : ℕ) (payload : List UInt8) (mediaType : String) : Prop where
  text : isDigestText digest = true
  root : fs.root digest = some fd
  files : ∀ e, ∃ f, fs.view fd e = some (f, contents payload mediaType e)
  digest_eq : Sha256.hexdigestBytes payload = digest
  media : mediaType ≠ ""

theorem Published.unique {fs : Fs} {fd fd' : ℕ} {payload payload' : List UInt8} {mediaType' : String}
    (h : Published fs digest fd payload mediaType) (h' : Published fs digest fd' payload' mediaType') :
    fd' = fd ∧ payload' = payload ∧ artifactRef payload' mediaType' = artifactRef payload mediaType := by
  obtain rfl : fd' = fd := Option.some.inj (h'.root.symm.trans h.root)
  have hsame : ∀ e, contents payload' mediaType' e = contents payload mediaType e := by
    intro e
    rcases h.files e with ⟨f, hf⟩
    rcases h'.files e with ⟨f', hf'⟩
    exact (Prod.mk.inj (Option.some.inj (hf'.symm.trans hf))).2
  exact ⟨rfl, hsame .payload, manifestBytes_inj (hsame .manifest)⟩

/-! ## The outline -/

/-- names, directories and files are distinct -/
structure Numbered (fs : Fs) : Prop where
  root_inj : ∀ {n n' fd}, fs.root n = some fd → fs.root n' = some fd → n = n'
  root_lt : ∀ {n fd}, fs.root n = some fd → fd < fs.nextDir
  entry_lt : ∀ {fd e f}, fs.dirs fd e = some f → fd < fs.nextDir ∧ f < fs.nextFile
  entry_inj : ∀ {fd fd' e e' f}, fs.dirs fd e = some f → fs.dirs fd' e' = some f → fd = fd' ∧ e = e'

/-- published directories are complete -/
structure Sound (fs : Fs) : Prop extends Numbered fs where
  published : ∀ {digest fd}, isDigestText digest = true → fs.root digest = some fd → ∃ p m, Published fs digest fd p m

/-- what a load has seen is a complete directory; its errors are those of the environment -/
def Load.Sees (fs : Fs) (digest : String) : Load → Prop
  | .opening => True
  | .listing fd => ∃ p m, Published fs digest fd p m
  | .openingFile fd e payload => ∃ p m, Published fs digest fd p m ∧ (e = .manifest → payload = p)
  | .reading fd e payload file got => ∃ p m, Published fs digest fd p m ∧ (e = .manifest → payload = p) ∧
      fs.view fd e = some (file, contents p m e) ∧ got <+: contents p m e
  | .done (.ok (ref, payload)) => ∃ fd m, Published fs digest fd payload m ∧ ref = artifactRef payload m
  | .done (.error .missing) => isDigestText digest = true
  | .done (.error (.error e)) => e = .os ∨ e = .value "artifact reference has invalid digest" ∨
      e = invalidDirectory digest ∨ ∃ entry, e = invalidFile digest entry

namespace PutPhase

/-- the staging directory of a phase -/
def staging : PutPhase → Option String
  | start | lookup _ | mkdir _ | done _ => none
  | chmod n | reopening n | opening n | creating n _ _ | writing n _ _ _ _ | publishing n | reload n _ | syncing n
  | cleanup n _ | cleanupListing n _ _ | unlinking n _ _ _ | rmdir n _ => some n

/-- the directory whose entries a phase may change -/
def handle : PutPhase → Option ℕ
  | creating _ fd _ | writing _ fd _ _ _ | cleanupListing _ fd _ | unlinking _ fd _ _ => some fd
  | _ => none

/-- the file that a phase writes -/
def file : PutPhase → Option ℕ
  | writing _ _ _ file _ => some file
  | _ => none

/-- the reference that a call will return -/
def returned : PutPhase → Option ArtifactRef
  | done (.ok ref) | cleanup _ (.ok ref) | cleanupListing _ _ (.ok ref) | unlinking _ _ _ (.ok ref) | rmdir _ (.ok ref) =>
    some ref
  | _ => none

def load : PutPhase → Option Load
  | lookup l | reload _ l => some l
  | _ => none

/-- the digest has been seen published -/
def settled : PutPhase → Bool
  | reload _ _ | syncing _ => true
  | _ => false

/-- the media type has been checked, and the call may still publish -/
def active : PutPhase → Bool
  | start | done _ => false
  | _ => true

end PutPhase

/-- the staging directory as far as a phase has come -/
def Progress (payload : List UInt8) (mediaType : String) (view : Entry → Option (ℕ × List UInt8)) : PutPhase → Prop
  | .chmod _ | .reopening _ | .opening _ | .creating _ _ .payload => ∀ e, view e = none
  | .creating _ _ .manifest => (∃ f, view .payload = some (f, payload)) ∧ view .manifest = none
  | .writing _ _ .payload file offset => view .payload = some (file, payload.take offset) ∧ offset ≤ payload.length ∧
      view .manifest = none
  | .writing _ _ .manifest file offset => (∃ f, view .payload = some (f, payload)) ∧
      view .manifest = some (file, (manifestBytes (artifactRef payload mediaType)).take offset) ∧
      offset ≤ (manifestBytes (artifactRef payload mediaType)).length
  | .publishing _ => ∀ e, ∃ f, view e = some (f, contents payload mediaType e)
  | _ => True

/-- the assertion about a call of `put_bytes` -/
structure PutOk (fs : Fs) (payload : List UInt8) (mediaType : String) (phase : PutPhase) : Prop where
  media : phase.active = true → mediaType ≠ ""
  digest : phase.staging ≠ none ∨ (∃ k, phase = .mkdir k) → isDigestText (Sha256.hexdigestBytes payload) = true
  name : ∀ {n}, phase.staging = some n → ∃ t, n = stagingName (Sha256.hexdigestBytes payload) t
  handle : ∀ {fd}, phase.handle = some fd → fd < fs.nextDir ∧
    ∀ {n}, fs.root n = some fd → ∃ t, n = stagingName (Sha256.hexdigestBytes payload) t
  file : ∀ {f}, phase.file = some f → f < fs.nextFile ∧ ∀ {fd e}, fs.dirs fd e = some f → phase.handle = some fd
  owned : fs.root (Sha256.hexdigestBytes payload) = none → ∀ {n}, phase.staging = some n →
    ∃ fd, fs.root n = some fd ∧ (∀ {h}, phase.handle = some h → h = fd) ∧ Progress payload mediaType (fs.view fd) phase
  load : ∀ {l}, phase.load = some l → l.Sees fs (Sha256.hexdigestBytes payload)
  settled : phase.settled = true → fs.root (Sha256.hexdigestBytes payload) ≠ none
  syncing : ∀ {n}, phase = .syncing n → ∃ fd m, Published fs (Sha256.hexdigestBytes payload) fd payload m ∧
    artifactRef payload m = artifactRef payload mediaType
  returned : ∀ {ref}, phase.returned = some ref →
    ∃ fd m, Published fs (Sha256.hexdigestBytes payload) fd payload m ∧ ref = artifactRef payload m

/-- the assertion about a call of `read` -/
def ReadOk (fs : Fs) (ref : ArtifactRef) : ReadPhase → Prop
  | .start => True
  | .load l => l.Sees fs ref.sha256
  | .done (.ok payload) => ∃ fd m, Published fs ref.sha256 fd payload m ∧ ref = artifactRef payload m
  | .done (.error _) => True

def Local.Ok (fs : Fs) : Local → Prop
  | .put payload mediaType phase => PutOk fs payload mediaType phase
  | .read ref phase => ReadOk fs ref phase

/-- two calls of an unpublished digest have different staging directories -/
def Apart (fs : Fs) : Local → Local → Prop
  | .put p _ phase, .put _ _ phase' => isDigestText (Sha256.hexdigestBytes p) = true →
      fs.root (Sha256.hexdigestBytes p) = none → ∀ {n}, phase.staging = some n → phase'.staging ≠ some n
  | _, _ => True

def outline : Calls.Outline Fs Local where
  shared := Sound
  call fs _ l := l.Ok fs
  pair := Apart

/-! ## What a step leaves unchanged -/

/-- a step that writes: it fails, there is nothing left to write, or some bytes are written -/
theorem writing_cases (payload : List UInt8) (mediaType : String) (input : Input) (fs : Fs) (n : String) (fd : ℕ) (e : Entry)
    (file offset : ℕ) :
    putStep payload mediaType input fs (.writing n fd e file offset) = (fs, .cleanup n (.error .os)) ∨
    (¬ offset < (contents payload mediaType e).length ∧
      putStep payload mediaType input fs (.writing n fd e file offset) = (fs, afterFile n fd e)) ∨
    ∃ k, offset < (contents payload mediaType e).length ∧
      putStep payload mediaType input fs (.writing n fd e file offset) =
        (fs.write file offset (((contents payload mediaType e).drop offset).take (k + 1)),
          if offset + (((contents payload mediaType e).drop offset).take (k + 1)).length <
            (contents payload mediaType e).length then
            .writing n fd e file (offset + (((contents payload mediaType e).drop offset).take (k + 1)).length)
          else afterFile n fd e) := by
  rw [putStep]
  dsimp only
  split_ifs with hfault hlt
  · exact Or.inl rfl
  · cases hcount : input.count with
    | zero => exact Or.inl (by rw [List.take_zero])
    | succ k =>
      have hne : ((contents payload mediaType e).drop offset).take (k + 1) ≠ [] := by
        intro hnil
        have := congrArg List.length hnil
        rw [List.length_take, List.length_drop, List.length_nil] at this
        omega
      refine Or.inr (Or.inr ⟨k, hlt, ?_⟩)
      cases hchunk : ((contents payload mediaType e).drop offset).take (k + 1) with
      | nil => exact absurd hchunk hne
      | cons b bs =>
        dsimp only
        split_ifs <;> rfl
  · exact Or.inr (Or.inl ⟨hlt, rfl⟩)

/-- the system call of a step of `put_bytes` that changes the file system -/
theorem putStep_fs (payload : List UInt8) (mediaType : String) (input : Input) (fs : Fs) (phase : PutPhase) :
    (putStep payload mediaType input fs phase).1 = fs ∨
    (∃ k, phase = .mkdir k ∧ fs.root (stagingName (Sha256.hexdigestBytes payload) input.token) = none ∧
      putStep payload mediaType input fs phase = (fs.mkdir (stagingName (Sha256.hexdigestBytes payload) input.token),
        .chmod (stagingName (Sha256.hexdigestBytes payload) input.token))) ∨
    (∃ name fd e, phase = .creating name fd e ∧ fs.dirs fd e = none ∧
      putStep payload mediaType input fs phase = (fs.create fd e, .writing name fd e fs.nextFile 0)) ∨
    (∃ name fd e file offset n, phase = .writing name fd e file offset ∧ offset < (contents payload mediaType e).length ∧
      putStep payload mediaType input fs phase =
        (fs.write file offset (((contents payload mediaType e).drop offset).take (n + 1)),
          if offset + (((contents payload mediaType e).drop offset).take (n + 1)).length <
            (contents payload mediaType e).length then
            .writing name fd e file (offset + (((contents payload mediaType e).drop offset).take (n + 1)).length)
          else afterFile name fd e)) ∨
    (∃ name fd, phase = .publishing name ∧ fs.root name = some fd ∧ fs.root (Sha256.hexdigestBytes payload) = none ∧
      putStep payload mediaType input fs phase = (fs.rename name (Sha256.hexdigestBytes payload), .syncing name)) ∨
    (∃ name fd e entries result, phase = .unlinking name fd (e :: entries) result ∧
      putStep payload mediaType input fs phase = (fs.unlink fd e, .unlinking name fd entries result)) ∨
    (∃ name result, phase = .rmdir name result ∧
      putStep payload mediaType input fs phase = (fs.rmdir name, .done result)) := by
  cases phase with
  | start =>
    left
    rw [putStep]
    split <;> rfl
  | lookup l => exact Or.inl rfl
  | mkdir k =>
    rw [putStep]
    split_ifs with hfault hexists hmore
    · exact Or.inl rfl
    · exact Or.inl rfl
    · exact Or.inl rfl
    · exact Or.inr (Or.inl ⟨k, rfl, by simpa using hexists, rfl⟩)
  | chmod n =>
    left
    rw [putStep]
    split_ifs <;> rfl
  | reopening n =>
    left
    rw [putStep]
    split_ifs <;> rfl
  | opening n =>
    left
    rw [putStep]
    split_ifs
    · rfl
    · split <;> rfl
  | creating n fd e =>
    rw [putStep]
    split_ifs with hfault
    · exact Or.inl rfl
    · rw [Bool.or_eq_true, not_or] at hfault
      exact Or.inr (Or.inr (Or.inl ⟨n, fd, e, rfl, by simpa using hfault.2, rfl⟩))
  | writing n fd e file offset =>
    rcases writing_cases payload mediaType input fs n fd e file offset with heq | ⟨_, heq⟩ | ⟨k, hlt, heq⟩
    · exact Or.inl (by rw [heq])
    · exact Or.inl (by rw [heq])
    · exact Or.inr (Or.inr (Or.inr (Or.inl ⟨n, fd, e, file, offset, k, rfl, hlt, heq⟩)))
  | publishing n =>
    rw [putStep]
    split_ifs
    · exact Or.inl rfl
    · split
      next => exact Or.inl rfl
      next => exact Or.inl rfl
      next fd hsource htarget =>
        exact Or.inr (Or.inr (Or.inr (Or.inr (Or.inl ⟨n, fd, rfl, hsource, htarget, rfl⟩))))
  | reload n l => exact Or.inl rfl
  | syncing n =>
    left
    rw [putStep]
    split_ifs <;> rfl
  | cleanup n r =>
    left
    rw [putStep]
    split_ifs
    · rfl
    · split <;> rfl
  | cleanupListing n fd r =>
    left
    rw [putStep]
    split_ifs <;> rfl
  | unlinking n fd entries r =>
    cases entries with
    | nil => exact Or.inl rfl
    | cons e entries =>
      rw [putStep]
      split_ifs
      · exact Or.inl rfl
      · exact Or.inr (Or.inr (Or.inr (Or.inr (Or.inr (Or.inl ⟨n, fd, e, entries, r, rfl, rfl⟩)))))
  | rmdir n r =>
    rw [putStep]
    split_ifs
    · exact Or.inl rfl
    · exact Or.inr (Or.inr (Or.inr (Or.inr (Or.inr (Or.inr ⟨n, r, rfl, rfl⟩)))))
  | done r => exact Or.inl rfl

/-- what one step of `put_bytes` leaves unchanged: the directories it has no descriptor of, and the names that are not
its staging directory's -/
structure Frame (fs fs' : Fs) (payload : List UInt8) (phase : PutPhase) : Prop where
  nextDir : fs.nextDir ≤ fs'.nextDir
  nextFile : fs.nextFile ≤ fs'.nextFile
  view : ∀ {fd}, fd < fs.nextDir → phase.handle ≠ some fd → fs'.view fd = fs.view fd
  kept : ∀ {n fd}, fs.root n = some fd → phase.staging ≠ some n → fs'.root n = some fd
  new : ∀ {n fd}, fs'.root n = some fd → fs.root n = some fd ∨
    (fs.nextDir ≤ fd ∧ ∃ t, n = stagingName (Sha256.hexdigestBytes payload) t) ∨
    (n = Sha256.hexdigestBytes payload ∧ fs.root n = none ∧ ∃ s, phase = .publishing s ∧ fs.root s = some fd)
  entries : ∀ {fd e f}, fs'.dirs fd e = some f → fs.dirs fd e = some f ∨ (fs.nextFile ≤ f ∧ phase.handle = some fd)

theorem Frame.refl (fs : Fs) (payload : List UInt8) (phase : PutPhase) : Frame fs fs payload phase :=
  ⟨le_rfl, le_rfl, fun _ _ => rfl, fun h _ => h, fun h => Or.inl h, fun h => Or.inl h⟩

omit [Sha256] in
theorem Fs.view_congr {fs fs' : Fs} {fd : ℕ} (hdirs : fs'.dirs fd = fs.dirs fd)
    (hfiles : ∀ e f, fs.dirs fd e = some f → fs'.files f = fs.files f) : fs'.view fd = fs.view fd := by
  funext e
  rw [Fs.view, Fs.view, hdirs]
  cases h : fs.dirs fd e with
  | none => rfl
  | some f => rw [Option.map_some, Option.map_some, hfiles e f h]

theorem putStep_frame {payload : List UInt8} {fs : Fs} {phase : PutPhase} (hs : Sound fs)
    (hp : PutOk fs payload mediaType phase) (input : Input) :
    Frame fs (putStep payload mediaType input fs phase).1 payload phase := by
  rcases putStep_fs payload mediaType input fs phase with heq | ⟨k, rfl, hnone, heq⟩ | ⟨name, fd, e, rfl, hnone, heq⟩ |
    ⟨name, fd, e, file, offset, n, rfl, hlt, heq⟩ | ⟨name, fd, rfl, hsource, htarget, heq⟩ |
    ⟨name, fd, e, entries, r, rfl, heq⟩ | ⟨name, r, rfl, heq⟩
  · rw [heq]
    exact Frame.refl _ _ _
  · rw [heq]
    refine ⟨Nat.le_succ _, le_rfl, ?_, ?_, ?_, ?_⟩
    · intro fd hfd _
      refine Fs.view_congr (funext fun e => ?_) fun _ _ _ => rfl
      rw [Fs.mkdir_dirs, if_neg hfd.ne]
    · intro n fd hn _
      rw [Fs.mkdir_root, if_neg, hn]
      rintro rfl
      rw [hnone] at hn
      cases hn
    · intro n fd hn
      rw [Fs.mkdir_root] at hn
      split_ifs at hn with hname
      · exact Or.inr (Or.inl ⟨(Option.some.inj hn).le, _, hname⟩)
      · exact Or.inl hn
    · intro fd e f hf
      rw [Fs.mkdir_dirs] at hf
      split_ifs at hf
      exact Or.inl hf
  · rw [heq]
    refine ⟨le_rfl, Nat.le_succ _, ?_, fun h _ => h, fun h => Or.inl h, ?_⟩
    · intro x _ hhandle
      have hne : x ≠ fd := fun h => hhandle (h ▸ rfl)
      refine Fs.view_congr (funext fun e' => ?_) fun e' f hf => ?_
      · rw [Fs.create_dirs, if_neg fun h => hne h.1]
      · rw [Fs.create_files, if_neg (hs.entry_lt hf).2.ne]
    · intro x e' f hf
      rw [Fs.create_dirs] at hf
      split_ifs at hf with hx
      · exact Or.inr ⟨(Option.some.inj hf).le, hx.1 ▸ rfl⟩
      · exact Or.inl hf
  · rw [heq]
    refine ⟨le_rfl, le_rfl, ?_, fun h _ => h, fun h => Or.inl h, fun h => Or.inl h⟩
    intro x _ hhandle
    refine Fs.view_congr rfl fun e' f hf => ?_
    rw [Fs.write_files, if_neg]
    rintro rfl
    exact hhandle ((hp.file rfl).2 hf)
  · rw [heq]
    refine ⟨le_rfl, le_rfl, fun _ _ => rfl, ?_, ?_, fun h => Or.inl h⟩
    · intro n x hn hname
      have hne : n ≠ name := fun h => hname (h ▸ rfl)
      rw [Fs.rename_root, if_neg hne, if_neg, hn]
      rintro rfl
      rw [htarget] at hn
      cases hn
    · intro n x hn
      rw [Fs.rename_root] at hn
      split_ifs at hn with hname hdigest
      · exact Or.inr (Or.inr ⟨hdigest, hdigest ▸ htarget, name, rfl, hn⟩)
      · exact Or.inl hn
  · rw [heq]
    refine ⟨le_rfl, le_rfl, ?_, fun h _ => h, fun h => Or.inl h, ?_⟩
    · intro x _ hhandle
      have hne : x ≠ fd := fun h => hhandle (h ▸ rfl)
      refine Fs.view_congr (funext fun e' => ?_) fun _ _ _ => rfl
      rw [Fs.unlink_dirs, if_neg fun h => hne h.1]
    · intro x e' f hf
      rw [Fs.unlink_dirs] at hf
      split_ifs at hf
      exact Or.inl hf
  · rw [heq]
    rcases fs.rmdir_cases name with hrm | hrm
    · rw [hrm]
      exact Frame.refl _ _ _
    · rw [hrm]
      refine ⟨le_rfl, le_rfl, fun _ _ => rfl, ?_, ?_, fun h => Or.inl h⟩
      · intro n x hn hname
        have hne : n ≠ name := fun h => hname (h ▸ rfl)
        exact (Function.update_apply ..).trans ((if_neg hne).trans hn)
      · intro n x hn
        have hn' : (if n = name then none else fs.root n) = some x := (Function.update_apply ..).symm.trans hn
        split_ifs at hn'
        exact Or.inl hn'

/-! ## The other calls -/

section Others

variable {fs fs' : Fs} {payload : List UInt8} {mediaType : String} {phase : PutPhase}

variable {digest mediaType' n : String}

theorem PutOk.staging_ne (hp : PutOk fs payload mediaType phase) (h : isDigestText digest = true) :
    phase.staging ≠ some digest := by
  intro heq
  rcases hp.name heq with ⟨t, ht⟩
  exact stagingName_ne h _ _ ht.symm

theorem PutOk.root_kept (hp : PutOk fs payload mediaType phase) (hf : Frame fs fs' payload phase)
    (h : isDigestText digest = true) (hroot : fs'.root digest = none) : fs.root digest = none := by
  cases hold : fs.root digest with
  | none => rfl
  | some fd =>
    rw [hf.kept hold (hp.staging_ne h)] at hroot
    cases hroot

theorem Published.view_frame {fd : ℕ} {payload' : List UInt8} (h : Published fs digest fd payload' mediaType')
    (hs : Sound fs) (hp : PutOk fs payload mediaType phase) (hf : Frame fs fs' payload phase) :
    fs'.view fd = fs.view fd := by
  refine hf.view (hs.root_lt h.root) fun hhandle => ?_
  rcases (hp.handle hhandle).2 h.root with ⟨t, ht⟩
  exact stagingName_ne h.text _ _ ht.symm

/-- **A published directory never changes.** -/
theorem Published.frame {fd : ℕ} {payload' : List UInt8} (h : Published fs digest fd payload' mediaType')
    (hs : Sound fs) (hp : PutOk fs payload mediaType phase) (hf : Frame fs fs' payload phase) :
    Published fs' digest fd payload' mediaType' := by
  refine ⟨h.text, hf.kept h.root (hp.staging_ne h.text), fun e => ?_, h.digest_eq, h.media⟩
  rw [h.view_frame hs hp hf]
  exact h.files e

theorem Load.Sees.frame {digest : String} {l : Load} (h : l.Sees fs digest) (hs : Sound fs)
    (hp : PutOk fs payload mediaType phase) (hf : Frame fs fs' payload phase) : l.Sees fs' digest := by
  cases l with
  | opening => trivial
  | listing fd =>
    rcases h with ⟨p, m, hpub⟩
    exact ⟨p, m, hpub.frame hs hp hf⟩
  | openingFile fd e got =>
    rcases h with ⟨p, m, hpub, hgot⟩
    exact ⟨p, m, hpub.frame hs hp hf, hgot⟩
  | reading fd e got file bytes =>
    rcases h with ⟨p, m, hpub, hgot, hview, hbytes⟩
    refine ⟨p, m, hpub.frame hs hp hf, hgot, ?_, hbytes⟩
    rw [hpub.view_frame hs hp hf]
    exact hview
  | done r =>
    cases r with
    | ok x =>
      rcases h with ⟨fd, m, hpub, href⟩
      exact ⟨fd, m, hpub.frame hs hp hf, href⟩
    | error e =>
      cases e with
      | missing => exact h
      | error e => exact h

theorem ReadOk.frame {ref : ArtifactRef} {r : ReadPhase} (h : ReadOk fs ref r) (hs : Sound fs)
    (hp : PutOk fs payload mediaType phase) (hf : Frame fs fs' payload phase) : ReadOk fs' ref r := by
  cases r with
  | start => trivial
  | load l => exact Load.Sees.frame h hs hp hf
  | done r =>
    cases r with
    | ok bytes =>
      rcases h with ⟨fd, m, hpub, href⟩
      exact ⟨fd, m, hpub.frame hs hp hf, href⟩
    | error e => trivial

omit [Sha256] in
theorem PutPhase.staging_of_handle {fd : ℕ} (h : phase.handle = some fd) : ∃ n, phase.staging = some n := by
  cases phase <;> first | exact ⟨_, rfl⟩ | cases h

omit [Sha256] in
theorem PutPhase.staging_of_settled (h : phase.settled = true) : ∃ n, phase.staging = some n := by
  cases phase <;> first | exact ⟨_, rfl⟩ | cases h

theorem PutOk.text (hp : PutOk fs payload mediaType phase) (h : phase.staging = some n) :
    isDigestText (Sha256.hexdigestBytes payload) = true :=
  hp.digest (Or.inl (by rw [h]; exact Option.some_ne_none n))

variable {payload' : List UInt8} {mediaType' : String} {phase' : PutPhase}

theorem PutOk.digest_eq (hp : PutOk fs payload mediaType phase) (hq : PutOk fs payload' mediaType' phase') {s : String}
    (hn : phase'.staging = some n) (hs : phase.staging = some s)
    (hstaging : ∃ t, n = stagingName (Sha256.hexdigestBytes payload) t) :
    Sha256.hexdigestBytes payload = Sha256.hexdigestBytes payload' := by
  rcases hstaging with ⟨t, ht⟩
  rcases hq.name hn with ⟨t', ht'⟩
  exact stagingName_inj (hp.text hs) (hq.text hn) (ht.symm.trans ht')

theorem PutOk.handle_ne (hs : Sound fs) (hp : PutOk fs payload mediaType phase)
    (hq : PutOk fs payload' mediaType' phase')
    (hapart : fs.root (Sha256.hexdigestBytes payload') = none → ∀ {n}, phase'.staging = some n → phase.staging ≠ some n)
    (hnone : fs.root (Sha256.hexdigestBytes payload') = none) (hn : phase'.staging = some n) {fd : ℕ}
    (hroot : fs.root n = some fd) : phase.handle ≠ some fd := by
  intro hhandle
  rcases PutPhase.staging_of_handle hhandle with ⟨s, hstaging⟩
  have hdigest := hp.digest_eq hq hn hstaging ((hp.handle hhandle).2 hroot)
  rcases hp.owned (hdigest ▸ hnone) hstaging with ⟨fd', hfd', hsame, _⟩
  obtain rfl := hsame hhandle
  exact hapart hnone hn (hs.root_inj hfd' hroot ▸ hstaging)

/-- **The steps of one call keep the assertion about another.** -/
theorem PutOk.frame (hs : Sound fs) (hp : PutOk fs payload mediaType phase) (hf : Frame fs fs' payload phase)
    (hq : PutOk fs payload' mediaType' phase')
    (hapart : fs.root (Sha256.hexdigestBytes payload') = none → ∀ {n}, phase'.staging = some n → phase.staging ≠ some n) :
    PutOk fs' payload' mediaType' phase' where
  media := hq.media
  digest := hq.digest
  name := hq.name
  handle := by
    intro fd hhandle
    have hold := hq.handle hhandle
    refine ⟨hold.1.trans_le hf.nextDir, fun {n} hn => ?_⟩
    rcases hf.new hn with hn' | ⟨hle, _⟩ | ⟨rfl, hnone, s, rfl, hs'⟩
    · exact hold.2 hn'
    · exact absurd hold.1 (not_lt.2 hle)
    · -- the other call publishes the directory this one has a descriptor of
      rcases PutPhase.staging_of_handle hhandle with ⟨n', hn'⟩
      have hdigest := hq.digest_eq hp (n := s) rfl hn' (hold.2 hs')
      rcases hq.owned (hdigest ▸ hnone) hn' with ⟨fd', hfd', hsame, _⟩
      obtain rfl := hsame hhandle
      exact absurd (congrArg some (hs.root_inj hs' hfd')) (hapart (hdigest ▸ hnone) hn')
  file := by
    intro f hfile
    have hold := hq.file hfile
    refine ⟨hold.1.trans_le hf.nextFile, fun {fd e} he => ?_⟩
    rcases hf.entries he with he' | ⟨hle, _⟩
    · exact hold.2 he'
    · exact absurd hold.1 (not_lt.2 hle)
  owned := by
    intro hnone n hn
    have hnone' := hp.root_kept hf (hq.text hn) hnone
    rcases hq.owned hnone' hn with ⟨fd, hroot, hhandle, hprogress⟩
    refine ⟨fd, hf.kept hroot (hapart hnone' hn), hhandle, ?_⟩
    rw [hf.view (hs.root_lt hroot) (hp.handle_ne hs hq hapart hnone' hn hroot)]
    exact hprogress
  load := fun hl => (hq.load hl).frame hs hp hf
  settled := by
    intro hsettled hnone
    rcases PutPhase.staging_of_settled hsettled with ⟨n, hn⟩
    exact hq.settled hsettled (hp.root_kept hf (hq.text hn) hnone)
  syncing := by
    intro n hn
    rcases hq.syncing hn with ⟨fd, m, hpub, href⟩
    exact ⟨fd, m, hpub.frame hs hp hf, href⟩
  returned := by
    intro ref href
    rcases hq.returned href with ⟨fd, m, hpub, heq⟩
    exact ⟨fd, m, hpub.frame hs hp hf, heq⟩

end Others

end Artifacts

end Apar
