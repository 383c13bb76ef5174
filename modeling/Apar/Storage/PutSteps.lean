/-
The steps of `put_bytes` and `read` keep the outline of their staging directories.

- `Load.Sees.step`: a load sees complete directories only.
- `putStep_sound`, `putStep_ok`: a step of `put_bytes` keeps the file system and its own assertion.
- `outline_valid`: the outline is kept by every step of every call.
-/
import Apar.Storage.Staging

namespace Apar

open Exec

namespace Artifacts

variable [Sha256]

/-! ## Loads -/

variable {payload bytes got : List UInt8}

theorem Published.list_eq {fs : Fs} {digest mediaType : String} {fd : ℕ} (h : Published fs digest fd payload mediaType)
    : fs.list fd = [.payload, .manifest] := by
  have hsome : ∀ e, (fs.dirs fd e).isSome = true := by
    intro e
    rcases h.files e with ⟨f, hf⟩
    rw [(Fs.view_eq_some.1 hf).1]
    rfl
  simp [Fs.list, hsome]

omit [Sha256] in
/-- a chunk is empty at the end of the file only -/
theorem chunk_nil {k n : ℕ} (h : (bytes.drop k).take (min (max 1 n) 1048576) = []) : bytes.length ≤ k := by
  have := congrArg List.length h
  rw [List.length_take, List.length_drop, List.length_nil] at this
  omega

omit [Sha256] in
theorem prefix_chunk (h : got <+: bytes) (n : ℕ) : got ++ (bytes.drop got.length).take n <+: bytes := by
  rcases h with ⟨rest, rfl⟩
  rw [List.drop_left]
  exact (List.prefix_append_right_inj _).2 (List.take_prefix _ _)

omit [Sha256] in
theorem prefix_eq (h : got <+: bytes) (hle : bytes.length ≤ got.length) : got = bytes :=
  h.eq_of_length_le hle

/-- **A load sees complete directories only.** -/
theorem Load.Sees.step {fs : Fs} {digest : String} {l : Load} (hs : Sound fs) (h : l.Sees fs digest) (input : Input) :
    (l.step digest input fs).Sees fs digest := by
  cases l with
  | opening =>
    rw [Load.step]
    split_ifs with htext hfault
    · exact Or.inr (Or.inl rfl)
    · exact Or.inr (Or.inr (Or.inl rfl))
    · rw [Bool.not_eq_true', Bool.not_eq_false] at htext
      split
      next => exact htext
      next fd hroot => exact hs.published htext hroot
  | listing fd =>
    rcases h with ⟨p, m, hpub⟩
    rw [Load.step]
    split_ifs with hfault hlist
    · exact Or.inl rfl
    · exact absurd hpub.list_eq hlist
    · exact ⟨p, m, hpub, fun he => by cases he⟩
  | openingFile fd e payload =>
    rcases h with ⟨p, m, hpub, hpayload⟩
    rcases hpub.files e with ⟨f, hf⟩
    rw [Load.step]
    split_ifs
    · exact Or.inr (Or.inr (Or.inr ⟨e, rfl⟩))
    · rw [(Fs.view_eq_some.1 hf).1]
      exact ⟨p, m, hpub, hpayload, hf, List.nil_prefix⟩
  | reading fd e payload file got =>
    rcases h with ⟨p, m, hpub, hpayload, hview, hgot⟩
    have hfile := (Fs.view_eq_some.1 hview).2
    unfold Load.step
    dsimp only
    split_ifs
    · exact Or.inl rfl
    · rw [hfile]
      cases hchunk : ((contents p m e).drop got.length).take (min (max 1 input.count) 1048576) with
      | nil =>
        have hfull := prefix_eq hgot (chunk_nil hchunk)
        cases e with
        | payload => exact ⟨p, m, hpub, fun _ => hfull⟩
        | manifest =>
          obtain rfl := hpayload rfl
          have hverify : verifyArtifact _ _ (manifestBytes (artifactRef payload m)) = _ :=
            verifyArtifact_manifest hpub.media (hpub.digest_eq ▸ hpub.text)
          rw [hpub.digest_eq] at hverify
          subst hfull
          exact hverify ▸ ⟨fd, m, hpub, rfl⟩
      | cons b bs =>
        have := prefix_chunk hgot (min (max 1 input.count) 1048576)
        rw [hchunk] at this
        exact ⟨p, m, hpub, hpayload, hview, this⟩
  | done r => exact h

/-! ## The calls themselves -/

namespace Numbered

variable {fs : Fs}

omit [Sha256]

theorem mkdir (h : Numbered fs) (name : String) : Numbered (fs.mkdir name) where
  root_inj := by
    intro n n' fd hn hn'
    rw [Fs.mkdir_root] at hn hn'
    split_ifs at hn hn' with h1 h2 h2
    · rw [h1, h2]
    · exact absurd (h.root_lt hn') (Option.some.inj hn ▸ lt_irrefl _)
    · exact absurd (h.root_lt hn) (Option.some.inj hn' ▸ lt_irrefl _)
    · exact h.root_inj hn hn'
  root_lt := by
    intro n fd hn
    rw [Fs.mkdir_root] at hn
    split_ifs at hn
    · exact Option.some.inj hn ▸ Nat.lt_succ_self _
    · exact (h.root_lt hn).trans (Nat.lt_succ_self _)
  entry_lt := by
    intro fd e f hf
    rw [Fs.mkdir_dirs] at hf
    split_ifs at hf
    exact ⟨(h.entry_lt hf).1.trans (Nat.lt_succ_self _), (h.entry_lt hf).2⟩
  entry_inj := by
    intro fd fd' e e' f hf hf'
    rw [Fs.mkdir_dirs] at hf hf'
    split_ifs at hf hf'
    exact h.entry_inj hf hf'

theorem create (h : Numbered fs) {fd : ℕ} (hfd : fd < fs.nextDir) (e : Entry) : Numbered (fs.create fd e) where
  root_inj := h.root_inj
  root_lt := h.root_lt
  entry_lt := by
    intro x e' f hf
    rw [Fs.create_dirs] at hf
    split_ifs at hf with hx
    · exact ⟨hx.1 ▸ hfd, Option.some.inj hf ▸ Nat.lt_succ_self _⟩
    · exact ⟨(h.entry_lt hf).1, (h.entry_lt hf).2.trans (Nat.lt_succ_self _)⟩
  entry_inj := by
    intro x x' e' e'' f hf hf'
    rw [Fs.create_dirs] at hf hf'
    split_ifs at hf hf' with h1 h2 h2
    · exact ⟨h1.1.trans h2.1.symm, h1.2.trans h2.2.symm⟩
    · exact absurd (h.entry_lt hf').2 (Option.some.inj hf ▸ lt_irrefl _)
    · exact absurd (h.entry_lt hf).2 (Option.some.inj hf' ▸ lt_irrefl _)
    · exact h.entry_inj hf hf'

theorem write (h : Numbered fs) (file offset : ℕ) (bytes : List UInt8) : Numbered (fs.write file offset bytes) :=
  ⟨h.root_inj, h.root_lt, h.entry_lt, h.entry_inj⟩

theorem rename (h : Numbered fs) (source target : String) :
    Numbered (fs.rename source target) where
  root_inj := by
    intro n n' fd hn hn'
    rw [Fs.rename_root] at hn hn'
    split_ifs at hn hn' with h1 h2 h3 h4 h5 h6
    · rw [h2, h4]
    · exact absurd (h.root_inj hn hn').symm h3
    · exact absurd (h.root_inj hn hn') h1
    · exact h.root_inj hn hn'
  root_lt := by
    intro n fd hn
    rw [Fs.rename_root] at hn
    split_ifs at hn
    · exact h.root_lt hn
    · exact h.root_lt hn
  entry_lt := h.entry_lt
  entry_inj := h.entry_inj

theorem unlink (h : Numbered fs) (fd : ℕ) (e : Entry) : Numbered (fs.unlink fd e) where
  root_inj := h.root_inj
  root_lt := h.root_lt
  entry_lt := by
    intro x e' f hf
    rw [Fs.unlink_dirs] at hf
    split_ifs at hf
    exact h.entry_lt hf
  entry_inj := by
    intro x x' e' e'' f hf hf'
    rw [Fs.unlink_dirs] at hf hf'
    split_ifs at hf hf'
    exact h.entry_inj hf hf'

theorem rmdir (h : Numbered fs) (name : String) : Numbered (fs.rmdir name) := by
  rcases fs.rmdir_cases name with hrm | hrm
  · rwa [hrm]
  · rw [hrm]
    have hroot : ∀ {n fd}, (Function.update fs.root name none) n = some fd → fs.root n = some fd := by
      intro n fd hn
      rw [Function.update_apply] at hn
      split_ifs at hn
      exact hn
    exact ⟨fun hn hn' => h.root_inj (hroot hn) (hroot hn'), fun hn => h.root_lt (hroot hn), h.entry_lt, h.entry_inj⟩

end Numbered

section Own

variable {fs : Fs} {payload : List UInt8} {mediaType : String} {phase : PutPhase}

theorem putStep_numbered (hs : Sound fs) (hp : PutOk fs payload mediaType phase) (input : Input) :
    Numbered (putStep payload mediaType input fs phase).1 := by
  rcases putStep_fs payload mediaType input fs phase with heq | ⟨k, rfl, hnone, heq⟩ | ⟨name, fd, e, rfl, hnone, heq⟩ |
    ⟨name, fd, e, file, offset, n, rfl, hlt, heq⟩ | ⟨name, fd, rfl, hsource, htarget, heq⟩ |
    ⟨name, fd, e, entries, r, rfl, heq⟩ | ⟨name, r, rfl, heq⟩
  · rw [heq]
    exact hs.toNumbered
  · rw [heq]
    exact hs.toNumbered.mkdir _
  · rw [heq]
    exact hs.toNumbered.create (hp.handle rfl).1 e
  · rw [heq]
    exact hs.toNumbered.write file offset _
  · rw [heq]
    exact hs.toNumbered.rename name _
  · rw [heq]
    exact hs.toNumbered.unlink fd e
  · rw [heq]
    exact hs.toNumbered.rmdir name

variable {fd k file offset : ℕ} {n : String} {e : Entry} {view : Entry → Option (ℕ × List UInt8)}

/-- the rename publishes a complete directory -/
theorem publishing_published {fs' : Fs} (hs : Sound fs) {s : String} (hp : PutOk fs payload mediaType (.publishing s))
    (hf : Frame fs fs' payload (.publishing s)) (hnone : fs.root (Sha256.hexdigestBytes payload) = none)
    (hsource : fs.root s = some fd) (hroot : fs'.root (Sha256.hexdigestBytes payload) = some fd) :
    Published fs' (Sha256.hexdigestBytes payload) fd payload mediaType := by
  rcases hp.owned hnone rfl with ⟨fd', hfd', _, hprogress⟩
  obtain rfl : fd' = fd := Option.some.inj (hfd'.symm.trans hsource)
  refine ⟨hp.text rfl, hroot, fun e => ?_, rfl, hp.media rfl⟩
  rw [hf.view (hs.root_lt hsource) (by simp [PutPhase.handle])]
  exact hprogress e

/-- **What becomes published is complete.** -/
theorem putStep_sound (hs : Sound fs) (hp : PutOk fs payload mediaType phase) (input : Input) :
    Sound (putStep payload mediaType input fs phase).1 := by
  have hf := putStep_frame hs hp input
  refine ⟨putStep_numbered hs hp input, fun {digest fd} htext hroot => ?_⟩
  rcases hf.new hroot with hold | ⟨_, t, ht⟩ | ⟨rfl, hnone, s, rfl, hsource⟩
  · rcases hs.published htext hold with ⟨p, m, hpub⟩
    exact ⟨p, m, hpub.frame hs hp hf⟩
  · exact absurd ht.symm (stagingName_ne htext _ _)
  · exact ⟨payload, mediaType, publishing_published hs hp hf hnone hsource hroot⟩

/-- what a call may return: the reference of its bytes in the published directory -/
def Returns (fs : Fs) (payload : List UInt8) (ref : ArtifactRef) : Prop :=
  ∃ fd m, Published fs (Sha256.hexdigestBytes payload) fd payload m ∧ ref = artifactRef payload m

theorem PutOk.of_done {r : PutResult} (h : ∀ ref, r = .ok ref → Returns fs payload ref) :
    PutOk fs payload mediaType (.done r) := by
  refine ⟨nofun, ?_, nofun, nofun, nofun, fun _ _ => nofun, nofun, nofun, nofun, ?_⟩
  · rintro (h | ⟨_, h⟩)
    · exact absurd rfl h
    · cases h
  · intro ref href
    cases r with
    | ok ref' =>
      cases href
      exact h _ rfl
    | error e => cases href

theorem PutOk.of_error (e : StoreError) : PutOk fs payload mediaType (.done (.error e)) :=
  PutOk.of_done fun _ h => by cases h

omit [Sha256] in
theorem PutPhase.active_of_staging (h : phase.staging = some n) : phase.active = true := by
  cases phase <;> first | rfl | cases h

/-- a step that leaves the file system as it is and goes on in the same staging directory -/
theorem PutOk.next (hs : Sound fs) (hp : PutOk fs payload mediaType phase) (hn : phase.staging = some n)
    {phase' : PutPhase} (hn' : phase'.staging = some n)
    (hhandle : ∀ {fd}, phase'.handle = some fd → phase.handle = some fd ∨ fs.root n = some fd)
    (hfile : phase'.file = none)
    (hprogress : ∀ {view}, Progress payload mediaType view phase → Progress payload mediaType view phase')
    (hload : ∀ {l}, phase'.load = some l → l.Sees fs (Sha256.hexdigestBytes payload))
    (hsettled : phase'.settled = true → fs.root (Sha256.hexdigestBytes payload) ≠ none)
    (hsyncing : ∀ {n}, phase' ≠ .syncing n) (hreturned : ∀ {ref}, phase'.returned = some ref → Returns fs payload ref) :
    PutOk fs payload mediaType phase' where
  media _ := hp.media (PutPhase.active_of_staging hn)
  digest _ := hp.text hn
  name h := hp.name (hn.trans (hn'.symm.trans h))
  handle := by
    intro fd hfd
    rcases hhandle hfd with hold | hroot
    · exact hp.handle hold
    · exact ⟨hs.root_lt hroot, fun h => hs.root_inj h hroot ▸ hp.name hn⟩
  file := by
    intro f hf
    rw [hfile] at hf
    cases hf
  owned := by
    intro hnone n' h
    obtain rfl := Option.some.inj (hn'.symm.trans h)
    rcases hp.owned hnone hn with ⟨fd, hroot, hsame, hold⟩
    refine ⟨fd, hroot, fun {x} hx => ?_, hprogress hold⟩
    rcases hhandle hx with hx' | hx'
    · exact hsame hx'
    · exact Option.some.inj (hx'.symm.trans hroot)
  load := hload
  settled := hsettled
  syncing h := absurd h hsyncing
  returned := hreturned

/-- a step into the `finally` clause -/
theorem PutOk.toCleanup (hs : Sound fs) (hp : PutOk fs payload mediaType phase) (hn : phase.staging = some n)
    {r : PutResult} (h : ∀ ref, r = .ok ref → Returns fs payload ref) : PutOk fs payload mediaType (.cleanup n r) := by
  refine hp.next hs hn rfl nofun rfl (fun _ => trivial) nofun nofun nofun ?_
  intro ref href
  cases r with
  | ok ref' =>
    cases href
    exact h _ rfl
  | error e => cases href

theorem PutOk.toCleanup_error (hs : Sound fs) (hp : PutOk fs payload mediaType phase) (hn : phase.staging = some n)
    (e : StoreError) : PutOk fs payload mediaType (.cleanup n (.error e)) :=
  hp.toCleanup hs hn fun _ h => by cases h

theorem reuse_returns {m : String} {p : List UInt8} (hpub : Published fs (Sha256.hexdigestBytes payload) fd p m)
    {ref : ArtifactRef}
    (h : reuseVerifiedArtifact (Sha256.hexdigestBytes payload) payload (artifactRef p m, p) = .ok ref) :
    Returns fs payload ref := by
  unfold reuseVerifiedArtifact at h
  split_ifs at h with hne
  rw [ne_eq, not_not] at hne
  obtain rfl : p = payload := hne
  cases h
  exact ⟨fd, m, hpub, rfl⟩

theorem lookup_ok (hs : Sound fs) {l : Load} (hp : PutOk fs payload mediaType (.lookup l)) (input : Input) :
    PutOk fs payload mediaType (afterLookup payload (l.step (Sha256.hexdigestBytes payload) input fs)) := by
  have hsees := (hp.load rfl).step hs input
  have hmore : ∀ {l' : Load}, l'.Sees fs (Sha256.hexdigestBytes payload) → PutOk fs payload mediaType (.lookup l') := by
    intro l' hl'
    refine ⟨fun _ => hp.media rfl, ?_, nofun, nofun, nofun, fun _ _ => nofun, ?_, nofun, nofun, nofun⟩
    · rintro (h | ⟨_, h⟩)
      · exact absurd rfl h
      · cases h
    · intro l'' hl''
      cases hl''
      exact hl'
  cases hl : l.step (Sha256.hexdigestBytes payload) input fs with
  | done r =>
    rw [hl] at hsees
    cases r with
    | ok existing =>
      obtain ⟨ref, p⟩ := existing
      rcases hsees with ⟨fd, m, hpub, rfl⟩
      exact PutOk.of_done fun ref h => reuse_returns hpub h
    | error e =>
      cases e with
      | missing =>
        refine ⟨fun _ => hp.media rfl, fun _ => hsees, nofun, nofun, nofun, fun _ _ => nofun, nofun, nofun, nofun, nofun⟩
      | error e => exact PutOk.of_error e
  | opening => exact hmore (hl ▸ hsees)
  | listing fd => exact hmore (hl ▸ hsees)
  | openingFile fd e got => exact hmore (hl ▸ hsees)
  | reading fd e got file bytes => exact hmore (hl ▸ hsees)

theorem reload_ok (hs : Sound fs) {l : Load} (hp : PutOk fs payload mediaType (.reload n l)) (input : Input) :
    PutOk fs payload mediaType (afterReload payload n (l.step (Sha256.hexdigestBytes payload) input fs)) := by
  have hsees := (hp.load rfl).step hs input
  have hmore : ∀ {l' : Load}, l'.Sees fs (Sha256.hexdigestBytes payload) → PutOk fs payload mediaType (.reload n l') := by
    intro l' hl'
    refine hp.next hs rfl rfl nofun rfl (fun _ => trivial) ?_ (fun _ => hp.settled rfl) nofun nofun
    intro l'' hl''
    cases hl''
    exact hl'
  cases hl : l.step (Sha256.hexdigestBytes payload) input fs with
  | done r =>
    rw [hl] at hsees
    cases r with
    | ok existing =>
      obtain ⟨ref, p⟩ := existing
      rcases hsees with ⟨fd, m, hpub, rfl⟩
      exact hp.toCleanup hs rfl fun ref h => reuse_returns hpub h
    | error e => cases e <;> exact hp.toCleanup_error hs rfl _
  | opening => exact hmore (hl ▸ hsees)
  | listing fd => exact hmore (hl ▸ hsees)
  | openingFile fd e got => exact hmore (hl ▸ hsees)
  | reading fd e got file bytes => exact hmore (hl ▸ hsees)

/-- a staging directory was made -/
theorem mkdir_ok (hp : PutOk fs payload mediaType (.mkdir k)) (token : String) :
    PutOk (fs.mkdir (stagingName (Sha256.hexdigestBytes payload) token)) payload mediaType
      (.chmod (stagingName (Sha256.hexdigestBytes payload) token)) where
  media _ := hp.media rfl
  digest _ := hp.digest (Or.inr ⟨k, rfl⟩)
  name h := ⟨token, (Option.some.inj h).symm⟩
  handle := nofun
  file := nofun
  owned := by
    intro _ n hn
    cases hn
    refine ⟨fs.nextDir, by rw [Fs.mkdir_root, if_pos rfl], nofun, fun e => ?_⟩
    rw [Fs.view, Fs.mkdir_dirs, if_pos rfl]
    rfl
  load := nofun
  settled := nofun
  syncing := nofun
  returned := nofun

theorem create_view (hs : Sound fs) (fd : ℕ) (e e' : Entry) :
    (fs.create fd e).view fd e' = if e' = e then some (fs.nextFile, []) else fs.view fd e' := by
  rw [Fs.view, Fs.create_dirs]
  by_cases he : e' = e
  · rw [if_pos ⟨rfl, he⟩, if_pos he, Option.map_some, Fs.create_files, if_pos rfl]
  · rw [if_neg fun h => he h.2, if_neg he, Fs.view]
    cases h : fs.dirs fd e' with
    | none => rfl
    | some f => rw [Option.map_some, Option.map_some, Fs.create_files, if_neg (hs.entry_lt h).2.ne]

/-- a file was created -/
theorem create_ok (hs : Sound fs) (hp : PutOk fs payload mediaType (.creating n fd e)) :
    PutOk (fs.create fd e) payload mediaType (.writing n fd e fs.nextFile 0) where
  media _ := hp.media rfl
  digest _ := hp.text rfl
  name h := hp.name h
  handle h := hp.handle h
  file := by
    intro f hf
    cases hf
    refine ⟨Nat.lt_succ_self _, fun {x e'} hx => ?_⟩
    rw [Fs.create_dirs] at hx
    split_ifs at hx with h
    · rw [h.1]
      rfl
    · exact absurd (hs.entry_lt hx).2 (lt_irrefl _)
  owned := by
    intro hnone n' hn
    rcases hp.owned hnone hn with ⟨fd', hroot, hsame, hprogress⟩
    obtain rfl := hsame rfl
    refine ⟨fd, hroot, fun h => (Option.some.inj h).symm, ?_⟩
    cases e with
    | payload =>
      refine ⟨by rw [create_view hs, if_pos rfl]; rfl, Nat.zero_le _, ?_⟩
      rw [create_view hs, if_neg (by decide)]
      exact hprogress _
    | manifest =>
      refine ⟨?_, by rw [create_view hs, if_pos rfl]; rfl, Nat.zero_le _⟩
      rw [create_view hs, if_neg (by decide)]
      exact hprogress.1
  load := nofun
  settled := nofun
  syncing := nofun
  returned := nofun

omit [Sha256] in
theorem write_view {got bytes : List UInt8} (hview : fs.view fd e = some (file, got)) :
    (fs.write file offset bytes).view fd e =
      some (file, got.take offset ++ bytes ++ got.drop (offset + bytes.length)) := by
  rcases Fs.view_eq_some.1 hview with ⟨hdirs, hfiles⟩
  refine Fs.view_eq_some.2 ⟨hdirs, ?_⟩
  rw [Fs.write_files, if_pos rfl, hfiles]

theorem write_view_other (hs : Sound fs) {e' : Entry} {got bytes : List UInt8} (hview : fs.view fd e = some (file, got))
    (hne : e' ≠ e) : (fs.write file offset bytes).view fd e' = fs.view fd e' := by
  show ((fs.dirs fd e').map fun f => (f, (fs.write file offset bytes).files f)) = _
  rw [Fs.view]
  cases h : fs.dirs fd e' with
  | none => rfl
  | some f =>
    have hf : f ≠ file := by
      rintro rfl
      exact hne (hs.entry_inj h (Fs.view_eq_some.1 hview).1).2
    rw [Option.map_some, Option.map_some, Fs.write_files, if_neg hf]

omit [Sha256] in
theorem take_write (bytes : List UInt8) (offset n : ℕ) (h : offset ≤ bytes.length) :
    (bytes.take offset).take offset ++ (bytes.drop offset).take n ++
      (bytes.take offset).drop (offset + ((bytes.drop offset).take n).length) =
      bytes.take (offset + ((bytes.drop offset).take n).length) := by
  have hdrop : (bytes.take offset).drop (offset + ((bytes.drop offset).take n).length) = [] := by
    rw [List.drop_eq_nil_iff, List.length_take]
    omega
  rw [hdrop, List.append_nil, List.take_take, min_self, List.take_add, List.length_take, List.length_drop]
  congr 1
  rw [List.take_eq_take_iff, List.length_drop]
  omega

omit [Sha256] in
theorem afterFile_staging (n : String) (fd : ℕ) (e : Entry) : (afterFile n fd e).staging = some n := by
  cases e <;> rfl

/-- what is known while a file is written -/
theorem Progress.writing (h : Progress payload mediaType view (.writing n fd e file offset)) :
    view e = some (file, (contents payload mediaType e).take offset) ∧ offset ≤ (contents payload mediaType e).length := by
  cases e with
  | payload => exact ⟨h.1, h.2.1⟩
  | manifest => exact h.2

theorem Progress.write {view' : Entry → Option (ℕ × List UInt8)}
    (h : Progress payload mediaType view (.writing n fd e file offset))
    (he : view' e = some (file, (contents payload mediaType e).take k)) (hother : ∀ e' ≠ e, view' e' = view e')
    (hk : k ≤ (contents payload mediaType e).length) : Progress payload mediaType view' (.writing n fd e file k) := by
  cases e with
  | payload => exact ⟨he, hk, (hother .manifest (by decide)).trans h.2.2⟩
  | manifest =>
    refine ⟨?_, he, hk⟩
    rw [hother .payload (by decide)]
    exact h.1

theorem Progress.complete (h : Progress payload mediaType view (.writing n fd e file offset))
    (hk : ¬ offset < (contents payload mediaType e).length) : Progress payload mediaType view (afterFile n fd e) := by
  have hview := h.writing.1
  rw [List.take_of_length_le (not_lt.1 hk)] at hview
  cases e with
  | payload => exact ⟨⟨file, hview⟩, h.2.2⟩
  | manifest =>
    intro e'
    cases e' with
    | payload => exact h.1
    | manifest => exact ⟨file, hview⟩

theorem PutOk.toAfterFile (hs : Sound fs) (hp : PutOk fs payload mediaType (.writing n fd e file offset))
    (hk : ¬ offset < (contents payload mediaType e).length) : PutOk fs payload mediaType (afterFile n fd e) := by
  refine hp.next hs rfl (afterFile_staging n fd e) ?_ ?_ (fun h => h.complete hk) ?_ ?_ ?_ ?_ <;>
    cases e <;> first | exact Or.inl | rfl | exact nofun

/-- a chunk was written -/
theorem write_ok (hs : Sound fs) (hp : PutOk fs payload mediaType (.writing n fd e file offset)) (k : ℕ) :
    PutOk (fs.write file offset (((contents payload mediaType e).drop offset).take k)) payload mediaType
      (.writing n fd e file (offset + (((contents payload mediaType e).drop offset).take k).length)) where
  media _ := hp.media rfl
  digest _ := hp.text rfl
  name h := hp.name h
  handle h := hp.handle h
  file h := hp.file h
  owned := by
    intro hnone n' hn
    rcases hp.owned hnone hn with ⟨fd', hroot, hsame, hprogress⟩
    obtain rfl := hsame rfl
    refine ⟨fd, hroot, fun h => (Option.some.inj h).symm, ?_⟩
    rcases hprogress.writing with ⟨hview, hoffset⟩
    refine hprogress.write ?_ (fun e' he' => write_view_other hs hview he') ?_
    · rw [write_view hview, take_write _ _ _ hoffset]
    · rw [List.length_take, List.length_drop]
      omega
  load := nofun
  settled := nofun
  syncing := nofun
  returned := nofun

/-- an entry of the staging directory was removed -/
theorem unlink_ok {entries : List Entry} {r : PutResult} (hs : Sound fs)
    (hp : PutOk fs payload mediaType (.unlinking n fd (e :: entries) r))
    (hf : Frame fs (fs.unlink fd e) payload (.unlinking n fd (e :: entries) r)) :
    PutOk (fs.unlink fd e) payload mediaType (.unlinking n fd entries r) where
  media _ := hp.media rfl
  digest _ := hp.text rfl
  name h := hp.name h
  handle h := hp.handle h
  file := nofun
  owned := by
    intro hnone n' hn
    rcases hp.owned hnone hn with ⟨fd', hroot, hsame, _⟩
    exact ⟨fd', hroot, hsame, trivial⟩
  load := nofun
  settled := nofun
  syncing := nofun
  returned := by
    intro ref href
    have hbefore : (PutPhase.unlinking n fd (e :: entries) r).returned = some ref := by cases r <;> exact href
    rcases hp.returned hbefore with ⟨fd', m, hpub, heq⟩
    exact ⟨fd', m, hpub.frame hs hp hf, heq⟩

/-- the staging directory was published -/
theorem rename_ok (hs : Sound fs) (hp : PutOk fs payload mediaType (.publishing n))
    (hf : Frame fs (fs.rename n (Sha256.hexdigestBytes payload)) payload (.publishing n))
    (hsource : fs.root n = some fd) (htarget : fs.root (Sha256.hexdigestBytes payload) = none) :
    PutOk (fs.rename n (Sha256.hexdigestBytes payload)) payload mediaType (.syncing n) := by
  have hroot : (fs.rename n (Sha256.hexdigestBytes payload)).root (Sha256.hexdigestBytes payload) = some fd := by
    rw [Fs.rename_root, if_neg, if_pos rfl, hsource]
    intro h
    exact hp.staging_ne (hp.text rfl) (congrArg some h.symm)
  have hne : (fs.rename n (Sha256.hexdigestBytes payload)).root (Sha256.hexdigestBytes payload) ≠ none := by
    rw [hroot]
    exact Option.some_ne_none _
  refine ⟨fun _ => hp.media rfl, fun _ => hp.text rfl, fun h => hp.name h, nofun, nofun, fun h => absurd h hne, nofun,
    fun _ => hne, fun _ => ?_, nofun⟩
  exact ⟨fd, mediaType, publishing_published hs hp hf htarget hsource hroot, rfl⟩

/-- **The steps of a call keep the assertion about itself.** -/
theorem putStep_ok (hs : Sound fs) (hp : PutOk fs payload mediaType phase) (input : Input) :
    PutOk (putStep payload mediaType input fs phase).1 payload mediaType (putStep payload mediaType input fs phase).2 := by
  have hf := putStep_frame hs hp input
  have hsound := putStep_sound hs hp input
  cases phase with
  | start =>
    rw [putStep]
    split
    next => exact PutOk.of_error _
    next hmedia =>
      rw [validateMediaType, check_eq_ok, decide_eq_true_eq] at hmedia
      refine ⟨fun _ => hmedia, ?_, (fun h => by cases h), (fun h => by cases h), (fun h => by cases h),
        (fun _ _ h => by cases h), ?_, (fun h => by cases h), (fun h => by cases h), (fun h => by cases h)⟩
      · rintro (h | ⟨_, h⟩)
        · exact absurd rfl h
        · cases h
      · intro l hl
        cases hl
        trivial
  | lookup l => exact lookup_ok hs hp input
  | mkdir k =>
    rw [putStep]
    split_ifs with hfault hexists hmore
    · exact PutOk.of_error _
    · exact ⟨fun _ => hp.media rfl, fun _ => hp.digest (Or.inr ⟨k, rfl⟩), (fun h => by cases h),
        (fun h => by cases h), (fun h => by cases h), (fun _ _ h => by cases h), (fun h => by cases h),
        (fun h => by cases h), (fun h => by cases h), (fun h => by cases h)⟩
    · exact PutOk.of_error _
    · exact mkdir_ok hp input.token
  | chmod n =>
    rw [putStep]
    split_ifs
    · exact PutOk.of_error _
    · exact hp.next hs rfl rfl (fun h => by cases h) rfl id (fun h => by cases h) (fun h => by cases h)
        (fun h => by cases h) (fun h => by cases h)
  | reopening n =>
    rw [putStep]
    split_ifs
    · exact PutOk.of_error _
    · exact PutOk.of_error _
    · exact hp.next hs rfl rfl (fun h => by cases h) rfl id (fun h => by cases h) (fun h => by cases h)
        (fun h => by cases h) (fun h => by cases h)
  | opening n =>
    rw [putStep]
    split_ifs
    · exact hp.toCleanup_error hs rfl _
    · split
      next => exact hp.toCleanup_error hs rfl _
      next fd hroot =>
        exact hp.next hs rfl rfl (fun h => Or.inr (Option.some.inj h ▸ hroot)) rfl id (fun h => by cases h)
          (fun h => by cases h) (fun h => by cases h) (fun h => by cases h)
  | creating n fd e =>
    rw [putStep]
    split_ifs
    · exact hp.toCleanup_error hs rfl _
    · exact create_ok hs hp
  | writing n fd e file offset =>
    rcases writing_cases payload mediaType input fs n fd e file offset with heq | ⟨hdone, heq⟩ | ⟨k, hlt, heq⟩
    · rw [heq]
      exact hp.toCleanup_error hs rfl _
    · rw [heq]
      exact hp.toAfterFile hs hdone
    · rw [heq] at hsound ⊢
      have hwrite := write_ok hs hp (k + 1)
      dsimp only
      split_ifs with hmore
      · exact hwrite
      · exact hwrite.toAfterFile hsound hmore
  | publishing n =>
    rw [putStep]
    split_ifs with hfault
    · exact hp.toCleanup_error hs rfl _
    · split
      next => exact hp.toCleanup_error hs rfl _
      next fd other _ htarget =>
        refine hp.next hs rfl rfl (fun h => by cases h) rfl (fun _ => trivial) ?_
          (fun _ => by rw [htarget]; exact Option.some_ne_none _)
          (fun h => by cases h) (fun h => by cases h)
        intro l hl
        cases hl
        trivial
      next fd hsource htarget =>
        have hstep : putStep payload mediaType input fs (.publishing n) =
            (fs.rename n (Sha256.hexdigestBytes payload), .syncing n) := by
          rw [putStep, if_neg hfault, hsource, htarget]
        rw [hstep] at hf
        exact rename_ok hs hp hf hsource htarget
  | reload n l => exact reload_ok hs hp input
  | syncing n =>
    rw [putStep]
    split_ifs
    · exact hp.toCleanup_error hs rfl _
    · refine hp.toCleanup hs rfl fun ref href => ?_
      cases href
      rcases hp.syncing rfl with ⟨fd, m, hpub, heq⟩
      exact ⟨fd, m, hpub, heq.symm⟩
  | cleanup n r =>
    have hret : ∀ ref, r = .ok ref → Returns fs payload ref := fun ref h => hp.returned (by rw [h]; rfl)
    rw [putStep]
    split_ifs
    · exact PutOk.of_done hret
    · split
      next => exact PutOk.of_done hret
      next fd hroot =>
        refine hp.next hs rfl rfl (fun h => Or.inr (Option.some.inj h ▸ hroot)) rfl (fun _ => trivial)
          (fun h => by cases h) (fun h => by cases h) (fun h => by cases h) ?_
        intro ref href
        exact hp.returned (by cases r <;> exact href)
  | cleanupListing n fd r =>
    rw [putStep]
    split_ifs
    · exact PutOk.of_error _
    · refine hp.next hs rfl rfl Or.inl rfl (fun _ => trivial) (fun h => by cases h) (fun h => by cases h)
        (fun h => by cases h) ?_
      intro ref href
      exact hp.returned (by cases r <;> exact href)
  | unlinking n fd entries r =>
    cases entries with
    | nil =>
      refine hp.next hs rfl rfl (fun h => by cases h) rfl (fun _ => trivial) (fun h => by cases h)
        (fun h => by cases h) (fun h => by cases h) ?_
      intro ref href
      exact hp.returned (by cases r <;> exact href)
    | cons e entries =>
      rw [putStep] at hf ⊢
      split_ifs at hf ⊢
      · refine hp.next hs rfl rfl Or.inl rfl (fun _ => trivial) (fun h => by cases h) (fun h => by cases h)
          (fun h => by cases h) ?_
        intro ref href
        exact hp.returned (by cases r <;> exact href)
      · exact unlink_ok hs hp hf
  | rmdir n r =>
    refine PutOk.of_done fun ref href => ?_
    have hbefore : (PutPhase.rmdir n r).returned = some ref := by
      rw [href]
      rfl
    rcases hp.returned hbefore with ⟨fd, m, hpub, heq⟩
    exact ⟨fd, m, hpub.frame hs hp hf, heq⟩
  | done r =>
    exact hp

end Own

/-! ## The outline is valid -/

theorem readStep_ok {fs : Fs} {ref : ArtifactRef} {r : ReadPhase} (hs : Sound fs) (h : ReadOk fs ref r) (input : Input) :
    ReadOk fs ref (readStep ref input fs r) := by
  cases r with
  | start =>
    rw [readStep]
    split <;> trivial
  | load l =>
    rw [readStep]
    have hsees := Load.Sees.step hs h input
    cases hl : l.step ref.sha256 input fs <;> rw [hl] at hsees
    case done r =>
      cases r with
      | ok x =>
        obtain ⟨stored, p⟩ := x
        rcases hsees with ⟨fd, m, hpub, rfl⟩
        rw [afterLoad]
        split_ifs with hne
        · trivial
        · exact ⟨fd, m, hpub, (not_not.1 hne).symm⟩
      | error e => cases e <;> trivial
    all_goals exact hsees
  | done r => exact h

/-- the staging directory of the next phase: the same, none, or a new one -/
theorem putStep_staging (payload : List UInt8) (mediaType : String) (input : Input) (fs : Fs) (phase : PutPhase) :
    (putStep payload mediaType input fs phase).2.staging = none ∨
    (putStep payload mediaType input fs phase).2.staging = phase.staging ∨
    ∃ n, (putStep payload mediaType input fs phase).2.staging = some n ∧ fs.root n = none ∧
      (∃ t, n = stagingName (Sha256.hexdigestBytes payload) t) ∧ ∃ k, phase = .mkdir k := by
  cases phase with
  | start =>
    left
    rw [putStep]
    split <;> rfl
  | lookup l =>
    left
    rw [putStep]
    unfold afterLookup
    split <;> rfl
  | mkdir k =>
    rw [putStep]
    split_ifs with hfault hexists
    · exact Or.inl rfl
    · exact Or.inl rfl
    · exact Or.inl rfl
    · exact Or.inr (Or.inr ⟨_, rfl, by simpa using hexists, ⟨_, rfl⟩, k, rfl⟩)
  | writing n fd e file offset =>
    right
    left
    rcases writing_cases payload mediaType input fs n fd e file offset with heq | ⟨_, heq⟩ | ⟨k, _, heq⟩
    · rw [heq]
      rfl
    · rw [heq]
      exact afterFile_staging n fd e
    · rw [heq]
      dsimp only
      split_ifs
      · rfl
      · exact afterFile_staging n fd e
  | reload n l =>
    right
    left
    rw [putStep]
    unfold afterReload
    split <;> rfl
  | unlinking n fd entries r =>
    right
    left
    cases entries <;> rfl
  | done r => exact Or.inl rfl
  | rmdir n r => exact Or.inl rfl
  | chmod n =>
    rw [putStep]
    split_ifs
    · exact Or.inl rfl
    · exact Or.inr (Or.inl rfl)
  | reopening n =>
    rw [putStep]
    split_ifs
    · exact Or.inl rfl
    · exact Or.inl rfl
    · exact Or.inr (Or.inl rfl)
  | opening n =>
    right
    left
    rw [putStep]
    split_ifs
    · rfl
    · split <;> rfl
  | creating n fd e =>
    right
    left
    rw [putStep]
    split_ifs <;> rfl
  | publishing n =>
    right
    left
    rw [putStep]
    split_ifs
    · rfl
    · split <;> rfl
  | syncing n =>
    right
    left
    rw [putStep]
    split_ifs <;> rfl
  | cleanup n r =>
    rw [putStep]
    split_ifs
    · exact Or.inl rfl
    · split
      next => exact Or.inl rfl
      next => exact Or.inr (Or.inl rfl)
  | cleanupListing n fd r =>
    rw [putStep]
    split_ifs
    · exact Or.inl rfl
    · exact Or.inr (Or.inl rfl)

theorem staging_fresh {fs : Fs} {mediaType : String} {phase : PutPhase} (hq : PutOk fs payload mediaType phase)
    {digest n : String} (htext : isDigestText digest = true) (hnone : fs.root digest = none)
    (hname : ∃ t, n = stagingName digest t) (hfresh : fs.root n = none) : phase.staging ≠ some n := by
  intro hn
  rcases hname with ⟨t, ht⟩
  rcases hq.name hn with ⟨t', ht'⟩
  obtain rfl := stagingName_inj htext (hq.text hn) (ht.symm.trans ht')
  rcases hq.owned hnone hn with ⟨fd, hfd, _⟩
  rw [hfresh] at hfd
  cases hfd

theorem apart_step {fs : Fs} {p q : List UInt8} {m m' : String} {phase phase' : PutPhase} (hs : Sound fs)
    (hp : PutOk fs p m phase) (hq : PutOk fs q m' phase') (hpq : Apart fs (.put p m phase) (.put q m' phase'))
    (hqp : Apart fs (.put q m' phase') (.put p m phase)) (input : Input) :
    Apart (putStep p m input fs phase).1 (.put p m (putStep p m input fs phase).2) (.put q m' phase') ∧
      Apart (putStep p m input fs phase).1 (.put q m' phase') (.put p m (putStep p m input fs phase).2) := by
  have hf := putStep_frame hs hp input
  constructor
  · intro htext hnone n hn
    have hnone' := hp.root_kept hf htext hnone
    rcases putStep_staging p m input fs phase with h | h | ⟨n', h, hfresh, hname, _⟩
    · rw [h] at hn
      cases hn
    · exact hpq htext hnone' (h ▸ hn)
    · obtain rfl := Option.some.inj (h.symm.trans hn)
      exact staging_fresh hq htext hnone' hname hfresh
  · intro htext hnone n hn
    have hnone' := hp.root_kept hf htext hnone
    rcases putStep_staging p m input fs phase with h | h | ⟨n', h, hfresh, hname, k, hk⟩
    · rw [h]
      exact (Option.some_ne_none n).symm
    · rw [h]
      exact hqp htext hnone' hn
    · rw [h]
      intro heq
      obtain rfl := Option.some.inj heq
      rcases hq.owned hnone' hn with ⟨fd, hfd, _⟩
      rw [hfresh] at hfd
      cases hfd

/-- **The outline is kept by every step.** -/
theorem outline_valid : outline.Valid store where
  start := by
    intro fs i args _
    cases args with
    | put p m =>
      refine ⟨nofun, ?_, nofun, nofun, nofun, fun _ _ => nofun, nofun, nofun, nofun, nofun⟩
      rintro (h | ⟨_, h⟩)
      · exact absurd rfl h
      · cases h
    | read ref => trivial
  startPair := by
    intro fs args l
    cases args with
    | put p m =>
      cases l with
      | put q m' phase =>
        refine ⟨fun _ _ n hn => ?_, fun _ _ n _ => (Option.some_ne_none n).symm⟩
        cases hn
      | read ref r => exact ⟨trivial, trivial⟩
    | read ref => cases l <;> exact ⟨trivial, trivial⟩
  own := by
    intro i input fs l hs hl
    cases l with
    | put p m phase => exact ⟨putStep_sound hs hl input, putStep_ok hs hl input⟩
    | read ref r => exact ⟨hs, readStep_ok hs hl input⟩
  other := by
    intro i input fs l j k hs hl hk _ hlk hkl
    cases l with
    | put p m phase =>
      cases k with
      | put q m' phase' =>
        have hframe := putStep_frame hs hl input
        refine ⟨PutOk.frame hs hl hframe hk fun hnone n hn => ?_, apart_step hs hl hk hlk hkl input⟩
        exact hkl (hk.text hn) hnone hn
      | read ref r => exact ⟨ReadOk.frame hk hs hl (putStep_frame hs hl input), trivial, trivial⟩
    | read ref r =>
      refine ⟨hk, ?_, ?_⟩
      · cases k <;> trivial
      · cases k <;> trivial
  others := by
    intro i input fs l k k' hs hl hkk'
    cases l with
    | put p m phase =>
      cases k with
      | put q m' phase' =>
        cases k' with
        | put q' m'' phase'' =>
          intro htext hnone n hn
          exact hkk' htext (hl.root_kept (putStep_frame hs hl input) htext hnone) hn
        | read ref r => trivial
      | read ref r => trivial
    | read ref r => exact hkk'

end Artifacts

end Apar
