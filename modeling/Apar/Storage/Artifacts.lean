/-
The artifact store (`storage/artifacts.py`): `put_bytes` and `read`, one system call a step.

The root holds directories: a published artifact under its digest, a staging directory under `.<digest>.<token>.tmp`.
A directory holds at most the files `payload` and `manifest.json`. Directories and files are numbered, so that an open
descriptor outlives a rename or a removal. The exclusive rename of a directory is atomic and fails when the target exists.

Every step is one system call on these, with what follows it up to the next one. The calls that touch no entry and no
contents (`dup`, `fchmod`, `fsync`, `fstat`, `close`) go with the call before them. Any step may fail (`Input.fault`),
except where the source suppresses the error; a read or a write may move any number of bytes. Modes, owners and link
counts are not modelled: a check of them that fails is a fault.
-/
import Apar.Core.Interleaving
import Apar.Storage.Manifests

namespace Apar

namespace Artifacts

/-! ## The file system -/

/-- `_PAYLOAD_FILENAME` and `_MANIFEST_FILENAME` -/
inductive Entry where
  | payload
  | manifest
deriving DecidableEq, Repr

def Entry.name : Entry → String
  | payload => "payload"
  | manifest => "manifest.json"

/-- the directories and files below one root -/
structure Fs where
  root : String → Option ℕ
  dirs : ℕ → Entry → Option ℕ
  files : ℕ → List UInt8
  nextDir : ℕ
  nextFile : ℕ

namespace Fs

def empty : Fs := ⟨fun _ => none, fun _ _ => none, fun _ => [], 0, 0⟩

/-- `os.mkdir(name, dir_fd=root)`, of a name that does not exist -/
def mkdir (fs : Fs) (name : String) : Fs :=
  { fs with
    root := Function.update fs.root name (some fs.nextDir)
    dirs := Function.update fs.dirs fs.nextDir fun _ => none
    nextDir := fs.nextDir + 1 }

/-- `os.open(name, O_CREAT | O_EXCL, dir_fd=fd)`, of a name that does not exist -/
def create (fs : Fs) (fd : ℕ) (e : Entry) : Fs :=
  { fs with
    dirs := Function.update fs.dirs fd (Function.update (fs.dirs fd) e (some fs.nextFile))
    files := Function.update fs.files fs.nextFile []
    nextFile := fs.nextFile + 1 }

/-- `os.write` at an offset -/
def write (fs : Fs) (file offset : ℕ) (bytes : List UInt8) : Fs :=
  { fs with
    files := Function.update fs.files file
      ((fs.files file).take offset ++ bytes ++ (fs.files file).drop (offset + bytes.length)) }

/-- the exclusive rename of a source that exists to a target that does not -/
def rename (fs : Fs) (source target : String) : Fs :=
  { fs with root := Function.update (Function.update fs.root target (fs.root source)) source none }

/-- `os.unlink(name, dir_fd=fd)` -/
def unlink (fs : Fs) (fd : ℕ) (e : Entry) : Fs :=
  { fs with dirs := Function.update fs.dirs fd (Function.update (fs.dirs fd) e none) }

/-- `os.listdir(fd)` -/
def list (fs : Fs) (fd : ℕ) : List Entry := [Entry.payload, .manifest].filter fun e => (fs.dirs fd e).isSome

/-- `os.rmdir(name, dir_fd=root)`: only of an empty directory -/
def rmdir (fs : Fs) (name : String) : Fs :=
  match fs.root name with
  | some fd => if (fs.list fd).isEmpty then { fs with root := Function.update fs.root name none } else fs
  | none => fs

variable (fs : Fs)

theorem mkdir_root (name n : String) : (fs.mkdir name).root n = if n = name then some fs.nextDir else fs.root n :=
  Function.update_apply ..

theorem mkdir_dirs (name : String) (x : ℕ) (e : Entry) :
    (fs.mkdir name).dirs x e = if x = fs.nextDir then none else fs.dirs x e := by
  show Function.update fs.dirs fs.nextDir (fun _ => none) x e = _
  rw [Function.update_apply]
  split_ifs <;> rfl

theorem create_dirs (fd x : ℕ) (e e' : Entry) :
    (fs.create fd e).dirs x e' = if x = fd ∧ e' = e then some fs.nextFile else fs.dirs x e' := by
  show Function.update fs.dirs fd (Function.update (fs.dirs fd) e (some fs.nextFile)) x e' = _
  rw [Function.update_apply]
  by_cases hx : x = fd
  · rw [if_pos hx, Function.update_apply, hx]
    simp
  · rw [if_neg hx, if_neg fun h => hx h.1]

theorem create_files (fd f : ℕ) (e : Entry) : (fs.create fd e).files f = if f = fs.nextFile then [] else fs.files f :=
  Function.update_apply ..

theorem write_files (file offset f : ℕ) (bytes : List UInt8) :
    (fs.write file offset bytes).files f =
      if f = file then (fs.files file).take offset ++ bytes ++ (fs.files file).drop (offset + bytes.length)
      else fs.files f :=
  Function.update_apply ..

theorem rename_root (source target n : String) :
    (fs.rename source target).root n =
      if n = source then none else if n = target then fs.root source else fs.root n := by
  show Function.update (Function.update fs.root target (fs.root source)) source none n = _
  rw [Function.update_apply, Function.update_apply]

theorem unlink_dirs (fd x : ℕ) (e e' : Entry) :
    (fs.unlink fd e).dirs x e' = if x = fd ∧ e' = e then none else fs.dirs x e' := by
  show Function.update fs.dirs fd (Function.update (fs.dirs fd) e none) x e' = _
  rw [Function.update_apply]
  by_cases hx : x = fd
  · rw [if_pos hx, Function.update_apply, hx]
    simp
  · rw [if_neg hx, if_neg fun h => hx h.1]

/-- `rmdir` changes nothing but the name -/
theorem rmdir_cases (name : String) : fs.rmdir name = fs ∨ fs.rmdir name = { fs with root := Function.update fs.root name none } := by
  unfold rmdir
  split
  · split_ifs
    · exact Or.inr rfl
    · exact Or.inl rfl
  · exact Or.inl rfl

end Fs

/-! ## Loading an artifact -/

/-- what the environment decides at a step: whether the system call fails, `secrets.token_hex(12)`, and how many bytes a
read or a write moves -/
structure Input where
  fault : Bool
  token : String
  count : ℕ

inductive LoadError where
  /-- `FileNotFoundError` of the artifact's directory -/
  | missing
  | error (e : StoreError)
deriving DecidableEq, Repr

/-- `_load_verified`, up to its next system call -/
inductive Load where
  | opening
  | listing (fd : ℕ)
  | openingFile (fd : ℕ) (e : Entry) (payload : List UInt8)
  /-- reading a file: the payload read before, and what has been read of the file -/
  | reading (fd : ℕ) (e : Entry) (payload : List UInt8) (file : ℕ) (got : List UInt8)
  | done (result : Except LoadError (ArtifactRef × List UInt8))

def invalidFile (digest : String) (e : Entry) : StoreError := .value ("artifact file is invalid: " ++ digest ++ "/" ++ e.name)

def invalidDirectory (label : String) : StoreError := .value ("artifact directory is invalid: " ++ label)

variable [Sha256]

/-- `_load_verified(digest)`: `os.read` returns nothing only at the end of a file -/
def Load.step (digest : String) (input : Input) (fs : Fs) : Load → Load
  | .opening =>
    if !isDigestText digest then .done (.error (.error (.value "artifact reference has invalid digest")))
    else if input.fault then .done (.error (.error (invalidDirectory digest)))
    else
      match fs.root digest with
      | none => .done (.error .missing)
      | some fd => .listing fd
  | .listing fd =>
    if input.fault then .done (.error (.error .os))
    else if fs.list fd ≠ [.payload, .manifest] then
      .done (.error (.error (.value ("artifact directory has invalid contents: " ++ digest))))
    else .openingFile fd .payload []
  | .openingFile fd e payload =>
    if input.fault then .done (.error (.error (invalidFile digest e)))
    else
      match fs.dirs fd e with
      | none => .done (.error (.error (invalidFile digest e)))
      | some file => .reading fd e payload file []
  | .reading fd e payload file got =>
    if input.fault then .done (.error (.error .os))
    else
      match ((fs.files file).drop got.length).take (min (max 1 input.count) 1048576) with
      | [] =>
        match e with
        | .payload => .openingFile fd .manifest got
        | .manifest => .done (((verifyArtifact digest payload got).map (·, payload)).mapError .error)
      | chunk => .reading fd e payload file (got ++ chunk)
  | .done result => .done result

/-! ## Putting bytes -/

/-- `f".{digest}.{token}.tmp"` -/
def stagingName (digest token : String) : String := "." ++ digest ++ "." ++ token ++ ".tmp"

abbrev PutResult := Except StoreError ArtifactRef

/-- `put_bytes`, up to its next system call; a phase of the `finally` clause carries what the call will return or raise -/
inductive PutPhase where
  | start
  | lookup (load : Load)
  | mkdir (attempts : ℕ)
  | chmod (name : String)
  | reopening (name : String)
  | opening (name : String)
  | creating (name : String) (fd : ℕ) (e : Entry)
  | writing (name : String) (fd : ℕ) (e : Entry) (file offset : ℕ)
  | publishing (name : String)
  | reload (name : String) (load : Load)
  | syncing (name : String)
  | cleanup (name : String) (result : PutResult)
  | cleanupListing (name : String) (fd : ℕ) (result : PutResult)
  | unlinking (name : String) (fd : ℕ) (entries : List Entry) (result : PutResult)
  | rmdir (name : String) (result : PutResult)
  | done (result : PutResult)

/-- `_reuse_verified_artifact` -/
def reuseVerifiedArtifact (digest : String) (payload : List UInt8) (existing : ArtifactRef × List UInt8) : PutResult :=
  if existing.2 ≠ payload then .error (.value ("artifact payload does not match digest directory: " ++ digest))
  else .ok existing.1

/-- after `_load_if_present`, before a staging directory exists -/
def afterLookup (payload : List UInt8) : Load → PutPhase
  | .done (.ok existing) => .done (reuseVerifiedArtifact (Sha256.hexdigestBytes payload) payload existing)
  | .done (.error .missing) => .mkdir 0
  | .done (.error (.error e)) => .done (.error e)
  | load => .lookup load

/-- after `_load_if_present` of an artifact that another call published first -/
def afterReload (payload : List UInt8) (name : String) : Load → PutPhase
  | .done (.ok existing) => .cleanup name (reuseVerifiedArtifact (Sha256.hexdigestBytes payload) payload existing)
  | .done (.error .missing) =>
    .cleanup name (.error (.value ("concurrent artifact disappeared: " ++ Sha256.hexdigestBytes payload)))
  | .done (.error (.error e)) => .cleanup name (.error e)
  | load => .reload name load

/-- the bytes of a file of an artifact -/
def contents (payload : List UInt8) (mediaType : String) : Entry → List UInt8
  | .payload => payload
  | .manifest => manifestBytes (artifactRef payload mediaType)

/-- after the last byte of a file -/
def afterFile (name : String) (fd : ℕ) : Entry → PutPhase
  | .payload => .creating name fd .manifest
  | .manifest => .publishing name

/-- one step of `put_bytes(payload, media_type)` -/
def putStep (payload : List UInt8) (mediaType : String) (input : Input) (fs : Fs) : PutPhase → Fs × PutPhase
  | .start =>
    match validateMediaType mediaType with
    | .error e => (fs, .done (.error e))
    | .ok () => (fs, .lookup .opening)
  | .lookup load => (fs, afterLookup payload (load.step (Sha256.hexdigestBytes payload) input fs))
  | .mkdir attempts =>
    let name := stagingName (Sha256.hexdigestBytes payload) input.token
    if input.fault then (fs, .done (.error .os))
    else if (fs.root name).isSome then
      if attempts + 1 < 100 then (fs, .mkdir (attempts + 1))
      else (fs, .done (.error (.runtime "could not allocate an artifact staging directory")))
    else (fs.mkdir name, .chmod name)
  | .chmod name =>
    if input.fault || (fs.root name).isNone then (fs, .done (.error .os)) else (fs, .reopening name)
  | .reopening name =>
    if input.fault then (fs, .done (.error (invalidDirectory (Sha256.hexdigestBytes payload))))
    else if (fs.root name).isNone then (fs, .done (.error .os))
    else (fs, .opening name)
  | .opening name =>
    if input.fault then (fs, .cleanup name (.error (invalidDirectory (Sha256.hexdigestBytes payload))))
    else
      match fs.root name with
      | none => (fs, .cleanup name (.error .os))
      | some fd => (fs, .creating name fd .payload)
  | .creating name fd e =>
    if input.fault || (fs.dirs fd e).isSome then (fs, .cleanup name (.error .os))
    else (fs.create fd e, .writing name fd e fs.nextFile 0)
  | .writing name fd e file offset =>
    let content := contents payload mediaType e
    if input.fault then (fs, .cleanup name (.error .os))
    else if offset < content.length then
      match (content.drop offset).take input.count with
      | [] => (fs, .cleanup name (.error .os))
      | chunk =>
        let fs := fs.write file offset chunk
        if offset + chunk.length < content.length then (fs, .writing name fd e file (offset + chunk.length))
        else (fs, afterFile name fd e)
    else (fs, afterFile name fd e)
  | .publishing name =>
    if input.fault then (fs, .cleanup name (.error .os))
    else
      match fs.root name, fs.root (Sha256.hexdigestBytes payload) with
      | none, _ => (fs, .cleanup name (.error .os))
      | some _, some _ => (fs, .reload name .opening)
      | some _, none => (fs.rename name (Sha256.hexdigestBytes payload), .syncing name)
  | .reload name load => (fs, afterReload payload name (load.step (Sha256.hexdigestBytes payload) input fs))
  | .syncing name =>
    if input.fault then (fs, .cleanup name (.error .os)) else (fs, .cleanup name (.ok (artifactRef payload mediaType)))
  | .cleanup name result =>
    if input.fault then (fs, .done result)
    else
      match fs.root name with
      | none => (fs, .done result)
      | some fd => (fs, .cleanupListing name fd result)
  | .cleanupListing name fd result =>
    if input.fault then (fs, .done (.error .os)) else (fs, .unlinking name fd (fs.list fd) result)
  | .unlinking name _ [] result => (fs, .rmdir name result)
  | .unlinking name fd (e :: entries) result =>
    (if input.fault then fs else fs.unlink fd e, .unlinking name fd entries result)
  | .rmdir name result => (if input.fault then fs else fs.rmdir name, .done result)
  | .done result => (fs, .done result)

/-! ## Reading, and the calls on one root -/

inductive ReadPhase where
  | start
  | load (load : Load)
  | done (result : Except StoreError (List UInt8))

/-- after `_load_verified` -/
def afterLoad (ref : ArtifactRef) : Load → ReadPhase
  | .done (.ok (stored, payload)) =>
    if stored ≠ ref then .done (.error (.value "artifact reference does not match stored manifest"))
    else .done (.ok payload)
  | .done (.error .missing) => .done (.error (.value ("artifact does not exist: " ++ ref.sha256)))
  | .done (.error (.error e)) => .done (.error e)
  | l => .load l

/-- one step of `read(ref)` -/
def readStep (ref : ArtifactRef) (input : Input) (fs : Fs) : ReadPhase → ReadPhase
  | .start =>
    match validateRefShape ref with
    | .error e => .done (.error e)
    | .ok () => .load .opening
  | .load l => afterLoad ref (l.step ref.sha256 input fs)
  | .done result => .done result

inductive Args where
  | put (payload : List UInt8) (mediaType : String)
  | read (ref : ArtifactRef)

inductive Local where
  | put (payload : List UInt8) (mediaType : String) (phase : PutPhase)
  | read (ref : ArtifactRef) (phase : ReadPhase)

/-- the calls of `put_bytes` and `read` over one root, of one store or of several, in one process or in several -/
def store : Calls Fs Local Args Input where
  start
    | .put payload mediaType => .put payload mediaType .start
    | .read ref => .read ref .start
  step _ input fs
    | .put payload mediaType phase =>
      ((putStep payload mediaType input fs phase).1, .put payload mediaType (putStep payload mediaType input fs phase).2)
    | .read ref phase => (fs, .read ref (readStep ref input fs phase))

end Artifacts

end Apar
