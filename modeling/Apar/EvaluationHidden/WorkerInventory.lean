/-
The inventory of the hidden evaluator's sources (`evaluation_hidden/worker_client.py`).

`_source_inventory` walks the source tree in the order of `pathlib`, part by part; `EvaluatorWorkerManifest` wants its paths
in the order of their texts. `_create_verified_snapshot` copies the entries of a manifest below a new directory, walks that
again and compares.

A name of a path has no slash and is none of `.` and `..`, as on any file system; modes and `fsync` are left out. The
signature is a parameter.
- `sourceInventory_eq_ok`, `create_eq_ok`: what the inventory and the manifest are, and when they are.
- `snapshot_ok`, `snapshot_fails`: the snapshot is the inventory again, unless a directory has the name of a source.
- `inventory_consistent_iff`: all of it works exactly when the worker is there, no path is too long, no two paths are in
  conflict (`PathOrder.Conflict`) and no directory ends in `.py`.
-/
import Mathlib.Data.String.Basic
import Apar.Core.Digest
import Apar.Core.Exec
import Apar.Core.Files
import Apar.Core.PathOrder
import Apar.Core.Sorting

namespace Apar

namespace HiddenWorker

open Exec

/-! ## Model -/

/-- what the client raises: its own error, a `ValidationError`, or the `OSError` of a file -/
inductive WorkerFailure where
  | hidden (message : String)
  | validation (message : String)
  | os
deriving DecidableEq

/-- `_MAX_SOURCE_FILES` -/
def maxSourceFiles : ℕ := 1000

/-- `_MAX_SOURCE_BYTES` -/
def maxSourceBytes : ℕ := 4000000

/-- `name.endswith(".py")` -/
def isPythonName (name : String) : Bool := ['.', 'p', 'y'].isSuffixOf name.toList

structure WorkerSourceEntry where
  path : String
  sha256 : String
  sizeBytes : ℤ
deriving DecidableEq

def WorkerSourceEntry.make (path sha256 : String) (sizeBytes : ℤ) : Except WorkerFailure WorkerSourceEntry := do
  check (['a', 'p', 'a', 'r', '/'].isPrefixOf path.toList && isPythonName path &&
    !(path.toList.splitOn '/').contains ['.', '.'] && path.toList.length ≤ 512)
    (.validation "worker source path is invalid")
  check (isDigestText sha256) (.validation "worker evidence digest must be lowercase SHA-256")
  check (0 < sizeBytes && sizeBytes ≤ maxSourceBytes) (.validation "worker source size is invalid")
  pure ⟨path, sha256, sizeBytes⟩

/-- `path.as_posix()` of a relative path -/
def asPosix (p : PathParts) : String := String.ofList (PathOrder.text '/' (p.map String.toList))

/-- `path.read_bytes()` -/
def readBytes (fs : Files) (p : PathParts) : Except WorkerFailure (List UInt8) :=
  match fs.file? p with
  | some inode => .ok inode.content
  | none => .error .os

/-- `dir.rglob("*.py")`: what is below a directory, directories too, in the order of the file system -/
def rglobPython (fs : Files) (dir : PathParts) : List PathParts :=
  fs.nodes.keys.filter fun p => dir.isPrefixOf p && p ≠ dir && p.getLast?.any isPythonName

/-- the entry of one path below a root -/
def sourceEntry [Sha256] (root path : PathParts) (raw : List UInt8) : Except WorkerFailure WorkerSourceEntry :=
  WorkerSourceEntry.make (asPosix (path.drop root.length)) (Sha256.hexdigestBytes raw) raw.length

/-- `_source_inventory` -/
def sourceInventory [Sha256] (fs : Files) (sourceRoot : PathParts) : Except WorkerFailure (List WorkerSourceEntry) := do
  let paths := sortBy id ((rglobPython fs (sourceRoot ++ ["apar"])).filter fun p => (fs.file? p).isSome)
  check (!paths.isEmpty && paths.length ≤ maxSourceFiles) (.hidden "hidden evaluator source inventory is invalid")
  paths.mapM fun path => do
    let raw ← readBytes fs path
    check (!raw.isEmpty && raw.length ≤ maxSourceBytes) (.hidden "hidden evaluator source file violates bounds")
    sourceEntry sourceRoot path raw

/-- `_WORKER_PATH`, from the source root -/
def workerPath : PathParts := ["apar", "evaluation_hidden", "worker.py"]

/-- `EvaluatorSigningIdentity`: a public key, and a signature of a document -/
structure EvaluatorSigner where
  publicKey : List UInt8
  sign : Json → String

def EvaluatorSigner.keyId [Sha256] (s : EvaluatorSigner) : String := Sha256.hexdigestBytes s.publicKey

structure EvaluatorWorkerManifest where
  entrypoint : String
  entries : List WorkerSourceEntry
  signerKeyId : String
  signatureBase64 : String
  manifestDigest : String
deriving DecidableEq

def WorkerSourceEntry.dump (e : WorkerSourceEntry) : Json :=
  .obj [("path", .str e.path), ("sha256", .str e.sha256), ("size_bytes", .int e.sizeBytes)]

def unsignedFields (entrypoint : String) (entries : List WorkerSourceEntry) (signerKeyId : String) : List (String × Json) :=
  [("schema_version", .str "1.0.0"), ("entrypoint", .str entrypoint), ("entries", .arr (entries.map WorkerSourceEntry.dump)),
    ("signer_key_id", .str signerKeyId)]

def EvaluatorWorkerManifest.unsignedDocument (m : EvaluatorWorkerManifest) : List (String × Json) :=
  unsignedFields m.entrypoint m.entries m.signerKeyId

/-- the validators of a manifest; the last two checks are `inventory_is_closed` -/
def EvaluatorWorkerManifest.validate [Sha256] (m : EvaluatorWorkerManifest) : Except WorkerFailure EvaluatorWorkerManifest := do
  check (isDigestText m.signerKeyId && isDigestText m.manifestDigest)
    (.validation "worker evidence digest must be lowercase SHA-256")
  let paths := m.entries.map WorkerSourceEntry.path
  check (!paths.isEmpty && paths.length ≤ maxSourceFiles && paths = sortedSet paths && m.entrypoint ∈ paths)
    (.validation "worker source inventory is invalid")
  check (m.manifestDigest = Sha256.hexdigest (.obj (m.unsignedDocument ++ [("signature_base64", .str m.signatureBase64)])))
    (.validation "worker manifest digest is inconsistent")
  pure m

/-- `EvaluatorWorkerManifest.create` -/
def EvaluatorWorkerManifest.create [Sha256] (fs : Files) (sourceRoot : PathParts) (signer : EvaluatorSigner) :
    Except WorkerFailure EvaluatorWorkerManifest := do
  let entries ← sourceInventory fs sourceRoot
  let unsigned := unsignedFields (asPosix workerPath) entries signer.keyId
  let signature := signer.sign (.obj unsigned)
  EvaluatorWorkerManifest.validate ⟨asPosix workerPath, entries, signer.keyId, signature,
    Sha256.hexdigest (.obj (unsigned ++ [("signature_base64", .str signature)]))⟩

/-- a system call, and its `OSError` -/
def system {α : Type} (x : Option α) : Except WorkerFailure α := x.elim (.error .os) .ok

/-- one entry is copied from the source tree -/
def copyEntry [Sha256] (sourceRoot snapshotRoot : PathParts) (fs : Files) (entry : WorkerSourceEntry) :
    Except WorkerFailure Files := do
  let raw ← readBytes fs (joinPath sourceRoot entry.path)
  check (raw.length = entry.sizeBytes && Sha256.hexdigestBytes raw = entry.sha256)
    (.hidden "hidden evaluator source snapshot changed")
  let destination := joinPath snapshotRoot entry.path
  let fs ← system (fs.ensure destination.dropLast)
  system (fs.create destination.dropLast (destination.getLast?.getD "") raw)

/-- the inventory that is read from a snapshot -/
def snapshotInventory [Sha256] (fs : Files) (snapshotRoot : PathParts) : Except WorkerFailure (List WorkerSourceEntry) :=
  (sortBy id (rglobPython fs snapshotRoot)).mapM fun path => do
    let raw ← readBytes fs path
    sourceEntry snapshotRoot path raw

/-- `_create_verified_snapshot`, of the directory `dir / name` -/
def createVerifiedSnapshot [Sha256] (sourceRoot dir : PathParts) (name : String) (manifest : EvaluatorWorkerManifest)
    (fs : Files) : Except WorkerFailure Files := do
  let fs ← system (fs.mkdir dir name)
  let fs ← manifest.entries.foldlM (copyEntry sourceRoot (dir ++ [name])) fs
  let entries ← snapshotInventory fs (dir ++ [name])
  check (entries = manifest.entries) (.hidden "hidden evaluator source snapshot is inconsistent")
  pure fs

/-! ## The sources of a tree -/

/-- a file system with a source root, and names as they are on a disk -/
structure SourceTree where
  files : Files
  root : PathParts
  named : ∀ p node, files.get? p = some node → ∀ name ∈ p, isPathPart name = true

namespace SourceTree

/-- the paths of the sources from the source root, in the order of `pathlib` -/
def sources (t : SourceTree) : List PathParts :=
  (sortBy id ((rglobPython t.files (t.root ++ ["apar"])).filter fun p => (t.files.file? p).isSome)).map
    (List.drop t.root.length)

def content (t : SourceTree) (r : PathParts) : List UInt8 := ((t.files.file? (t.root ++ r)).map Inode.content).getD []

/-- within the file and size caps -/
structure Capped (t : SourceTree) : Prop where
  count : t.sources.length ≤ maxSourceFiles
  size : ∀ r ∈ t.sources, t.content r ≠ [] ∧ (t.content r).length ≤ maxSourceBytes

/-- the inventory is one that a manifest accepts, and the snapshot of the manifest is read back as the inventory -/
def Consistent [Sha256] (t : SourceTree) (signer : EvaluatorSigner) (dir : PathParts) (name : String) : Prop :=
  ∃ entries manifest fs, sourceInventory t.files t.root = .ok entries ∧
    EvaluatorWorkerManifest.create t.files t.root signer = .ok manifest ∧ manifest.entries = entries ∧
    createVerifiedSnapshot t.root dir name manifest t.files = .ok fs ∧
    snapshotInventory fs (dir ++ [name]) = .ok manifest.entries

/-- the directories of the sources have names that no source has -/
def PlainDirectories (t : SourceTree) : Prop := ∀ r ∈ t.sources, ∀ name ∈ r.dropLast, isPythonName name = false

/-- the trees whose two orders agree, with the worker in them and nothing that only looks like a source -/
structure Plain (t : SourceTree) : Prop where
  worker : workerPath ∈ t.sources
  short : ∀ r ∈ t.sources, (asPosix r).toList.length ≤ 512
  apart : ∀ p ∈ t.sources, ∀ q ∈ t.sources, ¬PathOrder.Conflict '/' (p.map String.toList) (q.map String.toList)
  directories : t.PlainDirectories

end SourceTree

/-! ## Names and texts -/

theorem isPathPart_spec {s : String} (h : isPathPart s = true) : s ≠ "" ∧ s ≠ "." ∧ s ≠ ".." ∧ '/' ∉ s.toList := by
  simp only [isPathPart, Bool.and_eq_true, decide_eq_true_eq, Bool.not_eq_true', List.contains_eq_mem,
    decide_eq_false_iff_not] at h
  exact ⟨h.1.1.1, h.1.1.2, h.1.2, h.2⟩

variable {p q : PathParts}

theorem slash_not_mem (hp : ∀ name ∈ p, isPathPart name = true) : ∀ cs ∈ p.map String.toList, '/' ∉ cs := by
  intro cs hcs
  obtain ⟨name, hname, rfl⟩ := List.mem_map.1 hcs
  exact (isPathPart_spec (hp name hname)).2.2.2

theorem toList_asPosix (p : PathParts) : (asPosix p).toList = PathOrder.text '/' (p.map String.toList) :=
  String.toList_ofList

theorem splitOn_asPosix (hne : p ≠ []) (hp : ∀ name ∈ p, isPathPart name = true) :
    (asPosix p).toList.splitOn '/' = p.map String.toList := by
  rw [toList_asPosix]
  exact List.splitOn_intercalate '/' (slash_not_mem hp) (by simpa using hne)

theorem pathParts_asPosix (hne : p ≠ []) (hp : ∀ name ∈ p, isPathPart name = true) : pathParts (asPosix p) = p := by
  have hnames : (p.map String.toList).map String.ofList = p := by simp
  unfold pathParts
  rw [splitOn_asPosix hne hp, hnames, List.filter_eq_self]
  intro name hname
  obtain ⟨hempty, hdot, -, -⟩ := isPathPart_spec (hp name hname)
  simp [hempty, hdot]

theorem asPosix_inj (hp : p ≠ []) (hq : q ≠ []) (hpn : ∀ name ∈ p, isPathPart name = true)
    (hqn : ∀ name ∈ q, isPathPart name = true) (h : asPosix p = asPosix q) : p = q := by
  rw [← pathParts_asPosix hp hpn, h, pathParts_asPosix hq hqn]

theorem joinPath_asPosix (hne : p ≠ []) (hp : ∀ name ∈ p, isPathPart name = true) (dir : PathParts) :
    joinPath dir (asPosix p) = dir ++ p := by
  have hrelative : isAbsolute (asPosix p) = false := by
    obtain ⟨first, rest, rfl⟩ := List.exists_cons_of_ne_nil hne
    obtain ⟨hempty, -, -, hslash⟩ := isPathPart_spec (hp first List.mem_cons_self)
    unfold isAbsolute
    rw [toList_asPosix, List.map_cons, PathOrder.text_cons]
    cases hchars : first.toList with
    | nil => exact absurd (String.toList_inj.1 hchars) hempty
    | cons c cs =>
      rw [hchars] at hslash
      simp only [List.cons_append, List.head?_cons, Option.some.injEq, decide_eq_false_iff_not]
      rintro rfl
      exact hslash List.mem_cons_self
  rw [joinPath, hrelative, if_neg Bool.false_ne_true, pathParts_asPosix hne hp]

theorem asPosix_lt_iff : asPosix p < asPosix q ↔
    PathOrder.text '/' (p.map String.toList) < PathOrder.text '/' (q.map String.toList) := by
  rw [String.lt_iff_toList_lt, toList_asPosix, toList_asPosix]

theorem parts_lt_iff : p.map String.toList < q.map String.toList ↔ p < q :=
  PathOrder.map_lt_map_iff fun _ _ h => String.lt_iff_toList_lt.1 h

/-! ## Walking -/

/-- the last part of a path has the name of a source -/
def EndsPython (r : PathParts) : Prop := ∃ init last, r = init ++ [last] ∧ isPythonName last = true

theorem mem_rglobPython {fs : Files} {dir : PathParts} : p ∈ rglobPython fs dir ↔
    (∃ node, fs.get? p = some node) ∧ ∃ r, r ≠ [] ∧ p = dir ++ r ∧ EndsPython r := by
  simp only [rglobPython, List.mem_filter, Dict.mem_keys, Bool.and_eq_true, decide_eq_true_eq, List.isPrefixOf_iff_prefix,
    Option.any_eq_true]
  refine and_congr_right fun _ => ⟨?_, ?_⟩
  · intro ⟨⟨⟨r, hr⟩, hne⟩, last, hlast, hpython⟩
    subst hr
    have hr : r ≠ [] := fun h => hne (by rw [h, List.append_nil])
    rw [List.getLast?_append_of_ne_nil _ hr] at hlast
    obtain ⟨init, hinit⟩ := List.getLast?_eq_some_iff.1 hlast
    exact ⟨r, hr, rfl, init, last, hinit, hpython⟩
  · intro ⟨r, hr, hp, init, last, hlast, hpython⟩
    subst hp
    refine ⟨⟨List.prefix_append _ _, by simpa using hr⟩, last, ?_, hpython⟩
    rw [hlast, ← List.append_assoc, List.getLast?_concat]

/-- a walk, in the order of `pathlib`, as paths from its directory -/
theorem walk_sorted {fs : Files} {dir : PathParts} {ps : List PathParts} (hps : ps.Sublist fs.nodes.keys)
    (hdir : ∀ p ∈ ps, dir <+: p) :
    ((sortBy id ps).map (List.drop dir.length)).Pairwise (· < ·) ∧
      ((sortBy id ps).map (List.drop dir.length)).map (dir ++ ·) = sortBy id ps := by
  have hback : ∀ p ∈ sortBy id ps, dir ++ p.drop dir.length = p := by
    intro p hp
    obtain ⟨r, rfl⟩ := hdir p (mem_sortBy.1 hp)
    rw [List.drop_left]
  refine ⟨?_, ?_⟩
  · rw [List.pairwise_map]
    have hnodup : (sortBy id ps).Nodup := (sortBy_perm id ps).nodup_iff.2 (hps.nodup fs.nodes.nodup)
    refine List.Pairwise.imp_of_mem ?_ ((sortBy_sorted id ps).and hnodup)
    intro p q hp hq ⟨hle, hne⟩
    have hlt : p < q := lt_of_le_of_ne hle hne
    rwa [← hback p hp, ← hback q hq, PathOrder.append_lt_append_iff] at hlt
  · rw [List.map_map]
    exact (List.map_congr_left hback).trans (List.map_id _)

namespace SourceTree

variable {t : SourceTree}

variable {r p q : PathParts}

theorem mem_sources : r ∈ t.sources ↔
    (t.files.file? (t.root ++ r)).isSome = true ∧ ∃ rest, rest ≠ [] ∧ r = "apar" :: rest ∧ EndsPython r := by
  have hends : ∀ rest : PathParts, rest ≠ [] → (EndsPython rest ↔ EndsPython ("apar" :: rest)) := by
    intro rest hrest
    constructor
    · rintro ⟨init, last, h, hpython⟩
      exact ⟨"apar" :: init, last, by rw [h]; rfl, hpython⟩
    · rintro ⟨init, last, h, hpython⟩
      cases init with
      | nil => exact absurd (List.cons.inj h).2 hrest
      | cons first init => exact ⟨init, last, (List.cons.inj h).2, hpython⟩
  unfold sources
  simp only [List.mem_map, mem_sortBy, List.mem_filter, mem_rglobPython]
  constructor
  · rintro ⟨p, ⟨⟨_, rest, hrest, hp, hpython⟩, hfile⟩, hr⟩
    rw [List.append_assoc] at hp
    rw [hp, List.drop_left] at hr
    rw [hp, hr] at hfile
    exact ⟨hfile, rest, hrest, hr.symm, hr ▸ (hends rest hrest).1 hpython⟩
  · rintro ⟨hfile, rest, hrest, hr, hpython⟩
    refine ⟨t.root ++ r, ⟨⟨?_, rest, hrest, ?_, ?_⟩, hfile⟩, List.drop_left⟩
    · obtain ⟨inode, hinode⟩ := Option.isSome_iff_exists.1 hfile
      obtain ⟨i, hget, -⟩ := Files.file?_eq_some.1 hinode
      exact ⟨_, hget⟩
    · rw [hr, List.append_assoc, List.singleton_append]
    · exact (hends rest hrest).2 (hr ▸ hpython)

theorem sources_walk (t : SourceTree) : t.sources.Pairwise (· < ·) ∧ t.sources.map (t.root ++ ·) =
    sortBy id ((rglobPython t.files (t.root ++ ["apar"])).filter fun p => (t.files.file? p).isSome) := by
  refine @walk_sorted t.files t.root _ (List.filter_sublist.trans List.filter_sublist) ?_
  intro p hp
  obtain ⟨-, r, -, hr, -⟩ := mem_rglobPython.1 (List.mem_of_mem_filter hp)
  rw [hr, List.append_assoc]
  exact List.prefix_append _ _

theorem source_ne_nil (hr : r ∈ t.sources) : r ≠ [] := by
  obtain ⟨-, rest, -, rfl, -⟩ := mem_sources.1 hr
  exact List.cons_ne_nil _ _

theorem source_file (hr : r ∈ t.sources) :
    ∃ inode, t.files.file? (t.root ++ r) = some inode ∧ inode.content = t.content r := by
  obtain ⟨inode, hinode⟩ := Option.isSome_iff_exists.1 (mem_sources.1 hr).1
  exact ⟨inode, hinode, by rw [content, hinode]; rfl⟩

theorem source_named (hr : r ∈ t.sources) : ∀ name ∈ r, isPathPart name = true := by
  obtain ⟨inode, hinode, -⟩ := source_file hr
  obtain ⟨i, hget, -⟩ := Files.file?_eq_some.1 hinode
  exact fun name hname => t.named _ _ hget name (List.mem_append_right _ hname)

theorem source_read (hr : r ∈ t.sources) : readBytes t.files (t.root ++ r) = .ok (t.content r) := by
  obtain ⟨inode, hinode, hcontent⟩ := source_file hr
  rw [readBytes, hinode, ← hcontent]

theorem source_prefixed (hp : p ∈ t.sources) (hq : q ∈ t.sources) (h : p <+: q) : p = q := by
  by_contra hne
  obtain ⟨inode, hinode, -⟩ := source_file hp
  obtain ⟨i, hfile, -⟩ := Files.file?_eq_some.1 hinode
  obtain ⟨inode', hinode', -⟩ := source_file hq
  obtain ⟨i', hfile', -⟩ := Files.file?_eq_some.1 hinode'
  rcases Files.isDirectory_of_prefix hfile' ((List.prefix_append_right_inj _).2 h) (by simpa using hne) with hroot | hdir
  · exact source_ne_nil hp (List.append_eq_nil_iff.1 hroot).2
  · rw [hfile] at hdir
    cases hdir

/-! ## The inventory -/

variable [Sha256]

/-- the entry of a source -/
def entry (t : SourceTree) (r : PathParts) : WorkerSourceEntry :=
  ⟨asPosix r, Sha256.hexdigestBytes (t.content r), (t.content r).length⟩

omit [Sha256] in
theorem entryPath_ok (hr : r ∈ t.sources) :
    (['a', 'p', 'a', 'r', '/'].isPrefixOf (asPosix r).toList && isPythonName (asPosix r) &&
      !((asPosix r).toList.splitOn '/').contains ['.', '.']) = true := by
  have hnames := source_named hr
  have hsplit := splitOn_asPosix (source_ne_nil hr) hnames
  obtain ⟨-, rest, hrest, hrr, init, last, hlast, hpython⟩ := mem_sources.1 hr
  rw [Bool.and_eq_true, Bool.and_eq_true]
  refine ⟨⟨?_, ?_⟩, ?_⟩
  · obtain ⟨second, rest, rfl⟩ := List.exists_cons_of_ne_nil hrest
    rw [List.isPrefixOf_iff_prefix, toList_asPosix, hrr, List.map_cons, PathOrder.text_cons, List.map_cons, List.flatMap_cons]
    exact ⟨_, rfl⟩
  · rw [isPythonName, List.isSuffixOf_iff_suffix] at hpython ⊢
    rw [toList_asPosix, hlast, List.map_append, List.map_singleton, PathOrder.text_append]
    simp only [List.flatMap_nil, List.append_nil]
    exact hpython.trans (List.suffix_append _ _)
  · rw [hsplit, Bool.not_eq_true', List.contains_eq_mem, decide_eq_false_iff_not]
    intro hmem
    obtain ⟨name, hname, hdots⟩ := List.mem_map.1 hmem
    exact (isPathPart_spec (hnames name hname)).2.2.1 (String.toList_inj.1 (hdots.trans rfl))

theorem sourceEntry_eq_ok (hdigest : ∀ bytes, isDigestText (Sha256.hexdigestBytes bytes) = true) (hcap : t.Capped)
    {root : PathParts} (hr : r ∈ t.sources) {e : WorkerSourceEntry} :
    sourceEntry root (root ++ r) (t.content r) = .ok e ↔ (asPosix r).toList.length ≤ 512 ∧ e = t.entry r := by
  obtain ⟨hne, hle⟩ := hcap.size r hr
  have hsize : (0 < ((t.content r).length : ℤ) && ((t.content r).length : ℤ) ≤ (maxSourceBytes : ℤ)) = true := by
    have := List.length_pos_iff.2 hne
    simp only [Bool.and_eq_true, decide_eq_true_eq]
    omega
  unfold sourceEntry WorkerSourceEntry.make
  simp only [List.drop_left, entryPath_ok hr, Bool.true_and, except_bind_eq_ok, check_eq_ok, hdigest, hsize,
    except_pure_eq_ok, decide_eq_true_eq, exists_const, true_and]
  exact and_congr_right fun _ => eq_comm

/-- **The inventory is there when there are sources, and none has a long path.** -/
theorem sourceInventory_eq_ok (hdigest : ∀ bytes, isDigestText (Sha256.hexdigestBytes bytes) = true) (hcap : t.Capped)
    {entries : List WorkerSourceEntry} : sourceInventory t.files t.root = .ok entries ↔
      t.sources ≠ [] ∧ (∀ r ∈ t.sources, (asPosix r).toList.length ≤ 512) ∧ entries = t.sources.map t.entry := by
  have hstep : ∀ r ∈ t.sources, ∀ e, (do
      let raw ← readBytes t.files (t.root ++ r)
      check (!raw.isEmpty && raw.length ≤ maxSourceBytes) (.hidden "hidden evaluator source file violates bounds")
      sourceEntry t.root (t.root ++ r) raw) = .ok e ↔ (asPosix r).toList.length ≤ 512 ∧ e = t.entry r := by
    intro r hr e
    obtain ⟨hne, hle⟩ := hcap.size r hr
    have hbounds : (!(t.content r).isEmpty && (t.content r).length ≤ maxSourceBytes) = true := by simp [hne, hle]
    rw [source_read hr, except_ok_bind, hbounds, check, if_pos rfl, except_ok_bind]
    exact sourceEntry_eq_ok hdigest hcap hr
  have hcount : (!t.sources.isEmpty && t.sources.length ≤ maxSourceFiles) = true ↔ t.sources ≠ [] := by
    simp [hcap.count]
  unfold sourceInventory
  rw [← t.sources_walk.2]
  simp only [List.isEmpty_map, List.length_map, List.mapM_map, except_bind_eq_ok, check_eq_ok, hcount]
  rw [exists_const]
  exact and_congr_right fun _ => mapM_eq_ok_map hstep

/-- the manifest of a tree -/
def manifest (t : SourceTree) (signer : EvaluatorSigner) : EvaluatorWorkerManifest :=
  let unsigned := unsignedFields (asPosix workerPath) (t.sources.map t.entry) signer.keyId
  let signature := signer.sign (.obj unsigned)
  ⟨asPosix workerPath, t.sources.map t.entry, signer.keyId, signature,
    Sha256.hexdigest (.obj (unsigned ++ [("signature_base64", .str signature)]))⟩

omit [Sha256] in
theorem worker_named : ∀ name ∈ workerPath, isPathPart name = true := by decide

omit [Sha256] in
theorem worker_mem : asPosix workerPath ∈ t.sources.map asPosix ↔ workerPath ∈ t.sources := by
  rw [List.mem_map]
  constructor
  · intro ⟨r, hr, htext⟩
    rwa [← asPosix_inj (source_ne_nil hr) (by decide) (source_named hr) worker_named htext]
  · exact fun h => ⟨_, h, rfl⟩

omit [Sha256] in
theorem eq_sortedSet_iff {texts : List String} : texts = sortedSet texts ↔ texts.Pairwise (· < ·) := by
  constructor
  · intro h
    have hsorted := (sortedSet_sorted texts).and (sortedSet_nodup texts)
    rw [← h] at hsorted
    exact hsorted.imp fun ⟨hle, hne⟩ => lt_of_le_of_ne hle hne
  · exact fun h => (sortedSet_eq h fun _ => Iff.rfl).symm

/-- **A manifest is accepted when the texts of its sources are in order, and the worker is one of them.** -/
theorem create_eq_ok (hdigest : ∀ bytes, isDigestText (Sha256.hexdigestBytes bytes) = true)
    (hdocument : ∀ j, isDigestText (Sha256.hexdigest j) = true) (hcap : t.Capped) {signer : EvaluatorSigner}
    {m : EvaluatorWorkerManifest} : EvaluatorWorkerManifest.create t.files t.root signer = .ok m ↔
      (∀ r ∈ t.sources, (asPosix r).toList.length ≤ 512) ∧ (t.sources.map asPosix).Pairwise (· < ·) ∧
        workerPath ∈ t.sources ∧ m = t.manifest signer := by
  have hpaths : (t.sources.map t.entry).map WorkerSourceEntry.path = t.sources.map asPosix := by
    rw [List.map_map]
    rfl
  have hvalid : (!(t.sources.map asPosix).isEmpty && (t.sources.map asPosix).length ≤ maxSourceFiles &&
      t.sources.map asPosix = sortedSet (t.sources.map asPosix) && asPosix workerPath ∈ t.sources.map asPosix) = true ↔
      (t.sources.map asPosix).Pairwise (· < ·) ∧ workerPath ∈ t.sources := by
    rw [Bool.and_eq_true, Bool.and_eq_true, Bool.and_eq_true, decide_eq_true_eq, decide_eq_true_eq, decide_eq_true_eq,
      eq_sortedSet_iff, worker_mem]
    constructor
    · rintro ⟨⟨_, hsorted⟩, hworker⟩
      exact ⟨hsorted, hworker⟩
    · rintro ⟨hsorted, hworker⟩
      refine ⟨⟨⟨?_, ?_⟩, hsorted⟩, hworker⟩
      · rw [List.isEmpty_map, Bool.not_eq_true', List.isEmpty_eq_false_iff]
        exact List.ne_nil_of_mem hworker
      · rw [List.length_map]
        exact hcap.count
  unfold EvaluatorWorkerManifest.create
  simp only [except_bind_eq_ok, sourceInventory_eq_ok hdigest hcap]
  constructor
  · rintro ⟨entries, ⟨_, hshort, hentries⟩, hvalidate⟩
    subst hentries
    unfold EvaluatorWorkerManifest.validate at hvalidate
    simp only [except_bind_eq_ok, check_eq_ok, hpaths, hvalid, except_pure_eq_ok] at hvalidate
    obtain ⟨_, _, _, ⟨hsorted, hworker⟩, _, _, hm⟩ := hvalidate
    exact ⟨hshort, hsorted, hworker, hm.symm⟩
  · rintro ⟨hshort, hsorted, hworker, hm⟩
    refine ⟨_, ⟨List.ne_nil_of_mem hworker, hshort, rfl⟩, ?_⟩
    unfold EvaluatorWorkerManifest.validate
    simp only [except_bind_eq_ok, check_eq_ok, hpaths, hvalid, except_pure_eq_ok, EvaluatorSigner.keyId, hdigest, hdocument,
      Bool.and_self]
    exact ⟨(), trivial, (), ⟨hsorted, hworker⟩, (), decide_eq_true rfl, hm.symm⟩

omit [Sha256] in
/-- **The texts of the sources are in order when no two sources are in conflict.** -/
theorem texts_sorted_iff : (t.sources.map asPosix).Pairwise (· < ·) ↔
    ∀ p ∈ t.sources, ∀ q ∈ t.sources, ¬PathOrder.Conflict '/' (p.map String.toList) (q.map String.toList) := by
  have hparts : (t.sources.map (List.map String.toList)).Pairwise (· < ·) := by
    rw [List.pairwise_map]
    exact t.sources_walk.1.imp fun h => parts_lt_iff.2 h
  have hne : ∀ p ∈ t.sources.map (List.map String.toList), p ≠ [] := by
    intro p hp
    obtain ⟨r, hr, rfl⟩ := List.mem_map.1 hp
    simpa using source_ne_nil hr
  have hslash : ∀ p ∈ t.sources.map (List.map String.toList), ∀ y ∈ p, '/' ∉ y := by
    intro p hp
    obtain ⟨r, hr, rfl⟩ := List.mem_map.1 hp
    exact slash_not_mem (source_named hr)
  have htexts : (t.sources.map asPosix).Pairwise (· < ·) ↔
      ((t.sources.map (List.map String.toList)).map (PathOrder.text '/')).Pairwise (· < ·) := by
    rw [List.map_map, List.pairwise_map, List.pairwise_map]
    exact ⟨List.Pairwise.imp asPosix_lt_iff.1, List.Pairwise.imp asPosix_lt_iff.2⟩
  rw [htexts, PathOrder.texts_sorted_iff hparts hne hslash]
  simp only [List.forall_mem_map]

/-! ## The snapshot -/

variable {snap : PathParts}

omit [Sha256] in
/-- what is below the snapshot's root when some sources are copied: their files, and the directories above them -/
structure Copied (t : SourceTree) (snap : PathParts) (copied : List PathParts) (fs : Files) : Prop where
  keeps : Files.Keeps t.files fs
  root : fs.get? snap = some .directory
  names : ∀ q node, q ≠ [] → fs.get? (snap ++ q) = some node →
    (node = .directory ∧ ∃ r ∈ copied, q <+: r ∧ q ≠ r) ∨ q ∈ copied
  files : ∀ r ∈ copied, ∃ inode, fs.file? (snap ++ r) = some inode ∧ inode.content = t.content r

omit [Sha256] in
/-- a new directory is empty -/
theorem Copied.made {dir : PathParts} {name : String} {fs : Files} (h : t.files.mkdir dir name = some fs) :
    t.Copied (dir ++ [name]) [] fs := by
  obtain ⟨hfree, -, hget⟩ := Files.mkdir_spec h
  refine ⟨Files.Keeps.mkdir h, (hget _).trans (if_pos rfl), ?_, nofun⟩
  intro q node hq hnode
  have hne : dir ++ [name] ++ q ≠ dir ++ [name] := by simpa using hq
  rw [hget, if_neg hne] at hnode
  rcases Files.isDirectory_of_prefix hnode (List.prefix_append _ _) hne.symm with hroot | hdir
  · simp at hroot
  · rw [hfree] at hdir
    cases hdir

/-- one more source is copied -/
theorem Copied.step {copied : List PathParts} {fs : Files} (h : t.Copied snap copied fs)
    (hcopied : ∀ r ∈ copied, r ∈ t.sources) {r : PathParts} (hr : r ∈ t.sources) (hnew : r ∉ copied) :
    ∃ fs', copyEntry t.root snap fs (t.entry r) = .ok fs' ∧ t.Copied snap (copied ++ [r]) fs' := by
  have hnames := source_named hr
  obtain ⟨init, last, hsplit⟩ : ∃ init last, r = init ++ [last] :=
    ⟨_, _, (List.dropLast_concat_getLast (source_ne_nil hr)).symm⟩
  have hinit : init <+: r := ⟨[last], hsplit.symm⟩
  have hparent : (snap ++ r).dropLast = snap ++ init ∧ (snap ++ r).getLast?.getD "" = last := by
    rw [hsplit, ← List.append_assoc, List.dropLast_concat, List.getLast?_concat]
    exact ⟨rfl, rfl⟩
  -- the source is read
  have hread : readBytes fs (t.root ++ r) = .ok (t.content r) := by
    obtain ⟨inode, hinode, hcontent⟩ := source_file hr
    rw [readBytes, h.keeps.file? hinode, ← hcontent]
  have hsame : (decide (((t.content r).length : ℤ) = (t.entry r).sizeBytes) &&
      decide (Sha256.hexdigestBytes (t.content r) = (t.entry r).sha256)) = true := by
    rw [entry, decide_eq_true rfl, decide_eq_true rfl, Bool.and_self]
  -- the directories above it are there or free
  have hway : ∀ q, q ≠ [] → q <+: snap ++ init → ∀ node, fs.get? ([] ++ q) = some node → node = .directory := by
    intro q hq hpre node hnode
    rw [List.nil_append] at hnode
    rcases List.prefix_or_prefix_of_prefix hpre (List.prefix_append snap init) with habove | ⟨q', hq'⟩
    · by_cases heq : q = snap
      · rw [heq, h.root] at hnode
        exact (Option.some.inj hnode).symm
      · rcases Files.isDirectory_of_prefix h.root habove heq with hroot | hdir
        · exact absurd hroot hq
        · rw [hdir] at hnode
          exact (Option.some.inj hnode).symm
    · subst hq'
      rw [List.prefix_append_right_inj] at hpre
      by_cases hempty : q' = []
      · rw [hempty, List.append_nil, h.root] at hnode
        exact (Option.some.inj hnode).symm
      · rcases h.names q' node hempty hnode with ⟨hdir, -⟩ | hmem
        · exact hdir
        · have heq := source_prefixed (hcopied _ hmem) hr (hpre.trans hinit)
          have := hpre.length_le
          rw [heq, hsplit, List.length_append, List.length_singleton] at this
          omega
  obtain ⟨fs₁, hensure⟩ := Files.ensureFrom_ok (.inl rfl) hway
  obtain ⟨hdir, -, hfresh⟩ := Files.ensureFrom_spec hensure (.inl rfl)
  -- its own name is free
  have hfree : fs₁.get? (snap ++ init ++ [last]) = none := by
    rw [List.append_assoc, ← hsplit, Option.eq_none_iff_forall_ne_some]
    intro node hnode
    rcases hfresh _ node hnode with hold | ⟨-, q, -, hpre, hq⟩
    · rcases h.names r node (source_ne_nil hr) hold with ⟨-, r', hr', hpre, hne⟩ | hmem
      · exact hne (source_prefixed hr (hcopied _ hr') hpre)
      · exact hnew hmem
    · have := hpre.length_le
      rw [← List.nil_append q, ← hq, hsplit] at this
      simp at this
  obtain ⟨fs₂, hcreate⟩ := Files.create_ok hdir hfree (t.content r)
  obtain ⟨-, -, hget⟩ := Files.create_spec hcreate
  obtain ⟨hkeep, hfile⟩ := Files.Keeps.create hcreate
  have hkeeps : Files.Keeps fs fs₂ := (Files.Keeps.ensureFrom hensure).trans hkeep
  rw [List.nil_append, List.append_assoc, ← hsplit] at hget
  rw [List.nil_append, List.append_assoc, ← hsplit] at hfile
  refine ⟨fs₂, ?_, h.keeps.trans hkeeps, hkeeps.names h.root, ?_, ?_⟩
  · unfold copyEntry
    rw [show (t.entry r).path = asPosix r from rfl, joinPath_asPosix (source_ne_nil hr) hnames,
      joinPath_asPosix (source_ne_nil hr) hnames, hread, except_ok_bind, hsame, check, if_pos rfl, except_ok_bind]
    dsimp only
    rw [hparent.1, hparent.2, Files.ensure, hensure, system, Option.elim_some, except_ok_bind, ← List.nil_append (snap ++ init),
      hcreate, system, Option.elim_some]
  · intro q node hq hnode
    rw [hget] at hnode
    split_ifs at hnode with heq
    · exact .inr (List.mem_append_right _ (List.mem_singleton.2 (List.append_cancel_left heq)))
    · rcases hfresh _ node hnode with hold | ⟨hdirectory, q', -, hpre, hq'⟩
      · rcases h.names q node hq hold with ⟨hdirectory, r', hr', hbelow⟩ | hmem
        · exact .inl ⟨hdirectory, r', List.mem_append_left _ hr', hbelow⟩
        · exact .inr (List.mem_append_left _ hmem)
      · rw [List.nil_append] at hq'
        rw [← hq', List.prefix_append_right_inj] at hpre
        refine .inl ⟨hdirectory, r, List.mem_append_right _ (List.mem_singleton_self r), hpre.trans hinit, ?_⟩
        rintro rfl
        exact heq rfl
  · intro r' hr'
    rcases List.mem_append.1 hr' with hold | hnew
    · obtain ⟨inode, hinode, hcontent⟩ := h.files r' hold
      exact ⟨inode, hkeeps.file? hinode, hcontent⟩
    · rw [List.mem_singleton.1 hnew]
      exact ⟨_, hfile, rfl⟩

/-- all of them are copied -/
theorem Copied.run : ∀ {todo copied : List PathParts} {fs : Files}, t.Copied snap copied fs →
    (∀ r ∈ copied ++ todo, r ∈ t.sources) → (copied ++ todo).Nodup →
    ∃ fs', (todo.map t.entry).foldlM (copyEntry t.root snap) fs = .ok fs' ∧ t.Copied snap (copied ++ todo) fs' := by
  intro todo
  induction todo with
  | nil =>
    intro copied fs h _ _
    rw [List.append_nil]
    exact ⟨fs, rfl, h⟩
  | cons r todo ih =>
    intro copied fs h hsources hnodup
    have hsplit : copied ++ r :: todo = copied ++ [r] ++ todo := by simp
    have hr : r ∉ copied := fun hmem => (List.nodup_append.1 hnodup).2.2 r hmem r List.mem_cons_self rfl
    obtain ⟨fs₁, hstep, h₁⟩ := h.step (fun q hq => hsources q (List.mem_append_left _ hq))
      (hsources r (List.mem_append_right _ List.mem_cons_self)) hr
    rw [hsplit] at hsources hnodup ⊢
    obtain ⟨fs₂, hrest, h₂⟩ := ih h₁ hsources hnodup
    refine ⟨fs₂, ?_, h₂⟩
    rw [List.map_cons, List.foldlM_cons, hstep, except_ok_bind, hrest]

omit [Sha256] in
/-- what a walk over the snapshot finds: the sources, and the directories that have the name of one -/
theorem Copied.mem_walk {fs : Files} (h : t.Copied snap t.sources fs) : p ∈ rglobPython fs snap ↔
    ∃ q, p = snap ++ q ∧ q ≠ [] ∧ EndsPython q ∧ (q ∈ t.sources ∨ ∃ r ∈ t.sources, q <+: r ∧ q ≠ r) := by
  rw [mem_rglobPython]
  constructor
  · intro ⟨⟨node, hnode⟩, q, hq, hp, hpython⟩
    rw [hp] at hnode
    refine ⟨q, hp, hq, hpython, ?_⟩
    rcases h.names q node hq hnode with ⟨-, hbelow⟩ | hmem
    · exact .inr hbelow
    · exact .inl hmem
  · intro ⟨q, hp, hq, hpython, hmem⟩
    refine ⟨?_, q, hq, hp, hpython⟩
    rw [hp]
    rcases hmem with hmem | ⟨r, hr, hpre, hne⟩
    · obtain ⟨inode, hinode, -⟩ := h.files q hmem
      obtain ⟨i, hget, -⟩ := Files.file?_eq_some.1 hinode
      exact ⟨_, hget⟩
    · obtain ⟨inode, hinode, -⟩ := h.files r hr
      obtain ⟨i, hget, -⟩ := Files.file?_eq_some.1 hinode
      rcases Files.isDirectory_of_prefix hget ((List.prefix_append_right_inj snap).2 hpre) (by simpa using hne) with
        hroot | hdir
      · exact absurd (List.append_eq_nil_iff.1 hroot).2 hq
      · exact ⟨_, hdir⟩

omit [Sha256] in
theorem not_endsPython (h : t.PlainDirectories) (hr : r ∈ t.sources) (hpre : q <+: r) (hne : q ≠ r) :
    ¬EndsPython q := by
  intro ⟨init, last, hq, hpython⟩
  obtain ⟨rest, rfl⟩ := hpre
  have hrest : rest ≠ [] := fun hnil => hne (by rw [hnil, List.append_nil])
  have hmem : last ∈ (q ++ rest).dropLast := by
    rw [List.dropLast_append_of_ne_nil hrest, hq]
    simp
  rw [h _ hr last hmem] at hpython
  cases hpython

/-- **The snapshot of plain sources is read back as their inventory.** -/
theorem Copied.inventory (hdigest : ∀ bytes, isDigestText (Sha256.hexdigestBytes bytes) = true) (hcap : t.Capped)
    {fs : Files} (h : t.Copied snap t.sources fs) (hplain : t.PlainDirectories)
    (hshort : ∀ r ∈ t.sources, (asPosix r).toList.length ≤ 512) :
    snapshotInventory fs snap = .ok (t.sources.map t.entry) := by
  have hdir : ∀ p ∈ rglobPython fs snap, snap <+: p := by
    intro p hp
    obtain ⟨q, rfl, -⟩ := h.mem_walk.1 hp
    exact List.prefix_append _ _
  obtain ⟨hsorted, hback⟩ := @walk_sorted fs snap (rglobPython fs snap) List.filter_sublist hdir
  have hmem : ∀ q, q ∈ (sortBy id (rglobPython fs snap)).map (List.drop snap.length) ↔ q ∈ t.sources := by
    intro q
    simp only [List.mem_map, mem_sortBy, h.mem_walk]
    constructor
    · rintro ⟨p, ⟨q', hp, _, hpython, hq'⟩, hdrop⟩
      rw [hp, List.drop_left] at hdrop
      rw [← hdrop]
      rcases hq' with hq' | ⟨r, hr, hpre, hne⟩
      · exact hq'
      · exact absurd hpython (not_endsPython hplain hr hpre hne)
    · intro hq
      obtain ⟨-, rest, -, rfl, hpython⟩ := mem_sources.1 hq
      exact ⟨_, ⟨_, rfl, List.cons_ne_nil _ _, hpython, .inl hq⟩, List.drop_left⟩
  have hsources : (sortBy id (rglobPython fs snap)).map (List.drop snap.length) = t.sources := by
    rw [← sortedSet_eq hsorted hmem, sortedSet_eq t.sources_walk.1 fun _ => Iff.rfl]
  rw [hsources] at hback
  unfold snapshotInventory
  rw [← hback, List.mapM_map]
  refine (mapM_eq_ok_map (P := fun r => (asPosix r).toList.length ≤ 512) ?_).2 ⟨hshort, rfl⟩
  intro r hr e
  obtain ⟨inode, hinode, hcontent⟩ := h.files r hr
  have hread : readBytes fs (snap ++ r) = .ok (t.content r) := by rw [readBytes, hinode, ← hcontent]
  dsimp only [Function.comp_apply]
  rw [hread, except_ok_bind]
  exact sourceEntry_eq_ok hdigest hcap hr

/-- a directory with the name of a source cannot be read -/
theorem Copied.inventory_fails {fs : Files} (h : t.Copied snap t.sources fs) {entries : List WorkerSourceEntry}
    (hok : snapshotInventory fs snap = .ok entries) : t.PlainDirectories := by
  intro r hr name hname
  rw [← Bool.not_eq_true]
  intro hpython
  obtain ⟨init, rest, hsplit⟩ := List.append_of_mem hname
  have hrest : r = init ++ [name] ++ (rest ++ [r.getLast (source_ne_nil hr)]) := by
    rw [← List.append_assoc, List.append_assoc init, List.singleton_append, ← hsplit, List.dropLast_concat_getLast]
  have hpre : init ++ [name] <+: r := ⟨_, hrest.symm⟩
  have hne : init ++ [name] ≠ r := by
    intro heq
    rw [← heq, List.dropLast_concat] at hsplit
    simpa using congrArg List.length hsplit
  have hmem : snap ++ (init ++ [name]) ∈ sortBy id (rglobPython fs snap) :=
    mem_sortBy.2 (h.mem_walk.2 ⟨_, rfl, by simp, ⟨init, name, rfl, hpython⟩, .inr ⟨r, hr, hpre, hne⟩⟩)
  obtain ⟨e, -, hstep⟩ := forall₂_mem_left (mapM_eq_ok.1 hok) hmem
  obtain ⟨raw, hread, -⟩ := except_bind_eq_ok.1 hstep
  obtain ⟨inode, hinode, -⟩ := h.files r hr
  obtain ⟨i, hget, -⟩ := Files.file?_eq_some.1 hinode
  rcases Files.isDirectory_of_prefix hget ((List.prefix_append_right_inj snap).2 hpre) (by simpa using hne) with hroot | hdir
  · simp at hroot
  · have hnone : fs.file? (snap ++ (init ++ [name])) = none := by rw [Files.file?, hdir]
    rw [readBytes, hnone] at hread
    cases hread

/-! ## Main result -/

/-- **The inventory is consistent exactly when** the worker is one of the sources, their texts are at most 512 characters
long, no two of them are in conflict, and no directory above one has the name of a source. -/
theorem inventory_consistent_iff (hdigest : ∀ bytes, isDigestText (Sha256.hexdigestBytes bytes) = true)
    (hdocument : ∀ j, isDigestText (Sha256.hexdigest j) = true) (hcap : t.Capped) (signer : EvaluatorSigner)
    {dir : PathParts} {name : String} (hdir : t.files.IsDirectory dir) (hfree : t.files.get? (dir ++ [name]) = none) :
    t.Consistent signer dir name ↔ t.Plain := by
  obtain ⟨fs₁, hmade⟩ := Files.mkdir_ok hdir hfree
  obtain ⟨fs₂, hcopy, hcopied⟩ : ∃ fs₂, (t.sources.map t.entry).foldlM (copyEntry t.root (dir ++ [name])) fs₁ = .ok fs₂ ∧
      t.Copied (dir ++ [name]) t.sources fs₂ := by
    have hrun := @Copied.run t _ (dir ++ [name]) t.sources [] fs₁ (Copied.made hmade)
    rw [List.nil_append] at hrun
    exact hrun (fun r hr => hr) (t.sources_walk.1.imp ne_of_lt)
  have hsnapshot : ∀ {m : EvaluatorWorkerManifest}, m.entries = t.sources.map t.entry → ∀ fs,
      createVerifiedSnapshot t.root dir name m t.files = .ok fs ↔
        fs = fs₂ ∧ snapshotInventory fs₂ (dir ++ [name]) = .ok (t.sources.map t.entry) := by
    intro m hm fs
    unfold createVerifiedSnapshot
    rw [hmade, system, Option.elim_some, except_ok_bind, hm, hcopy, except_ok_bind]
    simp only [except_bind_eq_ok, check_eq_ok, decide_eq_true_eq, except_pure_eq_ok]
    constructor
    · rintro ⟨entries, hread, _, heq, hfs⟩
      exact ⟨hfs.symm, heq ▸ hread⟩
    · rintro ⟨hfs, hread⟩
      exact ⟨_, hread, (), rfl, hfs.symm⟩
  constructor
  · rintro ⟨entries, m, fs, _, hcreate, _, hverified, _⟩
    obtain ⟨hshort, hsorted, hworker, rfl⟩ := (create_eq_ok hdigest hdocument hcap).1 hcreate
    obtain ⟨-, hread⟩ := (hsnapshot rfl fs).1 hverified
    exact ⟨hworker, hshort, texts_sorted_iff.1 hsorted, hcopied.inventory_fails hread⟩
  · intro h
    have hread := hcopied.inventory hdigest hcap h.directories h.short
    refine ⟨_, t.manifest signer, fs₂, (sourceInventory_eq_ok hdigest hcap).2 ⟨List.ne_nil_of_mem h.worker, h.short, rfl⟩,
      (create_eq_ok hdigest hdocument hcap).2 ⟨h.short, texts_sorted_iff.2 h.apart, h.worker, rfl⟩, rfl,
      (hsnapshot rfl fs₂).2 ⟨rfl, hread⟩, hread⟩

end SourceTree

namespace Sample

open SourceTree

/-- a text of the shape of a digest -/
def digestOf (n : ℕ) : String := String.ofList (List.replicate 63 '0' ++ [Uuid.hexChar (n % 16)])

theorem isDigestText_digestOf (n : ℕ) : isDigestText (digestOf n) = true := by
  have hhex : ∀ k, Uuid.hexChar (k % 16) ∈ hexChars := by
    have key : ∀ a < 16, Uuid.hexChar a ∈ hexChars := by decide
    exact fun k => key _ (Nat.mod_lt _ (by norm_num))
  have hzero : '0' ∈ hexChars := by decide
  simp [isDigestText, digestOf, hhex, hzero]

@[reducible] def sha : Sha256 := ⟨fun _ => digestOf 0, fun bytes => digestOf (bytes.map UInt8.toNat).sum⟩

theorem sha_bytes (bytes : List UInt8) : isDigestText (sha.hexdigestBytes bytes) = true :=
  isDigestText_digestOf (bytes.map UInt8.toNat).sum

theorem sha_document (j : Json) : isDigestText (sha.hexdigest j) = true := isDigestText_digestOf 0

def signer : EvaluatorSigner := ⟨[], fun _ => ""⟩

/-- directories, and files of one byte -/
def nodesOf (directories files : List PathParts) : List (PathParts × Node) :=
  directories.map (·, .directory) ++ (files.zipIdx.map fun f => (f.1, .file f.2))

theorem mem_nodesOf {directories files : List PathParts} {p : PathParts} {node : Node}
    (h : (p, node) ∈ nodesOf directories files) : (p ∈ directories ∧ node = .directory) ∨
      ∃ i, p ∈ files ∧ node = .file i ∧ i < files.length := by
  rcases List.mem_append.1 h with hmem | hmem
  · obtain ⟨q, hq, heq⟩ := List.mem_map.1 hmem
    cases heq
    exact .inl ⟨hq, rfl⟩
  · obtain ⟨⟨q, i⟩, hq, heq⟩ := List.mem_map.1 hmem
    cases heq
    have hget := List.mem_zipIdx_iff_getElem?.1 hq
    exact .inr ⟨i, List.mem_of_getElem? hget, rfl, (List.getElem?_eq_some_iff.1 hget).1⟩

/-- the source root is `src`, in the root directory -/
def treeOf (directories files : List PathParts) (hnodup : ((nodesOf directories files).map Prod.fst).Nodup)
    (hparents : ∀ p ∈ directories ++ files, p.dropLast = [] ∨ p.dropLast ∈ directories)
    (hnamed : ∀ p ∈ directories ++ files, ∀ name ∈ p, isPathPart name = true) : SourceTree where
  files :=
    { nodes := ⟨nodesOf directories files, hnodup⟩
      inodes := List.replicate files.length ⟨[35], 1⟩
      parents := by
        intro p name node hget
        have hmem : p ++ [name] ∈ directories ++ files := by
          rcases mem_nodesOf (Dict.get?_eq_some.1 hget) with ⟨hp, _⟩ | ⟨_, hp, _⟩
          · exact List.mem_append_left _ hp
          · exact List.mem_append_right _ hp
        have hparent := hparents _ hmem
        rw [List.dropLast_concat] at hparent
        exact hparent.imp id fun hp => Dict.get?_eq_some.2 (List.mem_append_left _ (List.mem_map.2 ⟨p, hp, rfl⟩))
      numbered := by
        intro p i hget
        rw [List.length_replicate]
        rcases mem_nodesOf (Dict.get?_eq_some.1 hget) with ⟨_, hnode⟩ | ⟨j, _, hnode, hj⟩
        · cases hnode
        · cases hnode
          exact hj }
  root := ["src"]
  named := by
    intro p node hget
    refine hnamed p ?_
    rcases mem_nodesOf (Dict.get?_eq_some.1 hget) with ⟨hp, _⟩ | ⟨_, hp, _⟩
    · exact List.mem_append_left _ hp
    · exact List.mem_append_right _ hp

def packages : List PathParts :=
  [["src"], ["src", "apar"], ["src", "apar", "evaluation_hidden"], ["src", "apar", "runs"]]

/-- two packages, and one module of each -/
def plainTree : SourceTree := treeOf packages
  [["src", "apar", "evaluation_hidden", "worker.py"], ["src", "apar", "runs", "wire.py"]]
  (by decide +kernel) (by decide +kernel) (by decide +kernel)

/-- a module beside the package of its name -/
def conflictTree : SourceTree := treeOf packages
  [["src", "apar", "evaluation_hidden", "worker.py"], ["src", "apar", "runs", "wire.py"], ["src", "apar", "runs.py"]]
  (by decide +kernel) (by decide +kernel) (by decide +kernel)

theorem plain_sources : plainTree.sources = [workerPath, ["apar", "runs", "wire.py"]] := by decide +kernel

theorem conflict_sources : conflictTree.sources = [workerPath, ["apar", "runs", "wire.py"], ["apar", "runs.py"]] := by
  decide +kernel

theorem plain_capped : plainTree.Capped := by
  refine ⟨by rw [plain_sources]; decide, ?_⟩
  rw [plain_sources]
  decide +kernel

theorem conflict_capped : conflictTree.Capped := by
  refine ⟨by rw [conflict_sources]; decide, ?_⟩
  rw [conflict_sources]
  decide +kernel

theorem plain_plain : plainTree.Plain := by
  refine ⟨?_, ?_, texts_sorted_iff.1 ?_, ?_⟩
  · rw [plain_sources]
    exact List.mem_cons_self
  · rw [plain_sources]
    decide +kernel
  · rw [plain_sources]
    decide +kernel
  · unfold PlainDirectories
    rw [plain_sources]
    decide +kernel

end Sample

open Sample in
/-- two packages and one module of each -/
theorem inventory_consistent_two : let _ := sha
    plainTree.Consistent signer [] "snapshot" := by
  let _ := sha
  exact (SourceTree.inventory_consistent_iff sha_bytes sha_document plain_capped signer (.inl rfl) (by decide +kernel)).2
    plain_plain

open Sample in
/-- **A module beside the package of its name**: `runs/wire.py` comes before `runs.py`, and its text after it; no manifest is
made, whoever signs. -/
theorem inventory_conflict : let _ := sha
    conflictTree.Capped ∧ workerPath ∈ conflictTree.sources ∧ ∀ signer manifest,
      EvaluatorWorkerManifest.create conflictTree.files conflictTree.root signer ≠ .ok manifest := by
  let _ := sha
  refine ⟨conflict_capped, by rw [conflict_sources]; exact List.mem_cons_self, fun signer manifest h => ?_⟩
  obtain ⟨-, hsorted, -⟩ := (SourceTree.create_eq_ok sha_bytes sha_document conflict_capped).1 h
  rw [conflict_sources] at hsorted
  revert hsorted
  decide +kernel

end HiddenWorker

end Apar
