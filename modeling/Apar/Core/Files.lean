/-
A file system as one process sees it: names, directories, and regular files that count their names. A library: nothing
here is about payments.

A path is its parts after the root, as it is written, and no part of one is a link. An operation is `none` where the system
call fails. A name other than the root is in a directory, and the number of a file is one that was given out; both are
fields, so that no operation can lose them.

- `Keeps`: what was there is still there. Every operation that adds names keeps the file system.
- `create_spec`, `mkdir_spec`: what every name stands for afterwards.
- `ensureFrom_spec`, `ensureFrom_ok`: the directories on the way to a name.
-/
import Apar.Core.Dict

namespace Apar

/-- the parts of an absolute path, after the root -/
abbrev PathParts := List String

/-- the parts of `Path(text)`, but for the root -/
def pathParts (s : String) : PathParts :=
  ((s.toList.splitOn '/').map String.ofList).filter fun part => part ≠ "" && part ≠ "."

def isAbsolute (s : String) : Bool := s.toList.head? = some '/'

/-- `path / text` -/
def joinPath (dir : PathParts) (s : String) : PathParts := if isAbsolute s then pathParts s else dir ++ pathParts s

/-- a name that is a part of its own -/
def isPathPart (s : String) : Bool := s ≠ "" && s ≠ "." && s ≠ ".." && !s.toList.contains '/'

/-- a regular file: its content and its number of names, `st_nlink` -/
structure Inode where
  content : List UInt8
  links : ℕ
deriving DecidableEq

/-- what a name stands for -/
inductive Node where
  | directory
  | file (inode : ℕ)
  /-- neither a directory nor a regular file -/
  | other
deriving DecidableEq

structure Files where
  nodes : Dict PathParts Node
  inodes : List Inode
  parents : ∀ p name node, nodes.get? (p ++ [name]) = some node → p = [] ∨ nodes.get? p = some .directory
  numbered : ∀ p i, nodes.get? p = some (.file i) → i < inodes.length

namespace Files

/-- `path.lstat()` -/
def get? (fs : Files) (p : PathParts) : Option Node := fs.nodes.get? p

/-- the regular file of a name -/
def file? (fs : Files) (p : PathParts) : Option Inode :=
  match fs.get? p with
  | some (.file i) => fs.inodes[i]?
  | _ => none

theorem file?_eq_some {fs : Files} {p : PathParts} {inode : Inode} :
    fs.file? p = some inode ↔ ∃ i, fs.get? p = some (.file i) ∧ fs.inodes[i]? = some inode := by
  unfold file?
  split
  · rename_i i hget
    simp [hget]
  · rename_i hno
    exact ⟨nofun, fun ⟨i, hget, _⟩ => absurd hget (hno i)⟩

def IsDirectory (fs : Files) (p : PathParts) : Prop := p = [] ∨ fs.get? p = some .directory

instance (fs : Files) (p : PathParts) : Decidable (fs.IsDirectory p) := inferInstanceAs (Decidable (_ ∨ _))

/-! ## Operations -/

/-- a new name in a directory -/
def add (fs : Files) (dir : PathParts) (name : String) (node : Node) (hdir : fs.IsDirectory dir)
    (hfree : fs.get? (dir ++ [name]) = none) (hnode : ∀ i, node = .file i → i < fs.inodes.length) : Files where
  nodes := fs.nodes.set (dir ++ [name]) node
  inodes := fs.inodes
  parents := by
    intro p name' node' hget
    have hkept : fs.IsDirectory p → p = [] ∨ (fs.nodes.set (dir ++ [name]) node).get? p = some .directory := by
      rintro (hroot | hp)
      · exact .inl hroot
      · refine .inr ?_
        rw [Dict.get?_set, if_neg]
        · exact hp
        · rintro rfl
          rw [hfree] at hp
          cases hp
    rw [Dict.get?_set] at hget
    split_ifs at hget with hp
    · obtain ⟨rfl, -⟩ := List.append_inj' hp rfl
      exact hkept hdir
    · exact hkept (fs.parents p name' node' hget)
  numbered := by
    intro p i hget
    rw [Dict.get?_set] at hget
    split_ifs at hget
    · exact hnode i (Option.some.inj hget)
    · exact fs.numbered p i hget

/-- the content of a new file, which has one name -/
def store (fs : Files) (content : List UInt8) : Files where
  nodes := fs.nodes
  inodes := fs.inodes ++ [⟨content, 1⟩]
  parents := fs.parents
  numbered := by
    intro p i hget
    rw [List.length_append]
    exact (fs.numbered p i hget).trans (Nat.lt_succ_self _)

/-- `mkdir` -/
def mkdir (fs : Files) (dir : PathParts) (name : String) : Option Files :=
  if h : fs.IsDirectory dir ∧ fs.get? (dir ++ [name]) = none then some (fs.add dir name .directory h.1 h.2 nofun) else none

/-- `mkdir(parents=True, exist_ok=True)`, from a directory that is there -/
def ensureFrom : Files → PathParts → List String → Option Files
  | fs, _, [] => some fs
  | fs, dir, name :: names =>
    match fs.get? (dir ++ [name]) with
    | some .directory => ensureFrom fs (dir ++ [name]) names
    | some _ => none
    | none => (fs.mkdir dir name).bind fun fs => ensureFrom fs (dir ++ [name]) names

def ensure (fs : Files) (p : PathParts) : Option Files := ensureFrom fs [] p

/-- `open` with `O_CREAT | O_EXCL`, and the writes -/
def create (fs : Files) (dir : PathParts) (name : String) (content : List UInt8) : Option Files :=
  if h : fs.IsDirectory dir ∧ fs.get? (dir ++ [name]) = none then
    some ((fs.store content).add dir name (.file fs.inodes.length) h.1 h.2 fun i hi => by
      cases hi
      simp [store])
  else none

/-! ## What stays -/

/-- every name and every file of the first is one of the second -/
structure Keeps (fs fs' : Files) : Prop where
  names : ∀ {p node}, fs.get? p = some node → fs'.get? p = some node
  inodes : fs.inodes <+: fs'.inodes

namespace Keeps

theorem refl (fs : Files) : Keeps fs fs := ⟨id, List.prefix_rfl⟩

theorem trans {fs fs' fs'' : Files} (h : Keeps fs fs') (h' : Keeps fs' fs'') : Keeps fs fs'' :=
  ⟨fun hp => h'.names (h.names hp), h.inodes.trans h'.inodes⟩

theorem file? {fs fs' : Files} (h : Keeps fs fs') {p : PathParts} {inode : Inode} (hfile : fs.file? p = some inode) :
    fs'.file? p = some inode := by
  obtain ⟨i, hget, hinode⟩ := file?_eq_some.1 hfile
  obtain ⟨rest, hrest⟩ := h.inodes
  refine file?_eq_some.2 ⟨i, h.names hget, ?_⟩
  rw [← hrest, List.getElem?_append_left (List.getElem?_eq_some_iff.1 hinode).1]
  exact hinode

end Keeps

variable {fs fs' : Files} {dir : PathParts} {name : String}

theorem get?_add {node : Node} {hdir : fs.IsDirectory dir} {hfree : fs.get? (dir ++ [name]) = none}
    {hnode : ∀ i, node = .file i → i < fs.inodes.length} (q : PathParts) :
    (fs.add dir name node hdir hfree hnode).get? q = if q = dir ++ [name] then some node else fs.get? q :=
  Dict.get?_set _ _ _ _

theorem mkdir_spec (h : fs.mkdir dir name = some fs') :
    fs.get? (dir ++ [name]) = none ∧ fs'.inodes = fs.inodes ∧
      ∀ q, fs'.get? q = if q = dir ++ [name] then some .directory else fs.get? q := by
  unfold mkdir at h
  split_ifs at h with hfree
  cases h
  exact ⟨hfree.2, rfl, get?_add⟩

theorem Keeps.mkdir (h : fs.mkdir dir name = some fs') : Keeps fs fs' := by
  obtain ⟨hfree, hinodes, hget⟩ := mkdir_spec h
  refine ⟨fun {p node} hp => ?_, hinodes ▸ List.prefix_rfl⟩
  rw [hget, if_neg]
  · exact hp
  · rintro rfl
    rw [hfree] at hp
    cases hp

theorem Keeps.ensureFrom {names : List String} : ∀ {fs : Files} {dir : PathParts} {fs' : Files},
    fs.ensureFrom dir names = some fs' → Keeps fs fs' := by
  induction names with
  | nil =>
    intro fs dir fs' h
    cases h
    exact .refl fs
  | cons name names ih =>
    intro fs dir fs' h
    unfold Files.ensureFrom at h
    split at h
    · exact ih h
    · cases h
    · obtain ⟨made, hmade, hrest⟩ := Option.bind_eq_some_iff.1 h
      exact (Keeps.mkdir hmade).trans (ih hrest)

theorem create_spec {content : List UInt8} (h : fs.create dir name content = some fs') :
    fs.get? (dir ++ [name]) = none ∧ fs'.inodes = fs.inodes ++ [⟨content, 1⟩] ∧
      ∀ q, fs'.get? q = if q = dir ++ [name] then some (.file fs.inodes.length) else fs.get? q := by
  unfold create at h
  split_ifs at h with hfree
  cases h
  exact ⟨hfree.2, rfl, get?_add⟩

theorem Keeps.added {content : List UInt8} (hfree : fs.get? (dir ++ [name]) = none)
    (hinodes : fs'.inodes = fs.inodes ++ [⟨content, 1⟩])
    (hget : ∀ q, fs'.get? q = if q = dir ++ [name] then some (.file fs.inodes.length) else fs.get? q) :
    Keeps fs fs' ∧ fs'.file? (dir ++ [name]) = some ⟨content, 1⟩ := by
  refine ⟨⟨fun {p node} hp => ?_, hinodes ▸ List.prefix_append _ _⟩, ?_⟩
  · rw [hget, if_neg]
    · exact hp
    · rintro rfl
      rw [hfree] at hp
      cases hp
  · refine file?_eq_some.2 ⟨fs.inodes.length, (hget _).trans (if_pos rfl), ?_⟩
    rw [hinodes]
    simp

theorem Keeps.create {content : List UInt8} (h : fs.create dir name content = some fs') :
    Keeps fs fs' ∧ fs'.file? (dir ++ [name]) = some ⟨content, 1⟩ :=
  let ⟨hfree, hinodes, hget⟩ := create_spec h
  Keeps.added hfree hinodes hget

/-! ## Operations that succeed -/

theorem mkdir_ok (hdir : fs.IsDirectory dir) (hfree : fs.get? (dir ++ [name]) = none) : ∃ made, fs.mkdir dir name = some made :=
  ⟨_, dif_pos ⟨hdir, hfree⟩⟩

theorem create_ok (hdir : fs.IsDirectory dir) (hfree : fs.get? (dir ++ [name]) = none) (content : List UInt8) :
    ∃ made, fs.create dir name content = some made :=
  ⟨_, dif_pos ⟨hdir, hfree⟩⟩

theorem isDirectory_of_prefix {p q : PathParts} {node : Node} (hget : fs.get? q = some node) (h : p <+: q) (hne : p ≠ q) :
    fs.IsDirectory p := by
  induction q using List.reverseRecOn generalizing node with
  | nil => exact absurd (List.prefix_nil.1 h) hne
  | append_singleton init last ih =>
    rcases List.prefix_concat_iff.1 h with heq | hinit
    · exact absurd heq hne
    · by_cases heq : p = init
      · rw [heq]
        exact fs.parents init last node hget
      · rcases fs.parents init last node hget with hroot | hdir
        · rw [hroot] at hinit
          exact .inl (List.prefix_nil.1 hinit)
        · exact ih hdir hinit heq

/-! ## Directories on the way -/

theorem ensureFrom_ok {names : List String} : ∀ {fs : Files} {dir : PathParts}, fs.IsDirectory dir →
    (∀ r, r ≠ [] → r <+: names → ∀ node, fs.get? (dir ++ r) = some node → node = .directory) →
    ∃ made, fs.ensureFrom dir names = some made := by
  induction names with
  | nil => exact fun _ _ => ⟨_, rfl⟩
  | cons name names ih =>
    intro fs dir hdir hfree
    have hstep : ∀ r, dir ++ [name] ++ r = dir ++ name :: r := fun r => by simp
    unfold ensureFrom
    split
    · rename_i hget
      refine ih (.inr hget) fun r _ hr node hnode => ?_
      rw [hstep] at hnode
      exact hfree _ (List.cons_ne_nil _ _) (List.cons_prefix_cons.2 ⟨rfl, hr⟩) node hnode
    · rename_i node hget hno
      exact absurd (hfree [name] (List.cons_ne_nil _ _) (by simp) _ hno) hget
    · rename_i hget
      obtain ⟨made, hmade⟩ := mkdir_ok hdir hget
      obtain ⟨-, -, hnames⟩ := mkdir_spec hmade
      rw [hmade, Option.bind_some]
      refine ih (.inr ((hnames _).trans (if_pos rfl))) fun r _ hr node hnode => ?_
      rw [hnames, hstep] at hnode
      split_ifs at hnode
      · exact (Option.some.inj hnode).symm
      · exact hfree _ (List.cons_ne_nil _ _) (List.cons_prefix_cons.2 ⟨rfl, hr⟩) node hnode

/-- all that is new are directories on the way, and they are there -/
theorem ensureFrom_spec {names : List String} : ∀ {fs : Files} {dir : PathParts} {fs' : Files},
    fs.ensureFrom dir names = some fs' → fs.IsDirectory dir →
      fs'.IsDirectory (dir ++ names) ∧ fs'.inodes = fs.inodes ∧ ∀ q node, fs'.get? q = some node →
        fs.get? q = some node ∨ node = .directory ∧ ∃ r, r ≠ [] ∧ r <+: names ∧ q = dir ++ r := by
  induction names with
  | nil =>
    intro fs dir fs' h hdir
    cases h
    rw [List.append_nil]
    exact ⟨hdir, rfl, fun q node hq => .inl hq⟩
  | cons name names ih =>
    intro fs dir fs' h hdir
    have hstep : ∀ r, dir ++ [name] ++ r = dir ++ name :: r := fun r => by simp
    have hbelow : ∀ {q}, (∃ r, r ≠ [] ∧ r <+: names ∧ q = dir ++ [name] ++ r) →
        ∃ r, r ≠ [] ∧ r <+: name :: names ∧ q = dir ++ r := by
      intro q ⟨r, _, hr, hq⟩
      exact ⟨name :: r, List.cons_ne_nil _ _, List.cons_prefix_cons.2 ⟨rfl, hr⟩, hq.trans (hstep r)⟩
    unfold ensureFrom at h
    split at h
    · rename_i hget
      obtain ⟨hthere, hinodes, hnew⟩ := ih h (.inr hget)
      rw [hstep] at hthere
      exact ⟨hthere, hinodes, fun q node hq => (hnew q node hq).imp id fun ⟨hnode, hr⟩ => ⟨hnode, hbelow hr⟩⟩
    · cases h
    · obtain ⟨made, hmade, hrest⟩ := Option.bind_eq_some_iff.1 h
      obtain ⟨-, hinodes₁, hnames⟩ := mkdir_spec hmade
      obtain ⟨hthere, hinodes, hnew⟩ := ih hrest (.inr ((hnames _).trans (if_pos rfl)))
      rw [hstep] at hthere
      refine ⟨hthere, hinodes.trans hinodes₁, fun q node hq => ?_⟩
      rcases hnew q node hq with hold | ⟨hnode, hr⟩
      · rw [hnames] at hold
        split_ifs at hold with heq
        · exact .inr ⟨(Option.some.inj hold).symm, [name], List.cons_ne_nil _ _, by simp, heq⟩
        · exact .inl hold
      · exact .inr ⟨hnode, hbelow hr⟩

end Files

end Apar
