/-
  Files and directories.

  A tree tells for each place whether it is a directory or a file, and what the file holds;
  where paths start, and above, there are always directories.  What files hold is a
  parameter.

  There are no links: a file has one place, so that files at different places are different
  files, and to write one changes no other.

  A place is a path without steps back behind others.  Other paths are followed step by step
  (`locate`): each step starts at a directory.

  * `get?` looks a place up, `find?` a path, and `read` reads a file;
  * `put` sets what is at a place, with the directories that it lies in (`get?_put`,
    `get?_put_of_ne`); `write` puts a file where no directory is.
-/
import PrimaryEnergy.Files.Path
import PrimaryEnergy.Text.Quoted

namespace PrimaryEnergy

/-- What can be at a path. -/
inductive Node (γ : Type) where
  | directory
  /-- A file and what it holds. -/
  | file (content : γ)
deriving DecidableEq, Repr

/-- Files and directories. -/
structure FileTree (γ : Type) where
  /-- What is at each path; of several entries with one path the first counts. -/
  nodes : List (Path × Node γ) := []
deriving Repr

/-- Why a file cannot be read or written. -/
inductive FileFault where
  /-- There is nothing at the path. -/
  | noSuchFile (path : Path)
  /-- There is a file at the path of a new directory. -/
  | isFile (path : Path)
  /-- The path leads through a file. -/
  | notDirectory (path : Path)
  | isDirectory (path : Path)
deriving DecidableEq, Repr

/-- What a reader is told about it. -/
def FileFault.message : FileFault → String
  | noSuchFile p => "[Errno 2] No such file or directory: " ++ Text.quoted p.text
  | isFile p => "[Errno 17] File exists: " ++ Text.quoted p.text
  | notDirectory p => "[Errno 20] Not a directory: " ++ Text.quoted p.text
  | isDirectory p => "[Errno 21] Is a directory: " ++ Text.quoted p.text

namespace FileTree

variable {γ : Type}

/-! ## Looking up -/

/-- What is at a place. -/
def get? (t : FileTree γ) (p : Path) : Option (Node γ) :=
  if p.isAbove then some .directory else t.nodes.lookup p

/-- The next place on the way along a path, or why the path does not go on here. -/
def follow (t : FileTree γ) (here : Path) (name : String) : Except (Path → FileFault) Path :=
  match t.get? here with
  | some .directory => .ok (here.step name)
  | some (.file _) => .error .notDirectory
  | none => .error .noSuchFile

/-- The place that a path leads to; there need not be anything. -/
def locate (t : FileTree γ) (p : Path) : Except FileFault Path :=
  (p.parts.foldlM t.follow p.start).mapError fun e => e p

/-- What a path leads to. -/
def find? (t : FileTree γ) (p : Path) : Option (Node γ) :=
  match t.locate p with
  | .ok q => t.get? q
  | .error _ => none

/-- Whether a path leads to something. -/
def has (t : FileTree γ) (p : Path) : Bool := (t.find? p).isSome

/-- Reads a file. -/
def read (t : FileTree γ) (p : Path) : Except FileFault γ :=
  match t.locate p with
  | .error e => .error e
  | .ok q =>
    match t.get? q with
    | some (.file c) => .ok c
    | some .directory => .error (.isDirectory p)
    | none => .error (.noSuchFile p)

/-! ## Changing -/

/-- Sets what is at a place. -/
def put (t : FileTree γ) (p : Path) (n : Node γ) : FileTree γ :=
  ⟨(p, n) :: t.nodes.filter fun e => e.1 != p⟩

/-- Removes what is at a place. -/
def erase (t : FileTree γ) (p : Path) : FileTree γ := ⟨t.nodes.filter fun e => e.1 != p⟩

/-- Makes a directory, unless there is one. -/
def makeDirectory (t : FileTree γ) (p : Path) : Except FileFault (FileTree γ) :=
  match t.locate p with
  | .error e => .error e
  | .ok q =>
    match t.get? q with
    | some .directory => .ok t
    | some (.file _) => .error (.isFile p)
    | none => .ok (t.put q .directory)

/-- The paths on the way to a path, the path itself last. -/
def onTheWay (p : Path) : List Path :=
  (List.range (p.parts.length + 1)).map fun n => { p with parts := p.parts.take n }

/-- Makes a directory and those that it lies in. -/
def makeDirectories (t : FileTree γ) (p : Path) : Except FileFault (FileTree γ) :=
  (onTheWay p).foldlM
    (fun t q => (t.makeDirectory q).mapError fun e =>
      if q = p then e else .notDirectory p) t

def write (t : FileTree γ) (p : Path) (c : γ) : Except FileFault (FileTree γ) :=
  match t.locate p with
  | .error e => .error e
  | .ok q =>
    match t.get? q, t.get? q.parent with
    | some .directory, _ => .error (.isDirectory p)
    | _, some (.file _) => .error (.notDirectory p)
    | _, none => .error (.noSuchFile p)
    | _, some .directory => .ok (t.put q (.file c))

/-- Writes files one after the other until one cannot be written; the tree holds those
    before it. -/
def writeAll (t : FileTree γ) : List (Path × γ) → FileTree γ × Option FileFault
  | [] => (t, none)
  | (p, c) :: r =>
    match t.write p c with
    | .ok t' => t'.writeAll r
    | .error e => (t, some e)

/-- The files, in the order of their paths. -/
def files (t : FileTree γ) : List (Path × γ) :=
  (t.nodes.filterMap fun e => match e.2 with
    | .file c => some (e.1, c)
    | .directory => none).mergeSort fun a b => a.1.text ≤ b.1.text

/-! ## Laws -/

theorem get?_put (t : FileTree γ) {p : Path} (n : Node γ) (h : p.isAbove = false) :
    (t.put p n).get? p = some n := by
  simp [get?, put, h]

theorem get?_put_of_ne (t : FileTree γ) {p q : Path} (n : Node γ) (h : q ≠ p) :
    (t.put p n).get? q = t.get? q := by
  have hb : (q == p) = false := by simpa using h
  have : (t.nodes.filter fun e => e.1 != p).lookup q = t.nodes.lookup q := by
    induction t.nodes with
    | nil => rfl
    | cons e es ih =>
      obtain ⟨a, m⟩ := e
      by_cases ha : a = p
      · subst ha; simpa [List.lookup_cons, hb] using ih
      · simp [ha, List.lookup_cons, ih]
  simp [get?, put, List.lookup_cons, hb, this]

theorem locate_eq_ok_iff {t : FileTree γ} {p q : Path} :
    t.locate p = .ok q ↔ p.parts.foldlM t.follow p.start = .ok q := by
  unfold locate
  cases p.parts.foldlM t.follow p.start with
  | error e => exact ⟨nofun, nofun⟩
  | ok r =>
    exact ⟨fun h => congrArg Except.ok (Except.ok.inj h),
      fun h => congrArg Except.ok (Except.ok.inj h)⟩

/-- A file lies in the directory that its path leads through. -/
theorem locate_child {t : FileTree γ} {p q : Path} {name : String} (h : t.locate p = .ok q)
    (hd : t.get? q = some .directory) (hn : name ≠ Path.upward) :
    t.locate (p.child name) = .ok (q.child name) := by
  have hs : (p.child name).start = p.start := rfl
  have hc : (p.child name).parts = p.parts ++ [name] := rfl
  simp [locate_eq_ok_iff, hs, hc, List.foldlM_append, locate_eq_ok_iff.1 h, bind, Except.bind,
    follow, hd, Path.step, hn, pure, Except.pure]

end FileTree

end PrimaryEnergy
