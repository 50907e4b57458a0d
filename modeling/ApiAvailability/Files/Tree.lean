import ApiAvailability.Files.System
import Std.Data.ExtTreeMap

/-!
# Files/Tree — file systems as values

A tree maps places to files and directories; a place is the list of names that leads to it from the
root. There are no links. Finding the place of a path goes name by name, and each name but the last
has to lead to a directory; the last need not be there (`Tree.locate`). The operations answer the
errors that a system answers, the first one found on the way.

- `Tree.system` — the file operations on a tree, as state
- `Tree.lookup_put_self`, `Tree.lookup_put_of_ne` — putting a node changes what is at its place, and
  nothing else
-/

namespace ApiAvailability.Files

/-- What there is at a place. -/
inductive Node where
  | file (content : ByteArray)
  | directory

instance : DecidableEq Node
  | .file a, .file b =>
    if h : a.data = b.data then isTrue (congrArg Node.file (ByteArray.ext h))
    else isFalse fun e => h (congrArg ByteArray.data (Node.file.inj e))
  | .file _, .directory => isFalse nofun
  | .directory, .file _ => isFalse nofun
  | .directory, .directory => isTrue rfl

/-- The names that lead from the root to a place. -/
abbrev Place := List String

/-- **A tree of files**, and the place from which relative paths start. -/
structure Tree where
  nodes : Std.ExtTreeMap Place Node compare
  home : Place

namespace Tree

/-- The empty tree. -/
def empty : Tree := ⟨∅, []⟩

/-- What there is at a place. At the root there is a directory. -/
def lookup (t : Tree) (at_ : Place) : Option Node :=
  if at_ = [] then some .directory else t.nodes[at_]?

/-- The tree with a node at a place. -/
def put (t : Tree) (at_ : Place) (n : Node) : Tree := { t with nodes := t.nodes.insert at_ n }

/-- The tree without what is at a place. -/
def drop (t : Tree) (at_ : Place) : Tree := { t with nodes := t.nodes.erase at_ }

@[simp] theorem lookup_put_self {t : Tree} {p : Place} {n : Node} (h : p ≠ []) :
    (t.put p n).lookup p = some n := by
  simp [lookup, put, h]

theorem lookup_put_of_ne {t : Tree} {p q : Place} {n : Node} (h : p ≠ q) :
    (t.put p n).lookup q = t.lookup q := by
  simp only [lookup, put]
  split
  · rfl
  · rw [Std.ExtTreeMap.getElem?_insert, if_neg]
    simpa using h

theorem lookup_drop_of_ne {t : Tree} {p q : Place} (h : p ≠ q) :
    (t.drop p).lookup q = t.lookup q := by
  simp only [lookup, drop]
  split
  · rfl
  · rw [Std.ExtTreeMap.getElem?_erase, if_neg]
    simpa using h

/-! ## Finding a place -/

/-- The most bytes that a name may have. -/
def maxNameBytes : Nat := 255

/-- The bytes that a path may not reach. -/
def maxPathBytes : Nat := 4096

/-- The directory that a name leads to. -/
def enter (t : Tree) (at_ : Place) (name : String) : Except FileError Place :=
  if name = "." then .ok at_
  else if name = ".." then .ok at_.dropLast
  else if maxNameBytes < name.utf8ByteSize then .error .nameTooLong
  else
    match t.lookup (at_ ++ [name]) with
    | none => .error .notFound
    | some (.file _) => .error .notDirectory
    | some .directory => .ok (at_ ++ [name])

/-- **Where a path leads**: to a directory that is there, or to a name in one, which the path may
demand to be a directory by a separator at its end. -/
inductive Target where
  | directory (place : Place)
  | entry (place : Place) (asDirectory : Bool)

/-- The names of a path. -/
def names (p : Path) : List String := p.segments.filter (· ≠ "")

/-- Where the names of a path start from. -/
def start (t : Tree) (p : Path) : Place := if p.isAbsolute then [] else t.home

/-- Whether there can be no such path at all. -/
def refusal? (p : Path) : Option FileError :=
  if p.text.toList.contains '\x00' then some .nulInPath
  else if p.text = "" then some .notFound
  else if maxPathBytes ≤ p.text.utf8ByteSize then some .nameTooLong
  else none

/-- **Finds the place of a path.** -/
def locate (t : Tree) (p : Path) : Except FileError Target :=
  match refusal? p with
  | some e => .error e
  | none => do
    let dir ← (names p).dropLast.foldlM t.enter (t.start p)
    match (names p).getLast? with
    | none => return .directory dir
    | some name =>
      if name = "." ∨ name = ".." then return .directory (← t.enter dir name)
      else if maxNameBytes < name.utf8ByteSize then throw .nameTooLong
      else return .entry (dir ++ [name]) (p.text.toList.getLast? = some '/')

/-! ## Operations -/

/-- The content of a file. -/
def read (t : Tree) (p : Path) : Except FileError ByteArray := do
  match ← t.locate p with
  | .directory _ => throw .isDirectory
  | .entry place asDirectory =>
    match t.lookup place with
    | none => throw .notFound
    | some .directory => throw .isDirectory
    | some (.file content) => if asDirectory then throw .notDirectory else return content

/-- Whether a path leads to a directory. -/
def isDirectory (t : Tree) (p : Path) : Bool :=
  match t.locate p with
  | .error _ => false
  | .ok (.directory _) => true
  | .ok (.entry place _) => t.lookup place = some .directory

/-- The tree with one directory more, in a directory that is there. A name of dots stands for a
directory that is there already, and does so only behind one. -/
def makeDir (t : Tree) (p : Path) : Except FileError Tree :=
  match refusal? p with
  | some e => .error e
  | none => do
    let dir ← (names p).dropLast.foldlM t.enter (t.start p)
    match (names p).getLast? with
    | none => throw .fileExists
    | some name =>
      if name = "." ∨ name = ".." then throw .fileExists
      else if maxNameBytes < name.utf8ByteSize then throw .nameTooLong
      else if (t.lookup (dir ++ [name])).isSome then throw .fileExists
      else return t.put (dir ++ [name]) .directory

/-- The place at which a file can be written, and whether there is one already. -/
def writable (t : Tree) (p : Path) : Except FileError (Place × Bool) := do
  match ← t.locate p with
  | .directory _ => throw .isDirectory
  | .entry place asDirectory =>
    match t.lookup place with
    | some .directory => throw .isDirectory
    | found => if asDirectory then throw .isDirectory else return (place, found.isSome)

/-- Writes a file that must not be there yet; a directory in its place is in the way as well. -/
def createNew (t : Tree) (p : Path) (content : ByteArray) : Tree × Except FileError Unit :=
  match t.locate p with
  | .error e => (t, .error e)
  | .ok (.directory _) => (t, .error .isDirectory)
  | .ok (.entry place asDirectory) =>
    if asDirectory then (t, .error .isDirectory)
    else if (t.lookup place).isSome then (t, .error .fileExists)
    else (t.put place (.file content), .ok ())

/-- Writes a file, in place of what it held. -/
def write (t : Tree) (p : Path) (content : ByteArray) : Tree × Except FileError Unit :=
  match t.writable p with
  | .error e => (t, .error e)
  | .ok (place, _) => (t.put place (.file content), .ok ())

/-- Moves a file, in place of the one at its new path. -/
def rename (t : Tree) (p q : Path) : Tree × Except FileError Unit :=
  match t.read p, t.locate p, t.locate q with
  | .error e, _, _ => (t, .error e)
  | _, .error e, _ => (t, .error e)
  | _, _, .error e => (t, .error e)
  | .ok content, .ok (.entry source _), .ok (.entry dest asDirectory) =>
    if t.lookup dest = some .directory then (t, .error .isDirectory)
    else if asDirectory then (t, .error .notDirectory)
    else ((t.drop source).put dest (.file content), .ok ())
  | _, _, _ => (t, .error .isDirectory)

/-- **The file operations on a tree.** -/
def system : FileSystem (StateM Tree) where
  read p := fun t => (t.read p, t)
  isDirectory p := fun t => (t.isDirectory p, t)
  makeDir p := fun t =>
    match t.makeDir p with
    | .ok t => (.ok (), t)
    | .error e => (.error e, t)
  createNew p content := fun t => let (t, r) := t.createNew p content; (r, t)
  write p content := fun t => let (t, r) := t.write p content; (r, t)
  rename p q := fun t => let (t, r) := t.rename p q; (r, t)

/-! ## Editing a tree from outside -/

/-- The place of a path of plain names. -/
def placeOf (t : Tree) (p : Path) : Place := t.start p ++ names p

/-- Puts a node at a path, below directories that are made where they are missing. -/
def install (t : Tree) (p : Path) (n : Node) : Tree :=
  let place := t.placeOf p
  (List.range place.length).foldl
    (fun t i => if i = 0 then t else if t.lookup (place.take i) = some .directory then t
      else t.put (place.take i) .directory) t |>.put place n

/-- Takes away what is at a path, and all below it. -/
def remove (t : Tree) (p : Path) : Tree :=
  let place := t.placeOf p
  { t with nodes := t.nodes.filter fun q _ => !place.isPrefixOf q }

end Tree

end ApiAvailability.Files
