/-
  A TREE OF DIRECTORIES.

  A tree is kept as the list of its entries, each under the names that lead to it from the root.  A
  path is walked name by name, from the root if it begins with a slash and from the working directory
  if not: an empty name and `.` stay where they are, `..` goes up, and any other goes down.  Above the
  root there is the root.  Each step but the last has to arrive at a directory, which is why a path
  that goes on below a file fails otherwise than one that leads nowhere.  Where a link stands, its
  own path is walked first, from the directory of the link.  Links may lead in circles, so only so
  many of them are followed.  Names and paths may be of any length, and no entry is closed to anyone.

  Files hold bytes.  A file is a text when its bytes are the UTF-8 form of one.
-/
import SchemaComment.Storage
import SchemaComment.Storage.Keyed

namespace SchemaComment

/-- What stands in a tree. -/
inductive Entry where
  /-- A file with its bytes. -/
  | file (bytes : ByteArray)
  /-- A directory. -/
  | folder
  /-- A link with the path that it stands for. -/
  | link (target : String)

/-- The names that lead from the root to an entry. -/
abbrev Place := List String

/-- A tree of directories.  The working directory and those above it are not listed. -/
structure Directory where
  /-- The other entries below the root. -/
  entries : List (Place × Entry)

namespace Directory

/-- The working directory. -/
def here : Place := ["tmp", "work"]

/-- The entry at a place. -/
def lookup (d : Directory) (p : Place) : Option Entry :=
  if p.isPrefixOf here then some .folder else d.entries.lookup p

/-- The tree with an entry at a place. -/
def set (d : Directory) (p : Place) (e : Entry) : Directory := ⟨putAt p e d.entries⟩

theorem lookup_set_self {p : Place} (h : p.isPrefixOf here = false) (d : Directory) (e : Entry) :
    (d.set p e).lookup p = some e := by
  simp [lookup, set, h, lookup_putAt_self]

theorem lookup_set_of_ne {p q : Place} (h : q ≠ p) (d : Directory) (e : Entry) :
    (d.set p e).lookup q = d.lookup q := by
  simp [lookup, set, lookup_putAt_of_ne h]

/-! ## Walking a path -/

/-- The pieces of a path between its slashes. -/
def pieces : List Char → List (List Char)
  | [] => [[]]
  | c :: cs =>
    if c = '/' then [] :: pieces cs
    else match pieces cs with
      | [] => [[c]]
      | p :: ps => (c :: p) :: ps

/-- The names of a path.  A slash at either end leaves an empty name there. -/
def names (path : String) : List String := (pieces path.toList).map String.ofList

/-- The place that a path starts from, if it is met in the directory `p`. -/
def start (p : Place) (path : String) : Place := if path.toList.head? = some '/' then [] else p

/-- The place that the names lead to from the place `p`.  How a link is followed is left to `follow`:
    it is given the directory of the link, the path of the link, and the names that are left. -/
def walk (d : Directory) (follow : Place → String → List String → Except FileFault Place)
    (p : Place) : List String → Except FileFault Place
  | [] => match d.lookup p with
    | some (.link target) => follow p.dropLast target []
    | _ => .ok p
  | n :: ns => match d.lookup p with
    | none => .error .missing
    | some (.file _) => .error .notADirectory
    | some (.link target) => follow p.dropLast target (n :: ns)
    | some .folder =>
      if n = "" ∨ n = "." then walk d follow p ns
      else if n = ".." then walk d follow p.dropLast ns
      else walk d follow (p ++ [n]) ns

/-- The place that a path met in the directory `p` leads to, and more names behind it.  No more than
    `limit` paths are walked.  The empty path leads nowhere. -/
def follow (d : Directory) : (limit : Nat) → Place → String → List String → Except FileFault Place
  | 0, _, _, _ => .error (.system "Too many levels of symbolic links (os error 40)")
  | limit + 1, p, path, more =>
    if path = "" then .error .missing
    else d.walk (d.follow limit) (start p path) (names path ++ more)

/-- How many links are followed on one path. -/
def linkLimit : Nat := 40

/-- The place of a path. -/
def resolve (d : Directory) (path : String) : Except FileFault Place :=
  d.follow (linkLimit + 1) here path []

/-! ## Reading and writing -/

/-- The bytes of the file at a path. -/
def readBytes (d : Directory) (path : String) : Except FileFault ByteArray := do
  match d.lookup (← d.resolve path) with
  | some (.file bytes) => .ok bytes
  | some .folder => .error .isADirectory
  | _ => .error .missing

/-- The text of the file at a path. -/
def readText (d : Directory) (path : String) : Except FileFault Text := do
  match String.fromUTF8? (← d.readBytes path) with
  | some s => .ok s.toList
  | none => .error .notText

/-- The bytes of a text. -/
def encode (t : Text) : ByteArray := (String.ofList t).toUTF8

/-- What a write answers, and the tree after it. -/
def writeText (d : Directory) (path : String) (t : Text) : Except FileFault Unit × Directory :=
  match d.resolve path with
  | .error e => (.error e, d)
  | .ok p => match d.lookup p with
    | some .folder => (.error .isADirectory, d)
    | _ => (.ok (), d.set p (.file (encode t)))

/-- The operations on a tree. -/
def storage : Storage (StateM Directory) where
  read path := do return (← get).readText path
  write path t := modifyGet fun d => d.writeText path t

@[simp] theorem run_read (d : Directory) (path : String) :
    (storage.read path).run d = (d.readText path, d) := rfl

@[simp] theorem run_write (d : Directory) (path : String) (t : Text) :
    (storage.write path t).run d = d.writeText path t := rfl

/-! ## Building a tree -/

/-- The tree with a directory at the names below the working directory and at all those above. -/
def addFolder (d : Directory) (p : Place) : Directory :=
  let above := (List.range p.length).map fun n => here ++ p.take (n + 1)
  above.foldl (fun d q => if (d.lookup q).isSome then d else d.set q .folder) d

/-- The tree with a file at the names below the working directory and directories above it. -/
def addFile (d : Directory) (p : Place) (bytes : ByteArray) : Directory :=
  (d.addFolder p.dropLast).set (here ++ p) (.file bytes)

/-- The names below the working directory that a plain path has, whatever stands in the tree. -/
def placeOf (path : String) : Place := (names path).filter fun n => n != "" && n != "."

/-- The files below the working directory, each with the names that lead to it from there. -/
def files (d : Directory) : List (Place × ByteArray) :=
  d.entries.filterMap fun (p, e) => match e with
    | .file bytes => (here.isPrefixOf? p).map (·, bytes)
    | _ => none

end Directory
end SchemaComment
