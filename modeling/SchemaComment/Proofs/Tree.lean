/-
  A TREE OF DIRECTORIES AS A FILE SYSTEM.

  1. **Program** — `Directory.storage`.
  2. **Specification** — `Directory.fileSystem`: its files are the places of the tree, and a file that
     can be read can be written.
  3. **The crux** — a write changes the bytes of one file and leaves the shape of the tree, links and
     directories included.  So a path leads where it led before (`resolve_congr`).
-/
import SchemaComment.Storage.Directory
import SchemaComment.Storage.FileSystem

namespace SchemaComment

/-- A result comes of the first step and of what follows it. -/
theorem exists_of_bind_eq_ok {ε α β : Type} {x : Except ε α} {f : α → Except ε β} {b : β}
    (h : (x >>= f) = .ok b) : ∃ a, x = .ok a ∧ f a = .ok b := by
  cases x with
  | error e => cases h
  | ok a => exact ⟨a, rfl, h⟩

/-- An entry without the bytes that it has if it is a file. -/
def Entry.shape : Entry → Entry
  | .file _ => .file .empty
  | e => e

/-- The bytes of a file. -/
def Entry.bytes? : Entry → Option ByteArray
  | .file bytes => some bytes
  | _ => none

namespace Directory

variable {d d' : Directory} {path : String} {p : Place}

/-- What stands at a place, whatever bytes a file has. -/
def shapeAt (d : Directory) (p : Place) : Option Entry := (d.lookup p).map Entry.shape

/-! ## The shape of a tree -/

/-- Where the shape is the same, the same entry stands, or two files. -/
theorem lookup_cases (h : d.shapeAt p = d'.shapeAt p) :
    d.lookup p = d'.lookup p ∨
      ∃ bytes bytes', d.lookup p = some (.file bytes) ∧ d'.lookup p = some (.file bytes') := by
  unfold shapeAt at h
  cases hd : d.lookup p with
  | none =>
    rw [hd] at h
    exact Or.inl (Option.map_eq_none_iff.mp h.symm).symm
  | some e =>
    rw [hd] at h
    obtain ⟨e', he', hshape⟩ := Option.map_eq_some_iff.mp h.symm
    rw [he']
    cases e <;> cases e' <;> simp_all [Entry.shape]

/-- **Where a walk leads** depends on the shape of the tree and on where its links lead. -/
theorem walk_congr {follow : Place → String → List String → Except FileFault Place}
    (h : ∀ p, d.shapeAt p = d'.shapeAt p) (p : Place) (ns : List String) :
    d.walk follow p ns = d'.walk follow p ns := by
  induction ns generalizing p with
  | nil =>
    unfold walk
    rcases lookup_cases (h p) with hsame | ⟨bytes, bytes', hd, hd'⟩
    · rw [hsame]
    · rw [hd, hd']
  | cons n ns ih =>
    unfold walk
    rcases lookup_cases (h p) with hsame | ⟨bytes, bytes', hd, hd'⟩
    · rw [hsame]
      simp only [ih]
    · rw [hd, hd']

/-- So does where a path leads. -/
theorem resolve_congr (h : ∀ p, d.shapeAt p = d'.shapeAt p) (path : String) :
    d.resolve path = d'.resolve path := by
  have hfollow : ∀ limit, d.follow limit = d'.follow limit := by
    intro limit
    induction limit with
    | zero => rfl
    | succ limit ih =>
      funext p path more
      rw [follow, follow, ih, walk_congr h]
  rw [resolve, resolve, hfollow]

/-- A place with a file is not the working directory and not above it. -/
theorem isPrefixOf_here_of_file {bytes : ByteArray} (h : d.lookup p = some (.file bytes)) :
    p.isPrefixOf here = false := by
  cases hp : p.isPrefixOf here with
  | false => rfl
  | true =>
    rw [lookup, if_pos hp] at h
    cases h

/-- Other bytes for a file leave the shape of the tree. -/
theorem shapeAt_set_file {old : ByteArray} (h : d.lookup p = some (.file old)) (new : ByteArray)
    (q : Place) : (d.set p (.file new)).shapeAt q = d.shapeAt q := by
  by_cases hq : q = p
  · subst hq
    rw [shapeAt, shapeAt, lookup_set_self (isPrefixOf_here_of_file h), h]
    rfl
  · rw [shapeAt, shapeAt, lookup_set_of_ne hq]

/-- **A file that can be read can be written.** -/
theorem writeText_of_readText {t : Text} (h : d.readText path = .ok t) :
    ∃ p old, d.resolve path = .ok p ∧ d.lookup p = some (.file old) ∧
      ∀ u, d.writeText path u = (.ok (), d.set p (.file (encode u))) := by
  unfold readText at h
  obtain ⟨bytes, hbytes, -⟩ := exists_of_bind_eq_ok h
  unfold readBytes at hbytes
  obtain ⟨p, hp, hentry⟩ := exists_of_bind_eq_ok hbytes
  split at hentry
  · rename_i old hold
    exact ⟨p, old, hp, hold, fun u => by simp only [writeText, hp, hold]⟩
  · cases hentry
  · cases hentry

/-! ## The file system -/

/-- The bytes of the file at a place. -/
def bytesAt (d : Directory) (p : Place) : Option ByteArray := (d.lookup p).bind Entry.bytes?

/-- The files of a tree. -/
def view : FileView Directory where
  Node := Place
  bytes := bytesAt
  node? d path := (d.resolve path).toOption

/-- Other bytes for the file that a path leads to. -/
theorem changes_set_file {old : ByteArray} (hp : d.resolve path = .ok p)
    (hold : d.lookup p = some (.file old)) (new : ByteArray) :
    view.Changes [path] d (d.set p (.file new)) := by
  have hother : ∀ q, q ≠ p → (d.set p (.file new)).bytesAt q = d.bytesAt q := fun q hq => by
    simp only [bytesAt, lookup_set_of_ne hq]
  refine ⟨?_, fun q => ?_, fun q hq => ⟨path, List.mem_singleton_self path, ?_⟩⟩
  · funext path
    exact congrArg Except.toOption (resolve_congr (shapeAt_set_file hold new) path)
  · show ((d.set p (.file new)).bytesAt q).isSome = (d.bytesAt q).isSome
    by_cases hq : q = p
    · subst hq
      simp [bytesAt, lookup_set_self (isPrefixOf_here_of_file hold), hold, Entry.bytes?]
    · rw [hother q hq]
  · have hsame : q = p := by
      apply Classical.byContradiction
      intro hne
      exact hq (hother q hne)
    show (d.resolve path).toOption = some q
    rw [hp, hsame]
    rfl

/-- **A tree of directories is a file system.** -/
def fileSystem : FileSystem Directory where
  toFileView := view
  storage := storage
  changes_read _ d := .refl view d
  changes_write := by
    intro path d d' t u hread
    obtain ⟨ht, rfl⟩ := Prod.mk.inj hread
    obtain ⟨p, old, hp, hold, hwrite⟩ := writeText_of_readText ht
    exact ⟨_, by rw [run_write, hwrite], changes_set_file hp hold _⟩

end Directory

end SchemaComment
