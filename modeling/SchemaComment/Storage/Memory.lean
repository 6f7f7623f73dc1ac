/-
  A STORE OF NAMED TEXTS.

  The plainest place for texts: a list of names, each with its text, and the names that must not be
  written.  A name is a name; nothing is made of the slashes in it.

  The operations are characterised by what can be looked up after them: `lookup_put_self` and
  `lookup_put_of_ne`.
-/
import SchemaComment.Storage
import SchemaComment.Storage.Keyed

namespace SchemaComment

/-- Texts by name. -/
structure Memory where
  /-- The texts, each name with its own. -/
  texts : List (String × Text)
  /-- The names that must not be written. -/
  locked : List String := []
deriving DecidableEq, Repr

namespace Memory

/-- The text under a name. -/
def lookup (s : Memory) (name : String) : Option Text := s.texts.lookup name

/-- The store with a text under a name, whether or not the name is locked. -/
def put (s : Memory) (name : String) (t : Text) : Memory :=
  { s with texts := putAt name t s.texts }

/-- What was put is found. -/
@[simp] theorem lookup_put_self (s : Memory) (name : String) (t : Text) :
    (s.put name t).lookup name = some t := lookup_putAt_self name t s.texts

/-- Nothing changes under another name. -/
theorem lookup_put_of_ne {name other : String} (h : other ≠ name) (s : Memory) (t : Text) :
    (s.put name t).lookup other = s.lookup other := lookup_putAt_of_ne h t s.texts

/-- Texts under two names can be put in either order, if one of the names is there. -/
theorem put_comm {name other : String} (h : other ≠ name) (t u : Text) {s : Memory}
    (hn : (s.lookup name).isSome) : (s.put other u).put name t = (s.put name t).put other u := by
  simp only [put, putAt_comm h t u hn]

/-- What a read answers. -/
def readText (s : Memory) (name : String) : Except FileFault Text :=
  match s.lookup name with
  | some t => .ok t
  | none => .error .unknownName

/-- What a write answers, and the store after it. -/
def writeText (s : Memory) (name : String) (t : Text) : Except FileFault Unit × Memory :=
  if name ∈ s.locked then (.error .locked, s) else (.ok (), s.put name t)

/-- The operations on a store of named texts. -/
def storage : Storage (StateM Memory) where
  read name := do return (← get).readText name
  write name t := modifyGet fun s => s.writeText name t

@[simp] theorem run_read (s : Memory) (name : String) :
    (storage.read name).run s = (s.readText name, s) := rfl

@[simp] theorem run_write (s : Memory) (name : String) (t : Text) :
    (storage.write name t).run s = s.writeText name t := rfl

end Memory
end SchemaComment
