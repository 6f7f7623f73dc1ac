/-
  WHERE FILES ARE KEPT.

  A run reads whole texts and writes whole texts.  What it does in between does not depend on where
  the texts are kept, so it is written against the two operations below and any monad they live in:
  a store of named texts (`Storage.Memory`), a tree of directories (`Storage.Directory`), or the
  disk.
-/
import SchemaComment.Fault

namespace SchemaComment

/-- A place that texts are read from and written to, by path. -/
structure Storage (m : Type → Type) where
  /-- The text under a path. -/
  read : String → m (Except FileFault Text)
  /-- Put a text under a path. -/
  write : String → Text → m (Except FileFault Unit)

end SchemaComment
