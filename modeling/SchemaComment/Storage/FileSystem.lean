/-
  FILE SYSTEMS.

  A file system keeps regular files and lets them be read and written by path.  How a path leads to a
  file is its own affair: over links, from the root or from a working directory, several paths to
  one file.  A path may also lead to what is no regular file and can be read all the same.

  1. **Program** — `FileSystem.storage`, the two operations of a storage.
  2. **Specification** — `FileView` is what there is to see of the files.  `FileView.Changes paths`
     says what may become of them: other bytes for files that these paths lead to, and nothing else.
     In a `FileSystem` reading changes nothing in this sense, and what could be read can be written.
-/
import SchemaComment.Storage

namespace SchemaComment

/-- The files in the states of a system. -/
structure FileView (σ : Type) where
  /-- What tells one file from another. -/
  Node : Type
  /-- The bytes of a regular file. -/
  bytes : σ → Node → Option ByteArray
  /-- What a path leads to. -/
  node? : σ → String → Option Node

variable {σ : Type}

/-- **How files may change** from one state to the next: those that the paths lead to may have other
    bytes.  All others have the bytes that they had, no file comes or goes, and each path leads
    where it led. -/
structure FileView.Changes (v : FileView σ) (paths : List String) (s s' : σ) : Prop where
  node? : v.node? s' = v.node? s
  isSome_bytes : ∀ n, (v.bytes s' n).isSome = (v.bytes s n).isSome
  under : ∀ n, v.bytes s' n ≠ v.bytes s n → ∃ f ∈ paths, v.node? s f = some n

/-- A file system in which a file that can be read can be written. -/
structure FileSystem (σ : Type) extends FileView σ where
  /-- The operations, by path. -/
  storage : Storage (StateM σ)
  /-- Reading changes no file, whether it succeeds or fails. -/
  changes_read : ∀ (path : String) (s : σ), toFileView.Changes [] s ((storage.read path).run s).2
  /-- Right after a text has been read, another can be written in its stead. -/
  changes_write : ∀ (path : String) (s s' : σ) (t u : Text),
    (storage.read path).run s = (.ok t, s') →
      ∃ s'', (storage.write path u).run s' = (.ok (), s'') ∧ toFileView.Changes [path] s' s''

namespace FileView.Changes

variable {v : FileView σ} {paths paths' : List String} {s s' s'' : σ}

theorem refl (v : FileView σ) (s : σ) : v.Changes [] s s :=
  ⟨rfl, fun _ => rfl, fun _ h => absurd rfl h⟩

/-- Where no path is allowed, every file has the bytes that it had. -/
theorem bytes_eq (h : v.Changes [] s s') : v.bytes s' = v.bytes s := by
  funext n
  apply Classical.byContradiction
  intro hn
  obtain ⟨f, hf, -⟩ := h.under n hn
  cases hf

/-- One change after another.  A path leads where it led at the beginning. -/
theorem trans (h : v.Changes paths s s') (h' : v.Changes paths' s' s'') :
    v.Changes (paths ++ paths') s s'' := by
  refine ⟨h'.node?.trans h.node?, fun n => (h'.isSome_bytes n).trans (h.isSome_bytes n), fun n hn => ?_⟩
  by_cases hlater : v.bytes s'' n = v.bytes s' n
  · obtain ⟨f, hf, hleads⟩ := h.under n (hlater ▸ hn)
    exact ⟨f, List.mem_append_left _ hf, hleads⟩
  · obtain ⟨f, hf, hleads⟩ := h'.under n hlater
    rw [h.node?] at hleads
    exact ⟨f, List.mem_append_right _ hf, hleads⟩

/-- What changes was a file, and is one. -/
theorem exists_bytes (h : v.Changes paths s s') {n : v.Node} (hn : v.bytes s' n ≠ v.bytes s n) :
    ∃ old new, v.bytes s n = some old ∧ v.bytes s' n = some new := by
  have hsome := h.isSome_bytes n
  cases hold : v.bytes s n with
  | none =>
    rw [hold] at hsome hn
    exact absurd (Option.isNone_iff_eq_none.mp (by simpa using hsome)) hn
  | some old =>
    rw [hold] at hsome
    obtain ⟨new, hnew⟩ := Option.isSome_iff_exists.mp hsome
    exact ⟨old, new, rfl, hnew⟩

end FileView.Changes

end SchemaComment
