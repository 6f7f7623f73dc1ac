/-
  BATCHES OF FILES.

  A batch takes its files one by one: it reads the file, works out the new text and writes it.  There
  is no state between files but the storage itself.

  1. **Program** — `processFile` does one file; `batch` runs over the list.  A fault is noted in the
     report and the batch goes on with the next file, unless the fault is fatal.
  2. **The crux** — the report is put together from the back: what comes of a list is what comes of
     its first file, noted in front of what comes of the others (`FileRun.before`).  So everything
     about batches is an induction on the list.
-/
import SchemaComment.Annotation
import SchemaComment.Storage
import SchemaComment.Report

namespace SchemaComment

/-- What came of one file: the log, and whether it was written. -/
structure FileRun where
  /-- What the log says about it. -/
  log : List LogEntry
  /-- Whether it was written, or why it was not processed. -/
  result : Except Fault Bool

/-- What came of a batch. -/
structure BatchRun where
  /-- What the log says about it. -/
  log : List LogEntry
  /-- The report, or the fatal fault that ended it. -/
  result : Except Fault Report

/-- A file to annotate, with the block that describes its table. -/
structure Target where
  /-- The file. -/
  path : String
  /-- Its kind, which settles the position. -/
  kind : FileKind
  /-- The block that it is to carry. -/
  block : Text
deriving DecidableEq, Repr

namespace Operation

/-- The line of the log about a file that was written. -/
def doneEntry : Operation → String → LogEntry
  | .annotate, path => ⟨.info, "annotated " ++ path⟩
  | .strip, path => ⟨.info, "deannotated " ++ path⟩

/-- The line of the log about a file that could not be processed. -/
def failedEntry : Operation → Fault → LogEntry
  | .annotate, e => ⟨.warning, "unable to annotate " ++ e.message⟩
  | .strip, e => ⟨.warning, "unable to deannotate " ++ e.message⟩

end Operation

section
variable {m : Type → Type} [Monad m]

/-! ## One file -/

/-- Read the file, work out its new text, and write it where there is one. -/
def processFile (st : Storage m) (op : Operation) (path : String) (log : Text → List LogEntry)
    (edit : Text → Except Fault (Option Text)) : m FileRun := do
  match ← st.read path with
  | .error e => return ⟨[], .error (.file path e)⟩
  | .ok t =>
    match edit t with
    | .error e => return ⟨log t, .error e⟩
    | .ok none => return ⟨log t, .ok false⟩
    | .ok (some u) =>
      match ← st.write path u with
      | .error e => return ⟨log t, .error (.file path e)⟩
      | .ok () => return ⟨log t ++ [op.doneEntry path], .ok true⟩

/-- Annotate one file. -/
def annotateFile (st : Storage m) (o : Options) (t : Target) : m FileRun :=
  processFile st .annotate t.path (annotateLog o t.path · t.block t.kind)
    (annotate o t.path · t.block t.kind)

/-- Strip one file. -/
def stripFile (st : Storage m) (o : Options) (path : String) : m FileRun :=
  processFile st .strip path (stripLog path) (strip o path)

/-! ## Many files -/

/-- What came of the first file noted in front of what came of the others. -/
def FileRun.before (op : Operation) (path : String) (run : FileRun) (rest : BatchRun) : BatchRun :=
  match run.result with
  | .ok true =>
    ⟨run.log ++ rest.log, rest.result.map fun r => { r with modified := path :: r.modified }⟩
  | .ok false => ⟨run.log ++ rest.log, rest.result⟩
  | .error e =>
    ⟨run.log ++ op.failedEntry e :: rest.log,
      rest.result.map fun r => { r with failures := ⟨path, e.message⟩ :: r.failures }⟩

/-- The fault that ends the batch, if the file met one. -/
def FileRun.fatal? (run : FileRun) : Option Fault :=
  match run.result with
  | .ok _ => none
  | .error e => if e.isFatal then some e else none

/-- The files in order, each given by its path and what is done to it, up to a fatal fault. -/
def batch (op : Operation) : List (String × m FileRun) → m BatchRun
  | [] => return ⟨[], .ok { operation := op }⟩
  | (path, act) :: rest => do
    let run ← act
    match run.fatal? with
    | some e => return ⟨run.log, .error e⟩
    | none => return run.before op path (← batch op rest)

/-- Annotate every target in order. -/
def annotateAll (st : Storage m) (o : Options) (ts : List Target) : m BatchRun :=
  batch .annotate (ts.map fun t => (t.path, annotateFile st o t))

/-- Strip every file in order. -/
def stripAll (st : Storage m) (o : Options) (paths : List String) : m BatchRun :=
  batch .strip (paths.map fun p => (p, stripFile st o p))

end

end SchemaComment
