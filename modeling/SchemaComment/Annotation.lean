/-
  ANNOTATING AND STRIPPING A TEXT.

  The two operations of the library on the text of one file.  `annotate` brings a block into it and
  `strip` takes the schema comment out.  Both answer with the new text, with nothing where the text
  stays as it is, or with a fault.

  1. **Program** — a text that has opted out is left alone before anything else is asked.  Then one
     with several schema comments is refused, as there is no single place for a block.
  2. **The crux** — both operations are plain functions of the text.  What they have to say on the
     way is a function beside each of them (`annotateLog`, `stripLog`), so the result can be
     reasoned about without it.
-/
import SchemaComment.Placement
import SchemaComment.Fault
import SchemaComment.Log

namespace SchemaComment

/-! ## Annotating -/

/-- The text with `block` placed as the options say for a file of kind `k`, or nothing where the
    file need not be written.  The path only serves the messages. -/
def annotate (o : Options) (path : String) (text block : Text) (k : FileKind) :
    Except Fault (Option Text) :=
  let f := SourceFile.ofText o.shape text
  if !f.isOptedOut && decide (1 < f.regionCount) then .error (.severalRegions path f.regionCount)
  else match f.place o block (o.positionFor k) with
    | .skipped => .ok none
    | .unchanged => .ok none
    | .refused => .error (.frozen path)
    | .write _ t => .ok (some t)

/-- The lines of the log about an annotation, all of them for debugging. -/
def annotateLog (o : Options) (path : String) (text block : Text) (k : FileKind) : List LogEntry :=
  let f := SourceFile.ofText o.shape text
  if !f.isOptedOut && decide (1 < f.regionCount) then []
  else
    let d := f.diff (o.wrapper.wrap block)
    let p := o.positionFor k
    let facts := path ++ ": region=" ++ toString f.hasRegion ++ " changed=" ++ toString d.isChanged ++
      " added=" ++ toString d.added.length ++ " removed=" ++ toString d.removed.length ++
      " " ++ k.positionKey ++ "=" ++ p.name
    ⟨.debug, facts⟩ :: match f.place o block p with
      | .skipped => [⟨.debug, path ++ ": skip marker present"⟩]
      | .write a _ => [⟨.debug, path ++ ": " ++ a.name⟩]
      | _ => []

/-! ## Stripping -/

/-- The text without its schema comment, or nothing where it has none or has opted out.  The path
    only serves the messages. -/
def strip (o : Options) (path : String) (text : Text) : Except Fault (Option Text) :=
  let count := o.shape.count text
  if optedOut text then .ok none
  else if 1 < count then .error (.severalRegions path count)
  else .ok <| (o.shape.locate text).map fun r =>
    unlines (r.before ++ r.after) ++ (Lines.ofText text).tail

/-- The lines of the log about a stripped text. -/
def stripLog (path : String) (text : Text) : List LogEntry :=
  if optedOut text then [⟨.debug, path ++ ": skip marker present"⟩] else []

end SchemaComment
