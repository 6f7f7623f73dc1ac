/-
  OPTIONS OF A RUN.

  The options say where a schema comment goes in each kind of file, whether it is written even when
  its columns did not change, whether writing is forbidden, and which marker lines stand around it.
-/
import SchemaComment.Position
import SchemaComment.FileKind
import SchemaComment.Wrapper
import SchemaComment.Region

namespace SchemaComment

/-- The options of a run. -/
structure Options where
  /-- The position in files of a kind that has none of its own. -/
  position : Position := .before
  /-- The position for a kind, where it has one of its own. -/
  positionIn : FileKind → Option Position := fun _ => none
  /-- Write the comment anew even when its columns did not change. -/
  force : Bool := false
  /-- Fail where a file would have to be written. -/
  frozen : Bool := false
  /-- The marker lines around a comment. -/
  wrapper : Wrapper := {}

namespace Options

instance : Inhabited Options := ⟨{}⟩

/-- The position in files of kind `k`. -/
def positionFor (o : Options) (k : FileKind) : Position := (o.positionIn k).getD o.position

/-- The options with a position of its own, or none, for kind `k`. -/
def setPositionIn (o : Options) (k : FileKind) (p : Option Position) : Options :=
  { o with positionIn := fun j => if j = k then p else o.positionIn j }

@[simp] theorem positionFor_setPositionIn_self (o : Options) (k : FileKind) (p : Position) :
    (o.setPositionIn k (some p)).positionFor k = p := by
  simp [positionFor, setPositionIn]

/-- The options with both markers. -/
def setWrapper (o : Options) (opening closing : Text) : Options :=
  { o with wrapper := ⟨some opening, some closing⟩ }

/-- What a schema comment looks like under these options. -/
def shape (o : Options) : RegionShape := { opening := o.wrapper.opening }

end Options
end SchemaComment
