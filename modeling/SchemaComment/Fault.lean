/-
  WHAT CAN GO WRONG WITH A FILE.

  A file may be out of reach (`FileFault`), hold several schema comments, or need writing where that
  is forbidden.  Only the last one ends a batch: it says that the whole run may not write.
-/
import SchemaComment.Text.Basic

namespace SchemaComment

/-- Why a file cannot be read or written. -/
inductive FileFault where
  /-- There is no file under that path. -/
  | missing
  /-- The path goes on below a file. -/
  | notADirectory
  /-- The path leads to a directory. -/
  | isADirectory
  /-- The file holds no text. -/
  | notText
  /-- A store of named texts has none of that name. -/
  | unknownName
  /-- The file may not be written. -/
  | locked
  /-- Any other answer of the system. -/
  | system (detail : String)
deriving DecidableEq, Repr

/-- The message for a file that cannot be read or written. -/
def FileFault.message : FileFault → String
  | .missing => "No such file or directory (os error 2)"
  | .notADirectory => "Not a directory (os error 20)"
  | .isADirectory => "Is a directory (os error 21)"
  | .notText => "stream did not contain valid UTF-8"
  | .unknownName => "not found"
  | .locked => "permission denied"
  | .system detail => detail

/-- Why a file was not processed. -/
inductive Fault where
  /-- The file needs writing, which is forbidden. -/
  | frozen (path : String)
  /-- The file cannot be read or written. -/
  | file (path : String) (cause : FileFault)
  /-- The file holds several schema comments. -/
  | severalRegions (path : String) (count : Nat)
deriving DecidableEq, Repr

namespace Fault

/-- The message of a fault. -/
def message : Fault → String
  | .frozen path =>
    "file " ++ path ++ " needs an annotation update, but frozen mode is enabled; " ++
      "re-run without --frozen to apply it"
  | .file path cause => path ++ ": " ++ cause.message
  | .severalRegions path count =>
    path ++ " contains " ++ toString count ++ " schema annotation blocks; expected at most one"

/-- Whether a fault ends the batch in which it arises. -/
def isFatal : Fault → Bool
  | .frozen _ => true
  | _ => false

end Fault
end SchemaComment
