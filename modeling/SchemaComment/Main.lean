/-
  THE PROGRAM ON THE DISK.

  The operations of a storage on the files of the system, and the entry point.
-/
import SchemaComment.CommandLine.Run

namespace SchemaComment.Disk

/-- The answer of the system to a failed operation. -/
def faultOf : IO.Error → FileFault
  | .noFileOrDirectory _ _ _ => .missing
  | .inappropriateType _ code _ => if code = 21 then .isADirectory else .notADirectory
  | .permissionDenied _ _ _ => .system "Permission denied (os error 13)"
  | e => .system (toString e)

/-- Runs an operation on a file. -/
def attempt {α : Type} (act : IO α) : IO (Except FileFault α) := do
  match ← act.toBaseIO with
  | .ok a => return .ok a
  | .error e => return .error (faultOf e)

/-- The operations on the files of the system. -/
def storage : Storage IO where
  read path := do
    match ← attempt (IO.FS.readBinFile path) with
    | .error e => return .error e
    | .ok bytes => match String.fromUTF8? bytes with
      | some s => return .ok s.toList
      | none => return .error .notText
  write path t := attempt (IO.FS.writeFile path (String.ofList t))

/-- The variables that the program looks at. -/
def environment : IO (List (String × String)) := do
  let names := (CommandLine.Switch.general ++ CommandLine.Switch.forAnnotate).filterMap (·.envName?)
  names.filterMapM fun n => do return (← IO.getEnv n).map ((n, ·))

end SchemaComment.Disk

open SchemaComment in
/-- Runs the program on the disk. -/
def main (args : List String) : IO UInt32 := do
  let env ← Disk.environment
  let outcome ← CommandLine.run Disk.storage (env.lookup ·) args
  IO.print outcome.stdout
  IO.eprint outcome.stderr
  return UInt32.ofNat outcome.exitCode
