/-
  A RUN OF THE PROGRAM.

  1. **Program** — a run reads the configuration, lets the call have its way with the options, reads
     the block, does the batch, and prints the log and the summary.  The first of these that fails
     ends it.
  2. **The crux** — a run is a function of its arguments and its environment over any storage, so a
     run on a tree of directories in memory and one on the disk are the same program.

  What is printed for help, and for arguments that cannot be understood, is a text of this program's
  own that gives the usage in short (`usageText`).  It does not describe each argument, nor name the
  one that was wrong, as the texts of an argument parser do.
-/
import SchemaComment.Batch
import SchemaComment.Options.Configuration
import SchemaComment.CommandLine.Arguments

namespace SchemaComment.CommandLine

/-! ## Options of a call -/

/-- The options of a call that annotates, on top of those of the configuration. -/
def AnnotateCall.options (c : AnnotateCall) (o : Options) : Options :=
  let o := match c.position with
    | some p => o.setPositionIn c.kind (some p)
    | none => o
  { o with
    force := o.force || c.force
    frozen := o.frozen || c.frozen
    wrapper := ⟨c.opening <|> o.wrapper.opening, c.closing <|> o.wrapper.closing⟩ }

/-- The options of a call that strips, on top of those of the configuration. -/
def StripCall.options (c : StripCall) (o : Options) : Options :=
  { o with wrapper := { o.wrapper with opening := c.opening <|> o.wrapper.opening } }

/-! ## Failing -/

/-- Why a run fails. -/
inductive RunFault where
  /-- The text of the configuration is none. -/
  | config (path : String) (fault : ConfigFault)
  /-- The block cannot be read. -/
  | block (path : String) (cause : FileFault)
  /-- A file cannot be read, or the batch came to an end. -/
  | fault (fault : Fault)
deriving DecidableEq, Repr

namespace RunFault

/-- The message of a failed run.  What is wrong with a configuration is left to a JSON checker. -/
def message : RunFault → String
  | .config path _ => "failed to parse configuration file '" ++ path ++ "'"
  | .block path _ => "Failed to read annotation block " ++ path
  | .fault e => e.message

/-- The cause behind the message, where it is told apart. -/
def cause? : RunFault → Option FileFault
  | .block _ e => some e
  | .fault (.file _ e) => some e
  | _ => none

/-- The failure as it is printed. -/
def print (e : RunFault) : String :=
  match e, e.cause? with
  | .config _ _, _ => "Error: " ++ e.message
  | _, none => "Error: " ++ e.message ++ "\n"
  | _, some cause => "Error: " ++ e.message ++ "\n\nCaused by:\n    " ++ cause.message ++ "\n"

end RunFault

/-! ## Running -/

/-- What a run leaves behind besides the files. -/
structure Outcome where
  exitCode : Nat
  stdout : String := ""
  stderr : String := ""
deriving DecidableEq, Repr

/-- The name and the version of the program. -/
def versionLine : String := "oxide-annotate 0.1.0\n"

/-- How the program is called, in short.  It is printed as help, and in place of any message about
    the arguments. -/
def usageText : String :=
  "Usage: oxide-annotate [-c FILE] [-v] annotate -b FILE [-k KIND] [-p POSITION] [-f] [--frozen] " ++
    "[--wrapper-open TEXT] [--wrapper-close TEXT] FILES...\n" ++
    "       oxide-annotate [-c FILE] [-v] remove [--wrapper-open TEXT] FILES...\n" ++
    "       oxide-annotate --version\n"

/-- The outcome of a call that is not carried out. -/
def Halt.outcome : Halt → Outcome
  | .usage => { exitCode := 2, stderr := usageText }
  | .version => { exitCode := 0, stdout := versionLine }
  | .help => { exitCode := 0, stdout := usageText }

/-- The lines of the log about a finished batch. -/
def summaryLog (r : Report) : List LogEntry :=
  ⟨.info, r.summary⟩ ::
    if r.isOk then []
    else [⟨.info, toString r.failures.length ++ " file(s) could not be processed"⟩]

/-- The outcome of a run that came as far as its batch. -/
def batchOutcome (verbose : Bool) (run : BatchRun) : Outcome :=
  match run.result with
  | .ok r => { exitCode := 0, stdout := printLog verbose (run.log ++ summaryLog r) }
  | .error e =>
    { exitCode := 1, stdout := printLog verbose run.log, stderr := (RunFault.fault e).print }

/-- The outcome of a run that failed before its batch. -/
def RunFault.outcome (e : RunFault) : Outcome := { exitCode := 1, stderr := e.print }

section
variable {m : Type → Type} [Monad m]

/-- The options in a file of the storage. -/
def readConfig (st : Storage m) (path : String) : m (Except RunFault Options) := do
  match ← st.read path with
  | .error e => return .error (.fault (.file path e))
  | .ok t => match Options.ofJson t with
    | .ok o => return .ok o
    | .error e => return .error (.config path e)

/-- The options of a configuration, and the defaults where there is none. -/
def startingOptions (st : Storage m) : Option String → m (Except RunFault Options)
  | none => return .ok {}
  | some path => readConfig st path

/-- Carries out the command of a call. -/
def Command.run (st : Storage m) (o : Options) : Command → m (Except RunFault BatchRun)
  | .annotate c => do
    match ← st.read c.block with
    | .error e => return .error (.block c.block e)
    | .ok block => .ok <$> annotateAll st (c.options o) (c.files.map fun f => ⟨f, c.kind, block⟩)
  | .strip c => .ok <$> stripAll st (c.options o) c.files

/-- Carries out a call. -/
def Invocation.run (st : Storage m) (i : Invocation) : m Outcome := do
  match ← startingOptions st i.config with
  | .error e => return e.outcome
  | .ok o =>
    match ← i.command.run st o with
    | .error e => return e.outcome
    | .ok batch => return batchOutcome i.verbose batch

/-- **The program**: what comes of some arguments under an environment. -/
def run (st : Storage m) (env : String → Option String) (args : List String) : m Outcome :=
  match Invocation.read env args with
  | .error h => return h.outcome
  | .ok i => i.run st

end

end SchemaComment.CommandLine
