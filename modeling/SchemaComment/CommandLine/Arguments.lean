/-
  THE ARGUMENTS OF THE PROGRAM.

  A call names a subcommand, switches before and after it, and files.  A switch that takes a value
  may have it attached (`--kind=test`, `-ktest`, `-k=test`) or as the next argument; switches of one
  letter may be written together; `--` ends the switches.

  1. **Program** — `readFront` goes through the arguments up to the subcommand, and `readSwitches`
     gathers the switches and the plain words behind it.  `Invocation.read` looks into the
     environment for switches that were not given, and puts the call together.
  2. **The crux** — each argument is checked as it is met: a switch must be known here, must not be
     given twice, and its value must be one that it accepts; a word must not be empty.  So a call
     that asks for the version or for help gets it, unless something before it was wrong.  Only a
     value that stands right in front of the subcommand is checked after all that is behind it.
-/
import SchemaComment.Options

namespace SchemaComment.CommandLine

/-! ## The switches -/

/-- The switches of the program. -/
inductive Switch where
  | config
  | verbose
  | version
  | help
  | block
  | kind
  | position
  | force
  | frozen
  | opening
  | closing
deriving DecidableEq, Repr

namespace Switch

/-- The long spelling, without its dashes. -/
def long : Switch → String
  | .config => "config"
  | .verbose => "verbose"
  | .version => "version"
  | .help => "help"
  | .block => "block"
  | .kind => "kind"
  | .position => "position"
  | .force => "force"
  | .frozen => "frozen"
  | .opening => "wrapper-open"
  | .closing => "wrapper-close"

/-- The letter, where there is one. -/
def letter? : Switch → Option Char
  | .config => some 'c'
  | .verbose => some 'v'
  | .version => some 'V'
  | .help => some 'h'
  | .block => some 'b'
  | .kind => some 'k'
  | .position => some 'p'
  | .force => some 'f'
  | _ => none

/-- Whether the switch takes a value. -/
def takesValue : Switch → Bool
  | .config | .block | .kind | .position | .opening | .closing => true
  | _ => false

/-- The variable of the environment that stands in for a switch that is not given. -/
def envName? : Switch → Option String
  | .config => some "ANNOTATE_CONFIG"
  | .position => some "ANNOTATE_POSITION"
  | .force => some "ANNOTATE_FORCE"
  | .frozen => some "ANNOTATE_FROZEN"
  | .opening => some "ANNOTATE_WRAPPER_OPEN"
  | .closing => some "ANNOTATE_WRAPPER_CLOSE"
  | _ => none

/-- The value of a switch that is given and takes none. -/
def set : String := "true"

/-- Whether a value is one that the switch accepts. -/
def accepts (s : Switch) (value : String) : Bool :=
  match s with
  | .config | .block => !value.isEmpty
  | .kind => (FileKind.ofName? value).isSome
  | .position => (Position.parse value.toList).toOption.isSome
  | .opening | .closing => true
  | _ => value == set || value == "false"

/-- The switches before the subcommand. -/
def general : List Switch := [.config, .verbose, .version, .help]

/-- The switches of the subcommand that annotates. -/
def forAnnotate : List Switch :=
  [.block, .kind, .position, .force, .frozen, .opening, .closing, .help]

/-- The switches of the subcommand that strips. -/
def forStrip : List Switch := [.opening, .help]

end Switch

/-! ## Going through the arguments -/

/-- Why a call is not carried out. -/
inductive Halt where
  /-- The call is wrong. -/
  | usage
  /-- The call asks for the version. -/
  | version
  /-- The call asks for help. -/
  | help
deriving DecidableEq, Repr

/-- The switches given so far, each with its value. -/
abbrev Given := List (Switch × String)

/-- One more switch with its value. -/
def give (g : Given) (s : Switch) (value : String) : Except Halt Given :=
  match s with
  | .version => .error .version
  | .help => .error .help
  | _ => if (g.lookup s).isSome || !s.accepts value then .error .usage else .ok ((s, value) :: g)

/-- Reads a long switch, from behind its dashes.  It may be left waiting for its value. -/
def readLong (known : List Switch) (g : Given) (body : List Char) :
    Except Halt (Given × Option Switch) :=
  let name := String.ofList (body.takeWhile (· != '='))
  match known.find? (·.long == name), body.dropWhile (· != '=') with
  | none, _ => .error .usage
  | some s, [] => if s.takesValue then .ok (g, some s) else (·, none) <$> give g s Switch.set
  | some s, _ :: value =>
    if s.takesValue then (·, none) <$> give g s (String.ofList value) else .error .usage

/-- Reads switches of one letter, from behind the dash.  The last may be left waiting for its
    value. -/
def readLetters (known : List Switch) : Given → List Char → Except Halt (Given × Option Switch)
  | g, [] => .ok (g, none)
  | g, c :: r =>
    match known.find? (·.letter? == some c) with
    | none => .error .usage
    | some s =>
      if s.takesValue then
        match r with
        | [] => .ok (g, some s)
        | '=' :: value => (·, none) <$> give g s (String.ofList value)
        | value => (·, none) <$> give g s (String.ofList value)
      else
        match give g s Switch.set with
        | .ok g => readLetters known g r
        | .error h => .error h

/-- Reads an argument that begins with a dash. -/
def readDashed (known : List Switch) (g : Given) (arg : String) :
    Except Halt (Given × Option Switch) :=
  match arg.toList with
  | '-' :: '-' :: body => readLong known g body
  | _ :: body => readLetters known g body
  | [] => .error .usage

/-- Whether an argument is a plain word: it does not begin with a dash, or is a dash alone. -/
def isWord (arg : String) : Bool := arg == "-" || arg.toList.head? != some '-'

/-- What is found up to the subcommand. -/
structure Front where
  /-- The switches. -/
  given : Given
  /-- A switch whose value stands right in front of the subcommand and is not checked yet. -/
  unchecked : Option (Switch × String)
  /-- The arguments from the subcommand on. -/
  rest : List String

/-- Goes through the arguments up to the first plain word. -/
def readFront (known : List Switch) : Given → List String → Except Halt Front
  | g, [] => .ok ⟨g, none, []⟩
  | g, arg :: rest =>
    if isWord arg then .ok ⟨g, none, arg :: rest⟩
    else if arg == "--" then .error .usage
    else match readDashed known g arg with
      | .error h => .error h
      | .ok (g, none) => readFront known g rest
      | .ok (g, some s) =>
        match rest with
        | [] => .error .usage
        | value :: rest =>
          if !isWord value then .error .usage
          else if rest.head?.any isWord then .ok ⟨g, some (s, value), rest⟩
          else match give g s value with
            | .ok g => readFront known g rest
            | .error h => .error h

/-- Goes through the arguments behind the subcommand: the switches and the plain words. -/
def readSwitches (known : List Switch) : Given → List String → Except Halt (Given × List String)
  | g, [] => .ok (g, [])
  | g, arg :: rest =>
    if arg.isEmpty then .error .usage
    else if isWord arg then
      match readSwitches known g rest with
      | .ok (g, words) => .ok (g, arg :: words)
      | .error h => .error h
    else if arg == "--" then .ok (g, rest)
    else match readDashed known g arg with
      | .error h => .error h
      | .ok (g, none) => readSwitches known g rest
      | .ok (g, some s) =>
        match rest with
        | [] => .error .usage
        | value :: rest =>
          if isWord value then
            match give g s value with
            | .ok g => readSwitches known g rest
            | .error h => .error h
          else .error .usage

/-- The switches with those that the environment stands in for. -/
def complete (env : String → Option String) (known : List Switch) (g : Given) :
    Except Halt Given :=
  known.foldlM (fun g s =>
    match g.lookup s, s.envName?.bind env with
    | none, some value => give g s value
    | _, _ => .ok g) g

/-! ## The call -/

/-- A call that annotates. -/
structure AnnotateCall where
  /-- The file of the block. -/
  block : String
  kind : FileKind
  position : Option Position
  force : Bool
  frozen : Bool
  opening : Option Text
  closing : Option Text
  files : List String
deriving DecidableEq, Repr

/-- A call that strips. -/
structure StripCall where
  opening : Option Text
  files : List String
deriving DecidableEq, Repr

/-- What a call asks for. -/
inductive Command where
  | annotate (call : AnnotateCall)
  | strip (call : StripCall)
deriving DecidableEq, Repr

/-- A call of the program. -/
structure Invocation where
  config : Option String
  verbose : Bool
  command : Command
deriving DecidableEq, Repr

/-- Whether a switch that takes no value is given, by itself or by the environment. -/
def isSet (g : Given) (s : Switch) : Bool := g.lookup s == some Switch.set

/-- The text that a switch is given with. -/
def givenText (g : Given) (s : Switch) : Option Text := (g.lookup s).map String.toList

/-- The files of a call: at least one, and none without a name. -/
def readFiles (words : List String) : Except Halt (List String) :=
  if words.isEmpty || words.any String.isEmpty then .error .usage else .ok words

/-- The call behind the subcommand that annotates. -/
def readAnnotate (env : String → Option String) (args : List String) : Except Halt Command := do
  let (g, words) ← readSwitches Switch.forAnnotate [] args
  let g ← complete env Switch.forAnnotate g
  let files ← readFiles words
  match g.lookup .block with
  | none => .error .usage
  | some block =>
    return .annotate
      { block := block
        kind := ((g.lookup .kind).bind FileKind.ofName?).getD .model
        position := (givenText g .position).bind fun t => (Position.parse t).toOption
        force := isSet g .force
        frozen := isSet g .frozen
        opening := givenText g .opening
        closing := givenText g .closing
        files := files }

/-- The call behind the subcommand that strips. -/
def readStrip (env : String → Option String) (args : List String) : Except Halt Command := do
  let (g, words) ← readSwitches Switch.forStrip [] args
  let g ← complete env Switch.forStrip g
  return .strip { opening := givenText g .opening, files := ← readFiles words }

/-- The names of the subcommands. -/
def subcommands : List String := ["annotate", "remove", "help"]

/-- What the subcommand for help leads to.  It takes the name of one subcommand at most. -/
def readHelp : List String → Halt
  | [] => .help
  | [name] => if subcommands.contains name then .help else .usage
  | _ => .usage

/-- The call of some arguments under an environment. -/
def Invocation.read (env : String → Option String) (args : List String) :
    Except Halt Invocation := do
  let front ← readFront Switch.general [] args
  let command ← match front.rest with
    | "annotate" :: args => readAnnotate env args
    | "remove" :: args => readStrip env args
    | "help" :: args => .error (readHelp args)
    | _ => .error .usage
  let g ← match front.unchecked with
    | some (s, value) => give front.given s value
    | none => .ok front.given
  let g ← complete env Switch.general g
  return { config := g.lookup .config, verbose := isSet g .verbose, command := command }

end SchemaComment.CommandLine
