/-
  THE LOG OF A RUN.

  A run tells what it does line by line.  Each line has a level, set to five characters in front.
  The level is printed plain in every environment.  A formatter that colours levels sets escape
  sequences around it unless `NO_COLOR` is set; a log printed here has none of these.

  A terminal obeys some characters instead of showing them, and a file may have them in its name.
  A message is therefore printed with those spelled out (`showControl`): escape, bell, backspace,
  form feed and delete as `\x` and two digits, the controls from U+0080 to U+009F as `\u` with their
  code point in braces.
-/
import SchemaComment.Text.Basic

namespace SchemaComment

/-- How much a line of the log matters. -/
inductive LogLevel where
  /-- What a run works out on the way; shown on request only. -/
  | debug
  /-- What a run has done. -/
  | info
  /-- What a run could not do. -/
  | warning
deriving DecidableEq, Repr

/-- One line of the log. -/
structure LogEntry where
  /-- How much it matters. -/
  level : LogLevel
  /-- What it says. -/
  message : String
deriving DecidableEq, Repr

/-- The level, set to five characters. -/
def LogLevel.label : LogLevel → String
  | .debug => "DEBUG"
  | .info => " INFO"
  | .warning => " WARN"

/-! ## The printed form -/

/-- Whether a character of one byte steers a terminal. -/
def steers (c : Char) : Bool :=
  c == '\x1b' || c == '\x07' || c == '\x08' || c == '\x0c' || c == '\x7f'

/-- A character as the log shows it. -/
def showControl (c : Char) : Text :=
  if steers c then ['\\', 'x', Nat.digitChar (c.toNat / 16), Nat.digitChar (c.toNat % 16)]
  else if 0x80 ≤ c.toNat ∧ c.toNat ≤ 0x9F then
    ['\\', 'u', '\x7b'] ++ Nat.toDigits 16 c.toNat ++ ['\x7d']
  else [c]

/-- The message with the characters that steer a terminal spelled out. -/
def LogEntry.shown (e : LogEntry) : String :=
  String.ofList (e.message.toList.flatMap showControl)

/-- The line as it is printed, without colours. -/
def LogEntry.line (e : LogEntry) : String := e.level.label ++ " " ++ e.shown ++ "\n"

/-- The log as it is printed.  Only a verbose run shows the lines for debugging. -/
def printLog (verbose : Bool) (log : List LogEntry) : String :=
  let shown := log.filter fun e => verbose || e.level != .debug
  String.join (shown.map LogEntry.line)

end SchemaComment
