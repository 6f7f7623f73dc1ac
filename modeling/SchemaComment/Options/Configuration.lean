/-
  OPTIONS FROM A CONFIGURATION.

  A configuration is a JSON text.  Either it is an object, whose members set the options of their
  names in any order and which may hold other members, or it is an array that gives the options in
  the order of `Field.all`.  An option that is not given keeps its default.

  1. **Program** — `Options.ofJson` walks the tokens of the text from left to right.  `Field.read`
     sets one option from one token, as every option is a string, a truth value or null.
  2. **The crux** — the first fault from the left is the answer.  A member given twice is a fault at
     its second name; a value of the wrong type is one where it begins.  To tell such a value it has
     to be read, so it is first of all a fault of the text if that cannot be done.
-/
import SchemaComment.Json.Skip
import SchemaComment.Json.Shortest
import SchemaComment.Text.Quoted
import SchemaComment.Options

namespace SchemaComment

open Json

/-! ## The fields -/

/-- What a configuration can set. -/
inductive Field where
  /-- The position where a kind has none of its own. -/
  | position
  /-- The position for a kind. -/
  | positionIn (k : FileKind)
  /-- Whether comments are written anew. -/
  | force
  /-- Whether writing is forbidden. -/
  | frozen
  /-- The opening marker. -/
  | opening
  /-- The closing marker. -/
  | closing
deriving DecidableEq, Repr

namespace Field

/-- The fields in the order of an array. -/
def all : List Field :=
  .position :: FileKind.all.map .positionIn ++ [.force, .frozen, .opening, .closing]

/-- The name of a field. -/
def key : Field → String
  | .position => "position"
  | .positionIn k => k.positionKey
  | .force => "force"
  | .frozen => "frozen"
  | .opening => "wrapper_open"
  | .closing => "wrapper_close"

/-- The field of a name. -/
def ofKey? (name : Text) : Option Field := all.find? fun f => f.key.toList == name

/-- A field is found under its name. -/
theorem ofKey?_key (f : Field) : ofKey? f.key.toList = some f := by
  cases f with
  | positionIn k => cases k <;> decide
  | _ => decide

end Field

/-! ## Faults -/

/-- A value that stands where it should not. -/
inductive FoundValue where
  | null
  | bool (b : Bool)
  | whole (n : Int)
  | double (negative : Bool) (x : Double)
  | string (t : Text)
  | array
  | object
deriving DecidableEq, Repr

/-- What should stand there. -/
inductive ExpectedValue where
  | string
  | bool
  | options
deriving DecidableEq, Repr

/-- What is wrong with a configuration. -/
inductive ConfigFault where
  /-- The text is not JSON. -/
  | notJson
  /-- A field is given twice. -/
  | duplicate (f : Field)
  /-- A position has no known name. -/
  | position (e : InvalidPosition)
  /-- A value is of the wrong type. -/
  | wrongType (found : FoundValue) (expected : ExpectedValue)
deriving DecidableEq, Repr

/-- The value as a message tells it. -/
def FoundValue.describe : FoundValue → String
  | .null => "null"
  | .bool b => "boolean \x60" ++ toString b ++ "\x60"
  | .whole n => "integer \x60" ++ toString n ++ "\x60"
  | .double negative x =>
    "floating point \x60" ++ (if negative then "-" else "") ++ String.ofList x.text ++ "\x60"
  | .string t => "string " ++ String.ofList (Text.quote t)
  | .array => "sequence"
  | .object => "map"

/-- The expectation as a message tells it. -/
def ExpectedValue.describe : ExpectedValue → String
  | .string => "a string"
  | .bool => "a boolean"
  | .options => "struct AnnotateOptions"

/-- The message of a fault. -/
def ConfigFault.message : ConfigFault → String
  | .notJson => "not a JSON text"
  | .duplicate f => "duplicate field \x60" ++ f.key ++ "\x60"
  | .position e => e.message
  | .wrongType found expected =>
    "invalid type: " ++ found.describe ++ ", expected " ++ expected.describe

/-- The fault of a token that stands where a value of another type is expected. -/
def ConfigFault.unexpected (expected : ExpectedValue) : Token → ConfigFault
  | .null => .wrongType .null expected
  | .bool b => .wrongType (.bool b) expected
  | .number (.whole n) => .wrongType (.whole n) expected
  | .number (.double negative x) => .wrongType (.double negative x) expected
  | .number .tooLarge => .notJson
  | .string ps => match textOfPieces? ps with
    | some t => .wrongType (.string t) expected
    | none => .notJson
  | .openArray => .wrongType .array expected
  | .openObject => .wrongType .object expected
  | _ => .notJson

/-! ## Reading values -/

/-- The text of a string. -/
def readText : Token → Except ConfigFault Text
  | .string ps => match textOfPieces? ps with
    | some t => .ok t
    | none => .error .notJson
  | k => .error (.unexpected .string k)

/-- A truth value. -/
def readBool : Token → Except ConfigFault Bool
  | .bool b => .ok b
  | k => .error (.unexpected .bool k)

/-- The position that a string names. -/
def readPosition (k : Token) : Except ConfigFault Position := do
  let t ← readText k
  match Position.parse t with
  | .ok p => .ok p
  | .error e => .error (.position e)

/-- A value that may be null. -/
def readOptional {α : Type} (read : Token → Except ConfigFault α) :
    Token → Except ConfigFault (Option α)
  | .null => .ok none
  | k => some <$> read k

/-- The options with one field set from a token. -/
def Field.read (f : Field) (o : Options) (k : Token) : Except ConfigFault Options :=
  match f with
  | .position => do return { o with position := ← readPosition k }
  | .positionIn kind => do return o.setPositionIn kind (← readOptional readPosition k)
  | .force => do return { o with force := ← readBool k }
  | .frozen => do return { o with frozen := ← readBool k }
  | .opening => do
    return { o with wrapper := { o.wrapper with opening := ← readOptional readText k } }
  | .closing => do
    return { o with wrapper := { o.wrapper with closing := ← readOptional readText k } }

/-! ## Reading objects and arrays -/

/-- What stands behind the name of a known field: the options, and the tokens behind the value. -/
def readKnown (f : Field) (o : Options) : List Token → Except ConfigFault (Options × List Token)
  | .colon :: k :: ks => (f.read o k).map (·, ks)
  | _ => .error .notJson

/-- What stands behind any other name: the tokens behind the value. -/
def readUnknown : List Token → Except ConfigFault (List Token)
  | .colon :: ks => match skipValue ks with
    | some rest => .ok rest
    | none => .error .notJson
  | _ => .error .notJson

/-- One member of an object: the fields given so far, the options, and the tokens behind it. -/
def readMember (seen : List Field) (o : Options) :
    List Token → Except ConfigFault (List Field × Options × List Token)
  | .string ps :: ks =>
    match textOfPieces? ps with
    | none => .error .notJson
    | some name =>
      match Field.ofKey? name with
      | none => (readUnknown ks).map (seen, o, ·)
      | some f =>
        if f ∈ seen then .error (.duplicate f)
        else (readKnown f o ks).map fun (o, rest) => (f :: seen, o, rest)
  | _ => .error .notJson

/-- An answer that was mapped comes from an answer. -/
theorem exists_of_map_eq_ok {ε α β : Type} {g : α → β} {x : Except ε α} {b : β}
    (h : x.map g = .ok b) : ∃ a, x = .ok a ∧ g a = b := by
  cases x with
  | error e => cases h
  | ok a => exact ⟨a, rfl, by cases h; rfl⟩

theorem length_of_readKnown {f : Field} {o o' : Options} {ks rest : List Token}
    (h : readKnown f o ks = .ok (o', rest)) : rest.length < ks.length := by
  unfold readKnown at h
  split at h
  · obtain ⟨_, -, h⟩ := exists_of_map_eq_ok h
    cases h
    simp only [List.length_cons]
    omega
  · cases h

theorem length_of_readUnknown {ks rest : List Token} (h : readUnknown ks = .ok rest) :
    rest.length < ks.length := by
  unfold readUnknown at h
  split at h
  · split at h
    · rename_i hs
      cases h
      exact Nat.lt_succ_of_lt (length_of_skip hs)
    · cases h
  · cases h

/-- Reading a member leaves fewer tokens. -/
theorem length_of_readMember {seen seen' : List Field} {o o' : Options} {ks rest : List Token}
    (h : readMember seen o ks = .ok (seen', o', rest)) : rest.length < ks.length := by
  unfold readMember at h
  split at h
  · split at h
    · cases h
    · split at h
      · obtain ⟨r, hr, h⟩ := exists_of_map_eq_ok h
        cases h
        exact Nat.lt_succ_of_lt (length_of_readUnknown hr)
      · split at h
        · cases h
        · obtain ⟨⟨_, r⟩, hr, h⟩ := exists_of_map_eq_ok h
          cases h
          exact Nat.lt_succ_of_lt (length_of_readKnown hr)
  · cases h

/-- The members of an object up to its end, and the tokens behind it. -/
def readMembers (seen : List Field) (o : Options) (ks : List Token) :
    Except ConfigFault (Options × List Token) :=
  match _h : readMember seen o ks with
  | .ok (seen, o, .comma :: ks) => readMembers seen o ks
  | .ok (_, o, .closeObject :: ks) => .ok (o, ks)
  | .ok _ => .error .notJson
  | .error e => .error e
termination_by ks.length
decreasing_by
  have := length_of_readMember _h
  simp only [List.length_cons] at this
  omega

/-- The elements of an array for the given fields up to its end, and the tokens behind it. -/
def readElements : List Field → Options → List Token → Except ConfigFault (Options × List Token)
  | f :: fs, o, k :: ks =>
    match f.read o k with
    | .error e => .error e
    | .ok o =>
      match ks with
      | .comma :: ks => readElements fs o ks
      | .closeArray :: ks => .ok (o, ks)
      | _ => .error .notJson
  | _, _, _ => .error .notJson

/-- The options at the front of the tokens, and the tokens behind them. -/
def readOptions : List Token → Except ConfigFault (Options × List Token)
  | .openObject :: .closeObject :: ks => .ok ({}, ks)
  | .openObject :: ks => readMembers [] {} ks
  | .openArray :: .closeArray :: ks => .ok ({}, ks)
  | .openArray :: ks => readElements Field.all {} ks
  | k :: _ => .error (.unexpected .options k)
  | [] => .error .notJson

/-- The options of a configuration. -/
def Options.ofJson (t : Text) : Except ConfigFault Options :=
  match readOptions (Token.stream t) with
  | .ok (o, []) => .ok o
  | .ok _ => .error .notJson
  | .error e => .error e

end SchemaComment
