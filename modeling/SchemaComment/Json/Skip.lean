/-
  PASSING OVER A JSON VALUE.

  A value that nobody asked for is passed over token by token.  It has to be JSON all the same.

  1. **Program** — `skip` keeps what has to come next (`Goal`) and the brackets that are open.  Each
     token either brings it to the next goal or shows that the text is no JSON.
  2. **The crux** — every step takes exactly one token, whatever the depth, so the walk is a plain
     recursion on the stream and what is left is shorter (`length_of_skip`).
-/
import SchemaComment.Json.Token

namespace SchemaComment.Json

/-- A bracket that is open. -/
inductive Bracket where
  | object
  | array
deriving DecidableEq, Repr

/-- What the stream has to go on with inside a value. -/
inductive Goal where
  /-- A value. -/
  | value
  /-- A value, or the end of the array that has just begun. -/
  | element
  /-- The name of a member. -/
  | name
  /-- The name of a member, or the end of the object that has just begun. -/
  | member
  /-- The colon behind a name. -/
  | colon
  /-- A comma, or the end of the innermost bracket. -/
  | next
deriving DecidableEq, Repr

/-- What one token does: it breaks the grammar, or it leads on to a goal under open brackets.  No
    open bracket at `next` means that the value is complete. -/
def step (goal : Goal) (brackets : List Bracket) (k : Token) : Option (Goal × List Bracket) :=
  match goal, k, brackets with
  | .value, .openObject, bs | .element, .openObject, bs => some (.member, .object :: bs)
  | .value, .openArray, bs | .element, .openArray, bs => some (.element, .array :: bs)
  | .value, .null, bs | .element, .null, bs => some (.next, bs)
  | .value, .bool _, bs | .element, .bool _, bs => some (.next, bs)
  | .value, .number _, bs | .element, .number _, bs => some (.next, bs)
  | .value, .string _, bs | .element, .string _, bs => some (.next, bs)
  | .element, .closeArray, .array :: bs => some (.next, bs)
  | .name, .string _, bs | .member, .string _, bs => some (.colon, bs)
  | .member, .closeObject, .object :: bs => some (.next, bs)
  | .colon, .colon, bs => some (.value, bs)
  | .next, .comma, .object :: bs => some (.name, .object :: bs)
  | .next, .comma, .array :: bs => some (.value, .array :: bs)
  | .next, .closeObject, .object :: bs => some (.next, bs)
  | .next, .closeArray, .array :: bs => some (.next, bs)
  | _, _, _ => none

/-- What is left of the stream once the goal is met and all the brackets are closed. -/
def skip (goal : Goal) (brackets : List Bracket) : List Token → Option (List Token)
  | [] => none
  | k :: ks =>
    match step goal brackets k with
    | none => none
    | some (.next, []) => some ks
    | some (goal, brackets) => skip goal brackets ks

/-- The stream behind a value at its front. -/
def skipValue (ks : List Token) : Option (List Token) := skip .value [] ks

/-- Passing over a value leaves fewer tokens. -/
theorem length_of_skip {goal : Goal} {brackets : List Bracket} {ks rest : List Token}
    (h : skip goal brackets ks = some rest) : rest.length < ks.length := by
  induction ks generalizing goal brackets with
  | nil => simp [skip] at h
  | cons k ks ih =>
    unfold skip at h
    split at h
    · simp at h
    · simp only [Option.some.injEq] at h
      simp [h]
    · exact Nat.lt_succ_of_lt (ih h)

end SchemaComment.Json
