/-
  JSON AS TOKENS.

  A JSON text is a stream of brackets, separators, names, numbers and strings with white space
  between them.

  1. **Program** — `Token.stream` cuts a text into its tokens.  Where the text stops being JSON the
     stream ends in `malformed`; whoever reads tokens from left to right then meets the first fault
     of the text where it stands.
  2. **Specification** — the grammar of JSON: white space is space, tab, line feed and carriage
     return; numbers have no leading zero; control characters stand in no string.  A number may be
     too large to be read and is a number all the same.
  3. **The crux** — a `\u` escape is a 16-bit unit, and two of them may make one character.  A
     string therefore keeps its PIECES, and `textOfPieces?` puts them together.  A string that is
     passed over need not make sense as text; only one that is read does.
-/
import SchemaComment.Json.Decimal

namespace SchemaComment.Json

/-- A piece of a string. -/
inductive Piece where
  /-- A character, by itself or from a short escape. -/
  | char (c : Char)
  /-- A 16-bit unit. -/
  | unit (n : Nat)
deriving DecidableEq, Repr

/-- A number of a JSON text. -/
inductive Number where
  /-- A whole number within 64 bits. -/
  | whole (n : Int)
  /-- Any other number in double precision. -/
  | double (negative : Bool) (x : Double)
  /-- A number beyond double precision. -/
  | tooLarge
deriving DecidableEq, Repr

/-- A token of a JSON text. -/
inductive Token where
  | openObject
  | closeObject
  | openArray
  | closeArray
  | colon
  | comma
  | null
  | bool (b : Bool)
  | number (n : Number)
  | string (pieces : List Piece)
  /-- The place where the text stops being JSON. -/
  | malformed
deriving DecidableEq, Repr

/-! ## Strings -/

/-- The value of a hexadecimal digit. -/
def hexDigit? (c : Char) : Option Nat :=
  if '0' ≤ c ∧ c ≤ '9' then some (c.toNat - 48)
  else if 'a' ≤ c ∧ c ≤ 'f' then some (c.toNat - 87)
  else if 'A' ≤ c ∧ c ≤ 'F' then some (c.toNat - 55)
  else none

/-- The unit of four hexadecimal digits. -/
def unit? (a b c d : Char) : Option Nat := do
  return (((← hexDigit? a) * 16 + (← hexDigit? b)) * 16 + (← hexDigit? c)) * 16 + (← hexDigit? d)

/-- The character that a short escape stands for. -/
def shortEscape? : Char → Option Char
  | '"' => some '"'
  | '\\' => some '\\'
  | '/' => some '/'
  | 'b' => some '\x08'
  | 'f' => some '\x0c'
  | 'n' => some '\n'
  | 'r' => some '\r'
  | 't' => some '\t'
  | _ => none

/-- The pieces of a string, from behind its opening quote to the closing one, and the rest. -/
def stringPieces? : Text → Option (List Piece × Text)
  | [] => none
  | '"' :: t => some ([], t)
  | '\\' :: 'u' :: a :: b :: c :: d :: t => do
    let n ← unit? a b c d
    let (ps, rest) ← stringPieces? t
    return (.unit n :: ps, rest)
  | '\\' :: e :: t => do
    let c ← shortEscape? e
    let (ps, rest) ← stringPieces? t
    return (.char c :: ps, rest)
  | c :: t =>
    if c.toNat < 32 ∨ c = '\\' then none
    else do
      let (ps, rest) ← stringPieces? t
      return (.char c :: ps, rest)

/-- Reading a string leaves fewer characters. -/
theorem length_of_stringPieces? {t rest : Text} {ps : List Piece}
    (h : stringPieces? t = some (ps, rest)) : rest.length < t.length := by
  fun_induction stringPieces? t generalizing ps rest with
  | case1 => simp at h
  | case2 t => simp at h; simp [h]
  | case3 a b c d t ih =>
    simp only [Option.bind_eq_bind, Option.bind_eq_some_iff, Option.pure_def, Option.some.injEq,
      Prod.exists, Prod.mk.injEq] at h
    obtain ⟨_, _, _, _, hr, -, rfl⟩ := h
    have := ih hr
    simp only [List.length_cons]
    omega
  | case4 e t _ ih =>
    simp only [Option.bind_eq_bind, Option.bind_eq_some_iff, Option.pure_def, Option.some.injEq,
      Prod.exists, Prod.mk.injEq] at h
    obtain ⟨_, _, _, _, hr, -, rfl⟩ := h
    have := ih hr
    simp only [List.length_cons]
    omega
  | case5 => simp at h
  | case6 c t _ _ _ _ ih =>
    simp only [Option.bind_eq_bind, Option.bind_eq_some_iff, Option.pure_def, Option.some.injEq,
      Prod.exists, Prod.mk.injEq] at h
    obtain ⟨_, _, hr, -, rfl⟩ := h
    have := ih hr
    simp only [List.length_cons]
    omega

/-- Whether a unit is the first half of a character beyond the first 65536. -/
def isHighHalf (n : Nat) : Bool := 0xD800 ≤ n && n < 0xDC00

/-- Whether a unit is the second half of such a character. -/
def isLowHalf (n : Nat) : Bool := 0xDC00 ≤ n && n < 0xE000

/-- The text of the pieces.  A half without its other half makes none. -/
def textOfPieces? : List Piece → Option Text
  | [] => some []
  | .char c :: ps => (textOfPieces? ps).map (c :: ·)
  | .unit h :: .unit l :: ps =>
    if isHighHalf h then
      if isLowHalf l then
        (textOfPieces? ps).map (Char.ofNat (0x10000 + (h - 0xD800) * 0x400 + (l - 0xDC00)) :: ·)
      else none
    else if isLowHalf h then none
    else (textOfPieces? (.unit l :: ps)).map (Char.ofNat h :: ·)
  | .unit n :: ps =>
    if isHighHalf n || isLowHalf n then none else (textOfPieces? ps).map (Char.ofNat n :: ·)

/-! ## Numbers -/

/-- The digits before the point: no leading zero. -/
def integerDigits? (t : Text) : Option (Text × Text) :=
  match t with
  | '0' :: r => if r.head?.any Char.isDigit then none else some (['0'], r)
  | _ =>
    let ds := t.takeWhile Char.isDigit
    if ds.isEmpty then none else some (ds, t.dropWhile Char.isDigit)

/-- A point and digits, if there is a point. -/
def fraction? : Text → Option (Text × Text)
  | '.' :: t =>
    let ds := t.takeWhile Char.isDigit
    if ds.isEmpty then none else some ('.' :: ds, t.dropWhile Char.isDigit)
  | t => some ([], t)

/-- The sign of an exponent and the rest. -/
def exponentSign : Text → Text × Text
  | '+' :: t => (['+'], t)
  | '-' :: t => (['-'], t)
  | t => ([], t)

/-- The mark of an exponent, a sign and digits, if there is a mark. -/
def exponent? : Text → Option (Text × Text)
  | c :: t =>
    if c = 'e' ∨ c = 'E' then
      let (sign, t) := exponentSign t
      let ds := t.takeWhile Char.isDigit
      if ds.isEmpty then none else some (c :: sign ++ ds, t.dropWhile Char.isDigit)
    else some ([], c :: t)
  | [] => some ([], [])

/-- The value of an exponent as it is spelled, with its mark. -/
def exponentValue (exponent : Text) : Int :=
  match exponent.drop 1 with
  | '+' :: ds => natOfDigits ds
  | '-' :: ds => -natOfDigits ds
  | ds => natOfDigits ds

/-- The whole number of some digits.  Zero with a sign is none, nor is a number beyond 64 bits. -/
def whole? (negative : Bool) (digits : Text) : Option Int :=
  let n := natOfDigits digits
  if negative then if 0 < n ∧ n ≤ Nat.pow 2 63 then some (-n) else none
  else if n < Nat.pow 2 64 then some n
  else none

/-- The number of the digits before the point, the fraction with its point and the exponent with
    its mark. -/
def Number.ofParts (negative : Bool) (digits fraction exponent : Text) : Number :=
  match if fraction.isEmpty && exponent.isEmpty then whole? negative digits else none with
  | some n => .whole n
  | none =>
    match (Decimal.ofDigits digits (fraction.drop 1) (exponentValue exponent)).toDouble? with
    | some x => .double negative x
    | none => .tooLarge

/-- A number at the front of a text, and the rest. -/
def number? (t : Text) : Option (Number × Text) := do
  let negative := t.head? = some '-'
  let (digits, rest) ← integerDigits? (if negative then t.drop 1 else t)
  let (fraction, rest) ← fraction? rest
  let (exponent, rest) ← exponent? rest
  return (.ofParts negative digits fraction exponent, rest)

theorem length_dropWhile_le (p : Char → Bool) (t : Text) : (t.dropWhile p).length ≤ t.length :=
  (List.dropWhile_suffix p).length_le

/-- A run of digits that is not empty leaves fewer characters. -/
theorem length_dropWhile_lt {p : Char → Bool} {t : Text} (h : (t.takeWhile p).isEmpty = false) :
    (t.dropWhile p).length < t.length := by
  have hl := congrArg List.length (List.takeWhile_append_dropWhile (p := p) (l := t))
  rw [List.length_append] at hl
  have : 0 < (t.takeWhile p).length := by
    cases ht : t.takeWhile p with
    | nil => simp [ht] at h
    | cons => simp
  omega

theorem length_of_integerDigits? {t ds rest : Text} (h : integerDigits? t = some (ds, rest)) :
    rest.length < t.length := by
  unfold integerDigits? at h
  split at h
  · split at h
    · simp at h
    · simp only [Option.some.injEq, Prod.mk.injEq] at h
      simp [h.2]
  · simp only at h
    split at h
    · simp at h
    · rename_i hds
      simp only [Option.some.injEq, Prod.mk.injEq] at h
      rw [← h.2]
      exact length_dropWhile_lt (by simpa using hds)

theorem length_of_fraction? {t ds rest : Text} (h : fraction? t = some (ds, rest)) :
    rest.length ≤ t.length := by
  unfold fraction? at h
  split at h
  · simp only at h
    split at h
    · simp at h
    · simp only [Option.some.injEq, Prod.mk.injEq] at h
      rw [← h.2, List.length_cons]
      exact Nat.le_succ_of_le (length_dropWhile_le _ _)
  · simp only [Option.some.injEq, Prod.mk.injEq] at h
    simp [h.2]

theorem length_exponentSign (t : Text) : (exponentSign t).2.length ≤ t.length := by
  unfold exponentSign
  split <;> simp

theorem length_of_exponent? {t ds rest : Text} (h : exponent? t = some (ds, rest)) :
    rest.length ≤ t.length := by
  unfold exponent? at h
  split at h
  · rename_i c t
    split at h
    · simp only at h
      split at h
      · simp at h
      · simp only [Option.some.injEq, Prod.mk.injEq] at h
        rw [← h.2, List.length_cons]
        exact Nat.le_succ_of_le
          (Nat.le_trans (length_dropWhile_le _ _) (length_exponentSign t))
    · simp only [Option.some.injEq, Prod.mk.injEq] at h
      simp [← h.2]
  · simp only [Option.some.injEq, Prod.mk.injEq] at h
    simp [← h.2]

/-- Reading a number leaves fewer characters. -/
theorem length_of_number? {t rest : Text} {n : Number} (h : number? t = some (n, rest)) :
    rest.length < t.length := by
  simp only [number?, Option.bind_eq_bind, Option.bind_eq_some_iff, Prod.exists] at h
  obtain ⟨ds, r₁, h₁, fr, r₂, h₂, ex, r₃, h₃, h⟩ := h
  have hr : rest = r₃ := by simp_all
  have l₁ := length_of_integerDigits? h₁
  have l₂ := length_of_fraction? h₂
  have l₃ := length_of_exponent? h₃
  have l₀ : (if t.head? = some '-' then t.drop 1 else t).length ≤ t.length := by
    split <;> simp
  rw [hr]
  omega

/-! ## The stream -/

/-- Whether a character is white space between tokens. -/
def isSpace (c : Char) : Bool := c == ' ' || c == '\t' || c == '\n' || c == '\r'

/-- The token at the front of a text and the rest, if the text begins with one. -/
def Token.first? : Text → Option (Token × Text)
  | '{' :: t => some (.openObject, t)
  | '}' :: t => some (.closeObject, t)
  | '[' :: t => some (.openArray, t)
  | ']' :: t => some (.closeArray, t)
  | ':' :: t => some (.colon, t)
  | ',' :: t => some (.comma, t)
  | 'n' :: 'u' :: 'l' :: 'l' :: t => some (.null, t)
  | 't' :: 'r' :: 'u' :: 'e' :: t => some (.bool true, t)
  | 'f' :: 'a' :: 'l' :: 's' :: 'e' :: t => some (.bool false, t)
  | '"' :: t => (stringPieces? t).map fun (ps, rest) => (.string ps, rest)
  | t => (number? t).map fun (n, rest) => (.number n, rest)

/-- Reading a token leaves fewer characters. -/
theorem Token.length_of_first? {t rest : Text} {k : Token} (h : Token.first? t = some (k, rest)) :
    rest.length < t.length := by
  unfold Token.first? at h
  split at h
  case h_10 =>
    obtain ⟨⟨ps, r⟩, hr, h⟩ := Option.map_eq_some_iff.mp h
    simp only [Prod.mk.injEq] at h
    have := length_of_stringPieces? hr
    simp only [List.length_cons, ← h.2]
    omega
  case h_11 =>
    obtain ⟨⟨n, r⟩, hr, h⟩ := Option.map_eq_some_iff.mp h
    simp only [Prod.mk.injEq] at h
    exact h.2 ▸ length_of_number? hr
  all_goals
    simp only [Option.some.injEq, Prod.mk.injEq] at h
    simp only [List.length_cons, ← h.2]
    omega

/-- The tokens of a text, up to the place where it stops being JSON.  Each token takes characters
    away, so the text runs out. -/
def Token.stream (t : Text) : List Token :=
  match _h : t.dropWhile isSpace with
  | [] => []
  | c :: r =>
    match _k : Token.first? (c :: r) with
    | none => [.malformed]
    | some (k, rest) => k :: Token.stream rest
termination_by t.length
decreasing_by
  have hd := length_dropWhile_le isSpace t
  have hk := Token.length_of_first? _k
  rw [_h] at hd
  omega

end SchemaComment.Json
