/-
  JSON TEXTS BY THEIR GRAMMAR.

  A configuration is read from the tokens of its text.  This module says which texts are JSON and what
  comes of their tokens, without looking at how a text is cut.

  1. **Program** — `Token.stream` cuts a text into tokens, and `skipValue` passes over a value.
  2. **Specification** — `IsJson` is the grammar of JSON, a rule for each way to write a value.
     `Spells` says which text a string stands for.  `skipValue_stream`: a value of the grammar is passed
     over exactly, whatever stands in it and behind it.
  3. **The crux** — only a number can run on into what is behind it.  In the grammar a value is followed
     by white space, a comma, a closing bracket or nothing (`Delimited`), so a number ends where it
     should, and all else ends by itself.
-/
import SchemaComment.Json.Skip
import SchemaComment.Proofs.Search

namespace SchemaComment.Json

/-! ## White space and numbers -/

/-- White space between tokens. -/
def IsSpaces (w : Text) : Prop := ∀ c ∈ w, c = ' ' ∨ c = '\t' ∨ c = '\n' ∨ c = '\r'

/-- One digit or more. -/
def IsDigits (t : Text) : Prop := t ≠ [] ∧ ∀ c ∈ t, c.isDigit = true

/-- Zero, or digits that do not begin with it. -/
def IsInteger (t : Text) : Prop := t = ['0'] ∨ IsDigits t ∧ t.head? ≠ some '0'

/-- Nothing, or a point and digits. -/
def IsFraction (t : Text) : Prop := t = [] ∨ ∃ ds, IsDigits ds ∧ t = '.' :: ds

/-- Nothing, or the mark of an exponent, perhaps a sign, and digits. -/
def IsExponent (t : Text) : Prop :=
  t = [] ∨ ∃ mark sign ds, (mark = 'e' ∨ mark = 'E') ∧ (sign = [] ∨ sign = ['+'] ∨ sign = ['-']) ∧
    IsDigits ds ∧ t = mark :: (sign ++ ds)

/-- A number: perhaps a minus, an integer, perhaps a fraction, perhaps an exponent. -/
def IsNumber (t : Text) : Prop :=
  ∃ minus whole fraction exponent, (minus = [] ∨ minus = ['-']) ∧ IsInteger whole ∧
    IsFraction fraction ∧ IsExponent exponent ∧ t = minus ++ (whole ++ (fraction ++ exponent))

/-! ## Strings -/

/-- The hexadecimal digit of a number, in either case. -/
def IsHexDigit (c : Char) (n : Nat) : Prop :=
  n < 16 ∧ (c = Nat.digitChar n ∨ c = (Nat.digitChar n).toUpper)

/-- The four hexadecimal digits of a 16-bit unit. -/
def IsUnit (a b c d : Char) (n : Nat) : Prop :=
  ∃ i j k l, IsHexDigit a i ∧ IsHexDigit b j ∧ IsHexDigit c k ∧ IsHexDigit d l ∧
    n = ((i * 16 + j) * 16 + k) * 16 + l

/-- The short escapes and the characters that they stand for. -/
def shortEscapes : List (Char × Char) :=
  [('"', '"'), ('\\', '\\'), ('/', '/'), ('b', '\x08'), ('f', '\x0c'), ('n', '\n'), ('r', '\r'),
    ('t', '\t')]

/-- `IsBody t ps`: what stands between the quotes of a string, and its pieces. -/
inductive IsBody : Text → List Piece → Prop
  | nil : IsBody [] []
  | plain {c : Char} {t : Text} {ps : List Piece} (hc : 32 ≤ c.toNat) (hquote : c ≠ '"')
      (hslash : c ≠ '\\') (h : IsBody t ps) : IsBody (c :: t) (.char c :: ps)
  | short {e c : Char} {t : Text} {ps : List Piece} (he : (e, c) ∈ shortEscapes)
      (h : IsBody t ps) : IsBody ('\\' :: e :: t) (.char c :: ps)
  | unit {a b c d : Char} {n : Nat} {t : Text} {ps : List Piece} (hn : IsUnit a b c d n)
      (h : IsBody t ps) : IsBody ('\\' :: 'u' :: a :: b :: c :: d :: t) (.unit n :: ps)

/-- `IsString s ps`: a string with its quotes, and its pieces. -/
def IsString (s : Text) (ps : List Piece) : Prop := ∃ t, IsBody t ps ∧ s = '"' :: (t ++ ['"'])

/-- `Makes ps t`: the pieces make the text `t`.  A character beyond the first 65536 takes two units,
    and half of such a pair makes nothing. -/
inductive Makes : List Piece → Text → Prop
  | nil : Makes [] []
  | char {c : Char} {ps : List Piece} {t : Text} (h : Makes ps t) : Makes (.char c :: ps) (c :: t)
  | unit {c : Char} {ps : List Piece} {t : Text} (h : Makes ps t) :
      Makes (.unit c.toNat :: ps) (c :: t)
  | pair {c : Char} {i j : Nat} {ps : List Piece} {t : Text} (hi : i < 0x400) (hj : j < 0x400)
      (hc : c.toNat = 0x10000 + i * 0x400 + j) (h : Makes ps t) :
      Makes (.unit (0xD800 + i) :: .unit (0xDC00 + j) :: ps) (c :: t)

/-- `Spells s t`: the string `s`, in its quotes, stands for the text `t`. -/
def Spells (s t : Text) : Prop := ∃ ps, IsString s ps ∧ Makes ps t

/-! ## Values -/

/-- What the grammar has a rule for. -/
inductive Part where
  | value
  /-- The elements of an array, with the commas between them. -/
  | elements
  /-- The members of an object, with the commas between them. -/
  | members

/-- `IsJson part t`: the text `t` is a part of a JSON text. -/
inductive IsJson : Part → Text → Prop
  | null : IsJson .value ['n', 'u', 'l', 'l']
  | true : IsJson .value ['t', 'r', 'u', 'e']
  | false : IsJson .value ['f', 'a', 'l', 's', 'e']
  | number {t : Text} (h : IsNumber t) : IsJson .value t
  | string {s : Text} {ps : List Piece} (h : IsString s ps) : IsJson .value s
  | emptyArray {w : Text} (hw : IsSpaces w) : IsJson .value ('[' :: (w ++ [']']))
  | array {t : Text} (h : IsJson .elements t) : IsJson .value ('[' :: (t ++ [']']))
  | emptyObject {w : Text} (hw : IsSpaces w) : IsJson .value ('\x7b' :: (w ++ ['\x7d']))
  | object {t : Text} (h : IsJson .members t) : IsJson .value ('\x7b' :: (t ++ ['\x7d']))
  | element {v w w' : Text} (hw : IsSpaces w) (hv : IsJson .value v) (hw' : IsSpaces w') :
      IsJson .elements (w ++ (v ++ w'))
  | elements {t u : Text} (ht : IsJson .elements t) (hu : IsJson .elements u) :
      IsJson .elements (t ++ ',' :: u)
  | member {s v w w' x x' : Text} {ps : List Piece} (hw : IsSpaces w) (hs : IsString s ps)
      (hw' : IsSpaces w') (hx : IsSpaces x) (hv : IsJson .value v) (hx' : IsSpaces x') :
      IsJson .members (w ++ (s ++ (w' ++ ':' :: (x ++ (v ++ x')))))
  | members {t u : Text} (ht : IsJson .members t) (hu : IsJson .members u) :
      IsJson .members (t ++ ',' :: u)

/-! ## The tokens of a text -/

/-- The tokens of a text: the one that it begins with, white space aside, and those of the rest. -/
theorem stream_eq (t : Text) : Token.stream t =
    match t.dropWhile isSpace with
    | [] => []
    | c :: r =>
      match Token.first? (c :: r) with
      | none => [.malformed]
      | some (k, rest) => k :: Token.stream rest := by
  rw [Token.stream]
  split
  · rename_i hnil
    rw [hnil]
  · rename_i c r hcons
    rw [hcons]
    split
    · rename_i hnone
      simp only [hnone]
    · rename_i hsome
      simp only [hsome]

theorem isSpace_iff {c : Char} : isSpace c = true ↔ c = ' ' ∨ c = '\t' ∨ c = '\n' ∨ c = '\r' := by
  simp [isSpace, or_assoc]

theorem isSpaces_nil : IsSpaces [] := by simp [IsSpaces]

/-- White space gives no token. -/
theorem stream_spaces {w : Text} (h : IsSpaces w) (t : Text) : Token.stream (w ++ t) = Token.stream t := by
  rw [stream_eq, stream_eq t, List.dropWhile_append_of_pos fun c hc => isSpace_iff.mpr (h c hc)]

/-- A token at the front of a text. -/
theorem stream_token {c : Char} {r rest : Text} {k : Token} (hc : isSpace c = false)
    (h : Token.first? (c :: r) = some (k, rest)) : Token.stream (c :: r) = k :: Token.stream rest := by
  rw [stream_eq, List.dropWhile_cons_of_neg (by simp [hc])]
  simp only [h]

/-! ## Strings read -/

theorem hexDigit?_eq {c : Char} {n : Nat} (h : IsHexDigit c n) : hexDigit? c = some n := by
  obtain ⟨hn, rfl | rfl⟩ := h
  · revert n
    decide
  · revert n
    decide

theorem unit?_eq {a b c d : Char} {n : Nat} (h : IsUnit a b c d n) : unit? a b c d = some n := by
  obtain ⟨i, j, k, l, ha, hb, hc, hd, rfl⟩ := h
  simp [unit?, hexDigit?_eq ha, hexDigit?_eq hb, hexDigit?_eq hc, hexDigit?_eq hd]

theorem shortEscape?_eq {e c : Char} (h : (e, c) ∈ shortEscapes) : shortEscape? e = some c ∧ e ≠ 'u' := by
  simp only [shortEscapes, List.mem_cons, Prod.mk.injEq, List.not_mem_nil, or_false] at h
  rcases h with ⟨rfl, rfl⟩ | ⟨rfl, rfl⟩ | ⟨rfl, rfl⟩ | ⟨rfl, rfl⟩ | ⟨rfl, rfl⟩ | ⟨rfl, rfl⟩ |
    ⟨rfl, rfl⟩ | ⟨rfl, rfl⟩ <;> exact ⟨rfl, by decide⟩

/-- **A string is read up to its closing quote**, whatever is behind it. -/
theorem stringPieces?_body {t : Text} {ps : List Piece} (h : IsBody t ps) (rest : Text) :
    stringPieces? (t ++ '"' :: rest) = some (ps, rest) := by
  induction h with
  | nil => rfl
  | @plain c t ps hc hquote hslash _ ih =>
    rw [List.cons_append, stringPieces?.eq_5 _ _ (by simpa using hquote) (by simp [hslash]) (by simp [hslash]),
      if_neg (by simp [hslash]; omega), ih]
    rfl
  | @short e c t ps he _ ih =>
    obtain ⟨hshort, hu⟩ := shortEscape?_eq he
    rw [List.cons_append, List.cons_append, stringPieces?.eq_4 _ _ (by simp [hu]), hshort]
    simp [ih]
  | unit hn _ ih => simp [stringPieces?, unit?_eq hn, ih]

/-- A unit that is no half of a pair is a character by itself. -/
theorem textOfPieces?_unit {n : Nat} (hhigh : isHighHalf n = false) (hlow : isLowHalf n = false)
    (ps : List Piece) : textOfPieces? (.unit n :: ps) = (textOfPieces? ps).map (Char.ofNat n :: ·) := by
  cases ps with
  | nil => simp [textOfPieces?, hhigh, hlow]
  | cons p ps => cases p <;> simp [textOfPieces?, hhigh, hlow]

/-- **The pieces of a string** make the text that they should. -/
theorem textOfPieces?_eq {ps : List Piece} {t : Text} (h : Makes ps t) : textOfPieces? ps = some t := by
  induction h with
  | nil => rfl
  | char _ ih => simp [textOfPieces?, ih]
  | @unit c ps t _ ih =>
    -- no character has the number of half a pair
    have hvalid : c.toNat < 0xD800 ∨ 0xDFFF < c.toNat ∧ c.toNat < 0x110000 := c.valid
    rw [textOfPieces?_unit (by simp [isHighHalf]; omega) (by simp [isLowHalf]; omega), ih, Option.map_some,
      Char.ofNat_toNat]
  | @pair c i j ps t hi hj hc _ ih =>
    have hhigh : isHighHalf (0xD800 + i) = true := by simp [isHighHalf]; omega
    have hlow : isLowHalf (0xDC00 + j) = true := by simp [isLowHalf]; omega
    have hchar : 0x10000 + (0xD800 + i - 0xD800) * 0x400 + (0xDC00 + j - 0xDC00) = c.toNat := by omega
    rw [textOfPieces?, if_pos hhigh, if_pos hlow, hchar, ih, Option.map_some, Char.ofNat_toNat]

/-! ## Texts written as strings -/

/-- A character that needs no escape. -/
def isPlain (c : Char) : Bool := decide (32 ≤ c.toNat) && c != '"' && c != '\\'

/-- Plain characters stand for themselves. -/
theorem isBody_plain {t : Text} (h : t.all isPlain = true) : IsBody t (t.map .char) := by
  induction t with
  | nil => exact .nil
  | cons c t ih =>
    simp only [List.all_cons, isPlain, Bool.and_eq_true, decide_eq_true_eq, bne_iff_ne] at h
    obtain ⟨⟨⟨hc, hquote⟩, hslash⟩, ht⟩ := h
    exact .plain hc hquote hslash (ih ht)

theorem makes_char (t : Text) : Makes (t.map .char) t := by
  induction t with
  | nil => exact .nil
  | cons c t ih => exact .char ih

/-- Plain characters between quotes. -/
theorem spells_plain {t : Text} (h : t.all isPlain = true) : Spells ('"' :: (t ++ ['"'])) t :=
  ⟨_, ⟨t, isBody_plain h, rfl⟩, makes_char t⟩

/-- **Every text is written by some string**: quote and backslash have a short escape, and a control
    character is written by its number. -/
theorem exists_spells (t : Text) : ∃ s, Spells s t := by
  have hbody : ∃ s ps, IsBody s ps ∧ Makes ps t := by
    induction t with
    | nil => exact ⟨[], [], .nil, .nil⟩
    | cons c t ih =>
      obtain ⟨s, ps, hs, hps⟩ := ih
      by_cases hescape : c = '"' ∨ c = '\\'
      · refine ⟨'\\' :: c :: s, .char c :: ps, .short ?_ hs, .char hps⟩
        rcases hescape with rfl | rfl <;> simp [shortEscapes]
      · rw [not_or] at hescape
        by_cases hc : 32 ≤ c.toNat
        · exact ⟨c :: s, .char c :: ps, .plain hc hescape.1 hescape.2 hs, .char hps⟩
        · have hzero : IsHexDigit '0' 0 := ⟨by decide, Or.inl rfl⟩
          have hunit : IsUnit '0' '0' (Nat.digitChar (c.toNat / 16)) (Nat.digitChar (c.toNat % 16))
              c.toNat :=
            ⟨0, 0, c.toNat / 16, c.toNat % 16, hzero, hzero, ⟨by omega, Or.inl rfl⟩,
              ⟨by omega, Or.inl rfl⟩, by omega⟩
          exact ⟨_, _, .unit hunit hs, .unit hps⟩
  obtain ⟨s, ps, hs, hps⟩ := hbody
  exact ⟨'"' :: (s ++ ['"']), ps, ⟨s, hs, rfl⟩, hps⟩

/-! ## Numbers read -/

theorem integerDigits?_append {t rest : Text} (h : IsInteger t)
    (hrest : ∀ c ∈ rest.head?, c.isDigit = false) : integerDigits? (t ++ rest) = some (t, rest) := by
  rcases h with rfl | ⟨⟨hne, hall⟩, hzero⟩
  · have hnone : rest.head?.any Char.isDigit = false := by
      cases hhead : rest.head? with
      | none => rfl
      | some c => simpa using hrest c hhead
    simp [integerDigits?, hnone]
  · obtain ⟨htake, hdrop⟩ := takeWhile_append_of_stop hall hrest
    obtain ⟨c, t, rfl⟩ := List.exists_cons_of_ne_nil hne
    unfold integerDigits?
    split
    · rename_i hcons
      obtain ⟨rfl, -⟩ := List.cons.inj hcons
      exact absurd rfl hzero
    · rw [List.cons_append] at htake hdrop ⊢
      simp [htake, hdrop]

theorem fraction?_append {t rest : Text} (h : IsFraction t)
    (hrest : ∀ c ∈ rest.head?, c.isDigit = false ∧ c ≠ '.') :
    fraction? (t ++ rest) = some (t, rest) := by
  rcases h with rfl | ⟨ds, ⟨hne, hall⟩, rfl⟩
  · unfold fraction?
    split
    · rename_i hcons
      exact absurd rfl (hrest '.' (by simpa using congrArg List.head? hcons)).2
    · rfl
  · obtain ⟨htake, hdrop⟩ := takeWhile_append_of_stop hall fun c hc => (hrest c hc).1
    simp [fraction?, htake, hdrop, hne]

theorem exponentSign_append {sign ds : Text} (hsign : sign = [] ∨ sign = ['+'] ∨ sign = ['-'])
    (hds : IsDigits ds) (rest : Text) : exponentSign (sign ++ (ds ++ rest)) = (sign, ds ++ rest) := by
  rcases hsign with rfl | rfl | rfl
  · obtain ⟨d, ds, rfl⟩ := List.exists_cons_of_ne_nil hds.1
    have hd : d.isDigit = true := hds.2 d (by simp)
    have hplus : d ≠ '+' := by
      rintro rfl
      cases hd
    have hminus : d ≠ '-' := by
      rintro rfl
      cases hd
    simp [exponentSign, hplus, hminus]
  · rfl
  · rfl

theorem exponent?_append {t rest : Text} (h : IsExponent t)
    (hrest : ∀ c ∈ rest.head?, c.isDigit = false ∧ c ≠ 'e' ∧ c ≠ 'E') :
    exponent? (t ++ rest) = some (t, rest) := by
  rcases h with rfl | ⟨mark, sign, ds, hmark, hsign, hds, rfl⟩
  · cases rest with
    | nil => rfl
    | cons c rest =>
      obtain ⟨-, he, hE⟩ := hrest c rfl
      simp [exponent?, he, hE]
  · obtain ⟨htake, hdrop⟩ := takeWhile_append_of_stop hds.2 fun c hc => (hrest c hc).1
    simp [exponent?, hmark, exponentSign_append hsign hds, htake, hdrop, hds.1]

/-- What may stand behind a value: nothing, white space, a comma or a closing bracket. -/
def Delimited (t : Text) : Prop := ∀ c ∈ t.head?, isSpace c = true ∨ c = ',' ∨ c = ']' ∨ c = '\x7d'

theorem delimited_cons {c : Char} (h : c = ',' ∨ c = ']' ∨ c = '\x7d') (t : Text) : Delimited (c :: t) := by
  simpa [Delimited] using Or.inr h

theorem Delimited.spaces_append {w t : Text} (ht : Delimited t) (hw : IsSpaces w) : Delimited (w ++ t) := by
  cases w with
  | nil => exact ht
  | cons c w => simpa [Delimited] using Or.inl (isSpace_iff.mpr (hw c (by simp)))

/-- What stands behind a value goes on with no number. -/
theorem Delimited.not_number {t : Text} (h : Delimited t) {c : Char} (hc : c ∈ t.head?) :
    c.isDigit = false ∧ c ≠ '.' ∧ c ≠ 'e' ∧ c ≠ 'E' := by
  rcases h c hc with hspace | rfl | rfl | rfl
  · rcases isSpace_iff.mp hspace with rfl | rfl | rfl | rfl <;> decide
  all_goals decide

/-- An exponent, or what stands behind a value, goes on with no digit and no point. -/
theorem IsExponent.head_append {t rest : Text} (h : IsExponent t) (hrest : Delimited rest) :
    ∀ c ∈ (t ++ rest).head?, c.isDigit = false ∧ c ≠ '.' := by
  intro c hc
  rcases h with rfl | ⟨mark, sign, ds, hmark, -, -, rfl⟩
  · have hnot := hrest.not_number hc
    exact ⟨hnot.1, hnot.2.1⟩
  · obtain rfl : mark = c := by simpa using hc
    rcases hmark with rfl | rfl <;> decide

/-- A fraction goes on with no digit where what is behind it does not. -/
theorem IsFraction.head_append {t rest : Text} (h : IsFraction t)
    (hrest : ∀ c ∈ rest.head?, c.isDigit = false) : ∀ c ∈ (t ++ rest).head?, c.isDigit = false := by
  intro c hc
  rcases h with rfl | ⟨ds, -, rfl⟩
  · exact hrest c hc
  · obtain rfl : '.' = c := by simpa using hc
    decide

theorem IsInteger.exists_cons {t : Text} (h : IsInteger t) : ∃ d r, t = d :: r ∧ d.isDigit = true := by
  rcases h with rfl | ⟨⟨hne, hall⟩, -⟩
  · exact ⟨'0', [], rfl, rfl⟩
  · obtain ⟨d, r, rfl⟩ := List.exists_cons_of_ne_nil hne
    exact ⟨d, r, rfl, hall d (by simp)⟩

/-- A number begins with a minus or a digit. -/
theorem IsNumber.exists_cons {t : Text} (h : IsNumber t) :
    ∃ c r, t = c :: r ∧ (c = '-' ∨ c.isDigit = true) := by
  obtain ⟨minus, whole, fraction, exponent, hminus, hwhole, -, -, rfl⟩ := h
  obtain ⟨d, r, rfl, hd⟩ := hwhole.exists_cons
  rcases hminus with rfl | rfl
  · exact ⟨d, _, rfl, Or.inr hd⟩
  · exact ⟨'-', _, rfl, Or.inl rfl⟩

/-- **A number is read to its end** where it is delimited. -/
theorem exists_number? {t rest : Text} (h : IsNumber t) (hrest : Delimited rest) :
    ∃ n, number? (t ++ rest) = some (n, rest) := by
  obtain ⟨minus, whole, fraction, exponent, hminus, hwhole, hfraction, hexponent, rfl⟩ := h
  have hbehind := hexponent.head_append hrest
  have h₁ : integerDigits? (whole ++ (fraction ++ (exponent ++ rest))) =
      some (whole, fraction ++ (exponent ++ rest)) :=
    integerDigits?_append hwhole (hfraction.head_append fun c hc => (hbehind c hc).1)
  have h₂ : fraction? (fraction ++ (exponent ++ rest)) = some (fraction, exponent ++ rest) :=
    fraction?_append hfraction hbehind
  have h₃ : exponent? (exponent ++ rest) = some (exponent, rest) :=
    exponent?_append hexponent fun c hc =>
      have hnot := hrest.not_number hc
      ⟨hnot.1, hnot.2.2⟩
  obtain ⟨d, r, rfl, hd⟩ := hwhole.exists_cons
  have hsign : d ≠ '-' := by
    rintro rfl
    cases hd
  simp only [List.cons_append] at h₁
  rcases hminus with rfl | rfl
  · exact ⟨.ofParts false (d :: r) fraction exponent, by simp [number?, hsign, h₁, h₂, h₃]⟩
  · exact ⟨.ofParts true (d :: r) fraction exponent, by simp [number?, h₁, h₂, h₃]⟩

/-! ## Tokens of values -/

/-- A minus or a digit begins a number and no other token. -/
theorem first?_number {c : Char} (hc : c = '-' ∨ c.isDigit = true) (t : Text) :
    Token.first? (c :: t) = (number? (c :: t)).map fun (n, rest) => (.number n, rest) := by
  unfold Token.first?
  split
  case h_11 => rfl
  all_goals
    rename_i heq
    obtain ⟨rfl, -⟩ := List.cons.inj heq
    rcases hc with hc | hc <;> cases hc

/-- A number is one token. -/
theorem exists_stream_number {t rest : Text} (h : IsNumber t) (hrest : Delimited rest) :
    ∃ n, Token.stream (t ++ rest) = .number n :: Token.stream rest := by
  obtain ⟨n, hn⟩ := exists_number? h hrest
  obtain ⟨c, r, rfl, hc⟩ := h.exists_cons
  rw [List.cons_append] at hn ⊢
  refine ⟨n, stream_token ?_ (by rw [first?_number hc, hn, Option.map_some])⟩
  cases hspace : isSpace c with
  | false => rfl
  | true => rcases isSpace_iff.mp hspace with rfl | rfl | rfl | rfl <;> rcases hc with hc | hc <;> cases hc

/-- A string is one token. -/
theorem stream_string {s : Text} {ps : List Piece} (h : IsString s ps) (rest : Text) :
    Token.stream (s ++ rest) = .string ps :: Token.stream rest := by
  obtain ⟨t, ht, rfl⟩ := h
  have hread := stringPieces?_body ht rest
  refine stream_token rfl ?_
  simp [Token.first?, hread]

/-! ## Passing over a value -/

/-- What is left once a step has led to a goal: the stream as it is where the value is complete. -/
def resume (goal : Goal) (brackets : List Bracket) (ks : List Token) : Option (List Token) :=
  match goal, brackets with
  | .next, [] => some ks
  | _, _ => skip goal brackets ks

/-- One token, and then on from the goal that it leads to. -/
theorem skip_of_step {goal goal' : Goal} {brackets brackets' : List Bracket} {k : Token}
    (h : step goal brackets k = some (goal', brackets')) (ks : List Token) :
    skip goal brackets (k :: ks) = resume goal' brackets' ks := by
  rw [skip, h]
  unfold resume
  split <;> simp_all

namespace Part

/-- The goals under which a part is passed over. -/
def goals : Part → List Goal
  | .value | .elements => [.value, .element]
  | .members => [.name, .member]

/-- The brackets around a part. -/
def within : Part → List Bracket → List Bracket
  | .value, bs => bs
  | .elements, bs => .array :: bs
  | .members, bs => .object :: bs

end Part

theorem eq_of_mem_goals_value {goal : Goal} (h : goal ∈ Part.goals .value) :
    goal = .value ∨ goal = .element := by
  simpa [Part.goals] using h

/-- An array is passed over where what stands behind its bracket is. -/
theorem skip_array {t rest : Text} {bs : List Bracket}
    (h : skip .element (.array :: bs) (Token.stream (t ++ ']' :: rest)) = resume .next bs (Token.stream rest))
    {goal : Goal} (hgoal : goal ∈ Part.goals .value) :
    skip goal bs (Token.stream ('[' :: (t ++ [']']) ++ rest)) = resume .next bs (Token.stream rest) := by
  rw [List.cons_append, List.append_assoc, stream_token rfl rfl]
  rcases eq_of_mem_goals_value hgoal with rfl | rfl <;> exact h

/-- An object is passed over where what stands behind its bracket is. -/
theorem skip_object {t rest : Text} {bs : List Bracket}
    (h : skip .member (.object :: bs) (Token.stream (t ++ '\x7d' :: rest)) =
      resume .next bs (Token.stream rest))
    {goal : Goal} (hgoal : goal ∈ Part.goals .value) :
    skip goal bs (Token.stream ('\x7b' :: (t ++ ['\x7d']) ++ rest)) =
      resume .next bs (Token.stream rest) := by
  rw [List.cons_append, List.append_assoc, stream_token rfl rfl]
  rcases eq_of_mem_goals_value hgoal with rfl | rfl <;> exact h

/-- **Each part of a JSON text is passed over** exactly, whatever brackets are open around it. -/
theorem skip_stream {part : Part} {t rest : Text} (h : IsJson part t) (hrest : Delimited rest) :
    ∀ goal ∈ part.goals, ∀ bs, skip goal (part.within bs) (Token.stream (t ++ rest)) =
      resume .next (part.within bs) (Token.stream rest) := by
  induction h generalizing rest with
  | null | true | false =>
    intro goal hgoal bs
    simp only [List.cons_append]
    rw [stream_token rfl rfl]
    rcases eq_of_mem_goals_value hgoal with rfl | rfl <;> exact skip_of_step rfl _
  | number h =>
    intro goal hgoal bs
    obtain ⟨n, hn⟩ := exists_stream_number h hrest
    rw [hn]
    rcases eq_of_mem_goals_value hgoal with rfl | rfl <;> exact skip_of_step rfl _
  | string h =>
    intro goal hgoal bs
    rw [stream_string h]
    rcases eq_of_mem_goals_value hgoal with rfl | rfl <;> exact skip_of_step rfl _
  | @emptyArray w hw =>
    intro goal hgoal bs
    refine skip_array ?_ hgoal
    rw [stream_spaces hw, stream_token rfl rfl]
    exact skip_of_step rfl _
  | @array t _ ih =>
    intro goal hgoal bs
    refine skip_array ?_ hgoal
    refine (ih (delimited_cons (by simp) rest) .element (by simp [Part.goals]) bs).trans ?_
    rw [stream_token rfl rfl]
    exact skip_of_step rfl _
  | @emptyObject w hw =>
    intro goal hgoal bs
    refine skip_object ?_ hgoal
    rw [stream_spaces hw, stream_token rfl rfl]
    exact skip_of_step rfl _
  | @object t _ ih =>
    intro goal hgoal bs
    refine skip_object ?_ hgoal
    refine (ih (delimited_cons (by simp) rest) .member (by simp [Part.goals]) bs).trans ?_
    rw [stream_token rfl rfl]
    exact skip_of_step rfl _
  | @element v w w' hw _ hw' ih =>
    intro goal hgoal bs
    rw [List.append_assoc, stream_spaces hw, List.append_assoc]
    refine (ih (hrest.spaces_append hw') goal hgoal (.array :: bs)).trans ?_
    rw [stream_spaces hw']
    rfl
  | @elements t u _ _ iht ihu =>
    intro goal hgoal bs
    rw [List.append_assoc, List.cons_append]
    refine (iht (delimited_cons (by simp) _) goal hgoal bs).trans ?_
    rw [stream_token rfl rfl]
    exact ihu hrest .value (by simp [Part.goals]) bs
  | @member s v w w' x x' ps hw hs hw' hx _ hx' ih =>
    intro goal hgoal bs
    have hinner : skip .colon (.object :: bs) (Token.stream (w' ++ ':' :: (x ++ (v ++ (x' ++ rest))))) =
        resume .next (.object :: bs) (Token.stream rest) := by
      rw [stream_spaces hw', stream_token rfl rfl]
      show skip .value (.object :: bs) _ = _
      rw [stream_spaces hx]
      refine (ih (hrest.spaces_append hx') .value (by simp [Part.goals]) (.object :: bs)).trans ?_
      rw [stream_spaces hx']
      rfl
    simp only [List.append_assoc, List.cons_append]
    rw [stream_spaces hw, stream_string hs]
    have hname : goal = .name ∨ goal = .member := by simpa [Part.goals] using hgoal
    rcases hname with rfl | rfl <;> exact hinner
  | @members t u _ _ iht ihu =>
    intro goal hgoal bs
    rw [List.append_assoc, List.cons_append]
    refine (iht (delimited_cons (by simp) _) goal hgoal bs).trans ?_
    rw [stream_token rfl rfl]
    exact ihu hrest .name (by simp [Part.goals]) bs

/-- **A value is passed over** up to its end. -/
theorem skipValue_stream {v rest : Text} (h : IsJson .value v) (hrest : Delimited rest) :
    skipValue (Token.stream (v ++ rest)) = some (Token.stream rest) :=
  skip_stream h hrest .value (by simp [Part.goals]) []

end SchemaComment.Json
