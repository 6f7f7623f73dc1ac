/-
  BLANK CHARACTERS AND TRIMMING.

  1. **The class** — `isBlank` is the White_Space property: the six ASCII blanks, NEL, the
     no-break space, the Ogham space, the typographic spaces, the two separators and the
     ideographic space.  Zero-width characters are not in it.
  2. **Trimming** — `trimStart` and `trimEnd` cut blanks off one end.  `blankEnd` is what `trimEnd`
     cuts off, and `trimEnd_append_blankEnd` says that nothing else is lost.
  3. **Surroundings** — `surroundings?` tells the blanks at either end of a text from what stands
     between them, where a newline closes that.
-/
import SchemaComment.Text.CharTable

namespace SchemaComment.Text

/-! ## The class -/

/-- The code points with the White_Space property. -/
def blankTable : CharTable :=
  [(0x9, 0xD), (0x20, 0x20), (0x85, 0x85), (0xA0, 0xA0), (0x1680, 0x1680), (0x2000, 0x200A),
    (0x2028, 0x2029), (0x202F, 0x202F), (0x205F, 0x205F), (0x3000, 0x3000)]

/-- Whether `c` is white space. -/
def isBlank (c : Char) : Bool := blankTable.has c

theorem isBlank_newline : isBlank '\n' = true := rfl
theorem isBlank_return : isBlank '\r' = true := rfl
theorem isBlank_hash : isBlank '#' = false := rfl

/-! ## Trimming -/

/-- The text from its first character that is not blank on. -/
def trimStart (t : Text) : Text := t.dropWhile isBlank

/-- The text up to its last character that is not blank. -/
def trimEnd (t : Text) : Text := (t.reverse.dropWhile isBlank).reverse

/-- The blanks at the end of the text. -/
def blankEnd (t : Text) : Text := (t.reverse.takeWhile isBlank).reverse

/-- The text without the blanks at either end. -/
def trim (t : Text) : Text := trimEnd (trimStart t)

/-- Trimming the end cuts off the blank end and nothing else. -/
theorem trimEnd_append_blankEnd (t : Text) : trimEnd t ++ blankEnd t = t := by
  rw [trimEnd, blankEnd, ← List.reverse_append, List.takeWhile_append_dropWhile,
    List.reverse_reverse]

/-- All of the blank end is blank. -/
theorem isBlank_of_mem_blankEnd {t : Text} {c : Char} (h : c ∈ blankEnd t) : isBlank c = true := by
  rw [blankEnd, List.mem_reverse] at h
  exact List.all_eq_true.mp List.all_takeWhile c h

/-! ## Surroundings -/

/-- What follows the first newline behind which all is blank. -/
def closingBreak? : Text → Option Text
  | [] => none
  | c :: t => if c = '\n' ∧ t.all isBlank = true then some t else closingBreak? t

/-- The blanks at the front of a text and those behind its closing newline.  As many as possible are
    taken in front, and fewer where no closing newline would be left. -/
def surroundings? : Text → Option (Text × Text)
  | [] => none
  | c :: t =>
    let bare := (closingBreak? (c :: t)).map fun back => ([], back)
    if isBlank c then ((surroundings? t).map fun s => (c :: s.1, s.2)) <|> bare else bare

theorem isSome_closingBreak?_append (t : Text) : (closingBreak? (t ++ ['\n'])).isSome = true := by
  induction t with
  | nil => rfl
  | cons c t ih =>
    rw [List.cons_append, closingBreak?]
    split
    · rfl
    · exact ih

/-- A text that ends in a newline has surroundings. -/
theorem isSome_surroundings?_append (t : Text) : (surroundings? (t ++ ['\n'])).isSome = true := by
  have hbreak := isSome_closingBreak?_append t
  cases ht : t ++ ['\n'] with
  | nil => simp at ht
  | cons c u =>
    rw [ht] at hbreak
    rw [surroundings?]
    split
    · simp [hbreak]
    · simpa using hbreak

end SchemaComment.Text
