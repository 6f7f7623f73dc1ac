/-
  A TEXT AS ITS LINES.

  All the recognisers of the library work line by line, and a line counts for them only when its
  newline is there.  So a text is read as the list of its TERMINATED lines (without their newlines)
  and the piece after the last newline.

  1. **Program** — `Lines.ofText` splits, `Lines.toText` puts back together; both are one pass.
  2. **Specification** — the two are inverse to each other on lines that hold no newline
     (`toText_ofText`, `ofText_toText`), so nothing of a file is lost by reading it this way.
  3. **The crux** — a carriage return before the newline stays in the line.  A line is then the same
     list of characters under either line ending but for its last one, and no recogniser has to
     carry two cases.
-/
import SchemaComment.Text.Basic

namespace SchemaComment

/-- A line without its newline.  It may end in a carriage return. -/
abbrev Line := List Char

/-- A text read as lines. -/
structure Lines where
  /-- The lines that end in a newline, in order and without it. -/
  ended : List Line
  /-- What follows the last newline. -/
  tail : Line
deriving DecidableEq, Repr

/-! ## Lines put together -/

/-- The text of terminated lines. -/
def unlines (ls : List Line) : Text := ls.flatMap (· ++ ['\n'])

@[simp] theorem unlines_nil : unlines [] = [] := rfl

@[simp] theorem unlines_cons (l : Line) (ls : List Line) :
    unlines (l :: ls) = l ++ '\n' :: unlines ls := by
  simp [unlines]

@[simp] theorem unlines_append (ks ls : List Line) : unlines (ks ++ ls) = unlines ks ++ unlines ls := by
  simp [unlines]

/-- A text of terminated lines is empty only when there is no line. -/
theorem unlines_eq_nil {ls : List Line} : unlines ls = [] ↔ ls = [] := by
  cases ls <;> simp

/-- Otherwise it ends in a newline. -/
theorem exists_unlines_eq {ls : List Line} (h : ls ≠ []) : ∃ t, unlines ls = t ++ ['\n'] := by
  obtain ⟨ks, k, rfl⟩ := (List.eq_nil_or_concat ls).resolve_left h
  exact ⟨unlines ks ++ k, by simp⟩

namespace Lines

/-- The text that was read. -/
def toText (s : Lines) : Text := unlines s.ended ++ s.tail

/-! ## Reading -/

/-- One more character in front. -/
def cons (c : Char) (s : Lines) : Lines :=
  if c = '\n' then ⟨[] :: s.ended, s.tail⟩
  else match s.ended with
    | [] => ⟨[], c :: s.tail⟩
    | l :: ls => ⟨(c :: l) :: ls, s.tail⟩

/-- The lines of a text. -/
def ofText : Text → Lines
  | [] => ⟨[], []⟩
  | c :: t => cons c (ofText t)

theorem toText_cons (c : Char) (s : Lines) : (cons c s).toText = c :: s.toText := by
  unfold cons
  split
  · rename_i h; simp [toText, h]
  · split <;> simp_all [toText]

/-- Reading a text as lines loses nothing. -/
@[simp] theorem toText_ofText (t : Text) : (ofText t).toText = t := by
  induction t with
  | nil => rfl
  | cons c t ih => rw [ofText, toText_cons, ih]

/-- A text without a newline is one unterminated piece. -/
theorem ofText_of_not_mem {t : Text} (h : '\n' ∉ t) : ofText t = ⟨[], t⟩ := by
  induction t with
  | nil => rfl
  | cons c t ih =>
    simp only [List.mem_cons, not_or] at h
    simp [ofText, ih h.2, cons, Ne.symm h.1]

/-- A first line is read off the front. -/
theorem ofText_line_append {l : Line} (h : '\n' ∉ l) (t : Text) :
    ofText (l ++ '\n' :: t) = ⟨l :: (ofText t).ended, (ofText t).tail⟩ := by
  induction l with
  | nil => simp [ofText, cons]
  | cons c l ih =>
    simp only [List.mem_cons, not_or] at h
    simp [ofText, ih h.2, cons, Ne.symm h.1]

/-- Lines put together are read back, when no line holds a newline. -/
theorem ofText_toText {s : Lines} (h : ∀ l ∈ s.ended, '\n' ∉ l) (ht : '\n' ∉ s.tail) :
    ofText s.toText = s := by
  obtain ⟨ls, tail⟩ := s
  induction ls with
  | nil => simpa [toText] using ofText_of_not_mem ht
  | cons l ls ih =>
    have hls := ih (fun k hk => h k (by simp [hk])) ht
    simp only [toText] at hls
    simp [toText, ofText_line_append (h l (by simp)), hls]

/-- No line that was read holds a newline. -/
theorem not_mem_ended_ofText (t : Text) : ∀ l ∈ (ofText t).ended, '\n' ∉ l := by
  induction t with
  | nil => simp [ofText]
  | cons c t ih =>
    rw [ofText, cons]
    split
    · simpa using ih
    · rename_i hc
      split
      · simp
      · rename_i k ks hk
        rw [hk] at ih
        simp only [List.mem_cons, forall_eq_or_imp] at ih ⊢
        exact ⟨fun h => h.elim (fun e => hc e.symm) ih.1, ih.2⟩

/-- The piece after the last newline holds none. -/
theorem not_mem_tail_ofText (t : Text) : '\n' ∉ (ofText t).tail := by
  induction t with
  | nil => simp [ofText]
  | cons c t ih =>
    rw [ofText, cons]
    split
    · exact ih
    · rename_i hc
      split
      · simpa [Ne.symm hc] using ih
      · exact ih

end Lines
end SchemaComment
