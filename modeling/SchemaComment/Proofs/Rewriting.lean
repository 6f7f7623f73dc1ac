/-
  A TEXT PUT IN A LINE ENDING.

  What is spliced into a file is put in the line ending of the file first.  A text may come with line
  breaks of either kind, or of both.

  1. **Program** — `LineEnding.apply`, on any text, and on a text that has been put in a line ending
     already.
  2. **Specification** — `LineEnding.rewrite` gives every line break the one form, whichever it had.
     `apply_rewrites_iff`: `crlf` always does that, and what stood there before is of no account.
     `lf` does it only where there is nothing to do, and so it does not undo `crlf`.
  3. **The crux** — a line break and its return are told from the line alone.  So a text in `crlf` is
     one whose every line has had its return taken off, if it had one, and has been given one
     (`withReturn_eq`).
-/
import SchemaComment.Proofs.Breaks
import SchemaComment.Proofs.Converted

namespace SchemaComment

open Line

/-! ## Returns taken off -/

/-- The text with the carriage return right before a newline taken off. -/
def Text.toLf : Text → Text
  | [] => []
  | '\r' :: '\n' :: t => '\n' :: toLf t
  | c :: t => c :: toLf t

namespace Line

/-- A return is given by taking one off, if there is one, and setting one behind. -/
theorem withReturn_eq (l : Line) : withReturn l = withoutReturn l ++ ['\r'] := by
  unfold withReturn
  rcases eq_withoutReturn_or l with h | h
  · split
    · rename_i hl
      have hshorter := congrArg List.length h
      obtain ⟨k, rfl⟩ := List.getLast?_eq_some_iff.mp (of_decide_eq_true hl : l.getLast? = some '\r')
      simp at hshorter
    · rw [← h]
  · have hl : endsInReturn l = true := by
      rw [h]
      simp [endsInReturn]
    rw [if_pos hl]
    exact h

/-- There is no return to take off just where the line does not end in one. -/
theorem withoutReturn_eq_self_iff {l : Line} : withoutReturn l = l ↔ endsInReturn l = false := by
  cases hl : endsInReturn l with
  | false => simp [withoutReturn, hl]
  | true =>
    obtain ⟨k, rfl⟩ := List.getLast?_eq_some_iff.mp (of_decide_eq_true hl : l.getLast? = some '\r')
    simp

/-- There is no return to give just where the line ends in one. -/
theorem withReturn_eq_self_iff {l : Line} : withReturn l = l ↔ endsInReturn l = true := by
  constructor
  · intro h
    rw [← h]
    exact endsInReturn_withReturn l
  · intro h
    rw [withReturn, if_pos h]

/-- A character in front leaves the return of a line to be taken off, unless it is the return. -/
theorem withoutReturn_cons {c : Char} {l : Line} (h : l = [] → c ≠ '\r') :
    withoutReturn (c :: l) = c :: withoutReturn l := by
  cases l with
  | nil => simp [withoutReturn, endsInReturn, h rfl]
  | cons d l =>
    have hends : endsInReturn (c :: d :: l) = endsInReturn (d :: l) := by
      rw [endsInReturn, endsInReturn, List.getLast?_cons_cons]
    rw [withoutReturn, withoutReturn, hends, List.dropLast_cons_cons]
    split <;> rfl

end Line

/-- A text whose first line is empty begins with a newline. -/
theorem Lines.exists_of_ended_eq_nil_cons {t : Text} {ls : List Line}
    (h : (ofText t).ended = [] :: ls) : ∃ r, t = '\n' :: r := by
  have hwhole := toText_ofText t
  rw [toText, h, unlines_cons] at hwhole
  exact ⟨_, hwhole.symm⟩

/-- **Every line loses its return**, and the open end stays as it is. -/
theorem Lines.ofText_toLf (t : Text) :
    ofText t.toLf = ⟨(ofText t).ended.map withoutReturn, (ofText t).tail⟩ := by
  fun_induction Text.toLf t with
  | case1 => rfl
  | case2 t ih =>
    rw [ofText, ih, ofText, ofText]
    simp [cons, withoutReturn, endsInReturn]
  | case3 c t hbreak ih =>
    rw [ofText, ih, ofText]
    by_cases hc : c = '\n'
    · simp [cons, hc, withoutReturn, endsInReturn]
    · unfold cons
      rw [if_neg hc, if_neg hc]
      cases hls : (ofText t).ended with
      | nil => rfl
      | cons l ls =>
        have hfirst : withoutReturn (c :: l) = c :: withoutReturn l := by
          refine withoutReturn_cons ?_
          rintro rfl rfl
          obtain ⟨r, rfl⟩ := exists_of_ended_eq_nil_cons hls
          exact hbreak r rfl rfl
        simp [hfirst]

/-- **Changed line by line, a text is the same** just where no line of it has changed. -/
theorem eq_self_iff_of_lines {s t : Text} {f : Line → Line}
    (h : Lines.ofText s = ⟨(Lines.ofText t).ended.map f, (Lines.ofText t).tail⟩) :
    s = t ↔ ∀ l ∈ (Lines.ofText t).ended, f l = l := by
  have hmap : (Lines.ofText t).ended.map f = (Lines.ofText t).ended ↔
      ∀ l ∈ (Lines.ofText t).ended, f l = l := by
    simpa using List.map_inj_left (l := (Lines.ofText t).ended) (f := f) (g := id)
  rw [← hmap]
  constructor
  · rintro rfl
    exact (congrArg Lines.ended h).symm
  · intro hsame
    rw [← Lines.toText_ofText s, h, hsame, Lines.toText_ofText]

namespace LineEnding

/-! ## Every line break in one form -/

/-- The text with every line break in this line ending, whichever it had. -/
def rewrite : LineEnding → Text → Text
  | .lf, t => t.toLf
  | .crlf, t => t.toLf.toCrlf

/-- **`crlf` rewrites every line break.** -/
theorem apply_crlf_eq_rewrite (t : Text) : apply .crlf t = rewrite .crlf t := by
  have hlines : Lines.ofText (rewrite .crlf t) = (Lines.ofText t).withReturns := by
    rw [rewrite, Lines.ofText_toCrlf, Lines.ofText_toLf, Lines.withReturns, List.map_map]
    congr 1
    exact List.map_congr_left fun l _ => (withReturn_eq l).symm
  rw [apply, ← hlines, Lines.toText_ofText]

/-- There is no return to take off just where a text is in `lf`. -/
theorem toLf_eq_self_iff {t : Text} : t.toLf = t ↔ Uniform .lf t := by
  rw [eq_self_iff_of_lines (Lines.ofText_toLf t), uniform_iff_closes]
  refine forall₂_congr fun l hl => ?_
  have hplain := Lines.not_mem_ended_ofText t l hl
  rw [withoutReturn_eq_self_iff]
  simp [hplain]

/-- There is no return to give just where a text is in `crlf`. -/
theorem apply_crlf_eq_self_iff {t : Text} : apply .crlf t = t ↔ Uniform .crlf t := by
  rw [eq_self_iff_of_lines (ofText_apply_crlf t), uniform_iff_closes]
  refine forall₂_congr fun l hl => ?_
  have hplain := Lines.not_mem_ended_ofText t l hl
  rw [withReturn_eq_self_iff]
  simp [hplain]

/-- **A text put in a line ending.**  `crlf` gives every line break its form, whichever it had and
    whatever was done to the text before.  `lf` does so just where there is nothing to do. -/
theorem apply_rewrites_iff (e e' : LineEnding) (t : Text) :
    (e.apply t = e.rewrite t ↔ (e = .lf → Uniform .lf t)) ∧
    (e.Uniform (e.apply t) ↔ (e = .lf → Uniform .lf t)) ∧
    (e.apply (e'.apply t) = e.apply t ↔ (e = .lf → e' = .crlf → Uniform .crlf t)) := by
  cases e with
  | lf =>
    refine ⟨?_, ?_, ?_⟩
    · rw [apply_lf, rewrite, eq_comm, toLf_eq_self_iff]
      simp
    · simp
    · rw [apply_lf, apply_lf]
      cases e' with
      | lf => simp
      | crlf => simp [apply_crlf_eq_self_iff]
  | crlf =>
    have huniform : Uniform .crlf (apply .crlf t) := (whole_apply fun h => by cases h).uniform
    have hagain : apply .crlf (e'.apply t) = apply .crlf t := by
      cases e' with
      | lf => rfl
      | crlf => exact apply_crlf_apply_crlf t
    exact ⟨by simp [apply_crlf_eq_rewrite], by simp [huniform], by simp [hagain]⟩

/-- A text with a line break of either kind. -/
def mixedText : Text := "class A\r\nend\n".toList

/-- **A text put in `lf` may keep a line break of the other kind**, and one that was put in `crlf` keeps
    all of them. -/
theorem not_apply_rewrites :
    ¬ ∀ (e e' : LineEnding) (t : Text), ¬ "\r\r\n".toList <:+: t →
      e.Uniform (e.apply t) ∧ e.apply (e'.apply t) = e.apply t := by
  intro h
  have hpair : ¬ "\r\r\n".toList <:+: mixedText := by
    rw [← Text.occursIn_iff]
    decide
  obtain ⟨huniform, -⟩ := h .lf .crlf mixedText hpair
  exact absurd huniform (by decide)

end LineEnding
end SchemaComment
