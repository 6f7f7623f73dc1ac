/-
  THE RUN OF DIRECTIVES AT THE TOP.

  Every file is split in front of all else: the directives that it opens with stay where they are, and
  the rest is searched and written.

  1. **Program** — `directiveText` takes the lines from the top as long as they are directives.
  2. **Specification** — `IsDirectiveRun`: a text of whole lines that are all directives.
     `directiveText_longest`: the directives of a text are the longest such run that it begins with,
     they take no part in what is read behind them, and every header of the text stands behind them.
  3. **The crux** — a run ends with a newline.  So a text behind it begins a line of its own, and what
     begins a line of the whole lies behind the run or begins a line of it (`prefix_of_begins`).
-/
import SchemaComment.Proofs.Header
import SchemaComment.Proofs.Joined

namespace SchemaComment

open Line

/-! ## Where a line begins -/

/-- Whether a line begins right behind the text. -/
def Text.EndsLine (t : Text) : Prop := t = [] ∨ t.getLast? = some '\n'

/-- A text behind which a line begins is its lines put together. -/
theorem Text.EndsLine.unlines_ended {t : Text} (h : t.EndsLine) :
    unlines (Lines.ofText t).ended = t := by
  refine Lines.unlines_ended ?_
  rcases h with rfl | h
  · rfl
  · obtain ⟨s, rfl⟩ := List.getLast?_eq_some_iff.mp h
    exact Lines.tail_ofText_append_newline s

/-- **What begins a line** behind whole lines begins one of them, unless all of them lie in front. -/
theorem prefix_of_begins {ls : List Line} {t above m below : Text} (hplain : ∀ l ∈ ls, '\n' ∉ l)
    (habove : above.EndsLine) (hm : '\n' ∉ m) (ht : unlines ls ++ t = above ++ (m ++ below)) :
    unlines ls <+: above ∨ ∃ l ∈ ls, m <+: l := by
  -- both sides are whole lines and then a text
  rw [← habove.unlines_ended] at ht ⊢
  have hends := congrArg (fun s => (Lines.ofText s).ended) ht
  simp only [Lines.ofText_unlines_append hplain,
    Lines.ofText_unlines_append (Lines.not_mem_ended_ofText above)] at hends
  rcases List.append_eq_append_iff.mp hends with ⟨more, hmore, -⟩ | ⟨more, hmore, hrest⟩
  · left
    rw [hmore, unlines_append]
    exact List.prefix_append _ _
  · cases more with
    | nil =>
      left
      exact ⟨[], by rw [hmore, List.append_nil, List.append_nil]⟩
    | cons l more =>
      -- the first line of what `m` begins is one of the whole lines
      right
      refine ⟨l, by simp [hmore], ?_⟩
      rw [Lines.ofText_append, Lines.ofText_of_not_mem hm, Lines.append] at hrest
      cases hbelow : (Lines.ofText below).ended with
      | nil => simp [hbelow] at hrest
      | cons k ks =>
        rw [hbelow] at hrest
        obtain ⟨rfl, -⟩ := List.cons.inj hrest
        exact List.prefix_append _ _

/-! ## Runs of directives -/

/-- A text of whole lines that are all directives, each without its newline and one carriage return in
    front of that. -/
def IsDirectiveRun (s : Text) : Prop :=
  ∃ ls : List Line, s = unlines ls ∧ ∀ l ∈ ls, '\n' ∉ l ∧ Line.isDirective l = true

/-- What a text opens with is a run of directives. -/
theorem isDirectiveRun_directiveText (t : Text) : IsDirectiveRun (directiveText t) := by
  refine ⟨(Lines.ofText t).directives, rfl, fun l hl => ⟨?_, ?_⟩⟩
  · exact Lines.not_mem_ended_ofText t l ((List.takeWhile_prefix _).subset hl)
  · exact List.all_eq_true.mp List.all_takeWhile l hl

/-- The directives of a text begin it. -/
theorem directiveText_append (t : Text) : ∃ rest, directiveText t ++ rest = t :=
  ⟨_, (Lines.unlines_directives_append _).trans (Lines.toText_ofText t)⟩

/-- **A run in front** is taken whole, and what is behind it is read as if it stood alone. -/
theorem IsDirectiveRun.directiveText_append {s : Text} (h : IsDirectiveRun s) (d : Text) :
    directiveText (s ++ d) = s ++ directiveText d := by
  obtain ⟨ls, rfl, hls⟩ := h
  rw [directiveText, Lines.ofText_unlines_append fun l hl => (hls l hl).1, Lines.directives,
    List.takeWhile_append_of_pos fun l hl => (hls l hl).2, unlines_append]
  rfl

/-- No run that a text begins with is longer than its directives. -/
theorem IsDirectiveRun.prefix_directiveText {s t : Text} (h : IsDirectiveRun s) (hs : s <+: t) :
    s <+: directiveText t := by
  obtain ⟨d, rfl⟩ := hs
  rw [h.directiveText_append]
  exact List.prefix_append _ _

/-- A run holds no header. -/
theorem IsDirectiveRun.not_isHeader {s : Text} (h : IsDirectiveRun s) :
    ∀ l ∈ (Lines.ofText s).ended, isHeader l = false := by
  obtain ⟨ls, rfl, hls⟩ := h
  rw [Lines.ofText_unlines fun l hl => (hls l hl).1]
  exact fun l hl => not_isHeader_of_isDirective (hls l hl).2

/-- **A header stands behind every run** that the text begins with. -/
theorem IsDirectiveRun.prefix_of_header {s t above m below : Text} (h : IsDirectiveRun s)
    (hm : m ∈ shortHeaders) (habove : above.EndsLine)
    (ht : s ++ t = above ++ (commented m ++ below)) : s <+: above := by
  obtain ⟨ls, rfl, hls⟩ := h
  have hplain : '\n' ∉ commented m := by
    simp only [shortHeaders, List.mem_cons, List.not_mem_nil, or_false] at hm
    rcases hm with rfl | rfl <;> decide
  rcases prefix_of_begins (fun l hl => (hls l hl).1) habove hplain ht with hbefore | ⟨l, hl, hbegins⟩
  · exact hbefore
  · have hnone := not_isHeader_of_isDirective (hls l hl).2
    rw [isHeader_iff.mpr ⟨m, hm, hbegins⟩] at hnone
    cases hnone

/-- **The directives of a text** are the longest run of directives that it begins with.  What is behind
    them opens with none, and they take no part in what is read behind them.  They hold no header, and
    every header of the text stands behind them. -/
theorem directiveText_longest (t : Text) :
    (IsDirectiveRun (directiveText t) ∧ directiveText t <+: t ∧
      ∀ s, IsDirectiveRun s → s <+: t → s <+: directiveText t) ∧
    (∀ rest, t = directiveText t ++ rest → directiveText rest = []) ∧
    (∀ d, directiveText (directiveText t ++ d) = directiveText t ++ directiveText d) ∧
    (∀ l ∈ (Lines.ofText (directiveText t)).ended, isHeader l = false) ∧
    ∀ m ∈ shortHeaders, ∀ above below : Text, above.EndsLine → t = above ++ (commented m ++ below) →
      directiveText t <+: above := by
  have hrun := isDirectiveRun_directiveText t
  obtain ⟨rest, hrest⟩ := directiveText_append t
  refine ⟨⟨hrun, ⟨rest, hrest⟩, fun s hs hst => hs.prefix_directiveText hst⟩, ?_,
    hrun.directiveText_append, hrun.not_isHeader, ?_⟩
  · intro behind hbehind
    have hwhole := hrun.directiveText_append behind
    rw [← hbehind] at hwhole
    exact List.self_eq_append_right.mp hwhole
  · intro m hm above below habove ht
    exact hrun.prefix_of_header hm habove (hrest.trans ht)

/-- Two directives, one under each line ending, and then a comment and a header. -/
def notedText : Text := "# typed: true\r\n#\tencoding: utf-8\n# notes\n# == Schema Info\n".toList

/-- The header of a text stands behind its directives. -/
theorem directiveText_longest_notedText :
    "== Schema Info".toList ∈ shortHeaders ∧
    Text.EndsLine "# typed: true\r\n#\tencoding: utf-8\n# notes\n".toList ∧
    directiveText notedText = "# typed: true\r\n#\tencoding: utf-8\n".toList ∧
    directiveText notedText <+: "# typed: true\r\n#\tencoding: utf-8\n# notes\n".toList := by
  have hheader : "== Schema Info".toList ∈ shortHeaders := by decide
  have hends : Text.EndsLine "# typed: true\r\n#\tencoding: utf-8\n# notes\n".toList :=
    Or.inr (by decide)
  obtain ⟨-, -, -, -, hbehind⟩ := directiveText_longest notedText
  exact ⟨hheader, hends, by decide, hbehind _ hheader _ ['\n'] hends (by decide)⟩

end SchemaComment
