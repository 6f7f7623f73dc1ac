/-
  THE MARKER OF A FILE THAT HAS OPTED OUT.

  A file with the skip marker anywhere in it is left alone from then on.  So no run may put the marker
  into a file that did not have it, unless it came with the block.

  1. **Program** — `optedOut`, on what `annotate` and `strip` give.
  2. **Specification** — `optedOut_annotated`: an annotated text has the marker exactly when the block
     between its markers has it.  `optedOut_stripped`: a stripped text does not have it.
  3. **The crux** — the marker holds no newline, so that it stands within one line, and no carriage
     return, so that it does not reach a line break (`optedOut_unlines_append`,
     `optedOut_append_return`).  Whatever is written is a layout, whose lines are lines of the file,
     parts of such lines, and the lines of the block.
-/
import SchemaComment.Proofs.Pieces
import SchemaComment.Proofs.Stripping

namespace SchemaComment

open Line

/-! ## Where the marker stands -/

/-- A text without a newline stands before a newline or behind it. -/
theorem infix_append_newline {n u v : Text} (hn : '\n' ∉ n) (h : n <:+: u ++ '\n' :: v) :
    n <:+: u ∨ n <:+: v := by
  obtain ⟨as, bs, heq⟩ := h
  rw [List.append_assoc] at heq
  rcases List.append_eq_append_iff.mp heq with ⟨cs, rfl, hrest⟩ | ⟨cs, rfl, hrest⟩
  · -- it begins before the newline, so it ends there too
    rcases List.append_eq_append_iff.mp hrest with ⟨ds, rfl, -⟩ | ⟨ds, rfl, hbreak⟩
    · exact Or.inl ⟨as, ds, by simp⟩
    · cases ds with
      | nil => exact Or.inl ⟨as, [], by simp⟩
      | cons d ds =>
        obtain rfl : '\n' = d := (List.cons.inj hbreak).1
        simp at hn
  · cases cs with
    | nil =>
      cases n with
      | nil => exact Or.inl (List.nil_infix)
      | cons c n =>
        obtain rfl : '\n' = c := (List.cons.inj hrest).1
        simp at hn
    | cons c cs =>
      obtain rfl : v = cs ++ (n ++ bs) := (List.cons.inj hrest).2
      exact Or.inr ⟨cs, bs, by simp⟩

theorem optedOut_iff {t : Text} : optedOut t = true ↔ skipMarker <:+: t := Text.occursIn_iff _ _

/-- No part of a text without the marker has it. -/
theorem optedOut_of_infix {s t : Text} (h : s <:+: t) (ht : optedOut t = false) :
    optedOut s = false := by
  cases hs : optedOut s with
  | false => rfl
  | true =>
    rw [optedOut_iff.mpr ((optedOut_iff.mp hs).trans h)] at ht
    cases ht

/-- The marker stands before a newline or behind it. -/
theorem optedOut_append_newline (u v : Text) :
    optedOut (u ++ '\n' :: v) = (optedOut u || optedOut v) := by
  have hnewline : '\n' ∉ skipMarker := by decide
  rw [Bool.eq_iff_iff, Bool.or_eq_true, optedOut_iff, optedOut_iff, optedOut_iff]
  constructor
  · exact infix_append_newline hnewline
  · rintro (h | h)
    · exact h.trans (List.prefix_append u _).isInfix
    · exact h.trans ((List.suffix_cons '\n' v).trans (List.suffix_append u _)).isInfix

/-- **The marker stands in one of the lines**, or in the open end. -/
theorem optedOut_unlines_append (ls : List Line) (t : Text) :
    optedOut (unlines ls ++ t) = (ls.any optedOut || optedOut t) := by
  induction ls with
  | nil => rfl
  | cons l ls ih =>
    rw [unlines_cons, List.append_assoc, List.cons_append, optedOut_append_newline, ih, List.any_cons,
      Bool.or_assoc]

theorem optedOut_unlines (ls : List Line) : optedOut (unlines ls) = ls.any optedOut := by
  have hnil : optedOut [] = false := by decide
  have hlines := optedOut_unlines_append ls []
  rwa [List.append_nil, hnil, Bool.or_false] at hlines

/-- The same, on the lines of a text. -/
theorem optedOut_eq_any (t : Text) :
    optedOut t = ((Lines.ofText t).ended.any optedOut || optedOut (Lines.ofText t).tail) := by
  rw [← optedOut_unlines_append]
  exact congrArg optedOut (Lines.toText_ofText t).symm

/-- **A carriage return takes no part** in the marker. -/
theorem optedOut_append_return (t : Text) : optedOut (t ++ ['\r']) = optedOut t := by
  rw [Bool.eq_iff_iff, optedOut_iff, optedOut_iff, List.infix_concat_iff, or_iff_right]
  intro hend
  have hlast := hend.getLast (by decide)
  rw [List.getLast_concat] at hlast
  exact absurd hlast (by decide)

namespace LineEnding

theorem optedOut_append_text (e : LineEnding) (t : Text) : optedOut (t ++ e.text) = optedOut t := by
  have hnil : optedOut [] = false := by decide
  have hbreak : ∀ u : Text, optedOut (u ++ ['\n']) = optedOut u := by
    intro u
    rw [optedOut_append_newline, hnil, Bool.or_false]
  cases e with
  | lf => exact hbreak t
  | crlf =>
    rw [text, List.append_cons, hbreak, optedOut_append_return]

theorem optedOut_onLine (e : LineEnding) (l : Line) : optedOut (e.onLine l) = optedOut l := by
  cases e with
  | lf => rfl
  | crlf =>
    rw [onLine, withReturn]
    split
    · rfl
    · exact optedOut_append_return l

/-- **Put in a line ending**, a text has the marker when it had it before. -/
theorem optedOut_apply (e : LineEnding) (t : Text) : optedOut (e.apply t) = optedOut t := by
  have hline : optedOut ∘ e.onLine = optedOut := funext e.optedOut_onLine
  rw [optedOut_eq_any, ofText_apply, List.any_map, hline, ← optedOut_eq_any]

end LineEnding

/-! ## What is written -/

namespace SourceFile

variable {p : RegionShape} {c : Text} {e : LineEnding} {core : List Line} {pos : Position}
  {a : Action} {L : Layout}

/-- No line of a file without the marker has it. -/
theorem not_optedOut_lines (p : RegionShape) (hout : optedOut c = false) :
    (∀ l ∈ (ofText p c).directives ++ (ofText p c).rest.ended, optedOut l = false) ∧
      optedOut (ofText p c).rest.tail = false := by
  rw [optedOut_eq_any, lines_ofText p c] at hout
  simpa only [Bool.or_eq_false_iff, List.any_eq_false, Bool.not_eq_true] using hout

/-- The body of a file without the marker does not have it. -/
theorem not_optedOut_body (p : RegionShape) (hout : optedOut c = false) :
    optedOut (ofText p c).body = false := by
  obtain ⟨hlines, htail⟩ := not_optedOut_lines p hout
  have hrest : ∀ ls ⊆ (ofText p c).rest.ended,
      optedOut (unlines ls ++ (ofText p c).rest.tail) = false := by
    intro ls hls
    rw [optedOut_unlines_append, htail, Bool.or_false, List.any_eq_false]
    exact fun l hl => Bool.eq_false_iff.mp (hlines l (List.mem_append_right _ (hls hl)))
  unfold body
  split
  · exact hrest _ (List.Subset.refl _)
  · rename_i r hr
    refine hrest _ fun l hl => ?_
    rw [← allLines_of_region hr]
    exact Region.mem_allLines_of_around hl

/-- A line that an action writes is one of the block, or it does not have the marker. -/
theorem Writes.not_optedOut (hout : optedOut c = false)
    (h : (ofText p c).Writes e core pos a L) :
    (∀ l ∈ L.lines, l ∈ core ∨ optedOut l = false) ∧ optedOut L.tail = false := by
  obtain ⟨hlines, htail⟩ := not_optedOut_lines p hout
  have hbody := not_optedOut_body p hout
  have hempty : optedOut (e.onLine []) = false := (e.optedOut_onLine []).trans (by decide)
  have hdirective : ∀ l ∈ (ofText p c).directives, optedOut l = false :=
    fun l hl => hlines l (List.mem_append_left _ hl)
  cases h with
  | before =>
    have htrimmed : optedOut (Text.trimStart (ofText p c).body) = false :=
      optedOut_of_infix (List.dropWhile_suffix _).isInfix hbody
    rw [optedOut_eq_any, Bool.or_eq_false_iff, List.any_eq_false] at htrimmed
    refine ⟨fun l hl => ?_, htrimmed.2⟩
    rcases mem_lines_layoutBefore hl with hl | rfl | hl | hl
    · exact Or.inr (hdirective l hl)
    · exact Or.inr hempty
    · exact Or.inl hl
    · exact Or.inr (Bool.eq_false_iff.mpr (htrimmed.1 l hl))
  | after =>
    have htrimmed : optedOut (unlines (trimmedLines e (ofText p c).body)) = false := by
      rw [unlines_trimmedLines, e.optedOut_append_text]
      refine optedOut_of_infix ?_ hbody
      conv => rhs; rw [← Text.trimEnd_append_blankEnd (ofText p c).body]
      exact (List.prefix_append _ _).isInfix
    rw [optedOut_unlines, List.any_eq_false] at htrimmed
    refine ⟨fun l hl => ?_, show optedOut [] = false by decide⟩
    rcases mem_lines_layoutAfter hl with hl | rfl | hl | hl
    · exact Or.inr (hdirective l hl)
    · exact Or.inr hempty
    · exact Or.inl hl
    · exact Or.inr (Bool.eq_false_iff.mpr (htrimmed l hl))
  | inPlace hr =>
    have hall := allLines_of_region hr
    refine ⟨fun l hl => (Layout.mem_lines_withCore hl).imp_right fun hl => ?_, htail⟩
    refine hlines l ?_
    rw [show (ofText p c).rest.ended = _ from hall.symm]
    exact hl

/-- **What an action writes** has the marker exactly when the block has it. -/
theorem Writes.optedOut_text (hout : optedOut c = false)
    (h : (ofText p c).Writes e core pos a L) : optedOut L.text = core.any optedOut := by
  obtain ⟨hlines, htail⟩ := h.not_optedOut hout
  rw [Layout.text, optedOut_unlines_append, htail, Bool.or_false, Bool.eq_iff_iff, List.any_eq_true,
    List.any_eq_true]
  constructor
  · rintro ⟨l, hl, hmarker⟩
    refine ⟨l, (hlines l hl).resolve_right ?_, hmarker⟩
    simp [hmarker]
  · rintro ⟨l, hl, hmarker⟩
    refine ⟨l, ?_, hmarker⟩
    rw [← h.core_eq] at hl
    simp [Layout.lines, Region.allLines, Region.lines, hl]

end SourceFile

section

variable {o : Options} {path : String} {c t s block : Text} {k : FileKind}

/-- **An annotated text has the marker** exactly when the block between its markers has it. -/
theorem optedOut_annotated (hb : Rendered block) (h : annotate o path c block k = .ok (some t)) :
    optedOut t = optedOut (o.wrapper.wrap block) := by
  obtain ⟨hout, -, -, -, a, ha, rfl⟩ := annotate_eq_some_iff.mp h
  have hwhole : (Lines.ofText (o.wrapper.wrap block)).tail = [] := by
    rw [Wrapper.wrap_eq hb]
    exact Lines.tail_ofText_unlines _
  -- what is spliced in are whole lines, so that it is the core of a layout
  have hcore : unlines (Lines.ofText ((LineEnding.detect c).apply (o.wrapper.wrap block))).ended =
      (LineEnding.detect c).apply (o.wrapper.wrap block) := by
    apply Lines.unlines_ended
    rw [LineEnding.ofText_apply]
    exact hwhole
  obtain ⟨L, hwrites, htext⟩ := SourceFile.exists_writes ha hcore.symm (o.positionFor k)
  rw [← htext, hwrites.optedOut_text hout, ← optedOut_unlines, hcore, LineEnding.optedOut_apply]

/-- **A stripped text does not have the marker**: its lines stand in the file. -/
theorem optedOut_stripped (h : strip o path t = .ok (some s)) : optedOut s = false := by
  obtain ⟨hout, -, r, hr, rfl⟩ := strip_eq_some_iff.mp h
  obtain ⟨hall, -⟩ := RegionShape.lines_of_first? hr
  rw [optedOut_eq_any, ← hall, Bool.or_eq_false_iff, List.any_eq_false] at hout
  rw [optedOut_unlines_append, Bool.or_eq_false_iff, List.any_eq_false]
  exact ⟨fun l hl => hout.1 l (Region.mem_allLines_of_around hl), hout.2⟩

end

end SchemaComment
