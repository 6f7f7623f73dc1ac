/-
  WHAT A FILE KEEPS OF ITS LINES.

  Annotating may move blank lines about and take blanks off the ends of lines.  The rest of a file is
  what its authors wrote, and it has to come out as it went in, line by line.

  1. **Program** — `Text.sourceLines` of the directives and the body: the lines that are not all
     blank, without the blanks at their ends, before annotating and after.
  2. **Specification** — `sourceLines_annotated`: they are the same, but for one line.  A file that is
     written anew before its body loses the indentation of the first line of the body that is not
     blank, and where that line is indented the lines differ.
  3. **The crux** — trimming takes blanks only, and all that it can take from a line that stays are
     the blanks next to the seam (`sourceLines_remainder`).
-/
import SchemaComment.Proofs.RoundTrip
import SchemaComment.Proofs.Pieces

namespace SchemaComment

open Line

/-- The line ending takes no part in a trimmed line. -/
theorem LineEnding.trim_onLine (e : LineEnding) (l : Line) :
    Text.trim (e.onLine l) = Text.trim l := by
  have hreturn : ∀ c ∈ ['\r'], Text.isBlank c = true := by
    intro c hc
    obtain rfl := List.mem_singleton.mp hc
    rfl
  cases e with
  | lf => rfl
  | crlf =>
    show Text.trim (withReturn l) = Text.trim l
    unfold withReturn
    split
    · rfl
    · rw [← Text.trimStart_trimEnd, Text.trimEnd_append_of_isBlank hreturn, Text.trimStart_trimEnd]

/-! ## The seam -/

namespace SourceFile

/-- Whether the file is written anew with its block before the body. -/
def trimsFront (f : SourceFile) (o : Options) (k : FileKind) : Bool :=
  o.positionFor k == .before && (!f.hasRegion || o.force)

/-- Whether the first line of the body that is not blank is indented. -/
def opensIndented (f : SourceFile) : Bool :=
  (Text.sourceLines f.body).head?.any fun l => l.head?.any Text.isBlank

/-- The directives are whole lines, so what follows them has its own source lines. -/
theorem sourceLines_directiveText_append (p : RegionShape) (c t : Text) :
    Text.sourceLines ((ofText p c).directiveText ++ t) =
      Text.sourceLines (ofText p c).directiveText ++ Text.sourceLines t :=
  Text.sourceLines_unlines_append (not_mem_lines_ofText p c).1 t

/-- **The source lines that an action leaves.** -/
theorem sourceLines_remainder (p : RegionShape) (c : Text) (e : LineEnding) (pos : Position)
    (a : Action) :
    Text.sourceLines ((ofText p c).remainder e pos a) =
      Text.sourceLines (ofText p c).directiveText ++
        if pos = .before ∧ a = .regenerate
        then (Text.sourceLines (ofText p c).body).modifyHead Text.trimStart
        else Text.sourceLines (ofText p c).body := by
  have hfront := sourceLines_directiveText_append p c
  cases a with
  | substitute =>
    rw [if_neg (by simp)]
    exact hfront _
  | regenerate =>
    cases pos with
    | before =>
      rw [if_pos ⟨rfl, rfl⟩, ← Text.sourceLines_trimStart]
      exact hfront _
    | after =>
      -- the blanks that were cut off the end are put back, and the line break is taken off
      have hend := Text.sourceLines_append_blank
        (fun _ hc => Text.isBlank_of_mem_blankEnd (t := (ofText p c).body) hc)
        (Text.trimEnd (ofText p c).body)
      rw [Text.trimEnd_append_blankEnd] at hend
      rw [if_neg (by simp), hend, ← hfront]
      exact Text.sourceLines_append_blank (fun _ hc => e.isBlank_of_mem_text hc) _

end SourceFile

/-- A text is trimmed already if its first character is no blank. -/
theorem Text.trimStart_eq_self_iff {t : Text} :
    trimStart t = t ↔ t.head?.any isBlank = false := by
  constructor
  · intro h
    cases hb : t.head?.any isBlank with
    | false => rfl
    | true =>
      obtain ⟨c, hc, hblank⟩ := (Option.any_eq_true _ _).mp hb
      rw [isBlank_head_trimStart (t := t) (by rw [h]; exact hc)] at hblank
      cases hblank
  · intro h
    refine trimStart_of_head? fun c hc => ?_
    rw [Option.mem_def.mp hc] at h
    exact h

/-- Taking the indentation off the first line changes nothing just where there is none. -/
theorem modifyHead_trimStart_eq_iff {ls : List Line} :
    ls.modifyHead Text.trimStart = ls ↔ (ls.head?.any fun l => l.head?.any Text.isBlank) = false := by
  cases ls with
  | nil => simp
  | cons l ls => simp [Text.trimStart_eq_self_iff]

/-! ## What is kept -/

section

variable {o : Options} {path : String} {c t block : Text} {k : FileKind}

/-- **Annotating keeps the source lines** of directives and body, but for the indentation of the line
    that a block is put before. -/
theorem sourceLines_annotated (hw : o.wrapper.IsPlain) (hb : Rendered block)
    (hc : isHeader (Lines.ofText c).tail = false) (h : annotate o path c block k = .ok (some t)) :
    let f := SourceFile.ofText o.shape c
    let g := SourceFile.ofText o.shape t
    Text.sourceLines (g.directiveText ++ g.body) = Text.sourceLines f.directiveText ++
        (if f.trimsFront o k then (Text.sourceLines f.body).modifyHead Text.trimStart
          else Text.sourceLines f.body) ∧
      (Text.sourceLines (g.directiveText ++ g.body) = Text.sourceLines (f.directiveText ++ f.body) ↔
        ¬ (f.trimsFront o k = true ∧ f.opensIndented = true)) := by
  intro f g
  obtain ⟨a, L, hL, rfl⟩ := exists_annotation hw.toIsSingleLine hb hc h
  have hanew : (o.positionFor k = .before ∧ a = .regenerate) ↔ f.trimsFront o k = true := by
    rw [SourceFile.eq_regenerate_iff_of_force hL.chosen]
    simp [SourceFile.trimsFront, f]
  have hg : g.directiveText ++ g.body =
      f.remainder (LineEnding.detect c) (o.positionFor k) a := by
    have hback : g = _ := hL.readBack hw hb
    rw [hback]
    exact hL.writes.remainder_eq
  have hkept := SourceFile.sourceLines_remainder o.shape c (LineEnding.detect c) (o.positionFor k) a
  simp only [hanew] at hkept
  have hsplit : Text.sourceLines (f.directiveText ++ f.body) = _ :=
    SourceFile.sourceLines_directiveText_append o.shape c _
  refine ⟨by rw [hg]; exact hkept, ?_⟩
  rw [hg, hsplit]
  refine Iff.trans (by rw [hkept, List.append_cancel_left_eq]) ?_
  cases htrims : f.trimsFront o k with
  | false => simp [f]
  | true => simpa [SourceFile.opensIndented] using modifyHead_trimStart_eq_iff

/-- A file with blank lines around its body and blanks behind a line of it. -/
def spacedText : Text :=
  unlines (["# typed: true", "", "class A", "  b  ", "end", "", ""].map String.toList)

/-- The same file with its block behind the body. -/
def spacedAnnotated : Text :=
  unlines (["# typed: true", "", "class A", "  b  ", "end", ""].map String.toList) ++ shortBlock

/-- Options under which a block goes behind the body. -/
def afterOptions : Options := { position := .after }

theorem annotate_spacedText :
    annotate afterOptions "a.rb" spacedText shortBlock .model = .ok (some spacedAnnotated) := by
  have hone : (SourceFile.ofText afterOptions.shape spacedText).regionCount ≤ 1 := by
    rw [SourceFile.regionCount_ofText (p := afterOptions.shape) isSingleLine_usual]
    decide
  exact annotate_eq_some_iff.mpr
    ⟨by decide, hone, rfl, by decide, .regenerate, by decide, by decide⟩

/-- The file keeps its four lines, the second of them indented. -/
theorem sourceLines_annotated_spacedText :
    let g := SourceFile.ofText afterOptions.shape spacedAnnotated
    Text.sourceLines (g.directiveText ++ g.body) =
      ["# typed: true".toList, "class A".toList, "  b".toList, "end".toList] := by
  obtain ⟨-, hkept⟩ := sourceLines_annotated Wrapper.isPlain_empty rendered_shortBlock (by decide)
    annotate_spacedText
  exact (hkept.mpr (by decide)).trans (by decide)

/-- A file whose first line is indented. -/
def indentedText : Text := unlines ["  class A".toList, "end".toList]

/-- The same file with its block: the line is indented no more. -/
def levelledText : Text := shortBlock ++ unlines ["class A".toList, "end".toList]

/-- **Annotating may take indentation off**: the first line of the body is trimmed. -/
theorem not_sourceLines_annotated :
    ¬ ∀ (o : Options) (path : String) (c t block : Text) (k : FileKind), o.wrapper = {} →
      (SourceFile.ofText o.shape c).regionCount ≤ 1 → (Lines.ofText c).tail = [] →
      Rendered block → annotate o path c block k = .ok (some t) →
      Text.sourceLines ((SourceFile.ofText o.shape t).directiveText ++
          (SourceFile.ofText o.shape t).body) =
        Text.sourceLines ((SourceFile.ofText o.shape c).directiveText ++
          (SourceFile.ofText o.shape c).body) := by
  intro h
  have hone : (SourceFile.ofText ({} : Options).shape indentedText).regionCount ≤ 1 := by
    rw [SourceFile.regionCount_ofText isSingleLine_usual]
    decide
  have hannotate : annotate {} "a.rb" indentedText shortBlock .model = .ok (some levelledText) :=
    annotate_eq_some_iff.mpr ⟨by decide, hone, rfl, by decide, .regenerate, by decide, by decide⟩
  have hsame := h {} "a.rb" indentedText levelledText shortBlock .model rfl hone (by decide)
    rendered_shortBlock hannotate
  exact absurd hsame (by decide)

end

end SchemaComment
