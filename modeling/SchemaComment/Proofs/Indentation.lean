/-
  FILES WITHOUT AN INDENTED HEADER.

  Writing a file anew can make a header of a comment that was indented.  A file that has no such
  comment is safe, and it stays so whatever is done to it.

  1. **Program** — `Line.isIndentedHeader` is one test on a line, `Unindented` the same for all the
     lines of a text.
  2. **Specification** — `annotate_twice_of_unindented` and `session_sound_of_unindented`: from such
     a file, annotating twice is annotating once, and every step of a session is as expected.
  3. **The crux** — no step brings an indented header in (`Step.unindented_next`).  What is written
     are comment lines, and a line that is trimmed loses its indentation or its end, not its
     beginning.
-/
import SchemaComment.Proofs.Idempotence
import SchemaComment.Proofs.Session

namespace SchemaComment

open Line

/-! ## The line -/

namespace Line

/-- Whether the line is no header, but would be one without its indentation. -/
def isIndentedHeader (l : Line) : Bool := isHeader (Text.trimStart l) && !isHeader l

/-- A line that begins with no blank has no indentation. -/
theorem trimStart_cons {c : Char} (h : Text.isBlank c = false) (r : Line) :
    Text.trimStart (c :: r) = c :: r := List.dropWhile_cons_of_neg (by simp [h])

theorem not_isIndentedHeader_cons {c : Char} (h : Text.isBlank c = false) (r : Line) :
    isIndentedHeader (c :: r) = false := by
  rw [isIndentedHeader, trimStart_cons h]
  cases isHeader (c :: r) <;> rfl

theorem not_isIndentedHeader_of_isComment {l : Line} (h : isComment l = true) :
    isIndentedHeader l = false := by
  obtain ⟨r, rfl⟩ := isComment_iff.mp h
  exact not_isIndentedHeader_cons Text.isBlank_hash r

theorem not_isIndentedHeader_of_isEmpty {l : Line} (h : isEmpty l = true) :
    isIndentedHeader l = false := by
  rcases isEmpty_iff.mp h with rfl | rfl <;> rfl

/-- The beginning of a line is no indented header when the line is none. -/
theorem not_isIndentedHeader_of_begins {k l : Line} (h : k <+: l)
    (hl : isIndentedHeader l = false) : isIndentedHeader k = false := by
  obtain ⟨m, rfl⟩ := h
  cases hk : isHeader (Text.trimStart k) with
  | false => rw [isIndentedHeader, hk, Bool.false_and]
  | true =>
    have hne : Text.trimStart k ≠ [] := by
      intro hnil
      rw [hnil] at hk
      cases hk
    have hwhole : Text.trimStart (k ++ m) = Text.trimStart k ++ m := by
      have hsplit : Text.trimStart (k ++ m) =
          if (Text.trimStart k).isEmpty then Text.trimStart m else Text.trimStart k ++ m :=
        List.dropWhile_append
      rwa [if_neg (by simpa using hne)] at hsplit
    -- the line is a header with its indentation off, so it is one, and so has none
    rw [isIndentedHeader, hwhole, isHeader_append hk, Bool.true_and, Bool.not_eq_false'] at hl
    obtain ⟨r, hr⟩ := isComment_iff.mp (isComment_of_isHeader hl)
    cases k with
    | nil => exact absurd rfl hne
    | cons c k =>
      obtain rfl : c = '#' := (List.cons.inj hr).1
      exact not_isIndentedHeader_cons Text.isBlank_hash k

/-- Blanks at the end make no indented header. -/
theorem not_isIndentedHeader_append_blank {l b : Line} (hb : ∀ c ∈ b, Text.isBlank c = true)
    (hl : isIndentedHeader l = false) : isIndentedHeader (l ++ b) = false := by
  rw [isIndentedHeader, isHeader_append_blank hb, Text.trimStart, List.dropWhile_append]
  split
  · -- the line is all blank
    have hnil : b.dropWhile Text.isBlank = [] := by
      have hall : (b ++ []).dropWhile Text.isBlank = [] := List.dropWhile_append_of_pos hb
      rwa [List.append_nil] at hall
    rw [hnil]
    rfl
  · rw [isHeader_append_blank hb]
    exact hl

end Line

/-! ## The text -/

/-- Whether no line of the text is an indented header. -/
def Unindented (t : Text) : Prop := ∀ l ∈ (Lines.ofText t).ended, isIndentedHeader l = false

instance (t : Text) : Decidable (Unindented t) :=
  inferInstanceAs (Decidable (∀ l ∈ (Lines.ofText t).ended, isIndentedHeader l = false))

namespace Unindented

variable {t : Text}

/-- Trimming the front takes the indentation of the first line off and leaves the others. -/
theorem trimStart (h : Unindented t) : Unindented (Text.trimStart t) := by
  intro l hl
  cases hls : (Lines.ofText (Text.trimStart t)).ended with
  | nil =>
    rw [hls] at hl
    cases hl
  | cons k ks =>
    have hwhole := Lines.ended_of_append_right (u := t.takeWhile Text.isBlank) hls
    rw [Text.takeWhile_append_trimStart] at hwhole
    rw [hls] at hl
    rcases List.mem_cons.mp hl with rfl | hl
    · obtain ⟨c, r, rfl, hc⟩ := head?_of_mem_head?_ended (by rw [hls]; rfl)
        (fun _ hc => Text.isBlank_head_trimStart hc)
      exact not_isIndentedHeader_cons (Text.isBlank_head_trimStart hc) r
    · refine h l ?_
      rw [hwhole]
      exact List.mem_append_right _ (List.mem_cons_of_mem _ hl)

/-- Trimming the end shortens a line at its end and leaves the others. -/
theorem trimmedLines (h : Unindented t) (ht : (Lines.ofText t).tail = []) (e : LineEnding) :
    ∀ l ∈ trimmedLines e t, isIndentedHeader l = false := by
  have hwhole := Text.trimEnd_append_blankEnd t
  intro l hl
  rcases List.mem_append.mp hl with hl | hl
  · have hbegins := Lines.ended_of_append_left (Text.trimEnd t) (Text.blankEnd t)
    rw [hwhole] at hbegins
    exact h l (hbegins.subset hl)
  · rw [List.mem_singleton.mp hl]
    refine not_isIndentedHeader_append_blank (fun c hc => e.isBlank_of_mem_onLine_nil hc) ?_
    have hbegins := Lines.tail_of_append_left (Text.trimEnd t) (Text.blankEnd t)
    rw [hwhole] at hbegins
    rcases hbegins with ⟨k, hk, hbegins⟩ | hbegins
    · exact not_isIndentedHeader_of_begins hbegins (h k hk)
    · rw [ht, List.prefix_nil] at hbegins
      rw [hbegins]
      rfl

end Unindented

namespace SourceFile

variable {p : RegionShape} {t : Text} {e : LineEnding} {core : List Line} {pos : Position}
  {a : Action} {L : Layout}

theorem unindented_rest (h : Unindented t) :
    (∀ l ∈ (ofText p t).directives, isIndentedHeader l = false) ∧
      ∀ l ∈ (ofText p t).rest.ended, isIndentedHeader l = false := by
  rw [Unindented, lines_ofText p t] at h
  exact ⟨fun l hl => h l (List.mem_append_left _ hl), fun l hl => h l (List.mem_append_right _ hl)⟩

theorem unindented_bodyLines (hp : p.IsSingleLine) (h : Unindented t) :
    ∀ l ∈ (ofText p t).bodyLines, isIndentedHeader l = false :=
  fun l hl => (unindented_rest h).2 l (mem_rest_of_mem_bodyLines hp hl)

/-- **A body without an indented header** hides none. -/
theorem hidesHeader_eq_false (hp : p.IsSingleLine) (hone : (ofText p t).regionCount ≤ 1)
    (h : Unindented t) : (ofText p t).hidesHeader = false := by
  have hbody := ofText_body hp t
  unfold hidesHeader
  cases hls : (Lines.ofText (Text.trimStart (ofText p t).body)).ended with
  | nil => rfl
  | cons l ls =>
    obtain ⟨c, r, rfl, hc⟩ := head?_of_mem_head?_ended (by rw [hls]; rfl)
      (fun _ hc => Text.isBlank_head_trimStart hc)
    -- the line of the body, with the blanks in front of it
    have hwhole := Lines.ended_of_append_right
      (u := (ofText p t).body.takeWhile Text.isBlank) hls
    rw [Text.takeWhile_append_trimStart, hbody] at hwhole
    have hmem : (Lines.ofText ((ofText p t).body.takeWhile Text.isBlank)).tail ++ c :: r ∈
        (ofText p t).bodyLines := by
      have hlines : (ofText p t).bodyLines = _ := hwhole
      rw [hlines]
      exact List.mem_append_right _ List.mem_cons_self
    have hblank : ∀ d ∈ (Lines.ofText ((ofText p t).body.takeWhile Text.isBlank)).tail,
        Text.isBlank d = true := by
      intro d hd
      refine List.all_eq_true.mp (List.all_takeWhile (l := (ofText p t).body)) d ?_
      rw [← Lines.toText_ofText ((ofText p t).body.takeWhile Text.isBlank), Lines.toText]
      exact List.mem_append_right _ hd
    have hindented := unindented_bodyLines hp h _ hmem
    rw [isIndentedHeader, not_isHeader_bodyLines hp hone _ hmem, Text.trimStart,
      List.dropWhile_append_of_pos hblank] at hindented
    have hsame := trimStart_cons (Text.isBlank_head_trimStart hc) r
    rw [Text.trimStart] at hsame
    simpa [hsame] using hindented

/-- **No action brings an indented header in**, where the file has no open end. -/
theorem Writes.unindented (hp : p.IsSingleLine) (h : (ofText p t).Writes e core pos a L)
    (ht : (Lines.ofText t).tail = []) (hcore : p.IsCore core) (hu : Unindented t) :
    ∀ l ∈ L.lines, isIndentedHeader l = false := by
  have hbreak : isIndentedHeader (e.onLine []) = false :=
    not_isIndentedHeader_of_isEmpty e.isEmpty_onLine_nil
  have hcomment : ∀ l ∈ core, isIndentedHeader l = false :=
    fun l hl => not_isIndentedHeader_of_isComment (hcore.comment l hl)
  obtain ⟨hdirective, hrest⟩ := unindented_rest (p := p) hu
  have hbody : Unindented (ofText p t).body := by
    rw [Unindented, ofText_body hp]
    exact unindented_bodyLines hp hu
  intro l hl
  cases h with
  | before =>
    rcases mem_lines_layoutBefore hl with hl | rfl | hl | hl
    · exact hdirective l hl
    · exact hbreak
    · exact hcomment l hl
    · exact hbody.trimStart l hl
  | after =>
    have hclosed : (Lines.ofText (ofText p t).body).tail = [] := by
      rw [lines_ofText p t] at ht
      rw [ofText_body hp]
      exact ht
    rcases mem_lines_layoutAfter hl with hl | rfl | hl | hl
    · exact hdirective l hl
    · exact hbreak
    · exact hcomment l hl
    · exact hbody.trimmedLines hclosed e l hl
  | @inPlace pos r hr =>
    obtain ⟨-, -, hall⟩ := fits_layout hp hr
    rcases Layout.mem_lines_withCore hl with hl | hl
    · exact hcomment l hl
    · rcases List.mem_append.mp hl with hl | hl
      · exact hdirective l hl
      · exact hrest l (hall ▸ hl)

end SourceFile

namespace Step

variable {s : Step} {t : Text}

/-- **A step brings no indented header in.** -/
theorem unindented_next (hs : s.Valid) (ht : (Lines.ofText t).tail = []) (hu : Unindented t) :
    Unindented (s.next t) := by
  rcases next_cases s t with hsame | hrun
  · rw [hsame]
    exact hu
  · cases s with
    | strip o =>
      obtain ⟨r, -, hall, -, hlines⟩ := exists_region_of_strip hs hrun
      intro l hl
      rw [hlines] at hl
      refine hu l ?_
      rw [← hall]
      exact Region.mem_allLines_of_around hl
    | annotate o block k =>
      obtain ⟨hb, hw⟩ := hs
      obtain ⟨a, L, hL, htext⟩ := exists_annotation hw hb (by rw [ht]; rfl) hrun
      rw [← htext, Unindented, Layout.ofText_text hL.fits]
      exact hL.writes.unindented (Options.isSingleLine_shape hw) ht
        (Wrapper.isCore_written (Or.inr rfl) hb _) hu

/-- Over a text without an indented header no step bares one. -/
theorem not_bares_of_unindented (hs : s.Valid) (ht : Clean t) (hu : Unindented t) :
    s.bares t = false := by
  cases s with
  | strip o => rfl
  | annotate o block k =>
    have hp := Options.isSingleLine_shape hs.2
    have hone : (SourceFile.ofText o.shape t).regionCount ≤ 1 := by
      rw [← SourceFile.count_eq_regionCount hp hp, RegionShape.count_eq hp]
      exact ht.one
    have hhides := SourceFile.hidesHeader_eq_false hp hone hu
    cases ha : (SourceFile.ofText o.shape t).action? o.force (o.wrapper.wrap block) <;>
      simp [bares, ha, SourceFile.baresHeader, hhides]

end Step

/-! ## What follows for a file -/

/-- No step of a session from a text without an indented header bares one. -/
theorem not_bares_of_unindented {c : Text} {steps : List Step} (hc : Clean c)
    (hs : ∀ s ∈ steps, s.Valid) (hu : Unindented c) :
    ∀ x ∈ visits c steps, x.2.bares x.1 = false := by
  induction steps generalizing c with
  | nil =>
    intro x hx
    cases hx
  | cons s ss ih =>
    have hvalid : s.Valid := hs s List.mem_cons_self
    have hfirst : s.bares c = false := Step.not_bares_of_unindented hvalid hc hu
    have hnext : Clean (s.next c) := Step.clean_next hvalid hc hfirst
    have hnextu : Unindented (s.next c) := Step.unindented_next hvalid hc.closed hu
    have hrest := ih hnext (fun s' h' => hs s' (List.mem_cons_of_mem s h')) hnextu
    intro x hx
    rcases List.mem_cons.mp hx with rfl | hx
    · exact hfirst
    · exact hrest x hx

/-- **A session without an indented header** goes as expected, whatever its steps. -/
theorem session_sound_of_unindented {c : Text} {steps : List Step} {p : RegionShape}
    (hp : p.IsSingleLine) (hone : p.count c ≤ 1) (hclosed : (Lines.ofText c).tail = [])
    (hs : ∀ s ∈ steps, s.Valid) (hu : Unindented c) : ∀ x ∈ visits c steps, x.2.Sound x.1 := by
  have hclean := clean_of_count hp hone hclosed
  exact sound_of_clean hclean hs (not_bares_of_unindented hclean hs hu)

/-- **Annotating twice without an indented header** is annotating once. -/
theorem annotate_twice_of_unindented {o : Options} {path : String} {c t block : Text} {k : FileKind}
    (hforce : o.force = false) (hw : o.wrapper.IsPlain) (hb : Rendered block)
    (hc : isHeader (Lines.ofText c).tail = false) (hu : Unindented c)
    (h : annotate o path c block k = .ok (some t)) : annotate o path t block k = .ok none := by
  obtain ⟨-, hone, hfrozen, -⟩ := annotate_eq_some_iff.mp h
  obtain ⟨a, L, hL, rfl⟩ := exists_annotation hw.toIsSingleLine hb hc h
  have hhides := SourceFile.hidesHeader_eq_false (Options.isSingleLine_shape hw.toIsSingleLine)
    hone hu
  refine annotate_layout_eq_none hL hforce hfrozen hw hb (Or.inl ?_)
  rw [SourceFile.baresHeader, hhides, Bool.and_false]

end SchemaComment
