/-
  THE LINE BREAKS OF A WRITTEN FILE.

  A file whose line breaks are all of one kind keeps them so: what is written into it is put in its
  line ending, and nothing that is cut out or set together makes or breaks a pair of carriage return
  and newline.

  1. **Program** — `annotate` and `strip`, for markers and blocks of any text.
  2. **Specification** — `LineEnding.Uniform`: before each newline of a text there is a carriage
     return, or before none.  `keeps_lineEnding`: what comes of a uniform file is uniform.
  3. **The crux** — where two texts meet, a newline at the front of the second one is the only thing
     that can go wrong (`Uniform.append`).  A text uniform in `crlf` cannot begin with one, and in
     `lf` it is enough that the first text does not end in a return (`Whole`).  Trimming takes blanks
     off the seams, and so leaves neither.
-/
import Mathlib.Data.List.Basic
import SchemaComment.Proofs.Stripping

namespace SchemaComment

open Line

namespace LineEnding

variable {e : LineEnding} {s t : Text} {ls : List Line}

/-- Before each newline there is a carriage return, or before none. -/
def Uniform (e : LineEnding) (t : Text) : Prop :=
  ∀ u v, t = u ++ '\n' :: v → (u.getLast? = some '\r' ↔ e = .crlf)

/-! ## Pieces of uniform texts -/

theorem uniform_of_not_mem (h : '\n' ∉ t) (e : LineEnding) : e.Uniform t := by
  rintro u v rfl
  simp at h

/-- A text without a return is uniform in `lf`. -/
theorem uniform_lf_of_not_mem (h : '\r' ∉ t) : Uniform .lf t := by
  rintro u v rfl
  refine iff_of_false (fun hlast => h ?_) (by simp)
  exact List.mem_append_left _ (List.mem_of_getLast? hlast)

/-- A uniform text in `crlf` does not begin with a newline. -/
theorem Uniform.head?_ne (h : Uniform .crlf t) : t.head? ≠ some '\n' := by
  intro hhead
  obtain ⟨v, rfl⟩ := List.head?_eq_some_iff.mp hhead
  have hreturn := (h [] v rfl).mpr rfl
  cases hreturn

/-- **Two uniform texts one after the other**: all that matters is what stands before a newline at
    the front of the second. -/
theorem Uniform.append (hs : e.Uniform s) (ht : e.Uniform t)
    (hseam : e = .lf → t.head? = some '\n' → s.getLast? ≠ some '\r') : e.Uniform (s ++ t) := by
  have hmeet : t.head? = some '\n' → (s.getLast? = some '\r' ↔ e = .crlf) := by
    intro hhead
    cases e with
    | lf =>
      have hclosed := hseam rfl hhead
      simp [hclosed]
    | crlf => exact absurd hhead ht.head?_ne
  intro u v h
  rcases List.append_eq_append_iff.mp h with ⟨w, rfl, hw⟩ | ⟨w, rfl, hw⟩
  · -- the newline is in the second text, at its front or behind that
    cases w with
    | nil =>
      rw [List.append_nil]
      exact hmeet (by rw [hw]; rfl)
    | cons c w =>
      rw [List.getLast?_append_of_ne_nil _ (List.cons_ne_nil c w)]
      exact ht (c :: w) v hw
  · -- the newline is behind all of the first text, or in it
    cases w with
    | nil =>
      rw [List.nil_append] at hw
      rw [List.append_nil] at hmeet
      exact hmeet (by rw [← hw]; rfl)
    | cons c w =>
      rw [List.cons_append] at hw
      obtain ⟨rfl, -⟩ := List.cons.inj hw
      exact hs u w rfl

theorem Uniform.of_prefix (h : e.Uniform t) (hs : s <+: t) : e.Uniform s := by
  obtain ⟨r, rfl⟩ := hs
  rintro u v rfl
  exact h u (v ++ r) (by simp)

theorem Uniform.of_suffix (h : e.Uniform t) (hs : s <:+ t) (hhead : s.head? ≠ some '\n') :
    e.Uniform s := by
  obtain ⟨r, rfl⟩ := hs
  rintro u v rfl
  have hshows := h (r ++ u) v (by simp)
  cases u with
  | nil => exact absurd rfl hhead
  | cons c u => rwa [List.getLast?_append_of_ne_nil _ (List.cons_ne_nil c u)] at hshows

/-! ## Uniform lines -/

/-- Terminated lines, each with a carriage return at its end or none. -/
def Closes (e : LineEnding) (ls : List Line) : Prop :=
  ∀ l ∈ ls, '\n' ∉ l ∧ (endsInReturn l = true ↔ e = .crlf)

theorem Closes.mono {ks : List Line} (h : e.Closes ls) (hks : ks ⊆ ls) : e.Closes ks :=
  fun l hl => h l (hks hl)

/-- What stands before the newline of a line, where it ends in a return. -/
theorem getLast?_unlines_append (ls : List Line) (l : Line) :
    (unlines ls ++ l).getLast? = some '\r' ↔ endsInReturn l = true := by
  by_cases hl : l = []
  · subst hl
    rcases List.eq_nil_or_concat ls with rfl | ⟨ks, k, rfl⟩
    · simp [endsInReturn]
    · simp [endsInReturn]
  · rw [List.getLast?_append_of_ne_nil _ hl]
    simp [endsInReturn]

/-- **The lines of a uniform text** end as it says. -/
theorem Uniform.closes (h : e.Uniform t) : e.Closes (Lines.ofText t).ended := by
  intro l hl
  refine ⟨Lines.not_mem_ended_ofText t l hl, ?_⟩
  obtain ⟨as, bs, hsplit⟩ := List.append_of_mem hl
  have htext := Lines.toText_ofText t
  rw [Lines.toText, hsplit, unlines_append, unlines_cons] at htext
  have hshows := h (unlines as ++ l) (unlines bs ++ (Lines.ofText t).tail) (by simpa using htext.symm)
  rwa [getLast?_unlines_append] at hshows

/-- The lines of a uniform text in `lf` do not end in a return. -/
theorem Uniform.endsInReturn_eq_false (h : Uniform .lf t) :
    ∀ l ∈ (Lines.ofText t).ended, endsInReturn l = false := by
  intro l hl
  simpa using (h.closes l hl).2

/-- A uniform text that another one may follow: in `lf` it does not end in a carriage return, which
    a newline behind it would make a part of the line break. -/
structure Whole (e : LineEnding) (t : Text) : Prop where
  uniform : e.Uniform t
  closed : e = .lf → t.getLast? ≠ some '\r'

theorem Whole.append_uniform (hs : e.Whole s) (ht : e.Uniform t) : e.Uniform (s ++ t) :=
  hs.uniform.append ht fun he _ => hs.closed he

theorem Whole.append (hs : e.Whole s) (ht : e.Whole t) : e.Whole (s ++ t) := by
  refine ⟨hs.append_uniform ht.uniform, fun he => ?_⟩
  have hsl := hs.closed he
  have htl := ht.closed he
  rw [List.getLast?_append]
  cases hlast : t.getLast? with
  | none => simpa using hsl
  | some c =>
    rw [hlast] at htl
    simpa using htl

theorem whole_nil (e : LineEnding) : e.Whole [] :=
  ⟨uniform_of_not_mem List.not_mem_nil e, fun _ => by simp⟩

/-- Whole lines. -/
theorem Closes.whole (h : e.Closes ls) : e.Whole (unlines ls) := by
  induction ls with
  | nil => exact whole_nil e
  | cons l ls ih =>
    have hl := h l List.mem_cons_self
    have hline : e.Whole (l ++ ['\n']) := by
      refine ⟨fun u v hu => ?_, fun _ => by simp⟩
      have hsame : u = l := by
        rcases List.append_eq_append_iff.mp hu with ⟨w, rfl, hw⟩ | ⟨w, rfl, hw⟩
        · cases w with
          | nil => rw [List.append_nil]
          | cons c w => simp at hw
        · cases w with
          | nil => rw [List.append_nil]
          | cons c w =>
            -- the line would hold the newline
            obtain ⟨rfl, -⟩ := List.cons.inj hw
            simp at hl
      subst hsame
      simpa [endsInReturn] using hl.2
    have hsplit : unlines (l :: ls) = l ++ ['\n'] ++ unlines ls := by simp
    rw [hsplit]
    exact hline.append (ih (h.mono (List.subset_cons_self l ls)))

theorem Closes.uniform_append (h : e.Closes ls) {tail : Line} (ht : '\n' ∉ tail) :
    e.Uniform (unlines ls ++ tail) := h.whole.append_uniform (uniform_of_not_mem ht e)

/-- **A text is uniform exactly if its lines are.** -/
theorem uniform_iff_closes : e.Uniform t ↔ e.Closes (Lines.ofText t).ended := by
  refine ⟨Uniform.closes, fun h => ?_⟩
  have huniform := h.uniform_append (Lines.not_mem_tail_ofText t)
  rwa [← Lines.toText, Lines.toText_ofText] at huniform

instance (e : LineEnding) (ls : List Line) : Decidable (e.Closes ls) :=
  inferInstanceAs (Decidable (∀ l ∈ ls, '\n' ∉ l ∧ (endsInReturn l = true ↔ e = .crlf)))

instance (e : LineEnding) (t : Text) : Decidable (e.Uniform t) :=
  decidable_of_iff _ uniform_iff_closes.symm

/-- A line break. -/
theorem whole_text (e : LineEnding) : e.Whole e.text := by
  rw [← unlines_onLine_nil]
  refine Closes.whole fun l hl => ?_
  obtain rfl := List.mem_singleton.mp hl
  exact ⟨not_mem_onLine List.not_mem_nil e, endsInReturn_onLine List.not_mem_nil e⟩

/-- A text put in a line ending. -/
theorem whole_apply (h : e = .lf → '\r' ∉ t) : e.Whole (e.apply t) := by
  cases e with
  | lf =>
    have hnone := h rfl
    rw [apply_lf]
    refine ⟨?_, fun _ hlast => hnone (List.mem_of_getLast? hlast)⟩
    rintro u v rfl
    have hu : u.getLast? ≠ some '\r' := fun hlast =>
      hnone (List.mem_append_left _ (List.mem_of_getLast? hlast))
    simp [hu]
  | crlf =>
    refine ⟨?_, fun he => by cases he⟩
    refine Closes.uniform_append (fun l hl => ?_) (Lines.not_mem_tail_ofText t)
    obtain ⟨k, hk, rfl⟩ := List.mem_map.mp hl
    exact ⟨not_mem_withReturn (Lines.not_mem_ended_ofText t k hk), by simp⟩

theorem Uniform.whole_trimEnd (h : e.Uniform t) : e.Whole (Text.trimEnd t) := by
  refine ⟨h.of_prefix ⟨_, Text.trimEnd_append_blankEnd t⟩, fun _ hlast => ?_⟩
  have hblank := Text.isBlank_getLast_trimEnd hlast
  rw [Text.isBlank_return] at hblank
  cases hblank

theorem Uniform.trimStart (h : e.Uniform t) : e.Uniform (Text.trimStart t) := by
  refine h.of_suffix (List.dropWhile_suffix _) fun hhead => ?_
  have hblank := Text.isBlank_head_trimStart hhead
  rw [Text.isBlank_newline] at hblank
  cases hblank

/-- **The line ending of a uniform text** is the one that it shows. -/
theorem Uniform.detect_eq (h : e.Uniform t) (hbreak : e = .crlf → '\n' ∈ t) : detect t = e := by
  cases hended : (Lines.ofText t).ended with
  | nil =>
    have hdetect : detect t = .lf := by rw [detect, hended]
    cases e with
    | lf => exact hdetect
    | crlf =>
      have htext := Lines.toText_ofText t
      rw [Lines.toText, hended, unlines_nil, List.nil_append] at htext
      exact absurd (hbreak rfl) (htext ▸ Lines.not_mem_tail_ofText t)
  | cons l ls =>
    have hl : l ∈ (Lines.ofText t).ended := by
      rw [hended]
      exact List.mem_cons_self
    refine detect_of_head (l := l) ?_ (h.closes l hl).2
    rw [hended]
    rfl

end LineEnding

/-! ## What is written -/

namespace SourceFile

variable {p : RegionShape} {c wrapped : Text} {e : LineEnding}

/-- The lines of a uniform file, and what follows them. -/
theorem closes_ofText (h : e.Uniform c) :
    e.Closes (ofText p c).directives ∧ e.Closes (ofText p c).rest.ended ∧
      '\n' ∉ (ofText p c).rest.tail := by
  have hlines := lines_ofText p c
  have hclosed := h.closes
  have htail := Lines.not_mem_tail_ofText c
  rw [hlines] at hclosed htail
  exact ⟨hclosed.mono (List.subset_append_left _ _), hclosed.mono (List.subset_append_right _ _),
    htail⟩

/-- The body of a uniform file. -/
theorem uniform_body (h : e.Uniform c) : e.Uniform (ofText p c).body := by
  obtain ⟨-, hrest, htail⟩ := closes_ofText (p := p) h
  rw [body_eq]
  refine LineEnding.Closes.uniform_append (hrest.mono fun l hl => ?_) htail
  unfold bodyLines at hl
  split at hl
  · exact hl
  · rename_i r hr
    rw [← allLines_of_region hr]
    exact Region.mem_allLines_of_around hl

/-- A file written anew. -/
theorem uniform_regenerate (h : e.Uniform c) (hw : e.Whole wrapped) (pos : Position) :
    e.Uniform ((ofText p c).regenerate wrapped pos e) := by
  have hdirectives : e.Whole (ofText p c).directiveText := (closes_ofText h).1.whole
  have hbody : e.Uniform (ofText p c).body := uniform_body h
  have hbreak := LineEnding.whole_text e
  cases pos with
  | after =>
    exact (((hdirectives.append hbody.whole_trimEnd).append hbreak).append hbreak).append_uniform
      hw.uniform
  | before =>
    have hseam : e.Whole (if (ofText p c).directives.isEmpty then [] else e.text) := by
      split
      · exact LineEnding.whole_nil e
      · exact hbreak
    have hgap : e.Whole (if (Text.trimStart (ofText p c).body).head? = some '#' then e.text else []) := by
      split
      · exact hbreak
      · exact LineEnding.whole_nil e
    exact (((hdirectives.append hseam).append hw).append hgap).append_uniform hbody.trimStart

/-- A file with its region replaced. -/
theorem uniform_substitute (h : e.Uniform c) (hw : e.Whole wrapped) :
    e.Uniform ((ofText p c).substitute wrapped) := by
  obtain ⟨hdirectives, hrest, htail⟩ := closes_ofText (p := p) h
  unfold substitute
  split
  · exact h
  · rename_i r hr
    rw [← allLines_of_region hr] at hrest
    have hpiece : ∀ ls, ls ⊆ r.allLines → e.Whole (unlines ls) := fun ls hls => (hrest.mono hls).whole
    have hbefore := hpiece r.before fun l hl => by simp [Region.allLines, hl]
    have hleading := hpiece r.leading fun l hl => by simp [Region.allLines, Region.lines, hl]
    have htrailing := hpiece r.trailing fun l hl => by simp [Region.allLines, Region.lines, hl]
    have hafter := hpiece r.after fun l hl => by simp [Region.allLines, hl]
    exact (((((hdirectives.whole.append hbefore).append hleading).append hw).append
      htrailing).append hafter).append_uniform (LineEnding.uniform_of_not_mem htail e)

end SourceFile

/-- A block without carriage returns stays so between markers without them. -/
theorem Wrapper.not_mem_wrap {w : Wrapper} {block : Text} (hb : '\r' ∉ block)
    (ho : ∀ m ∈ w.opening, '\r' ∉ m) (hc : ∀ m ∈ w.closing, '\r' ∉ m) : '\r' ∉ w.wrap block := by
  have hmarker : ∀ m : Option Text, (∀ t ∈ m, '\r' ∉ t) → '\r' ∉ markerLine m := by
    rintro (_ | t) ht
    · simp [markerLine]
    · simpa [markerLine] using ht t rfl
  simp [wrap, hb, hmarker _ ho, hmarker _ hc]

/-- **A file keeps its line ending.**  What comes of a file in `crlf` with a line break in it is in
    `crlf`, for any block and any markers.  What comes of one in `lf` is in `lf`, for a block and
    markers without carriage returns. -/
theorem keeps_lineEnding {e : LineEnding} {c : Text} (hc : e.Uniform c)
    (hbreak : e = .crlf → '\n' ∈ c) (o : Options) (path : String) (block : Text) (k : FileKind)
    (t : Text) :
    ((e = .lf → '\r' ∉ block ∧ (∀ m ∈ o.wrapper.opening, '\r' ∉ m) ∧
        ∀ m ∈ o.wrapper.closing, '\r' ∉ m) →
      annotate o path c block k = .ok (some t) → e.Uniform t) ∧
    (strip o path c = .ok (some t) → e.Uniform t) := by
  constructor
  · intro hplain h
    obtain ⟨-, -, -, -, a, -, rfl⟩ := annotate_eq_some_iff.mp h
    have hdetect : LineEnding.detect (SourceFile.ofText o.shape c).raw = e := hc.detect_eq hbreak
    have hw : e.Whole (e.apply (o.wrapper.wrap block)) := by
      refine LineEnding.whole_apply fun he => ?_
      obtain ⟨hb, hopening, hclosing⟩ := hplain he
      exact Wrapper.not_mem_wrap hb hopening hclosing
    unfold SourceFile.textAfter
    rw [hdetect]
    cases a with
    | regenerate => exact SourceFile.uniform_regenerate hc hw _
    | substitute => exact SourceFile.uniform_substitute hc hw
  · intro h
    obtain ⟨-, -, r, hr, rfl⟩ := strip_eq_some_iff.mp h
    have hclosed := hc.closes
    rw [← (RegionShape.lines_of_first? hr).1] at hclosed
    refine LineEnding.Closes.uniform_append (hclosed.mono fun l hl => ?_)
      (Lines.not_mem_tail_ofText c)
    exact Region.mem_allLines_of_around hl

/-- A file in `crlf` gets its block, which is in `lf`, and loses it again. -/
theorem keeps_lineEnding_typedText :
    LineEnding.Uniform .crlf typedText ∧ '\n' ∈ typedText ∧ LineEnding.Uniform .lf shortBlock ∧
      annotate {} "user.rb" typedText shortBlock .model = .ok (some typedAnnotated) ∧
      LineEnding.Uniform .crlf typedAnnotated ∧
      strip {} "user.rb" typedAnnotated = .ok (some typedText) ∧
      ∀ s, strip {} "user.rb" typedAnnotated = .ok (some s) → LineEnding.Uniform .crlf s := by
  have hc : LineEnding.Uniform .crlf typedText := by decide
  have hbreak : '\n' ∈ typedText := by decide
  obtain ⟨hannotate, -⟩ := keeps_lineEnding hc (fun _ => hbreak) {} "user.rb" shortBlock .model
    typedAnnotated
  have hannotated := hannotate (fun h => by cases h) annotate_typedText
  refine ⟨hc, hbreak, by decide, annotate_typedText, hannotated, strip_typedAnnotated, fun s hs => ?_⟩
  -- the annotated file is in one line ending too, and so is what stripping leaves of it
  obtain ⟨-, hstrip⟩ := keeps_lineEnding hannotated (fun _ => by decide) {} "user.rb" shortBlock
    .model s
  exact hstrip hs

end SchemaComment
