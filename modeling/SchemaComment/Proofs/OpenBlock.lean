/-
  A BLOCK WITHOUT A LAST NEWLINE.

  A block is written as its own file has it, and that file may end without a newline.  What stands
  behind the block then goes on in the block's last line.

  1. **Program** — `SourceFile.infront` and `SourceFile.behind` are what an action sets around a
     block, whatever the block is (`textAfter_eq`).
  2. **Specification** — `bareLines_annotated_open`: all bare lines of the body stay, but perhaps the
     one right behind the block.  That one is lost just where it is not all blank, the block has an
     open end that no closing marker ends, and the line stands nowhere else.
  3. **The crux** — the open end of the block is a comment, so the line that it makes with what
     follows is longer than that was (`trim_append_ne`).  A gap ends the block only where a comment
     follows.
-/
import SchemaComment.Proofs.Keeping

namespace SchemaComment

open Line

/-! ## What is set around a block -/

namespace SourceFile

/-- What an action sets between the directives and the block. -/
def infront (f : SourceFile) (e : LineEnding) (pos : Position) (a : Action) : Text :=
  match a, pos with
  | .regenerate, .after => Text.trimEnd f.body ++ e.text ++ e.text
  | .regenerate, .before => if f.directives.isEmpty then [] else e.text
  | .substitute, _ =>
    match f.region with
    | none => []
    | some r => unlines r.before ++ unlines r.leading

/-- What an action sets behind the block. -/
def behind (f : SourceFile) (e : LineEnding) (pos : Position) (a : Action) : Text :=
  match a, pos with
  | .regenerate, .after => []
  | .regenerate, .before =>
    (if (Text.trimStart f.body).head? = some '#' then e.text else []) ++ Text.trimStart f.body
  | .substitute, _ =>
    match f.region with
    | none => f.body
    | some r => unlines r.trailing ++ (unlines r.after ++ f.rest.tail)

/-- **What an action gives** is the directives, the block in the line ending of the file, and what is
    set around it. -/
theorem textAfter_eq {f : SourceFile} {force : Bool} {wrapped : Text} {a : Action}
    (h : f.action? force wrapped = some a) (pos : Position) :
    let e := LineEnding.detect f.raw
    f.textAfter a wrapped pos =
      f.directiveText ++ (f.infront e pos a ++ (e.apply wrapped ++ f.behind e pos a)) := by
  intro e
  cases a with
  | regenerate => cases pos <;> simp [textAfter, regenerate, infront, behind, e]
  | substitute =>
    obtain ⟨r, hr⟩ := exists_region_of_substitute h
    simp [textAfter, substitute, infront, behind, hr, e]

/-- What is set in front of the block has no open end. -/
theorem tail_ofText_infront (f : SourceFile) (e : LineEnding) (pos : Position) (a : Action) :
    (Lines.ofText (f.infront e pos a)).tail = [] := by
  have hbreak := e.tail_ofText_text
  cases a with
  | regenerate =>
    cases pos with
    | before =>
      rw [infront]
      split
      · rfl
      · exact hbreak
    | after =>
      have hfront := Lines.tail_ofText_unlines (trimmedLines e f.body)
      rw [unlines_trimmedLines] at hfront
      rw [infront, Lines.tail_ofText_append hfront, hbreak]
  | substitute =>
    rw [infront]
    split
    · rfl
    · rw [← unlines_append, Lines.tail_ofText_unlines]

/-- Before the body the seam and the gap are blank, and trimming changes no bare line. -/
theorem bareLines_around_before (f : SourceFile) (e : LineEnding) :
    Text.bareLines (f.infront e .before .regenerate) ++
      Text.bareLines (f.behind e .before .regenerate) = Text.bareLines f.body := by
  have hbreak : ∀ d ∈ e.text, Text.isBlank d = true := fun _ => e.isBlank_of_mem_text
  have hlead : ∀ d ∈ if f.directives.isEmpty then [] else e.text, Text.isBlank d = true := by
    split
    · simp
    · exact hbreak
  have hgap : ∀ d ∈ if (Text.trimStart f.body).head? = some '#' then e.text else [],
      Text.isBlank d = true := by
    split
    · exact hbreak
    · simp
  rw [← Text.bareLines_trimStart f.body]
  exact Text.bareLines_seam (u := []) rfl hlead hgap _

/-- Behind the body the blanks that were cut off take no part, and neither do the line breaks. -/
theorem bareLines_around_after (f : SourceFile) (e : LineEnding) :
    Text.bareLines (f.infront e .after .regenerate) ++
      Text.bareLines (f.behind e .after .regenerate) = Text.bareLines f.body := by
  have hbreak : ∀ d ∈ e.text, Text.isBlank d = true := fun _ => e.isBlank_of_mem_text
  have hend : ∀ d ∈ Text.blankEnd f.body, Text.isBlank d = true := fun _ =>
    Text.isBlank_of_mem_blankEnd
  calc
    Text.bareLines (Text.trimEnd f.body ++ e.text ++ e.text) ++ Text.bareLines []
      = Text.bareLines (Text.trimEnd f.body ++ e.text ++ e.text) := List.append_nil _
    _ = Text.bareLines (Text.trimEnd f.body) := by
        rw [Text.bareLines_append_blank hbreak, Text.bareLines_append_blank hbreak]
    _ = Text.bareLines (Text.trimEnd f.body ++ Text.blankEnd f.body) :=
        (Text.bareLines_append_blank hend _).symm
    _ = Text.bareLines f.body := by rw [Text.trimEnd_append_blankEnd]

/-- In the stead of a region its blank lines take no part. -/
theorem bareLines_around_inPlace {p : RegionShape} (hp : p.IsSingleLine) (c : Text)
    (e : LineEnding) (pos : Position) :
    let f := ofText p c
    Text.bareLines (f.infront e pos .substitute) ++ Text.bareLines (f.behind e pos .substitute) =
      Text.bareLines f.body := by
  intro f
  rw [infront, behind]
  cases hr : f.region with
  | none => rfl
  | some r =>
    have hfits : r.Fits p := (fits_layout hp hr).1.region
    have hends : RegionShape.Ends r.trailing r.after := hfits.ends
    have hlead : ∀ d ∈ unlines r.leading, Text.isBlank d = true := fun _ =>
      isBlank_of_mem_unlines hfits.isEmpty_leading
    have htrail : ∀ d ∈ unlines r.trailing, Text.isBlank d = true := fun _ =>
      isBlank_of_mem_unlines hends.empty
    have hseam := Text.bareLines_seam (Lines.tail_ofText_unlines r.before) hlead htrail
      (unlines r.after ++ f.rest.tail)
    simpa [body, hr] using hseam

/-- **What is set around a block** has the bare lines of the body. -/
theorem bareLines_around {p : RegionShape} (hp : p.IsSingleLine) (c : Text) (e : LineEnding)
    (pos : Position) (a : Action) :
    let f := ofText p c
    Text.bareLines (f.infront e pos a) ++ Text.bareLines (f.behind e pos a) =
      Text.bareLines f.body := by
  cases a with
  | substitute => exact bareLines_around_inPlace hp c e pos
  | regenerate =>
    cases pos with
    | before => exact bareLines_around_before _ e
    | after => exact bareLines_around_after _ e

/-- The bare lines of the directives come first. -/
theorem bareLines_directiveText_append (f : SourceFile) (t : Text) :
    Text.bareLines (f.directiveText ++ t) = Text.bareLines f.directiveText ++ Text.bareLines t :=
  Text.bareLines_append_of_whole (Lines.tail_ofText_unlines _) t

/-- Whether a line stands once among directives and body and is no line of the block. -/
def StandsOnce (f : SourceFile) (core : List Line) (l : Line) : Prop :=
  (Text.bareLines (f.directiveText ++ f.body)).count (Text.trim l) = 1 ∧
    Text.trim l ∉ core.map Text.trim

instance (f : SourceFile) (core : List Line) (l : Line) : Decidable (f.StandsOnce core l) :=
  inferInstanceAs (Decidable (_ ∧ _))

/-- The same told by where the line stands in the body. -/
theorem standsOnce_iff {f : SourceFile} {core above below ks : List Line} {l : Line}
    (hbody : Text.bareLines f.body = above ++ ([Text.trim l] ++ below))
    (hcore : Text.trim l ∈ ks ↔ Text.trim l ∈ core.map Text.trim) :
    f.StandsOnce core l ↔
      (Text.bareLines f.directiveText ++ (above ++ ([Text.trim l] ++ below))).count
        (Text.trim l) = 1 ∧ Text.trim l ∉ ks := by
  rw [StandsOnce, bareLines_directiveText_append, hbody, hcore]

end SourceFile

/-! ## The open end of a block -/

namespace Wrapper

variable {w : Wrapper} {b : Text}

/-- What has no newline of a block between its markers: the open end of the block, unless a closing
    marker follows it. -/
def openEnd (w : Wrapper) (b : Text) : Line :=
  match w.closing with
  | none => (Lines.ofText b).tail
  | some _ => []

theorem tail_ofText_wrap (w : Wrapper) (b : Text) :
    (Lines.ofText (w.wrap b)).tail = w.openEnd b := by
  have hopening : (Lines.ofText (markerLine w.opening)).tail = [] := by
    rw [markerLine_eq]
    exact Lines.tail_ofText_unlines _
  rw [wrap, openEnd]
  cases w.closing with
  | none => rw [markerLine, List.append_nil, Lines.tail_ofText_append hopening]
  | some m =>
    rw [markerLine, ← List.append_assoc]
    exact Lines.tail_ofText_append_newline _

theorem not_mem_openEnd (w : Wrapper) (b : Text) : '\n' ∉ w.openEnd b := by
  rw [← tail_ofText_wrap]
  exact Lines.not_mem_tail_ofText _

/-- An open end is that of the block, and no closing marker follows it. -/
theorem openEnd_eq (h : w.openEnd b ≠ []) :
    w.closing = none ∧ w.openEnd b = (Lines.ofText b).tail := by
  unfold openEnd at h ⊢
  cases hclosing : w.closing with
  | none => exact ⟨rfl, rfl⟩
  | some m => simp [hclosing] at h

/-- If the open end of the block is a comment, so is that of the block between its markers. -/
theorem isComment_openEnd (hb : (Lines.ofText b).tail = [] ∨ isComment (Lines.ofText b).tail = true)
    (h : w.openEnd b ≠ []) : isComment (w.openEnd b) = true := by
  obtain ⟨-, hend⟩ := openEnd_eq h
  rw [hend] at h ⊢
  exact hb.resolve_left h

/-- Where an end is open, a solid line is one of the wrapped block just if it is one of the lines
    between the markers. -/
theorem trim_mem_bareLines_wrap (hw : w.IsSingleLine) (hopen : w.openEnd b ≠ []) (e : LineEnding)
    {l : Line} (hl : Line.isBlank l = false) :
    Text.trim l ∈ Text.bareLines (unlines ((Lines.ofText (w.wrap b)).ended.map e.onLine)) ↔
      Text.trim l ∈ (w.lines b).map Text.trim := by
  obtain ⟨hclosing, -⟩ := openEnd_eq hopen
  have hplain : ∀ k ∈ w.lines b, '\n' ∉ k := not_mem_lines hw
  have hopening : ∀ k ∈ w.opening.toList.map commented, '\n' ∉ k := fun k hk =>
    hplain k (by simp [lines, hk])
  have hended : (Lines.ofText (w.wrap b)).ended = w.lines b := by
    rw [wrap, List.append_assoc, markerLine_eq, Lines.ofText_unlines_append hopening, hclosing]
    simp [markerLine, lines, hclosing]
  have hwritten : ∀ k ∈ (w.lines b).map e.onLine, '\n' ∉ k := by
    intro k hk
    obtain ⟨j, hj, rfl⟩ := List.mem_map.mp hk
    exact LineEnding.not_mem_onLine (hplain j hj) e
  have htrimmed : ((w.lines b).map e.onLine).map Text.trim = (w.lines b).map Text.trim := by
    rw [List.map_map]
    exact List.map_congr_left fun k _ => e.trim_onLine k
  rw [hended, Text.trim_mem_bareLines_unlines hwritten hl, htrimmed]

end Wrapper

/-! ## What becomes of the lines -/

section

variable {o : Options} {path : String} {c t block : Text} {k : FileKind} {a : Action}

/-- **The bare lines that an action gives**: those of directives and body, the block between them, and
    its open end run into the first line behind it. -/
theorem exists_bareLines_textAfter (hw : o.wrapper.IsSingleLine)
    (ha : (SourceFile.ofText o.shape c).action? o.force (o.wrapper.wrap block) = some a)
    (pos : Position) :
    let e := LineEnding.detect c
    let f := SourceFile.ofText o.shape c
    let l := Text.firstLine (f.behind e pos a)
    ∃ above below, Text.bareLines f.body = above ++ (Text.bareLines l ++ below) ∧
      Text.bareLines (f.textAfter a (o.wrapper.wrap block) pos) =
        Text.bareLines f.directiveText ++ (above ++
          (Text.bareLines (unlines ((Lines.ofText (o.wrapper.wrap block)).ended.map e.onLine)) ++
            (Text.bareLines (o.wrapper.openEnd block ++ l) ++ below))) := by
  intro e f l
  have hp := Options.isSingleLine_shape hw
  have hwrapped : e.apply (o.wrapper.wrap block) =
      unlines ((Lines.ofText (o.wrapper.wrap block)).ended.map e.onLine) ++
        o.wrapper.openEnd block := by
    have hwhole := Lines.toText_ofText (e.apply (o.wrapper.wrap block))
    rw [LineEnding.ofText_apply, Lines.toText, Wrapper.tail_ofText_wrap] at hwhole
    exact hwhole.symm
  have htext : f.textAfter a (o.wrapper.wrap block) pos = f.directiveText ++
      (f.infront e pos a ++ (e.apply (o.wrapper.wrap block) ++ f.behind e pos a)) :=
    SourceFile.textAfter_eq ha pos
  obtain ⟨below, hbehind, hrun⟩ := Text.exists_bareLines_append (f.behind e pos a)
  refine ⟨Text.bareLines (f.infront e pos a), below, ?_, ?_⟩
  · rw [← hbehind]
    exact (SourceFile.bareLines_around hp c e pos a).symm
  · rw [htext, SourceFile.bareLines_directiveText_append,
      Text.bareLines_append_of_whole (f.tail_ofText_infront e pos a), hwrapped, List.append_assoc,
      Text.bareLines_append_of_whole (Lines.tail_ofText_unlines _),
      hrun _ (Wrapper.not_mem_openEnd _ _)]

/-- Lines of which some are replaced by as many or more are all still there. -/
theorem subset_replaced {ds above core below ks ms : List Line} (h : ks ⊆ ms) :
    above ++ (ks ++ below) ⊆ ds ++ (above ++ (core ++ (ms ++ below))) := by
  intro k hk
  rw [List.mem_append, List.mem_append] at hk
  rcases hk with hk | hk | hk
  · simp [hk]
  · simp [h hk]
  · simp [hk]

/-- Where another line stands in the stead of one, all lines are still there just if that one stands
    elsewhere. -/
theorem subset_replaced_iff {ds above core below : List Line} {l m : Line} (h : m ≠ l) :
    above ++ ([l] ++ below) ⊆ ds ++ (above ++ (core ++ ([m] ++ below))) ↔
      ¬ ((ds ++ (above ++ ([l] ++ below))).count l = 1 ∧ l ∉ core) := by
  have hcount : (ds ++ (above ++ ([l] ++ below))).count l =
      ds.count l + above.count l + below.count l + 1 := by
    simp only [List.count_append, List.count_singleton_self]
    omega
  have honce : (ds ++ (above ++ ([l] ++ below))).count l = 1 ↔ l ∉ ds ∧ l ∉ above ∧ l ∉ below := by
    simp only [hcount, ← List.count_eq_zero]
    omega
  have helsewhere : l ∈ ds ++ (above ++ (core ++ ([m] ++ below))) ↔
      l ∈ ds ∨ l ∈ above ∨ l ∈ core ∨ l ∈ below := by
    simp only [List.mem_append, List.mem_singleton, h.symm, false_or]
  rw [honce]
  constructor
  · rintro hkept ⟨⟨hds, habove, hbelow⟩, hcore⟩
    rcases helsewhere.mp (hkept (by simp)) with hl | hl | hl | hl
    · exact hds hl
    · exact habove hl
    · exact hcore hl
    · exact hbelow hl
  · intro hstands k hk
    by_cases hkl : k = l
    · rw [hkl, helsewhere]
      by_contra hnone
      simp only [not_or] at hnone
      exact hstands ⟨⟨hnone.1, hnone.2.1, hnone.2.2.2⟩, hnone.2.2.1⟩
    · rw [List.mem_append, List.mem_append, List.mem_singleton] at hk
      rcases hk with hk | hk | hk
      · simp [hk]
      · exact absurd hk hkl
      · simp [hk]

/-- **A block without a last newline** may take one line of the body, the one right behind it, and no
    other.  It does so just where no closing marker stands between, the line is not all blank, and it
    stands nowhere else. -/
theorem bareLines_annotated_open (hw : o.wrapper.IsSingleLine)
    (hb : (Lines.ofText block).tail = [] ∨ isComment (Lines.ofText block).tail = true)
    (h : annotate o path c block k = .ok (some t)) :
    let f := SourceFile.ofText o.shape c
    ∃ a, f.action? o.force (o.wrapper.wrap block) = some a ∧
      let l := Text.firstLine (f.behind (LineEnding.detect c) (o.positionFor k) a)
      (∀ m ∈ Text.bareLines f.body, m ≠ Text.trim l → m ∈ Text.bareLines t) ∧
        ((∀ m ∈ Text.bareLines f.body, m ∈ Text.bareLines t) ↔
          ¬ (o.wrapper.openEnd block ≠ [] ∧ Line.isBlank l = false ∧
            f.StandsOnce (o.wrapper.lines block) l)) := by
  intro f
  obtain ⟨-, -, -, -, a, ha, rfl⟩ := annotate_eq_some_iff.mp h
  refine ⟨a, ha, ?_⟩
  intro l
  obtain ⟨above, below, hbody, htext⟩ := exists_bareLines_textAfter hw ha (o.positionFor k)
  have hplain : '\n' ∉ l := Text.not_mem_firstLine _
  have hthis : Text.bareLines l = if Line.isBlank l then [] else [Text.trim l] :=
    Text.bareLines_of_not_mem hplain
  change Text.bareLines f.body = above ++ (Text.bareLines l ++ below) at hbody
  refine ⟨fun m hm hne => ?_, ?_⟩
  · have hm : m ∈ above ++ ([] ++ below) := by
      rw [hbody, hthis] at hm
      split at hm
      · exact hm
      · simpa [hne] using hm
    rw [htext]
    exact subset_replaced (List.nil_subset _) hm
  show Text.bareLines f.body ⊆ _ ↔ _
  rw [hbody, htext]
  by_cases hsafe : o.wrapper.openEnd block = [] ∨ Line.isBlank l = true
  · refine iff_of_true (subset_replaced (Text.bareLines_subset_append hplain hsafe)) ?_
    rintro ⟨hopen, hsolid, -⟩
    rcases hsafe with hnil | hblank
    · exact hopen hnil
    · rw [hblank] at hsolid
      cases hsolid
  · obtain ⟨hopen, hsolid⟩ := not_or.mp hsafe
    rw [Bool.not_eq_true] at hsolid
    have hcomment := Wrapper.isComment_openEnd hb hopen
    have hjoined := Text.bareLines_comment_append hcomment (Wrapper.not_mem_openEnd _ _) hplain
    rw [hthis, hsolid] at hbody ⊢
    rw [SourceFile.standsOnce_iff hbody
      (Wrapper.trim_mem_bareLines_wrap hw hopen (LineEnding.detect c) hsolid), hjoined]
    simp only [ne_eq, hopen, not_false_eq_true, true_and]
    exact subset_replaced_iff (Text.trim_append_ne hcomment hsolid)

/-- A block of one line, without its newline. -/
def openBlock : Text := "# == Schema Info".toList

/-- A file that begins with a comment. -/
def remarkedText : Text := "# A user.\nclass User\nend\n".toList

/-- The same file with the open block: a gap ends it. -/
def remarkedAnnotated : Text := "# == Schema Info\n# A user.\nclass User\nend\n".toList

/-- A file that begins with code. -/
def userText : Text := "class User\nend\n".toList

/-- The same file with the open block: its first line has gone into the comment. -/
def swallowedText : Text := "# == Schema Infoclass User\nend\n".toList

theorem annotate_remarkedText :
    annotate {} "user.rb" remarkedText openBlock .model = .ok (some remarkedAnnotated) := by
  have hone : (SourceFile.ofText ({} : Options).shape remarkedText).regionCount ≤ 1 := by
    rw [SourceFile.regionCount_ofText isSingleLine_usual]
    decide
  exact annotate_eq_some_iff.mpr ⟨by decide, hone, rfl, by decide, .regenerate, by decide, by decide⟩

/-- Before a comment the open block takes no line. -/
theorem bareLines_annotated_remarkedText :
    annotate {} "user.rb" remarkedText openBlock .model = .ok (some remarkedAnnotated) ∧
      ∀ m ∈ Text.bareLines (SourceFile.ofText ({} : Options).shape remarkedText).body,
        m ∈ Text.bareLines remarkedAnnotated := by
  obtain ⟨a, ha, -, hkept⟩ := bareLines_annotated_open Wrapper.isPlain_empty.toIsSingleLine
    (by decide) annotate_remarkedText
  have hanew : (SourceFile.ofText ({} : Options).shape remarkedText).action? false
      (Wrapper.wrap {} openBlock) = some .regenerate := by decide
  obtain rfl : a = .regenerate := Option.some.inj (ha.symm.trans hanew)
  exact ⟨annotate_remarkedText, hkept.mpr (by decide)⟩

/-- **A block without a last newline may swallow code**: the first line of the file goes on behind
    the block's last one. -/
theorem not_bareLines_annotated_open :
    ¬ ∀ (o : Options) (path : String) (c t block : Text) (k : FileKind),
      (SourceFile.ofText o.shape c).regionCount ≤ 1 → optedOut c = false →
      o.wrapper.IsSingleLine → (∀ l ∈ (Lines.ofText block).ended, isComment l = true) →
      ((Lines.ofText block).tail = [] ∨ isComment (Lines.ofText block).tail = true) →
      (Lines.ofText block).pieces.head?.any isHeader = true →
      annotate o path c block k = .ok (some t) →
      ∀ m ∈ Text.bareLines (SourceFile.ofText o.shape c).body, m ∈ Text.bareLines t := by
  intro h
  have hone : (SourceFile.ofText ({} : Options).shape userText).regionCount ≤ 1 := by
    rw [SourceFile.regionCount_ofText isSingleLine_usual]
    decide
  have hannotate : annotate {} "user.rb" userText openBlock .model = .ok (some swallowedText) :=
    annotate_eq_some_iff.mpr ⟨by decide, hone, rfl, by decide, .regenerate, by decide, by decide⟩
  have hstays := h {} "user.rb" userText swallowedText openBlock .model hone (by decide)
    Wrapper.isPlain_empty.toIsSingleLine (by decide) (by decide) (by decide) hannotate
    "class User".toList (by decide)
  exact absurd hstays (by decide)

end

end SchemaComment
