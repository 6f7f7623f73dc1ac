/-
  COLUMNS UNDER THE OTHER LINE ENDING.

  Some editors and checkouts give every line of a file a carriage return.  The columns of a schema
  comment lose their returns before they are compared, so that this should make no difference.

  1. **Program** — `columnLines`, on a text and on the same text in the other line ending
     (`Text.toCrlf`).
  2. **Specification** — `columnLines_toCrlf`: the returns add the bare lines of the table to its
     columns and change nothing else.  So the columns stay the same just where no line is bare.
  3. **The crux** — a line is bare when it ends with the one blank behind its name.  A column needs one
     more character there, and the carriage return is one, as it is cut off only later.
-/
import SchemaComment.Proofs.Table

namespace SchemaComment

open Line

/-! ## The other line ending -/

/-- The text with a carriage return before every newline. -/
def Text.toCrlf (t : Text) : Text := t.flatMap fun c => if c = '\n' then LineEnding.crlf.text else [c]

/-- **Every line gets a carriage return**, and the open end stays as it is. -/
theorem Lines.ofText_toCrlf (t : Text) :
    ofText t.toCrlf = ⟨(ofText t).ended.map (· ++ ['\r']), (ofText t).tail⟩ := by
  induction t with
  | nil => rfl
  | cons c t ih =>
    rw [Text.toCrlf, List.flatMap_cons]
    change ofText (_ ++ Text.toCrlf t) = _
    by_cases hc : c = '\n'
    · subst hc
      show cons '\r' (cons '\n' (ofText (Text.toCrlf t))) = _
      rw [ih, ofText]
      simp [cons]
    · rw [if_neg hc]
      show cons c (ofText (Text.toCrlf t)) = _
      rw [ih, ofText, cons, cons, if_neg hc, if_neg hc]
      cases (ofText t).ended <;> simp

namespace Text

theorem toCrlf_append (s t : Text) : (s ++ t).toCrlf = s.toCrlf ++ t.toCrlf := by
  simp [toCrlf]

/-- A text without a newline has no line to give a return. -/
theorem toCrlf_of_not_mem {t : Text} (h : '\n' ∉ t) : t.toCrlf = t := by
  induction t with
  | nil => rfl
  | cons c t ih =>
    simp only [List.mem_cons, not_or] at h
    have htail := ih h.2
    rw [toCrlf] at htail
    rw [toCrlf, List.flatMap_cons, if_neg (Ne.symm h.1), htail, List.singleton_append]

/-- The other line ending, on the text of some lines. -/
theorem toCrlf_unlines {ls : List Line} (h : ∀ l ∈ ls, '\n' ∉ l) :
    (unlines ls).toCrlf = unlines (ls.map (· ++ ['\r'])) := by
  induction ls with
  | nil => rfl
  | cons l ls ih =>
    have hl := toCrlf_of_not_mem (h l (by simp))
    have hls := ih fun k hk => h k (List.mem_cons_of_mem l hk)
    have hbreak : toCrlf ('\n' :: unlines ls) = '\r' :: '\n' :: (unlines ls).toCrlf := rfl
    rw [unlines_cons, toCrlf_append, hl, hbreak, hls]
    simp

/-- The other line ending, on the text of some lines and an open end. -/
theorem toCrlf_unlines_append {ls : List Line} {tail : Line} (h : ∀ l ∈ ls, '\n' ∉ l)
    (htail : '\n' ∉ tail) :
    (unlines ls ++ tail).toCrlf = unlines (ls.map (· ++ ['\r'])) ++ tail := by
  rw [toCrlf_append, toCrlf_unlines h, toCrlf_of_not_mem htail]

end Text

/-! ## A carriage return behind a line -/

namespace Line

/-- A carriage return behind a line does not make it name a table. -/
theorem namesTable_append_return (l : Line) : namesTable (l ++ ['\r']) = namesTable l := by
  rw [Bool.eq_iff_iff]
  simp only [namesTable, List.isPrefixOf_iff_prefix, List.prefix_concat_iff]
  refine or_iff_right fun h => ?_
  have hlast := congrArg List.getLast? h
  rw [List.getLast?_concat] at hlast
  exact absurd hlast (by decide)

theorem isComment_append_return (l : Line) : isComment (l ++ ['\r']) = isComment l := by
  cases l <;> rfl

end Line

/-- The section of the table is the same under either line ending. -/
theorem tableLines_map_return (ls : List Line) :
    tableLines (ls.map (· ++ ['\r'])) = (tableLines ls).map (· ++ ['\r']) := by
  have hnames : (! namesTable ·) ∘ (· ++ ['\r']) = (! namesTable ·) :=
    funext fun l => congrArg (! ·) (namesTable_append_return l)
  have hcomment : isComment ∘ (· ++ ['\r']) = isComment := funext isComment_append_return
  rw [tableLines, tableLines, List.dropWhile_map, hnames]
  cases ls.dropWhile (! namesTable ·) with
  | nil => rfl
  | cons l below => simp [List.takeWhile_map, hcomment]

namespace Column

@[simp] theorem withoutReturns_append_return (l : Line) :
    withoutReturns (l ++ ['\r']) = withoutReturns l := by
  simp [withoutReturns]

/-- A bare line: the front of a column and the one blank behind its name. -/
def IsBare (l : Line) : Prop := ∃ front g, l = front ++ [g] ∧ IsFront front ∧ isGap g = true

/-- A bare line is no column. -/
theorem IsBare.not_describes {l : Line} (h : IsBare l) : describes l = false := by
  obtain ⟨front, g, rfl, hfront, hg⟩ := h
  rw [describes_append hfront]
  · simp
  · intro c hc
    obtain rfl : g = c := by simpa using hc
    exact not_isName_of_isGap hg

/-- It ends in a blank, so it has no carriage return to lose. -/
theorem IsBare.withoutReturns_eq {l : Line} (h : IsBare l) : withoutReturns l = l := by
  obtain ⟨front, g, rfl, -, hg⟩ := h
  have hne : g ≠ '\r' := by
    rintro rfl
    cases hg
  simp [withoutReturns, hne]

/-- **With a carriage return behind them** the bare lines are columns as well. -/
theorem describes_append_return {l : Line} :
    describes (l ++ ['\r']) = true ↔ describes l = true ∨ IsBare l := by
  constructor
  · intro h
    obtain ⟨front, g, rest, hl, hfront, hg, hrest⟩ := exists_front_of_describes h
    obtain ⟨rest, c, rfl⟩ := (List.eq_nil_or_concat rest).resolve_left hrest
    -- the return is the last character of what follows the blank
    obtain ⟨rfl, -⟩ : l = front ++ g :: rest ∧ ['\r'] = [c] :=
      List.append_inj' (hl.trans (by simp)) rfl
    rcases List.eq_nil_or_concat rest with rfl | ⟨rest, d, rfl⟩
    · exact Or.inr ⟨front, g, rfl, hfront, hg⟩
    · exact Or.inl (describes_iff.mpr
        ⟨front, [g], rest.concat d, by simp, hfront, by simpa using hg, by simp⟩)
  · rintro (h | ⟨front, g, rfl, hfront, hg⟩)
    · obtain ⟨front, gap, rest, rfl, hfront, hgap, -⟩ := describes_iff.mp h
      exact describes_iff.mpr ⟨front, gap, rest ++ ['\r'], by simp, hfront, hgap, by simp⟩
    · exact describes_iff.mpr ⟨front, [g], ['\r'], by simp, hfront, by simpa using hg, by simp⟩

/-- A line is bare when a carriage return makes it a column. -/
theorem isBare_iff {l : Line} :
    IsBare l ↔ describes (l ++ ['\r']) = true ∧ describes l = false := by
  rw [describes_append_return]
  refine ⟨fun h => ⟨Or.inr h, h.not_describes⟩, fun ⟨h, hnot⟩ => h.resolve_left ?_⟩
  rw [hnot]
  exact Bool.false_ne_true

instance (l : Line) : Decidable (IsBare l) := decidable_of_iff _ isBare_iff.symm

/-- The lines that carriage returns make columns are the columns and the bare lines. -/
theorem filter_describes_return (ls : List Line) :
    (ls.filter fun l => describes (l ++ ['\r'])).Perm
      (ls.filter describes ++ ls.filter (IsBare ·)) := by
  have hparts := List.filter_append_perm describes (ls.filter fun l => describes (l ++ ['\r']))
  rw [List.filter_filter, List.filter_filter] at hparts
  refine hparts.symm.trans (List.Perm.of_eq ?_)
  congr 1
  · refine List.filter_congr fun l _ => ?_
    cases h : describes l with
    | false => rfl
    | true => rw [describes_append_return.mpr (Or.inl h)]; rfl
  · refine List.filter_congr fun l _ => ?_
    rw [Bool.eq_iff_iff, Bool.and_eq_true, decide_eq_true_eq, isBare_iff, Bool.not_eq_true', and_comm]

end Column

/-! ## The columns -/

/-- The columns of a text in the other line ending, before they are sorted. -/
theorem columnLines_toCrlf_perm (t : Text) :
    (columnLines t.toCrlf).Perm
      (columnLines t ++ (tableLines (Lines.ofText t).ended).filter (Column.IsBare ·)) := by
  have hbare : ((tableLines (Lines.ofText t).ended).filter (Column.IsBare ·)).map
      Column.withoutReturns = (tableLines (Lines.ofText t).ended).filter (Column.IsBare ·) := by
    refine List.map_congr_left (g := id) (fun l hl => ?_) |>.trans (List.map_id _)
    exact Column.IsBare.withoutReturns_eq (of_decide_eq_true (List.mem_filter.mp hl).2)
  have hcolumns := (Column.filter_describes_return (tableLines (Lines.ofText t).ended)).map
    Column.withoutReturns
  rw [List.map_append, hbare] at hcolumns
  have hread : columnLines t.toCrlf = sortLines
      (((tableLines (Lines.ofText t).ended).filter fun l => Column.describes (l ++ ['\r'])).map
        Column.withoutReturns) := by
    rw [columnLines, Lines.ofText_toCrlf, tableLines_map_return, List.filter_map, List.map_map]
    congr 2
    exact funext Column.withoutReturns_append_return
  rw [hread]
  exact (sortLines_perm _).trans (hcolumns.trans ((sortLines_perm _).symm.append_right _))

/-- **The other line ending** adds the bare lines of the table to the columns.  So a comparison finds
    no change just where there are none. -/
theorem columnLines_toCrlf (t : Text) :
    let bare := (tableLines (Lines.ofText t).ended).filter (Column.IsBare ·)
    (columnLines t.toCrlf).Perm (columnLines t ++ bare) ∧
      (columnLines t.toCrlf = columnLines t ↔ bare = []) ∧
      ((ColumnDiff.ofTexts t t.toCrlf).isChanged = false ↔ bare = []) ∧
      ((ColumnDiff.ofTexts t.toCrlf t).isChanged = false ↔ bare = []) := by
  intro bare
  have hperm : (columnLines t.toCrlf).Perm (columnLines t ++ bare) := columnLines_toCrlf_perm t
  have hsame : columnLines t.toCrlf = columnLines t ↔ bare = [] := by
    constructor
    · intro h
      have hlen := hperm.length_eq
      rw [h, List.length_append] at hlen
      exact List.length_eq_zero_iff.mp (by omega)
    · intro h
      rw [h, List.append_nil] at hperm
      exact (ascending_columnLines _).eq_of_perm (ascending_columnLines _) hperm
  refine ⟨hperm, hsame, ?_, ?_⟩
  · rw [ColumnDiff.isChanged_ofTexts_eq_false, eq_comm, hsame]
  · rw [ColumnDiff.isChanged_ofTexts_eq_false, hsame]

/-- A table with a column that has nothing but a blank behind its name. -/
def bareTable : Text := "# Table name: users\n# id \n".toList

/-- **A carriage return may make a column**: the other line ending counts as a change. -/
theorem not_columnLines_toCrlf :
    ¬ ∀ t : Text, '\r' ∉ t → columnLines t.toCrlf = columnLines t ∧
      (ColumnDiff.ofTexts t t.toCrlf).isChanged = false := by
  intro h
  exact absurd (h bareTable (by decide)).1 (by decide)

end SchemaComment
