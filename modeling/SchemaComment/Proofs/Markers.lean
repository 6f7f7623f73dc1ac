/-
  MARKERS BESIDE THE COLUMNS.

  A block is compared as it goes into the file, its markers around it.  The markers are comment lines
  like those of the block.

  1. **Program** — `Wrapper.wrap`, and `columnLines` on what it gives.
  2. **Specification** — `columnLines_wrap_iff`: the columns of a block between markers are those of
     the block and those that the markers add (`Wrapper.addedColumns`).  So markers take no part in a
     comparison just where the opening one names no table and the closing one is no column.
  3. **The crux** — among comment lines the section of the table has an upper end only
     (`tableLines_of_comments`).  The closing marker is always in it, and an opening marker that names
     a table draws in all that stands above the table of the block.
-/
import Mathlib.Data.List.TakeWhile
import SchemaComment.Proofs.Certified

namespace SchemaComment

open Line

/-! ## Markers without line breaks -/

/-- Neither marker holds a line break of either kind, or a part of one. -/
structure Wrapper.IsUnbroken (w : Wrapper) : Prop extends IsSingleLine w where
  openingReturn : ∀ m ∈ w.opening, '\r' ∉ m
  closingReturn : ∀ m ∈ w.closing, '\r' ∉ m

instance (w : Wrapper) : Decidable w.IsUnbroken :=
  decidable_of_iff
    ((∀ m ∈ w.opening, '\n' ∉ m) ∧ (∀ m ∈ w.closing, '\n' ∉ m) ∧ (∀ m ∈ w.opening, '\r' ∉ m) ∧
      ∀ m ∈ w.closing, '\r' ∉ m)
    ⟨fun ⟨h1, h2, h3, h4⟩ => ⟨⟨h1, h2⟩, h3, h4⟩, fun ⟨⟨h1, h2⟩, h3, h4⟩ => ⟨h1, h2, h3, h4⟩⟩

/-! ## The section among comment lines -/

theorem tableLines_subset (ls : List Line) : tableLines ls ⊆ ls := by
  have hrest := (List.dropWhile_sublist (! namesTable ·) (l := ls)).subset
  rw [tableLines]
  revert hrest
  cases ls.dropWhile (! namesTable ·) with
  | nil => intro _; exact List.nil_subset _
  | cons l below =>
    intro hrest
    exact List.Subset.trans (List.cons_subset_cons l (List.takeWhile_sublist _).subset) hrest

theorem Column.withoutReturns_of_not_mem {l : Line} (h : '\r' ∉ l) : withoutReturns l = l := by
  rcases List.eq_nil_or_concat l with rfl | ⟨k, c, rfl⟩
  · rfl
  · have hc : c ≠ '\r' := by
      rintro rfl
      simp at h
    simp [withoutReturns, hc]

/-- **Among comment lines** the section of the table goes on to the end. -/
theorem tableLines_of_comments {ls : List Line} (h : ∀ l ∈ ls, isComment l = true) :
    tableLines ls = ls.dropWhile (! namesTable ·) := by
  rw [tableLines]
  have hsub : ∀ l ∈ ls.dropWhile (! namesTable ·), isComment l = true :=
    fun l hl => h l ((List.dropWhile_sublist _).subset hl)
  cases hrest : ls.dropWhile (! namesTable ·) with
  | nil => rfl
  | cons l below =>
    rw [hrest] at hsub
    simp only [List.cons.injEq, true_and]
    exact List.takeWhile_eq_self_iff.mpr fun k hk => hsub k (List.mem_cons_of_mem l hk)

/-- Of lines without line breaks the columns are those of the section, before they are sorted. -/
theorem columnLines_unlines_perm {ls : List Line} (hplain : ∀ l ∈ ls, '\n' ∉ l)
    (hreturn : ∀ l ∈ ls, '\r' ∉ l) :
    (columnLines (unlines ls)).Perm ((tableLines ls).filter Column.describes) := by
  have hbare : ((tableLines ls).filter Column.describes).map Column.withoutReturns =
      (tableLines ls).filter Column.describes := by
    refine (List.map_congr_left (g := id) fun l hl => ?_).trans (List.map_id _)
    exact Column.withoutReturns_of_not_mem
      (hreturn l (tableLines_subset ls (List.mem_filter.mp hl).1))
  rw [columnLines_unlines hplain, hbare]
  exact sortLines_perm _

/-- Texts have the same columns just where these are the same in some order. -/
theorem columnLines_eq_iff_perm {s t : Text} :
    columnLines s = columnLines t ↔ (columnLines s).Perm (columnLines t) :=
  ⟨fun h => .of_eq h, (ascending_columnLines s).eq_of_perm (ascending_columnLines t)⟩

/-- A line that names the table has the form of a column. -/
theorem Column.isColumn_of_namesTable {l : Line} (h : namesTable l = true) : IsColumn l := by
  obtain ⟨r, rfl⟩ := List.isPrefixOf_iff_prefix.mp h
  have hgap : [' '] ≠ [] ∧ ∀ c ∈ [' '], isGap c = true :=
    ⟨List.cons_ne_nil _ _, List.forall_mem_singleton.mpr rfl⟩
  have hname : "Table".toList ≠ [] ∧ ∀ c ∈ "Table".toList, isName c = true :=
    ⟨by decide, List.all_eq_true.mp (by decide)⟩
  exact ⟨"# Table".toList, [' '], "name:".toList ++ r, rfl, ⟨[' '], "Table".toList, rfl, hgap, hname⟩,
    hgap, by simp⟩

namespace Wrapper

variable {w : Wrapper} {b : Text}

/-- Whether the opening marker names a table. -/
def opensTable (w : Wrapper) : Bool := w.opening.any fun m => namesTable (commented m)

/-- The lines that come into the section of the table through the markers: the closing marker, and an
    opening one that names a table, with all that stands above the table of the block. -/
def drawnIn (w : Wrapper) (b : Text) : List Line :=
  (if w.opensTable then
      w.opening.toList.map commented ++ (Lines.ofText b).ended.takeWhile (! namesTable ·)
    else []) ++ w.closing.toList.map commented

/-- The columns among them. -/
def addedColumns (w : Wrapper) (b : Text) : List Line := (w.drawnIn b).filter Column.describes

theorem isComment_lines (hb : Rendered b) : ∀ l ∈ w.lines b, isComment l = true := by
  have hmarker : ∀ o : Option Text, ∀ l ∈ o.toList.map commented, isComment l = true := by
    intro o l hl
    obtain ⟨m, -, rfl⟩ := List.mem_map.mp hl
    rfl
  intro l hl
  rcases List.mem_append.mp hl with hl | hl
  · exact (List.mem_append.mp hl).elim (hmarker _ l) (hb.comment l)
  · exact hmarker _ l hl

/-- No line of a block between such markers holds a carriage return. -/
theorem IsUnbroken.not_mem_line (hw : w.IsUnbroken) (hb : Rendered b) :
    ∀ l ∈ w.lines b, '\r' ∉ l := by
  have hmarker : ∀ o : Option Text, (∀ m ∈ o, '\r' ∉ m) → ∀ l ∈ o.toList.map commented, '\r' ∉ l := by
    intro o ho l hl
    obtain ⟨m, hm, rfl⟩ := List.mem_map.mp hl
    have := ho m (Option.mem_toList.mp hm)
    simp [commented, this]
  intro l hl
  rcases List.mem_append.mp hl with hl | hl
  · exact (List.mem_append.mp hl).elim (hmarker _ hw.openingReturn l) hb.not_mem_line
  · exact hmarker _ hw.closingReturn l hl

/-- **The section of a block between markers** is that of the block and what the markers draw in. -/
theorem tableLines_lines (hb : Rendered b)
    (ht : ∃ l ∈ (Lines.ofText b).ended, namesTable l = true) :
    (tableLines (w.lines b)).Perm (tableLines (Lines.ofText b).ended ++ w.drawnIn b) := by
  rw [tableLines_of_comments (isComment_lines hb), tableLines_of_comments hb.comment, lines, drawnIn]
  generalize (Lines.ofText b).ended = ls at ht
  generalize w.closing.toList.map commented = back
  -- the lines of the block hold the upper end of the section
  have hstops : ls.dropWhile (! namesTable ·) ≠ [] := by
    obtain ⟨l, hl, hnames⟩ := ht
    intro hnil
    simpa [hnames] using List.dropWhile_eq_nil_iff.mp hnil l hl
  have hblock : (ls ++ back).dropWhile (! namesTable ·) = ls.dropWhile (! namesTable ·) ++ back := by
    rw [List.dropWhile_append, if_neg (by simpa using hstops)]
  cases ho : w.opening with
  | none =>
    have hnot : w.opensTable = false := by simp [opensTable, ho]
    simp [hnot, hblock]
  | some m =>
    have hopens : w.opensTable = namesTable (commented m) := by simp [opensTable, ho]
    rw [hopens]
    cases hm : namesTable (commented m) with
    | false => simp [hm, hblock]
    | true =>
      -- the opening marker is the upper end, and what stands below it is drawn in
      have hall : (commented m :: (ls ++ back)).dropWhile (! namesTable ·) =
          (commented m :: ls.takeWhile (! namesTable ·)) ++
            (ls.dropWhile (! namesTable ·) ++ back) := by
        rw [List.dropWhile_cons_of_neg (by simp [hm]), List.cons_append, ← List.append_assoc,
          List.takeWhile_append_dropWhile]
      have hswap := List.perm_append_comm_assoc (commented m :: ls.takeWhile (! namesTable ·))
        (ls.dropWhile (! namesTable ·)) back
      rw [← hall] at hswap
      simpa using hswap

/-- **The columns of a block between markers** are its own and those that the markers add. -/
theorem columnLines_wrap_perm (hw : w.IsUnbroken) (hb : Rendered b)
    (ht : ∃ l ∈ (Lines.ofText b).ended, namesTable l = true) :
    (columnLines (w.wrap b)).Perm (columnLines b ++ w.addedColumns b) := by
  have hwrapped := columnLines_unlines_perm (not_mem_lines hw.toIsSingleLine) (hw.not_mem_line hb)
  have hblock := columnLines_unlines_perm (Lines.not_mem_ended_ofText b) fun l => hb.not_mem_line
  rw [← wrap_eq hb] at hwrapped
  rw [Lines.unlines_ended hb.whole] at hblock
  have hsection := (tableLines_lines (w := w) hb ht).filter Column.describes
  rw [List.filter_append] at hsection
  exact hwrapped.trans (hsection.trans (hblock.symm.append_right _))

/-- **The markers add no column** just where the opening one names no table and the closing one is
    none. -/
theorem addedColumns_eq_nil_iff : w.addedColumns b = [] ↔
    (∀ m ∈ w.opening, namesTable (commented m) = false) ∧
      ∀ m ∈ w.closing, ¬ Column.IsColumn (commented m) := by
  have hclosing : (w.closing.toList.map commented).filter Column.describes = [] ↔
      ∀ m ∈ w.closing, ¬ Column.IsColumn (commented m) := by
    simp [List.filter_eq_nil_iff, ← Column.describes_iff]
  rw [addedColumns, drawnIn, List.filter_append, List.append_eq_nil_iff, hclosing]
  refine and_congr_left fun _ => ?_
  cases ho : w.opening with
  | none => simp [opensTable, ho]
  | some m =>
    cases hm : namesTable (commented m) with
    | false => simp [opensTable, ho, hm]
    | true =>
      have hcolumn := Column.describes_iff.mpr (Column.isColumn_of_namesTable hm)
      simp [opensTable, ho, hm, hcolumn]

end Wrapper

/-- **Markers and the comparison of columns.**  A block between markers has its own columns and those
    that the markers add.  So they stay the same just where the opening marker names no table and the
    closing one is no column, and between two pairs of markers just where both add the same. -/
theorem columnLines_wrap_iff {w w' : Wrapper} {b : Text} (hw : w.IsUnbroken) (hw' : w'.IsUnbroken)
    (hb : Rendered b) (ht : ∃ l ∈ (Lines.ofText b).ended, namesTable l = true) :
    (columnLines (w.wrap b)).Perm (columnLines b ++ w.addedColumns b) ∧
      (columnLines (w.wrap b) = columnLines b ↔
        (∀ m ∈ w.opening, namesTable (commented m) = false) ∧
          ∀ m ∈ w.closing, ¬ Column.IsColumn (commented m)) ∧
      ∀ old : Text, columnLines old = columnLines (w'.wrap b) →
        ((ColumnDiff.ofTexts old (w.wrap b)).isChanged = false ↔
          (w'.addedColumns b).Perm (w.addedColumns b)) := by
  have hperm := Wrapper.columnLines_wrap_perm hw hb ht
  have hperm' := Wrapper.columnLines_wrap_perm hw' hb ht
  refine ⟨hperm, ?_, fun old hold => ?_⟩
  · rw [← Wrapper.addedColumns_eq_nil_iff (b := b), columnLines_eq_iff_perm]
    constructor
    · intro hsame
      have hlen := (hsame.symm.trans hperm).length_eq
      rw [List.length_append] at hlen
      exact List.length_eq_zero_iff.mp (by omega)
    · intro hnone
      rwa [hnone, List.append_nil] at hperm
  · rw [ColumnDiff.isChanged_ofTexts_eq_false, hold, columnLines_eq_iff_perm]
    constructor
    · intro h
      exact (List.perm_append_left_iff _).mp (hperm'.symm.trans (h.trans hperm))
    · intro h
      exact hperm'.trans ((h.append_left _).trans hperm.symm)

/-- One word behind the block is no column, two words are. -/
theorem columnLines_wrap_columnBlock :
    let block := columnBlock "integer"
    columnLines (Wrapper.wrap ⟨some "START".toList, some "END".toList⟩ block) = columnLines block ∧
      (ColumnDiff.ofTexts block (Wrapper.wrap ⟨none, some "Schema end".toList⟩ block)).isChanged =
        true := by
  intro block
  have hblock : Rendered block := by decide
  have htable : ∃ l ∈ (Lines.ofText block).ended, namesTable l = true := by decide
  have hempty : Wrapper.IsUnbroken {} := by decide
  obtain ⟨-, hsame, -⟩ := columnLines_wrap_iff (w := ⟨some "START".toList, some "END".toList⟩)
    (by decide) hempty hblock htable
  obtain ⟨-, -, hchanged⟩ := columnLines_wrap_iff (w := ⟨none, some "Schema end".toList⟩) (by decide)
    hempty hblock htable
  refine ⟨hsame.mpr (by decide), ?_⟩
  rw [← Bool.not_eq_false, hchanged block (by rw [Wrapper.wrap_empty])]
  decide

/-- **A marker may count as a change**: behind the block, a line of two words is a column. -/
theorem not_columnLines_wrap :
    ¬ ∀ (w : Wrapper) (b : Text), w.IsUnbroken → Rendered b →
      (∃ l ∈ (Lines.ofText b).ended, namesTable l = true) →
      columnLines (w.wrap b) = columnLines b := by
  intro h
  exact absurd (h ⟨none, some "Schema end".toList⟩ (columnBlock "integer") (by decide) (by decide)
    (by decide)) (by decide)

end SchemaComment
