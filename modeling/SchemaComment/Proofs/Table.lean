/-
  WHAT OF A SCHEMA COMMENT IS COMPARED.

  Two schema comments are compared by the columns in the section of their table.  This module says
  which lines those are without any scan, and what may be changed in a text and makes no difference.

  1. **Program** — `tableLines`, `Column.describes` and, from both, `columnLines`.
  2. **Specification** — `columns_compared`: a comparison finds no change just where the sections of
     the two texts hold the same columns equally often.  So the order of the lines, lines of another
     form and all that stands around the section take no part (`Tabled.Edit`).
  3. **The crux** — blanks and the characters of a name have none in common.  So where a name begins
     and ends is not open to choice, and it is enough to look at what follows it (`describes_append`).
-/
import Mathlib.Logic.Relation
import SchemaComment.Proofs.Search
import SchemaComment.Proofs.Joined
import SchemaComment.Proofs.Sorted

namespace SchemaComment

open Line

/-! ## The form of a column -/

namespace Column

/-- The front of a column: a hash, blanks and a name. -/
def IsFront (front : Line) : Prop :=
  ∃ gap name, front = '#' :: (gap ++ name) ∧ (gap ≠ [] ∧ ∀ c ∈ gap, isGap c = true) ∧
    (name ≠ [] ∧ ∀ c ∈ name, isName c = true)

/-- A column: its front, blanks and at least one more character. -/
def IsColumn (l : Line) : Prop :=
  ∃ front gap rest, l = front ++ gap ++ rest ∧ IsFront front ∧
    (gap ≠ [] ∧ ∀ c ∈ gap, isGap c = true) ∧ rest ≠ []

/-- No blank is part of a name. -/
theorem not_isName_of_isGap {c : Char} (h : isGap c = true) : isName c = false := by
  simp only [isGap, Bool.or_eq_true, beq_iff_eq] at h
  rcases h with rfl | rfl <;> rfl

theorem not_isGap_of_isName {c : Char} (h : isName c = true) : isGap c = false := by
  cases hc : isGap c with
  | false => rfl
  | true => rw [not_isName_of_isGap hc] at h; cases h

/-- **What follows the front** settles whether a line is a column. -/
theorem describes_append {front : Line} (hfront : IsFront front) {t : Line}
    (ht : ∀ c ∈ t.head?, isName c = false) :
    describes (front ++ t) = (t.head?.any isGap && decide (2 ≤ t.length)) := by
  obtain ⟨gap, name, rfl, ⟨hgap, hgaps⟩, hname, hnames⟩ := hfront
  obtain ⟨g, gs, rfl⟩ := List.exists_cons_of_ne_nil hgap
  obtain ⟨n, ns, rfl⟩ := List.exists_cons_of_ne_nil hname
  have hn : isName n = true := hnames n List.mem_cons_self
  have hblanks : (gs ++ (n :: ns ++ t)).dropWhile isGap = n :: ns ++ t :=
    (takeWhile_append_of_stop (fun c hc => hgaps c (List.mem_cons_of_mem g hc)) fun c hc => by
      obtain rfl : n = c := by simpa using hc
      exact not_isGap_of_isName hn).2
  have hrest : (n :: ns ++ t).dropWhile isName = t := (takeWhile_append_of_stop hnames ht).2
  have hline : '#' :: (g :: gs ++ n :: ns) ++ t = '#' :: g :: (gs ++ (n :: ns ++ t)) := by simp
  rw [hline, describes]
  simp only [hblanks, hrest, hgaps g List.mem_cons_self]
  simp [hn]

/-- A line that is taken for a column has a front, a blank and at least one more character. -/
theorem exists_front_of_describes {l : Line} (h : describes l = true) :
    ∃ front g rest, l = front ++ g :: rest ∧ IsFront front ∧ isGap g = true ∧ rest ≠ [] := by
  unfold describes at h
  split at h
  · rename_i g r
    simp only [Bool.and_eq_true, decide_eq_true_eq, Option.any_eq_true] at h
    obtain ⟨⟨⟨hg, n, hn, hname⟩, b, hb, hgap⟩, hlen⟩ := h
    obtain ⟨ns, hns⟩ : ∃ ns, (r.dropWhile isGap).takeWhile isName = n :: ns := by
      obtain ⟨rs, hrs⟩ := List.head?_eq_some_iff.mp hn
      exact ⟨rs.takeWhile isName, by rw [hrs, List.takeWhile_cons_of_pos hname]⟩
    obtain ⟨rest, hrest⟩ := List.head?_eq_some_iff.mp hb
    refine ⟨'#' :: (g :: r.takeWhile isGap ++ (r.dropWhile isGap).takeWhile isName), b, rest, ?_,
      ⟨_, _, rfl, ⟨by simp, ?_⟩, by simp [hns], ?_⟩, hgap, ?_⟩
    · rw [← hrest]
      simp [List.append_assoc, List.takeWhile_append_dropWhile]
    · intro c hc
      rcases List.mem_cons.mp hc with rfl | hc
      · exact hg
      · exact List.all_eq_true.mp List.all_takeWhile c hc
    · exact fun c hc => List.all_eq_true.mp List.all_takeWhile c hc
    · rintro rfl
      rw [hrest] at hlen
      simp at hlen
  · cases h

/-- **The test for a column** says whether a line has its form. -/
theorem describes_iff {l : Line} : describes l = true ↔ IsColumn l := by
  constructor
  · intro h
    obtain ⟨front, g, rest, rfl, hfront, hg, hrest⟩ := exists_front_of_describes h
    exact ⟨front, [g], rest, by simp, hfront, by simpa using hg, hrest⟩
  · rintro ⟨front, gap, rest, rfl, hfront, ⟨hgap, hgaps⟩, hrest⟩
    obtain ⟨g, gs, rfl⟩ := List.exists_cons_of_ne_nil hgap
    have hg : isGap g = true := hgaps g List.mem_cons_self
    have hlen : 0 < rest.length := List.length_pos_iff.mpr hrest
    rw [List.append_assoc, describes_append hfront]
    · simp [hg]
      omega
    · intro c hc
      obtain rfl : g = c := by simpa using hc
      exact not_isName_of_isGap hg

instance (l : Line) : Decidable (IsColumn l) := decidable_of_iff _ describes_iff

end Column

/-! ## The section of the table -/

/-- The section of the table among lines: the first line that names the table and the comment lines
    right below it, nothing where no line names a table. -/
inductive IsTable (ls : List Line) : List Line → Prop
  | absent (h : ∀ l ∈ ls, namesTable l = false) : IsTable ls []
  | present {above below comments : List Line} {l : Line}
      (hls : ls = above ++ l :: (comments ++ below)) (habove : ∀ k ∈ above, namesTable k = false)
      (hl : namesTable l = true) (hcomments : ∀ k ∈ comments, isComment k = true)
      (hbelow : ∀ k ∈ below.head?, isComment k = false) : IsTable ls (l :: comments)

theorem tableLines_of_absent {ls : List Line} (h : ∀ l ∈ ls, namesTable l = false) :
    tableLines ls = [] := by
  have hnone : (ls ++ []).dropWhile (! namesTable ·) = [] :=
    (takeWhile_append_of_stop (fun l hl => by simp [h l hl]) (by simp)).2
  rw [List.append_nil] at hnone
  rw [tableLines, hnone]

theorem tableLines_of_present {above below comments : List Line} {l : Line}
    (habove : ∀ k ∈ above, namesTable k = false) (hl : namesTable l = true)
    (hcomments : ∀ k ∈ comments, isComment k = true)
    (hbelow : ∀ k ∈ below.head?, isComment k = false) :
    tableLines (above ++ l :: (comments ++ below)) = l :: comments := by
  have hfirst : (above ++ l :: (comments ++ below)).dropWhile (! namesTable ·) =
      l :: (comments ++ below) :=
    (takeWhile_append_of_stop (fun k hk => by simp [habove k hk]) fun k hk => by
      obtain rfl : l = k := by simpa using hk
      simp [hl]).2
  rw [tableLines, hfirst]
  simp only [(takeWhile_append_of_stop hcomments hbelow).1]

/-- What is cut out is the section of the table. -/
theorem isTable_tableLines (ls : List Line) : IsTable ls (tableLines ls) := by
  have hsplit : ls.takeWhile (! namesTable ·) ++ ls.dropWhile (! namesTable ·) = ls :=
    List.takeWhile_append_dropWhile
  have habove : ∀ k ∈ ls.takeWhile (! namesTable ·), namesTable k = false := fun k hk => by
    simpa using List.all_eq_true.mp List.all_takeWhile k hk
  cases hrest : ls.dropWhile (! namesTable ·) with
  | nil =>
    have habsent : ∀ l ∈ ls, namesTable l = false := by
      rw [hrest, List.append_nil] at hsplit
      rwa [hsplit] at habove
    rw [tableLines_of_absent habsent]
    exact .absent habsent
  | cons l rest =>
    have hl : namesTable l = true := by
      have hmem : l ∈ (ls.dropWhile (! namesTable ·)).head? := by rw [hrest]; rfl
      simpa using not_of_mem_head?_dropWhile hmem
    have hcomments : ∀ k ∈ rest.takeWhile isComment, isComment k = true :=
      fun k hk => List.all_eq_true.mp List.all_takeWhile k hk
    have hbelow : ∀ k ∈ (rest.dropWhile isComment).head?, isComment k = false :=
      fun k hk => not_of_mem_head?_dropWhile hk
    have hls : ls = ls.takeWhile (! namesTable ·) ++
        l :: (rest.takeWhile isComment ++ rest.dropWhile isComment) := by
      rw [List.takeWhile_append_dropWhile, ← hrest, hsplit]
    have htable := tableLines_of_present habove hl hcomments hbelow
    rw [← hls] at htable
    rw [htable]
    exact .present hls habove hl hcomments hbelow

/-- **There is one section of the table**, and it is cut out. -/
theorem tableLines_eq_iff {ls sec : List Line} : tableLines ls = sec ↔ IsTable ls sec := by
  constructor
  · rintro rfl
    exact isTable_tableLines ls
  · intro h
    cases h with
    | absent h => exact tableLines_of_absent h
    | present hls habove hl hcomments hbelow =>
      rw [hls]
      exact tableLines_of_present habove hl hcomments hbelow

/-! ## Columns counted -/

namespace Column

/-- How often a column is among the lines, carriage returns at the end of a line aside. -/
def occurrences (k : Line) (ls : List Line) : Nat :=
  ls.countP fun l => decide (IsColumn l ∧ withoutReturns l = k)

/-- The columns of a text hold a line as often as the section of its table does. -/
theorem count_columnLines (k : Line) (t : Text) :
    (columnLines t).count k = occurrences k (tableLines (Lines.ofText t).ended) := by
  rw [columnLines, (sortLines_perm _).count_eq, List.count, List.countP_map, List.countP_filter]
  refine List.countP_congr fun l _ => ?_
  simp [describes_iff, and_comm]

end Column

/-- Texts whose sections hold the same columns equally often have the same columns. -/
theorem columnLines_eq_of_perm {s t : Text}
    (h : ((tableLines (Lines.ofText s).ended).filter Column.describes).Perm
      ((tableLines (Lines.ofText t).ended).filter Column.describes)) :
    columnLines s = columnLines t :=
  sortLines_eq_iff_perm.mpr (h.map _)

/-! ## Edits that make no difference -/

/-- A text with the section of a table in it. -/
structure Tabled where
  /-- The lines above the section. -/
  above : List Line
  /-- The line that names the table. -/
  naming : Line
  /-- The comment lines of the section. -/
  comments : List Line
  /-- The text behind the section. -/
  below : Text
  above_apart : ∀ l ∈ above, '\n' ∉ l ∧ namesTable l = false
  naming_names : '\n' ∉ naming ∧ namesTable naming = true
  comments_comment : ∀ l ∈ comments, '\n' ∉ l ∧ isComment l = true
  below_apart : ∀ l ∈ (Lines.ofText below).ended.head?, isComment l = false

namespace Tabled

/-- The text itself. -/
def text (x : Tabled) : Text := unlines (x.above ++ x.naming :: x.comments) ++ x.below

theorem tableLines_text (x : Tabled) :
    tableLines (Lines.ofText x.text).ended = x.naming :: x.comments := by
  have hplain : ∀ l ∈ x.above ++ x.naming :: x.comments, '\n' ∉ l := by
    intro l hl
    rcases List.mem_append.mp hl with hl | hl
    · exact (x.above_apart l hl).1
    · rcases List.mem_cons.mp hl with rfl | hl
      · exact x.naming_names.1
      · exact (x.comments_comment l hl).1
  rw [text, Lines.ofText_unlines_append hplain]
  show tableLines ((x.above ++ x.naming :: x.comments) ++ (Lines.ofText x.below).ended) = _
  rw [List.append_assoc, List.cons_append]
  exact tableLines_of_present (fun l hl => (x.above_apart l hl).2) x.naming_names.2
    (fun l hl => (x.comments_comment l hl).2) x.below_apart

/-- **A text has a section** where some line of it names a table. -/
theorem exists_text_eq_iff (t : Text) :
    (∃ x : Tabled, x.text = t) ↔ ∃ l ∈ (Lines.ofText t).ended, namesTable l = true := by
  constructor
  · rintro ⟨x, rfl⟩
    refine Classical.byContradiction fun hnone => ?_
    have hempty : tableLines (Lines.ofText x.text).ended = [] := tableLines_of_absent fun l hl => by
      simpa using fun h => hnone ⟨l, hl, h⟩
    rw [tableLines_text] at hempty
    cases hempty
  · rintro ⟨l, hl, hnames⟩
    have hwhole := Lines.toText_ofText t
    have hplain := Lines.not_mem_ended_ofText t
    have htail := Lines.not_mem_tail_ofText t
    rw [Lines.toText] at hwhole
    generalize (Lines.ofText t).tail = tail at hwhole htail
    generalize (Lines.ofText t).ended = ls at hl hwhole hplain
    have htable := isTable_tableLines ls
    generalize tableLines ls = sec at htable
    cases htable with
    | absent h =>
      rw [h l hl] at hnames
      cases hnames
    | @present above below comments k hls habove hk hcomments hbelow =>
      subst hls
      have hread : Lines.ofText (unlines below ++ tail) = ⟨below, tail⟩ :=
        Lines.ofText_toText (s := ⟨below, tail⟩) (fun l hl => hplain l (by simp [hl])) htail
      refine ⟨⟨above, k, comments, unlines below ++ tail,
        fun l hl => ⟨hplain l (by simp [hl]), habove l hl⟩, ⟨hplain k (by simp), hk⟩,
        fun l hl => ⟨hplain l (by simp [hl]), hcomments l hl⟩, by rw [hread]; exact hbelow⟩, ?_⟩
      rw [text, ← hwhole]
      simp

/-- One edit of a text that keeps its columns. -/
inductive Edit (x y : Tabled) : Prop
  /-- The lines below the one that names the table are put in another order. -/
  | permute (habove : y.above = x.above) (hnaming : y.naming = x.naming) (hbelow : y.below = x.below)
      (h : y.comments.Perm x.comments)
  /-- A comment line of another form is put among them. -/
  | insert {as bs : List Line} {l : Line} (habove : y.above = x.above) (hnaming : y.naming = x.naming)
      (hbelow : y.below = x.below) (hx : x.comments = as ++ bs) (hy : y.comments = as ++ l :: bs)
      (hl : ¬ Column.IsColumn l)
  /-- One of another form is taken out. -/
  | delete {as bs : List Line} {l : Line} (habove : y.above = x.above) (hnaming : y.naming = x.naming)
      (hbelow : y.below = x.below) (hx : x.comments = as ++ l :: bs) (hy : y.comments = as ++ bs)
      (hl : ¬ Column.IsColumn l)
  /-- Other lines stand above the section. -/
  | above (hnaming : y.naming = x.naming) (hcomments : y.comments = x.comments)
      (hbelow : y.below = x.below)
  /-- Another text follows the section. -/
  | below (habove : y.above = x.above) (hnaming : y.naming = x.naming)
      (hcomments : y.comments = x.comments)

/-- A comment line of another form is left out of the columns. -/
theorem filter_describes_insert {l : Line} (hl : ¬ Column.IsColumn l) (as bs : List Line) :
    (as ++ l :: bs).filter Column.describes = (as ++ bs).filter Column.describes := by
  have hnot : Column.describes l = false := by simpa [← Column.describes_iff] using hl
  simp [List.filter_append, hnot]

/-- **One edit keeps the columns.** -/
theorem Edit.columnLines_eq {x y : Tabled} (h : Edit x y) :
    columnLines y.text = columnLines x.text := by
  refine columnLines_eq_of_perm ?_
  rw [tableLines_text, tableLines_text]
  cases h with
  | permute _ hnaming _ h =>
    rw [hnaming]
    exact (h.cons _).filter _
  | insert _ hnaming _ hx hy hl =>
    rw [hnaming, hx, hy, List.filter_cons, List.filter_cons, filter_describes_insert hl]
  | delete _ hnaming _ hx hy hl =>
    rw [hnaming, hx, hy, List.filter_cons, List.filter_cons, filter_describes_insert hl]
  | above hnaming hcomments _ => rw [hnaming, hcomments]
  | below _ hnaming hcomments => rw [hnaming, hcomments]

/-- Any number of edits keeps them. -/
theorem columnLines_eq_of_edits {x y : Tabled} (h : Relation.ReflTransGen Edit x y) :
    columnLines y.text = columnLines x.text := by
  induction h with
  | refl => rfl
  | tail _ hedit ih => exact hedit.columnLines_eq.trans ih

end Tabled

/-! ## The comparison -/

/-- **What is compared** is how often each column is in the section of the table.  The order of the
    lines there, lines of another form and the text around the section make no difference. -/
theorem columns_compared :
    (∀ old new : Text, (ColumnDiff.ofTexts old new).isChanged = false ↔
      ∃ s₁ s₂, IsTable (Lines.ofText old).ended s₁ ∧ IsTable (Lines.ofText new).ended s₂ ∧
        ∀ k, Column.occurrences k s₁ = Column.occurrences k s₂) ∧
    (∀ x y : Tabled, Relation.ReflTransGen Tabled.Edit x y → ∀ t : Text,
      (ColumnDiff.ofTexts y.text t).isChanged = (ColumnDiff.ofTexts x.text t).isChanged ∧
        (ColumnDiff.ofTexts t y.text).isChanged = (ColumnDiff.ofTexts t x.text).isChanged) ∧
    ∀ t : Text, (∃ x : Tabled, x.text = t) ↔ ∃ l ∈ (Lines.ofText t).ended, namesTable l = true := by
  refine ⟨fun old new => ?_, fun x y h t => ?_, Tabled.exists_text_eq_iff⟩
  · have hchanged := ColumnDiff.isChanged_ofTexts_iff old new
    simp only [Column.count_columnLines] at hchanged
    constructor
    · intro hsame
      refine ⟨_, _, isTable_tableLines _, isTable_tableLines _, fun k => ?_⟩
      refine Decidable.byContradiction fun hne => ?_
      rw [hchanged.mpr ⟨k, hne⟩] at hsame
      cases hsame
    · rintro ⟨s₁, s₂, h₁, h₂, hsame⟩
      rw [tableLines_eq_iff.mpr h₁, tableLines_eq_iff.mpr h₂] at hchanged
      rw [← Bool.not_eq_true, hchanged]
      rintro ⟨k, hne⟩
      exact hne (hsame k)
  · have hcolumns := Tabled.columnLines_eq_of_edits h
    simp only [ColumnDiff.ofTexts, hcolumns, and_self]

/-- A table below the version of its schema, in a file that ends its lines in two ways. -/
def versionedTable : Tabled where
  above := ["# Schema version: 1".toList]
  naming := "# Table name: users".toList
  comments := ["#".toList, "#  id :integer".toList, "#  name :string\r".toList]
  below := "class User\n".toList
  above_apart := by decide
  naming_names := by decide
  comments_comment := by decide
  below_apart := by decide

/-- Its lines in another order. -/
def reorderedTable : Tabled :=
  { versionedTable with
    comments := ["#  name :string\r".toList, "#".toList, "#  id :integer".toList]
    comments_comment := by decide }

/-- The same without the version. -/
def unversionedTable : Tabled := { reorderedTable with above := [], above_apart := by decide }

/-- Another order and no version make no difference. -/
theorem columns_compared_versionedTable :
    unversionedTable.text =
        "# Table name: users\n#  name :string\r\n#\n#  id :integer\nclass User\n".toList ∧
      Relation.ReflTransGen Tabled.Edit versionedTable unversionedTable ∧
      (ColumnDiff.ofTexts unversionedTable.text versionedTable.text).isChanged = false := by
  have hedits : Relation.ReflTransGen Tabled.Edit versionedTable unversionedTable :=
    (Relation.ReflTransGen.single (b := reorderedTable) (.permute rfl rfl rfl (by decide))).tail
      (.above rfl rfl rfl)
  obtain ⟨-, hedited, -⟩ := columns_compared
  obtain ⟨hold, -⟩ := hedited _ _ hedits versionedTable.text
  exact ⟨by decide, hedits, hold.trans (ColumnDiff.isChanged_ofTexts_eq_false.mpr rfl)⟩

end SchemaComment
