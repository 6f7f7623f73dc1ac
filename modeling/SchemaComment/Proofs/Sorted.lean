/-
  WHAT TWO SORTED LISTS TELL APART.

  The columns of two schema comments are compared as sorted lists.  Whether they differ is asked of the
  lists as a whole; what is new and what is gone is looked up line by line, by halving.

  1. **Program** — `ColumnDiff.isChanged`, `ColumnDiff.added` and `ColumnDiff.removed`.
  2. **Specification** — `differences_told`: what is told as new are the new columns that the old
     comment does not have, in their order, and what is told as gone likewise.  The lists differ just
     where something is told, or where both have a line and one of them has it more often.
  3. **The crux** — the order by code points is a total one, so a list has one sorted form
     (`sortLines_eq_iff_perm`).  Halving keeps a line in its sight, and the middle line in place of one
     that is equal to it (`getElem?_halve`).
-/
import SchemaComment.Columns

namespace SchemaComment

/-! ## The order by code points -/

namespace Line

theorem le_refl (l : Line) : le l l = true := by
  induction l with
  | nil => rfl
  | cons c l ih => rw [le, if_pos rfl, ih]

theorem le_total (k l : Line) : le k l = true ∨ le l k = true := by
  induction k generalizing l with
  | nil => exact Or.inl rfl
  | cons c k ih =>
    cases l with
    | nil => exact Or.inr rfl
    | cons d l =>
      by_cases hcd : c = d
      · subst hcd
        simpa [le] using ih l
      · have hne : c.toNat ≠ d.toNat := fun h => hcd (Char.toNat_inj.mp h)
        simp only [le, hcd, Ne.symm hcd, if_false, decide_eq_true_eq]
        omega

theorem le_trans {j k l : Line} (hjk : le j k = true) (hkl : le k l = true) : le j l = true := by
  induction j generalizing k l with
  | nil => rfl
  | cons b j ih =>
    cases k with
    | nil => cases hjk
    | cons c k =>
      cases l with
      | nil => cases hkl
      | cons d l =>
        -- the first characters settle it, unless they are all the same
        simp only [le] at hjk hkl ⊢
        split at hjk <;> split at hkl
        · subst_vars
          rw [if_pos rfl]
          exact ih hjk hkl
        · subst_vars
          rwa [if_neg (by assumption)]
        · subst_vars
          rwa [if_neg (by assumption)]
        · rw [decide_eq_true_eq] at hjk hkl
          have hbd : b ≠ d := fun h => by rw [h] at hjk; omega
          rw [if_neg hbd, decide_eq_true_eq]
          omega

theorem le_antisymm {k l : Line} (hkl : le k l = true) (hlk : le l k = true) : k = l := by
  induction k generalizing l with
  | nil =>
    cases l with
    | nil => rfl
    | cons d l => cases hlk
  | cons c k ih =>
    cases l with
    | nil => cases hkl
    | cons d l =>
      by_cases hcd : c = d
      · subst hcd
        simp only [le, if_true] at hkl hlk
        rw [ih hkl hlk]
      · simp only [le, hcd, Ne.symm hcd, if_false, decide_eq_true_eq] at hkl hlk
        omega

end Line

/-! ## Sorted lists -/

/-- Whether no line comes before one that stands above it. -/
def Ascending (ls : List Line) : Prop := ls.Pairwise fun k l => Line.le k l = true

theorem ascending_insertLine (l : Line) {ks : List Line} (h : Ascending ks) :
    Ascending (insertLine l ks) := by
  induction ks with
  | nil => exact List.pairwise_singleton _ l
  | cons k ks ih =>
    obtain ⟨hk, hks⟩ := List.pairwise_cons.mp h
    rw [insertLine]
    split
    · rename_i hlk
      refine List.pairwise_cons.mpr ⟨fun j hj => ?_, h⟩
      rcases List.mem_cons.mp hj with rfl | hj
      · exact hlk
      · exact Line.le_trans hlk (hk j hj)
    · rename_i hlk
      refine List.pairwise_cons.mpr ⟨fun j hj => ?_, ih hks⟩
      rcases List.mem_cons.mp ((insertLine_perm l ks).mem_iff.mp hj) with rfl | hj
      · exact (Line.le_total j k).resolve_left hlk
      · exact hk j hj

theorem ascending_sortLines (ls : List Line) : Ascending (sortLines ls) := by
  induction ls with
  | nil => exact List.Pairwise.nil
  | cons l ls ih => exact ascending_insertLine l ih

/-- Sorted lists that hold the same lines equally often are the same. -/
theorem Ascending.eq_of_perm {ks ls : List Line} (hks : Ascending ks) (hls : Ascending ls)
    (h : ks.Perm ls) : ks = ls :=
  h.eq_of_pairwise (fun _ _ _ _ => Line.le_antisymm) hks hls

/-- **A list has one sorted form**, and lists that hold the same lines equally often share it. -/
theorem sortLines_eq_iff_perm {ks ls : List Line} : sortLines ks = sortLines ls ↔ ks.Perm ls := by
  constructor
  · intro h
    have hks := (sortLines_perm ks).symm
    rw [h] at hks
    exact hks.trans (sortLines_perm ls)
  · intro h
    exact (ascending_sortLines ks).eq_of_perm (ascending_sortLines ls)
      ((sortLines_perm ks).trans (h.trans (sortLines_perm ls).symm))

/-! ## Halving -/

/-- A line further down comes no earlier. -/
theorem Ascending.le_of_le {ls : List Line} (h : Ascending ls) {i j : Nat} (hij : i ≤ j)
    (hj : j < ls.length) : Line.le ls[i] ls[j] = true := by
  rcases Nat.lt_or_eq_of_le hij with hlt | rfl
  · exact List.pairwise_iff_getElem.mp h i j (Nat.lt_trans hlt hj) hj hlt
  · exact Line.le_refl _

/-- **A line that is in sight stays in sight**, and in the end it is the one that is looked at. -/
theorem getElem?_halve {ls : List Line} (hs : Ascending ls) {l : Line} {base size : Nat}
    (h : base + size ≤ ls.length) (hl : ∃ j, base ≤ j ∧ j < base + size ∧ ls[j]? = some l) :
    ls[halve ls l base size h]? = some l := by
  fun_induction halve ls l base size h with
  | case1 base size h hlt hmid ih =>
    obtain ⟨j, hbase, hsize, hj⟩ := hl
    rcases Nat.lt_or_ge j (base + size / 2) with hbelow | habove
    · -- a line above the middle that is equal to `l` has the middle one for a twin
      obtain ⟨hlen, hjl⟩ := List.getElem?_eq_some_iff.mp hj
      have hle := hs.le_of_le (Nat.le_of_lt hbelow) (by omega)
      rw [hjl] at hle
      refine ih ⟨base + size / 2, Nat.le_refl _, by omega, ?_⟩
      rw [List.getElem?_eq_getElem (by omega), Line.le_antisymm hmid hle]
    · exact ih ⟨j, habove, by omega, hj⟩
  | case2 base size h hlt hmid ih =>
    obtain ⟨j, hbase, hsize, hj⟩ := hl
    obtain ⟨hlen, hjl⟩ := List.getElem?_eq_some_iff.mp hj
    -- the middle line comes after `l`, and so do those behind it
    have hbelow : j < base + size / 2 := by
      rcases Nat.lt_or_ge j (base + size / 2) with hbelow | habove
      · exact hbelow
      · have hle := hs.le_of_le habove hlen
        rw [hjl] at hle
        exact absurd hle hmid
    exact ih ⟨j, hbase, by omega, hj⟩
  | case3 base size h hlt =>
    obtain ⟨j, hbase, hsize, hj⟩ := hl
    obtain rfl : j = base := by omega
    exact hj

/-- **Halving finds what a sorted list has.** -/
theorem holdsLine_iff {ls : List Line} (hs : Ascending ls) {l : Line} :
    holdsLine ls l = true ↔ l ∈ ls := by
  rw [holdsLine, beq_iff_eq]
  constructor
  · exact List.mem_of_getElem?
  · intro hl
    obtain ⟨j, hj, hjl⟩ := List.mem_iff_getElem.mp hl
    exact getElem?_halve hs (by omega)
      ⟨j, Nat.zero_le j, by omega, List.getElem?_eq_some_iff.mpr ⟨hj, hjl⟩⟩

/-- So the lines that halving does not find are those that the sorted list does not have. -/
theorem filter_not_holdsLine {ls : List Line} (hs : Ascending ls) (ks : List Line) :
    ks.filter (! holdsLine ls ·) = ks.filter (· ∉ ls) := by
  refine List.filter_congr fun k _ => ?_
  cases hk : holdsLine ls k with
  | true => simp [(holdsLine_iff hs).mp hk]
  | false =>
    have hnot : k ∉ ls := fun h => by rw [(holdsLine_iff hs).mpr h] at hk; cases hk
    simp [hnot]

/-! ## What a comparison tells -/

theorem ascending_columnLines (t : Text) : Ascending (columnLines t) := ascending_sortLines _

namespace ColumnDiff

theorem added_ofTexts (old new : Text) :
    (ofTexts old new).added = (columnLines new).filter (· ∉ columnLines old) :=
  filter_not_holdsLine (ascending_columnLines old) _

theorem removed_ofTexts (old new : Text) :
    (ofTexts old new).removed = (columnLines old).filter (· ∉ columnLines new) :=
  filter_not_holdsLine (ascending_columnLines new) _

theorem isChanged_ofTexts_eq_false {old new : Text} :
    (ofTexts old new).isChanged = false ↔ columnLines old = columnLines new := by
  simp [isChanged, ofTexts]

/-- **The lists differ** where they hold some line not equally often. -/
theorem isChanged_ofTexts_iff (old new : Text) : (ofTexts old new).isChanged = true ↔
    ∃ l, (columnLines old).count l ≠ (columnLines new).count l := by
  have hsame : (∀ l, (columnLines old).count l = (columnLines new).count l) ↔
      columnLines old = columnLines new := by
    rw [← List.perm_iff_count]
    exact ⟨(ascending_columnLines old).eq_of_perm (ascending_columnLines new), fun h => .of_eq h⟩
  rw [← Classical.not_forall, hsame, ← isChanged_ofTexts_eq_false, Bool.not_eq_false]

/-- A line that only one of two lists holds is told. -/
theorem filter_not_mem_ne_nil {ks ls : List Line} :
    ks.filter (· ∉ ls) ≠ [] ↔ ∃ l ∈ ks, l ∉ ls := by
  simp [List.filter_eq_nil_iff]

/-- **What a comparison tells.**  As new it tells the new columns that the old comment does not have,
    and as gone the old ones that the new comment does not have.  The comments differ just where it
    tells of a column, or where both have one and not equally often. -/
theorem differences_told (old new : Text) :
    let d := ofTexts old new
    d.added = d.new.filter (· ∉ d.old) ∧ d.removed = d.old.filter (· ∉ d.new) ∧
      (d.isChanged = true ↔ d.added ≠ [] ∨ d.removed ≠ [] ∨
        ∃ l ∈ d.old, l ∈ d.new ∧ d.old.count l ≠ d.new.count l) := by
  intro d
  have hadded : d.added = d.new.filter (· ∉ d.old) := added_ofTexts old new
  have hremoved : d.removed = d.old.filter (· ∉ d.new) := removed_ofTexts old new
  refine ⟨hadded, hremoved, ?_⟩
  rw [hadded, hremoved, filter_not_mem_ne_nil, filter_not_mem_ne_nil, isChanged_ofTexts_iff]
  show (∃ l, d.old.count l ≠ d.new.count l) ↔ _
  constructor
  · rintro ⟨l, hl⟩
    by_cases hold : l ∈ d.old
    · by_cases hnew : l ∈ d.new
      · exact Or.inr (Or.inr ⟨l, hold, hnew, hl⟩)
      · exact Or.inr (Or.inl ⟨l, hold, hnew⟩)
    · -- a line that neither list holds is not to be counted
      have hnew : l ∈ d.new := Decidable.byContradiction fun hnew =>
        hl (by rw [List.count_eq_zero.mpr hold, List.count_eq_zero.mpr hnew])
      exact Or.inl ⟨l, hnew, hold⟩
  · rintro (⟨l, hnew, hold⟩ | ⟨l, hold, hnew⟩ | ⟨l, -, -, hl⟩)
    · refine ⟨l, ?_⟩
      rw [List.count_eq_zero.mpr hold]
      exact (Nat.ne_of_gt (List.count_pos_iff.mpr hnew)).symm
    · refine ⟨l, ?_⟩
      rw [List.count_eq_zero.mpr hnew]
      exact Nat.ne_of_gt (List.count_pos_iff.mpr hold)
    · exact ⟨l, hl⟩

/-- A schema comment that describes one column, and the same column once more. -/
def repeatedBlock (times : Nat) : Text :=
  unlines ("# Table name: users".toList :: List.replicate times "#  id :integer".toList)

/-- **A column that is described twice** makes a difference that is not told. -/
theorem not_differences_told :
    ¬ ∀ old new : Text, (ofTexts old new).isChanged = true ↔
      (ofTexts old new).added ≠ [] ∨ (ofTexts old new).removed ≠ [] := by
  intro h
  have hchanged : (ofTexts (repeatedBlock 2) (repeatedBlock 1)).isChanged = true := by decide
  rcases (h _ _).mp hchanged with hadded | hremoved
  · exact hadded (by rw [added_ofTexts]; decide)
  · exact hremoved (by rw [removed_ofTexts]; decide)

end ColumnDiff

end SchemaComment
