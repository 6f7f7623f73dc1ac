/-
  HOW MANY REGIONS A TEXT HOLDS.

  The search cuts off one region after the other.  How many it finds can be told in one scan of the
  lines, and the scan asks neither for the shape nor for where the regions start.

  1. **Program** — `headings` counts the headers that begin something new: those with no other
     header further up in the same run of comment lines.
  2. **Specification** — `length_all`: for every shape of single lines the number of regions is the
     number of headings.  So all these shapes agree on it (`count_eq_count`).
  3. **The crux** — a header below another one is a comment line of the region above, so it counts
     only once a line that is no comment has come between.
-/
import SchemaComment.Proofs.Search

namespace SchemaComment

open Line

/-! ## The scan -/

/-- The headings among the lines.  The flag says that a header stands further up in the run of
    comment lines that the first line goes on with. -/
def headings : Bool → List Line → Nat
  | _, [] => 0
  | inside, l :: ls =>
    if isHeader l then (if inside then 0 else 1) + headings true ls
    else headings (inside && isComment l) ls

/-- Lines without a header in front change the state of the scan only. -/
theorem headings_append {as : List Line} (h : ∀ l ∈ as, isHeader l = false) (inside : Bool)
    (bs : List Line) : headings inside (as ++ bs) = headings (inside && as.all isComment) bs := by
  induction as generalizing inside with
  | nil => simp
  | cons a as ih =>
    have ha : isHeader a = false := h a (by simp)
    rw [List.cons_append, headings, ha]
    simp only [Bool.false_eq_true, if_false]
    rw [ih fun l hl => h l (List.mem_cons_of_mem a hl), List.all_cons, Bool.and_assoc]

/-- Lines without a header in front count nothing. -/
theorem headings_false_append {as : List Line} (h : ∀ l ∈ as, isHeader l = false)
    (bs : List Line) : headings false (as ++ bs) = headings false bs := by
  rw [headings_append h, Bool.false_and]

/-- Lines without a header hold no heading. -/
theorem headings_eq_zero {ls : List Line} (h : ∀ l ∈ ls, isHeader l = false) (inside : Bool) :
    headings inside ls = 0 := by
  have := headings_append h inside []
  rwa [List.append_nil] at this

/-- **No heading, no header.** -/
theorem headings_eq_zero_iff {ls : List Line} :
    headings false ls = 0 ↔ ∀ l ∈ ls, isHeader l = false := by
  constructor
  · induction ls with
    | nil => simp
    | cons l ls ih =>
      rw [headings]
      split
      · intro h
        simp at h
      · rename_i hl
        rw [Bool.not_eq_true] at hl
        intro h k hk
        rw [Bool.false_and] at h
        rcases List.mem_cons.mp hk with rfl | hk
        · exact hl
        · exact ih h k hk
  · intro h
    exact headings_eq_zero h false

/-- **A line that is no comment** parts the headings before it from those behind it. -/
theorem headings_append_cons {e : Line} (he : isComment e = false) (as bs : List Line)
    (inside : Bool) :
    headings inside (as ++ e :: bs) = headings inside as + headings false bs := by
  induction as generalizing inside with
  | nil => simp [headings, he, not_isHeader_of_not_isComment he]
  | cons a as ih =>
    rw [List.cons_append, headings, headings, ih, ih]
    split
    · rw [Nat.add_assoc]
    · rfl

/-- Where a line that is no comment comes first, what stands above does not matter. -/
theorem headings_of_head {inside : Bool} {ls : List Line} (h : ∀ l ∈ ls.head?, isComment l = false) :
    headings inside ls = headings false ls := by
  cases ls with
  | nil => rfl
  | cons l ls =>
    have hl : isComment l = false := h l rfl
    simp [headings, not_isHeader_of_not_isComment hl, hl]

/-- Below a header the comment lines of its run count nothing. -/
theorem headings_true_comments {cs : List Line} (h : ∀ l ∈ cs, isComment l = true)
    (ls : List Line) : headings true (cs ++ ls) = headings true ls := by
  induction cs with
  | nil => rfl
  | cons c cs ih =>
    have hc : isComment c = true := h c (by simp)
    have hcs := ih fun l hl => h l (List.mem_cons_of_mem c hl)
    rw [List.cons_append, headings, hc]
    split <;> simp [hcs]

/-- Comment lines with a header among them count once. -/
theorem headings_comments {cs : List Line} (h : ∀ l ∈ cs, isComment l = true)
    (hh : ∃ l ∈ cs, isHeader l = true) (ls : List Line) :
    headings false (cs ++ ls) = headings true ls + 1 := by
  induction cs with
  | nil => simp at hh
  | cons c cs ih =>
    have hcs : ∀ l ∈ cs, isComment l = true := fun l hl => h l (List.mem_cons_of_mem c hl)
    rw [List.cons_append, headings]
    split
    · rw [headings_true_comments hcs]
      simp [Nat.add_comm]
    · rename_i hc
      rw [Bool.false_and]
      refine ih hcs ?_
      obtain ⟨l, hl, hlh⟩ := hh
      rcases List.mem_cons.mp hl with rfl | hl
      · exact absurd hlh hc
      · exact ⟨l, hl, hlh⟩

/-- Behind a region the scan starts afresh. -/
theorem headings_true_ends {es after : List Line} (h : RegionShape.Ends es after) :
    headings true (es ++ after) = headings false after := by
  have hnone : ∀ l ∈ es, isHeader l = false := fun l hl => not_isHeader_of_isEmpty (h.empty l hl)
  -- an empty line ends the run of comment lines, and so does what stands in its place
  cases es with
  | nil => exact headings_of_head (h.apart rfl)
  | cons e es =>
    rw [headings_append hnone, List.all_cons, not_isComment_of_isEmpty (h.empty e (by simp))]
    rfl

/-- What a region opens with is empty. -/
theorem Region.Fits.isEmpty_leading {p : RegionShape} {r : Region} (h : r.Fits p) :
    ∀ l ∈ r.leading, Line.isEmpty l = true := by
  intro l hl
  rcases h.leading with hnil | ⟨e, he, hone⟩
  · rw [hnil] at hl
    cases hl
  · rw [hone, List.mem_singleton] at hl
    rw [hl]
    exact he

/-- **A region is one heading**, and the others come behind it. -/
theorem headings_allLines {p : RegionShape} {r : Region} (h : r.Fits p) :
    headings false r.allLines = headings false r.after + 1 := by
  have hcore : p.IsCore r.core := h.core
  have hfront : ∀ l ∈ r.before ++ r.leading, isHeader l = false := by
    intro l hl
    rcases List.mem_append.mp hl with hl | hl
    · exact h.before l hl
    · exact not_isHeader_of_isEmpty (h.isEmpty_leading l hl)
  have hlines : r.allLines = (r.before ++ r.leading) ++ (r.core ++ (r.trailing ++ r.after)) := by
    simp [Region.allLines, Region.lines]
  rw [hlines, headings_false_append hfront, headings_comments hcore.comment hcore.header,
    headings_true_ends h.ends]

/-- **Around the one region of a file** there is no header. -/
theorem not_isHeader_around {p : RegionShape} {r : Region} (h : r.Fits p)
    (hone : headings false r.allLines ≤ 1) : ∀ l ∈ r.before ++ r.after, isHeader l = false := by
  rw [headings_allLines h] at hone
  have hafter := headings_eq_zero_iff.mp (by omega : headings false r.after = 0)
  intro l hl
  rcases List.mem_append.mp hl with hl | hl
  · exact h.before l hl
  · exact hafter l hl

/-- The lines around a region are among all the lines. -/
theorem Region.mem_allLines_of_around {r : Region} {l : Line} (h : l ∈ r.before ++ r.after) :
    l ∈ r.allLines := by
  rcases List.mem_append.mp h with h | h <;> simp [allLines, h]

/-! ## The regions of a shape -/

namespace RegionShape

variable {p : RegionShape}

theorem all_of_none {ls : List Line} (h : p.first? ls = none) : p.all ls = [] := by
  rw [all]
  split
  · rfl
  · rename_i r hr
    rw [h] at hr
    cases hr

theorem all_of_some {ls : List Line} {r : Region} (h : p.first? ls = some r) :
    p.all ls = r :: p.all r.after := by
  rw [all]
  split
  · rename_i hnone
    rw [h] at hnone
    cases hnone
  · rename_i s hs
    obtain rfl := Option.some.inj (h.symm.trans hs)
    rfl

/-- **The number of regions is the number of headings.** -/
theorem length_all (hp : p.IsSingleLine) (ls : List Line) :
    (p.all ls).length = headings false ls := by
  induction hn : ls.length using Nat.strongRecOn generalizing ls with
  | ind n ih =>
    cases hfirst : p.first? ls with
    | none =>
      rw [all_of_none hfirst, headings_eq_zero_iff.mpr ((first?_eq_none_iff hp).mp hfirst)]
      rfl
    | some r =>
      -- the search goes on behind the region, and there the scan starts afresh
      obtain ⟨hall, hfits⟩ := (first?_eq_some_iff hp).mp hfirst
      have hlt := after_length_lt hfirst
      rw [all_of_some hfirst, List.length_cons, ih _ (hn ▸ hlt) _ rfl, ← hall,
        headings_allLines hfits]

/-- The number of regions of a text. -/
theorem count_eq (hp : p.IsSingleLine) (t : Text) :
    p.count t = headings false (Lines.ofText t).ended := length_all hp _

/-- **All shapes of single lines count alike**: the markers have no part in it. -/
theorem count_eq_count {q : RegionShape} (hp : p.IsSingleLine) (hq : q.IsSingleLine) (t : Text) :
    p.count t = q.count t := by
  rw [count_eq hp, count_eq hq]

end RegionShape

end SchemaComment
