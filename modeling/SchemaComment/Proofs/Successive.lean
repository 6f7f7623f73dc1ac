/-
  ONE REGION AFTER THE OTHER.

  The search goes on behind each region.  What it finds on the way hardly depends on its shape: a
  header may be asked for in any spelling and with any opening marker.

  1. **Program** — `RegionShape.all`, told as the places in the text (`RegionShape.successive`).
  2. **Specification** — `successive_agree`: under any two spellings of the header, without an opening
     marker and with one, the same number of regions is found.  Taken in order they end at the same
     places.  They start at the same places as well, but for the marker's line and an empty line above
     it.  And the number can be read off the headers (`IsFresh`).
  3. **The crux** — a region that starts earlier could shift all that is found behind it.  It does not,
     since where a region ends depends on its header alone; so each step of the two searches goes on
     from the same line (`exists_first?_widened`).
-/
import Mathlib.Data.List.Forall2
import SchemaComment.Proofs.History
import SchemaComment.Proofs.Locating
import SchemaComment.Proofs.OpenEnd

namespace SchemaComment

open Line

/-! ## The regions of a text in order -/

/-- Regions that were found one behind the other, each with all the lines above it. -/
def Region.placed : List Line → List Region → List Region
  | _, [] => []
  | above, r :: rs =>
    { r with before := above ++ r.before } :: placed (above ++ r.before ++ r.lines) rs

theorem Region.length_placed (above : List Line) (rs : List Region) :
    (placed above rs).length = rs.length := by
  induction rs generalizing above with
  | nil => rfl
  | cons r rs ih => rw [placed, List.length_cons, List.length_cons, ih]

namespace RegionShape

/-- The regions of a text one after the other, at their places in it. -/
def successive (p : RegionShape) (t : Text) : List Region :=
  Region.placed [] (p.all (Lines.ofText t).ended)

theorem length_successive (p : RegionShape) (t : Text) : (p.successive t).length = p.count t :=
  Region.length_placed _ _

end RegionShape

/-! ## Two searches side by side -/

/-- The same region, once the opening marker of a shape is in use. -/
inductive Region.Widened (q : RegionShape) (r : Region) : Region → Prop
  | intro {above lead pre : List Line} (h : q.Widens r.before r.leading above lead pre) :
      Widened q r ⟨above, lead, pre ++ r.core, r.trailing, r.after⟩

namespace Region.Widened

variable {q : RegionShape} {r s : Region}

theorem after_eq (h : Widened q r s) : s.after = r.after := by
  cases h
  rfl

/-- Both end at the same line. -/
theorem lines_eq (h : Widened q r s) : s.before ++ s.lines = r.before ++ r.lines := by
  cases h with
  | @intro above lead pre h =>
    have hfront := congrArg (· ++ (r.core ++ r.trailing)) h.lines_eq
    simpa [Region.lines] using hfront

/-- Lines set above both leave them side by side. -/
theorem below (h : Widened q r s) (as : List Line) :
    Widened q { r with before := as ++ r.before } { s with before := as ++ s.before } := by
  obtain ⟨before, leading, core, trailing, after⟩ := r
  cases h with
  | @intro above lead pre h =>
    refine .intro ?_
    cases h with
    | stays => exact .stays _ _
    | marker hm hlead =>
      have hwidens := @RegionShape.Widens.marker q (as ++ above) _ _ hm hlead
      simpa [List.append_assoc] using hwidens

end Region.Widened

namespace RegionShape

variable {p q : RegionShape}

/-- **One step of the two searches** ends at the same line. -/
theorem exists_first?_widened (hp : p.IsSingleLine) (hq : q.IsSingleLine) (ho : p.opening = none)
    {ls : List Line} {r : Region} (h : p.first? ls = some r) :
    ∃ s, q.first? ls = some s ∧ r.Widened q s := by
  obtain ⟨hall, hfits⟩ := (first?_eq_some_iff hp).mp h
  obtain ⟨above, lead, pre, hwidens, hmarked⟩ := exists_fits_marked q ho r.before r.leading
  have hside : r.Widened q ⟨above, lead, pre ++ r.core, r.trailing, r.after⟩ := .intro hwidens
  refine ⟨_, (first?_eq_some_iff hq).mpr ⟨?_, hmarked _ _ _ hfits⟩, hside⟩
  rw [← hall, Region.allLines, Region.allLines, hside.lines_eq]

/-- **So do all of their steps.**  The lines above and those still to be searched are all the lines. -/
theorem forall₂_placed (hp : p.IsSingleLine) (hq : q.IsSingleLine) (ho : p.opening = none)
    {whole above ls : List Line} (h : above ++ ls = whole) :
    List.Forall₂ (fun r s => r.allLines = whole ∧ r.Widened q s)
      (Region.placed above (p.all ls)) (Region.placed above (q.all ls)) := by
  induction hn : ls.length using Nat.strongRecOn generalizing above ls with
  | ind n ih =>
    cases hfirst : p.first? ls with
    | none =>
      have hnone : q.first? ls = none :=
        (first?_eq_none_iff hq).mpr ((first?_eq_none_iff hp).mp hfirst)
      rw [all_of_none hfirst, all_of_none hnone]
      exact .nil
    | some r =>
      obtain ⟨s, hs, hside⟩ := exists_first?_widened hp hq ho hfirst
      obtain ⟨hall, -⟩ := lines_of_first? hfirst
      rw [Region.allLines] at hall
      -- both go on behind the same lines
      have hbefore : above ++ s.before ++ s.lines = above ++ r.before ++ r.lines := by
        rw [List.append_assoc, hside.lines_eq, ← List.append_assoc]
      have hrest : above ++ r.before ++ r.lines ++ r.after = whole := by
        rw [← h, ← hall]
        simp
      have hnext : q.all s.after = q.all r.after := congrArg q.all hside.after_eq
      rw [all_of_some hfirst, all_of_some hs, Region.placed, Region.placed, hbefore, hnext]
      refine .cons ⟨hrest, hside.below above⟩ ?_
      exact ih _ (hn ▸ after_length_lt hfirst) hrest rfl

end RegionShape

/-! ## The places in the text -/

/-- How a region that may open with a marker lies to the region of a search that knows no marker. -/
structure Region.SharesEnd (m : Text) (t : Text) (r s : Region) : Prop where
  /-- The region is a piece of the text. -/
  inside : ∃ below, t = unlines r.before ++ r.text ++ below
  /-- Both end at the same place. -/
  stop : s.stop = r.stop
  /-- They are the same, or there is one line in front that begins with the marker, and perhaps a
      line break in front of that. -/
  start : (s.start = r.start ∧ s.text = r.text) ∨
    ∃ front l, (front = [] ∨ ∃ e : LineEnding, front = e.text) ∧ '\n' ∉ l ∧ commented m <+: l ∧
      s.start + Text.size (front ++ l ++ ['\n']) = r.start ∧ s.text = front ++ l ++ ['\n'] ++ r.text

/-- Regions side by side end at the same place. -/
theorem Region.Widened.sharesEnd {q : RegionShape} {m t : Text} {r s : Region} (h : r.Widened q s)
    (ho : q.opening = some m) (hall : r.allLines = (Lines.ofText t).ended) : r.SharesEnd m t s := by
  have hplain := Lines.not_mem_ended_ofText t
  rw [← hall] at hplain
  refine ⟨⟨unlines r.after ++ (Lines.ofText t).tail, ?_⟩, ?_, ?_⟩
  · have hwhole := Lines.toText_ofText t
    rw [Lines.toText, ← hall] at hwhole
    refine hwhole.symm.trans ?_
    simp [Region.allLines, Region.text]
  · have hsize := congrArg (fun ls => Text.size (unlines ls)) h.lines_eq
    simpa [Region.stop, Region.start, Region.text] using hsize
  · obtain ⟨before, leading, core, trailing, after⟩ := r
    cases h with
    | @intro above lead pre h =>
      cases h with
      | stays => exact Or.inl ⟨rfl, rfl⟩
      | @marker _ _ l hl hlead =>
        obtain ⟨k, hk, hbegins⟩ := RegionShape.marks_iff.mp hl
        obtain rfl : m = k := Option.some.inj (ho.symm.trans hk)
        refine Or.inr ⟨unlines lead, l, ?_, hplain l (by simp [Region.allLines]), hbegins, ?_, ?_⟩
        · rcases hlead with rfl | ⟨e, he, rfl⟩
          · exact Or.inl unlines_nil
          · obtain ⟨ending, hending⟩ := Line.exists_ending_of_isEmpty he
            exact Or.inr ⟨ending, by rw [← hending]; simp⟩
        · simp [Region.start]
        · simp [Region.text, Region.lines]

/-! ## The headers that count -/

/-- Lines end within a schema comment when some header has only comment lines behind it. -/
theorem endsWithin_iff {ls : List Line} : endsWithin ls = true ↔
    ∃ as h cs, ls = as ++ h :: cs ∧ isHeader h = true ∧ ∀ c ∈ cs, isComment c = true := by
  constructor
  · intro h
    induction ls with
    | nil => cases h
    | cons l ls ih =>
      rw [endsWithin, Bool.or_eq_true, Bool.and_eq_true, List.all_eq_true] at h
      rcases h with h | ⟨hl, hls⟩
      · obtain ⟨as, k, cs, rfl, hk, hcs⟩ := ih h
        exact ⟨l :: as, k, cs, rfl, hk, hcs⟩
      · exact ⟨[], l, ls, rfl, hl, hls⟩
  · rintro ⟨as, h, cs, rfl, hh, hcs⟩
    refine endsWithin_append_comments (fun c hc => ?_) ⟨h, List.mem_cons_self, hh⟩ as
    rcases List.mem_cons.mp hc with rfl | hc
    · exact isComment_of_isHeader hh
    · exact hcs c hc

/-- Whether the line at a place is a header, with no other header in the unbroken run of comment lines
    right above it. -/
def IsFresh (ls : List Line) (i : Nat) : Prop :=
  ∃ above h below, ls = above ++ h :: below ∧ above.length = i ∧ isHeader h = true ∧
    ¬ ∃ as k cs, above = as ++ k :: cs ∧ isHeader k = true ∧ ∀ c ∈ cs, isComment c = true

theorem isFresh_iff {ls : List Line} {i : Nat} :
    (ls[i]?.any isHeader && !endsWithin (ls.take i)) = true ↔ IsFresh ls i := by
  rw [Bool.and_eq_true, Option.any_eq_true]
  constructor
  · rintro ⟨⟨h, hi, hh⟩, hends⟩
    obtain ⟨hlt, rfl⟩ := List.getElem?_eq_some_iff.mp hi
    refine ⟨ls.take i, ls[i], ls.drop (i + 1), ?_, ?_, hh, ?_⟩
    · rw [List.getElem_cons_drop, List.take_append_drop]
    · rw [List.length_take]
      omega
    · rw [← endsWithin_iff]
      simpa using hends
  · rintro ⟨above, h, below, rfl, rfl, hh, hfresh⟩
    rw [← endsWithin_iff] at hfresh
    exact ⟨⟨h, by simp, hh⟩, by simpa using hfresh⟩

instance (ls : List Line) (i : Nat) : Decidable (IsFresh ls i) := decidable_of_iff _ isFresh_iff

/-- A place among some lines stays fresh, or not, when one more line comes behind. -/
theorem isFresh_concat {ls : List Line} {i : Nat} (hi : i < ls.length) (l : Line) :
    IsFresh (ls ++ [l]) i ↔ IsFresh ls i := by
  rw [← isFresh_iff, ← isFresh_iff, List.getElem?_append_left hi,
    List.take_append_of_le_length (Nat.le_of_lt hi)]

/-- **The headings are the fresh headers.** -/
theorem headings_eq_length_fresh (ls : List Line) :
    headings false ls = ((List.range ls.length).filter (IsFresh ls ·)).length := by
  induction ls using List.reverseRecOn with
  | nil => rfl
  | append_singleton ls l ih =>
    have hold : (List.range ls.length).filter (IsFresh (ls ++ [l]) ·) =
        (List.range ls.length).filter (IsFresh ls ·) :=
      List.filter_congr fun i hi =>
        decide_eq_decide.mpr (isFresh_concat (List.mem_range.mp hi) l)
    have hlast : IsFresh (ls ++ [l]) ls.length ↔ (isHeader l && !endsWithin ls) = true := by
      rw [← isFresh_iff]
      simp
    rw [headings_concat, ih, List.length_append, List.length_singleton, List.range_succ,
      List.filter_append, hold, List.length_append, Bool.false_and, Bool.or_false]
    cases hl : isHeader l && !endsWithin ls with
    | false => simp [hlast, hl]
    | true => simp [hlast, hl]

/-! ## Any spelling, any marker -/

/-- A spelling of the header: one line that begins with one of the short ones. -/
structure IsSpelling (h : Text) : Prop where
  plain : '\n' ∉ h
  known : ∃ s ∈ shortHeaders, s <+: h

theorem IsSpelling.isSingleLine {h : Text} (hh : IsSpelling h) {w : Option Text}
    (hw : ∀ m ∈ w, '\n' ∉ m) : (⟨h, w⟩ : RegionShape).IsSingleLine :=
  ⟨hh.plain, hh.known, hw⟩

/-- **What is found depends on no spelling and no marker.**  Without an opening marker and with one the
    regions are as many, and in order they end at the same places; one that starts earlier has the
    marker's line in front.  There are as many as headers with no other one further up in their run of
    comment lines. -/
theorem successive_agree {h₁ h₂ w : Text} (hh₁ : IsSpelling h₁) (hh₂ : IsSpelling h₂)
    (hw : '\n' ∉ w) (t : Text) :
    let p : RegionShape := ⟨h₁, none⟩
    let q : RegionShape := ⟨h₂, some w⟩
    let ls := (Lines.ofText t).ended
    List.Forall₂ (Region.SharesEnd w t) (p.successive t) (q.successive t) ∧
      (p.successive t).length = ((List.range ls.length).filter (IsFresh ls ·)).length := by
  intro p q ls
  have hp : p.IsSingleLine := hh₁.isSingleLine (by simp)
  have hq : q.IsSingleLine := hh₂.isSingleLine (by simpa using hw)
  refine ⟨?_, ?_⟩
  · have hside := RegionShape.forall₂_placed hp hq rfl (List.nil_append ls)
    exact hside.imp fun r s ⟨hall, h⟩ => h.sharesEnd rfl hall
  · rw [RegionShape.length_successive, RegionShape.count_eq hp, headings_eq_length_fresh]

/-- A file with two schema comments, the first of them below a marker and a blank line. -/
def doubledText : Text :=
  "\r\n# START here\n# == Schema Info\nend\n# START\n# x\n# ## Schema Info\n".toList

/-- The marker and the blank line above it belong to the first region only if a search knows the
    marker.  The other region has a line between the marker and its header. -/
theorem successive_agree_doubledText :
    let p : RegionShape := ⟨plainHeader, none⟩
    let q : RegionShape := ⟨markdownHeader, some "START".toList⟩
    List.Forall₂ (Region.SharesEnd "START".toList doubledText) (p.successive doubledText)
        (q.successive doubledText) ∧ (p.successive doubledText).length = 2 ∧
      (p.successive doubledText).map (fun r => (r.start, r.stop)) = [(15, 32), (48, 65)] ∧
      (q.successive doubledText).map (fun r => (r.start, r.stop)) = [(0, 32), (48, 65)] := by
  have hplain : IsSpelling plainHeader := ⟨by decide, by decide⟩
  have hmarkdown : IsSpelling markdownHeader := ⟨by decide, by decide⟩
  obtain ⟨hends, hcount⟩ := successive_agree hplain hmarkdown (w := "START".toList) (by decide)
    doubledText
  exact ⟨hends, hcount.trans (by decide), by decide +kernel, by decide +kernel⟩

end SchemaComment
