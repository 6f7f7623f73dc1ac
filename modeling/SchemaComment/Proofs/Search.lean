/-
  WHAT THE SEARCH FINDS.

  The search for a region tries every line in turn and cuts off what it can.  This module says what
  comes of it without any search: how the lines lie before a region, in it and behind it.

  1. **Program** — for a shape of single lines each recogniser is one equation on the first line
     (`opens?_commented`, `header?_cons`, `body?_cons`, `markedBody?_cons`).
  2. **Specification** — `Region.Fits p r`: no header before the region; perhaps one empty line; a
     core of comment lines with its header on the first or second of them; all the empty lines that
     follow, and then no line that could be one more.  `first?_eq_some_iff` says that this is all
     there is to the search.
  3. **The crux** — where a region starts.  The line before it is no empty line unless the region
     has one of its own, and no marker unless the region already has one.  With that the search
     cannot succeed a line early (`cut?_below`), which makes the region of given lines unique.
-/
import SchemaComment.Proofs.Header

namespace SchemaComment

open Line

/-- A run that satisfies a test and is followed by none that does is what the test takes. -/
theorem takeWhile_append_of_stop {α : Type} {q : α → Bool} {as bs : List α}
    (ha : ∀ a ∈ as, q a = true) (hb : ∀ b ∈ bs.head?, q b = false) :
    (as ++ bs).takeWhile q = as ∧ (as ++ bs).dropWhile q = bs := by
  rw [List.takeWhile_append_of_pos ha, List.dropWhile_append_of_pos ha]
  cases bs with
  | nil => simp
  | cons b bs =>
    have hq := hb b rfl
    simp [hq]

/-- What is left when a test has taken its run begins with none that satisfies it. -/
theorem not_of_mem_head?_dropWhile {α : Type} {q : α → Bool} {as : List α} {a : α}
    (h : a ∈ (as.dropWhile q).head?) : q a = false := by
  have hhead := List.head?_dropWhile_not q as
  rw [Option.mem_def.mp h] at hhead
  simpa using hhead

namespace RegionShape

variable {p : RegionShape}

/-! ## The recognisers, one line at a time -/

theorem opens?_commented {m : Text} (hm : '\n' ∉ m) (l : Line) (ls : List Line) :
    opens? (commented m) (l :: ls) = if (commented m).isPrefixOf l then some ([l], ls) else none := by
  have hlead : Lines.ofText (commented m) = ⟨[], commented m⟩ :=
    Lines.ofText_of_not_mem (by simp [commented, hm])
  simp only [opens?, hlead]
  rfl

theorem opens?_nil {m : Text} (hm : '\n' ∉ m) : opens? (commented m) [] = none := by
  have hlead : Lines.ofText (commented m) = ⟨[], commented m⟩ :=
    Lines.ofText_of_not_mem (by simp [commented, hm])
  simp only [opens?, hlead]
  rfl

/-- A header of any spelling that a shape of single lines knows holds no newline. -/
theorem not_mem_of_mem_headers (hp : p.IsSingleLine) {s : Text} (hs : s ∈ p.header :: shortHeaders) :
    '\n' ∉ s := by
  rcases List.mem_cons.mp hs with rfl | hs
  · exact hp.header
  · simp only [shortHeaders, List.mem_cons, List.not_mem_nil, or_false] at hs
    rcases hs with rfl | rfl <;> decide

/-- A line begins with one of the spellings exactly when it is a header. -/
theorem exists_prefix_iff_isHeader (hp : p.IsSingleLine) (l : Line) :
    (∃ s ∈ p.header :: shortHeaders, commented s <+: l) ↔ isHeader l = true := by
  constructor
  · rintro ⟨s, hs, hl⟩
    rcases List.mem_cons.mp hs with rfl | hs
    · obtain ⟨k, hk, hkp⟩ := hp.known
      have hle : commented k <+: commented p.header := by
        simpa [commented] using hkp
      exact isHeader_iff.mpr ⟨k, hk, hle.trans hl⟩
    · exact isHeader_iff.mpr ⟨s, hs, hl⟩
  · intro h
    obtain ⟨s, hs, hl⟩ := isHeader_iff.mp h
    exact ⟨s, List.mem_cons_of_mem _ hs, hl⟩

theorem header?_cons (hp : p.IsSingleLine) (l : Line) (ls : List Line) :
    p.header? (l :: ls) = if isHeader l then some ([l], ls) else none := by
  split
  · rename_i h
    obtain ⟨s, hs, hl⟩ := (exists_prefix_iff_isHeader hp l).mpr h
    -- whichever spelling comes first, it takes this one line
    cases hf : p.header? (l :: ls) with
    | none =>
      have := List.findSome?_eq_none_iff.mp hf s hs
      rw [opens?_commented (not_mem_of_mem_headers hp hs), if_pos (by simpa using hl)] at this
      cases this
    | some x =>
      obtain ⟨k, hk, hx⟩ := List.exists_of_findSome?_eq_some hf
      rw [opens?_commented (not_mem_of_mem_headers hp hk)] at hx
      split at hx
      · exact hx.symm
      · cases hx
  · rename_i h
    refine List.findSome?_eq_none_iff.mpr fun s hs => ?_
    rw [opens?_commented (not_mem_of_mem_headers hp hs), if_neg]
    intro hl
    exact h ((exists_prefix_iff_isHeader hp l).mp ⟨s, hs, by simpa using hl⟩)

theorem header?_nil (hp : p.IsSingleLine) : p.header? [] = none :=
  List.findSome?_eq_none_iff.mpr fun _ hs => opens?_nil (not_mem_of_mem_headers hp hs)

theorem body?_cons (hp : p.IsSingleLine) (l : Line) (ls : List Line) :
    p.body? (l :: ls) =
      if isHeader l then
        some (l :: (ls.takeWhile isComment ++ (ls.dropWhile isComment).takeWhile Line.isEmpty),
          (ls.dropWhile isComment).dropWhile Line.isEmpty)
      else none := by
  rw [body?, header?_cons hp]
  split <;> simp

theorem body?_nil (hp : p.IsSingleLine) : p.body? [] = none := by
  rw [body?, header?_nil hp]
  rfl

theorem markedBody?_cons (hp : p.IsSingleLine) (l : Line) (ls : List Line) :
    p.markedBody? (l :: ls) =
      if p.marks l then (p.body? ls).map fun x => (l :: x.1, x.2) else none := by
  cases ho : p.opening with
  | none => simp [markedBody?, marks, ho]
  | some m =>
    have hm := opens?_commented (hp.opening m ho) l ls
    by_cases hl : (commented m).isPrefixOf l = true
    · rw [if_pos hl] at hm
      cases hb : p.body? ls <;> simp [markedBody?, marks, ho, hm, hl, hb]
    · rw [if_neg hl] at hm
      simp [markedBody?, marks, ho, hm, hl]

theorem markedBody?_nil (hp : p.IsSingleLine) : p.markedBody? [] = none := by
  cases ho : p.opening with
  | none => simp [markedBody?, ho]
  | some m => simp [markedBody?, ho, opens?_nil (hp.opening m ho)]

/-! ## The pieces of a region -/

/-- The lines of a region from the first that is not blank to the last: a header with comment lines
    below it, perhaps behind the opening marker. -/
inductive IsCore (p : RegionShape) : List Line → Prop
  | plain {h : Line} {cs : List Line} (hh : isHeader h = true)
      (hcs : ∀ l ∈ cs, isComment l = true) : IsCore p (h :: cs)
  | marked {m h : Line} {cs : List Line} (hm : p.marks m = true) (hh : isHeader h = true)
      (hcs : ∀ l ∈ cs, isComment l = true) : IsCore p (m :: h :: cs)

/-- Where a region ends: all the empty lines, and then a line that is not one more of the region. -/
structure Ends (es after : List Line) : Prop where
  empty : ∀ l ∈ es, Line.isEmpty l = true
  solid : ∀ l ∈ after.head?, Line.isEmpty l = false
  apart : es = [] → ∀ l ∈ after.head?, isComment l = false

namespace IsCore

/-- All of a core is comment lines. -/
theorem comment {core : List Line} (h : p.IsCore core) : ∀ l ∈ core, isComment l = true := by
  cases h with
  | plain hh hcs =>
    intro l hl
    rcases List.mem_cons.mp hl with rfl | hl
    · exact isComment_of_isHeader hh
    · exact hcs l hl
  | marked hm hh hcs =>
    intro l hl
    rcases List.mem_cons.mp hl with rfl | hl
    · exact isComment_of_marks hm
    · rcases List.mem_cons.mp hl with rfl | hl
      · exact isComment_of_isHeader hh
      · exact hcs l hl

/-- Some line of a core is a header. -/
theorem header {core : List Line} (h : p.IsCore core) : ∃ l ∈ core, isHeader l = true := by
  cases h with
  | plain hh _ => exact ⟨_, by simp, hh⟩
  | marked _ hh _ => exact ⟨_, by simp, hh⟩

theorem ne_nil {core : List Line} (h : p.IsCore core) : core ≠ [] := by
  cases h <;> simp

/-- The blanks behind a core are told from it. -/
theorem split_blanks {core es : List Line} (h : p.IsCore core)
    (hes : ∀ l ∈ es, Line.isEmpty l = true) :
    upToLastSolid (core ++ es) = core ∧ closingBlanks (core ++ es) = es := by
  have hblank : ∀ l ∈ es.reverse, Line.isBlank l = true := by
    intro l hl
    exact isBlank_of_isEmpty (hes l (List.mem_reverse.mp hl))
  have hsolid : ∀ l ∈ core.reverse.head?, Line.isBlank l = false := by
    intro l hl
    rw [List.head?_reverse] at hl
    exact not_isBlank_of_isComment (h.comment l (List.mem_of_getLast? hl))
  have hstop := takeWhile_append_of_stop hblank hsolid
  rw [upToLastSolid, closingBlanks, List.reverse_append, hstop.1, hstop.2]
  simp

end IsCore

/-! ## A region at the front -/

/-- Whether a region may open at the first of these lines, no empty line before it. -/
def opensAt (p : RegionShape) : List Line → Bool
  | [] => false
  | l :: ls => isHeader l || (p.marks l && ls.head?.any isHeader)

theorem isSome_body? (hp : p.IsSingleLine) (ls : List Line) :
    (p.body? ls).isSome = ls.head?.any isHeader := by
  cases ls with
  | nil => simp [body?_nil hp]
  | cons l ls =>
    rw [body?_cons hp]
    cases h : isHeader l <;> simp [h]

/-- What opens at the front is cut off there, and nothing else is. -/
theorem isSome_cut? (hp : p.IsSingleLine) (ls : List Line) :
    (p.cut? ls).isSome = p.opensAt (splitEmptyLine ls).2 := by
  -- the empty line is taken off first, and the rest is as without it
  have hfront : ∀ ks : List Line, (p.markedBody? ks <|> p.body? ks).isSome = p.opensAt ks := by
    intro ks
    cases ks with
    | nil => simp [markedBody?_nil hp, body?_nil hp, opensAt]
    | cons k ks =>
      have hb := isSome_body? hp ks
      have hbk := isSome_body? hp (k :: ks)
      rw [markedBody?_cons hp]
      cases hm : p.marks k with
      | false => simpa [opensAt, hm] using hbk
      | true =>
        cases hbody : p.body? ks with
        | none =>
          rw [hbody] at hb
          simpa [opensAt, hm, ← hb] using hbk
        | some x =>
          rw [hbody] at hb
          simp [opensAt, hm, ← hb]
  simp only [cut?, Option.isSome_map]
  exact hfront _

/-- The last line ends a region. -/
theorem Ends.nil : Ends [] [] := ⟨by simp, by simp, by simp⟩

/-- No header comes right behind a region. -/
theorem Ends.head?_any_isHeader {es after : List Line} (h : Ends es after) :
    (es ++ after).head?.any isHeader = false := by
  cases es with
  | cons e es => exact not_isHeader_of_isEmpty (h.empty e (by simp))
  | nil =>
    cases after with
    | nil => rfl
    | cons a after => exact not_isHeader_of_not_isComment (h.apart rfl a rfl)

/-- From the header on, `body?` takes the comment lines and the empty lines. -/
theorem body?_eq_some (hp : p.IsSingleLine) {h : Line} {cs es after : List Line}
    (hh : isHeader h = true) (hcs : ∀ l ∈ cs, isComment l = true) (he : Ends es after) :
    p.body? (h :: (cs ++ es ++ after)) = some (h :: (cs ++ es), after) := by
  have hrest : ∀ l ∈ (es ++ after).head?, isComment l = false := by
    intro l hl
    cases es with
    | nil => exact he.apart rfl l hl
    | cons e es =>
      obtain rfl := Option.some.inj hl
      exact not_isComment_of_isEmpty (he.empty e (by simp))
  have hcomments := takeWhile_append_of_stop hcs hrest
  have hempties := takeWhile_append_of_stop he.empty he.solid
  rw [body?_cons hp, if_pos hh, List.append_assoc, hcomments.1, hcomments.2, hempties.1, hempties.2]

/-- What `body?` takes is a header, comment lines and all the empty lines that follow. -/
theorem exists_of_body? (hp : p.IsSingleLine) {ls body after : List Line}
    (hb : p.body? ls = some (body, after)) :
    ∃ h cs es, ls = h :: (cs ++ es ++ after) ∧ body = h :: (cs ++ es) ∧ isHeader h = true ∧
      (∀ l ∈ cs, isComment l = true) ∧ Ends es after := by
  cases ls with
  | nil =>
    rw [body?_nil hp] at hb
    cases hb
  | cons l ls =>
    rw [body?_cons hp] at hb
    split at hb
    · rename_i hl
      simp only [Option.some.injEq, Prod.mk.injEq] at hb
      obtain ⟨rfl, rfl⟩ := hb
      refine ⟨l, ls.takeWhile isComment, (ls.dropWhile isComment).takeWhile Line.isEmpty, ?_, rfl, hl,
        fun k hk => List.all_eq_true.mp List.all_takeWhile k hk, ?_⟩
      · rw [List.append_assoc, List.takeWhile_append_dropWhile, List.takeWhile_append_dropWhile]
      · refine ⟨fun k hk => List.all_eq_true.mp List.all_takeWhile k hk,
          fun k hk => not_of_mem_head?_dropWhile hk, fun hes k hk => ?_⟩
        -- no empty line was taken, so what follows is what the comment lines stopped at
        have hsame : _ = ls.dropWhile isComment :=
          List.takeWhile_append_dropWhile (p := Line.isEmpty)
        rw [hes, List.nil_append] at hsame
        rw [hsame] at hk
        exact not_of_mem_head?_dropWhile hk
    · cases hb

/-- A core with its end is what the recognisers take, with or without the marker. -/
theorem front_eq (hp : p.IsSingleLine) {core es after : List Line} (hc : p.IsCore core)
    (he : Ends es after) :
    (p.markedBody? (core ++ es ++ after) <|> p.body? (core ++ es ++ after)) =
      some (core ++ es, after) := by
  cases hc with
  | marked hm hh hcs =>
    simp only [List.cons_append]
    rw [markedBody?_cons hp, if_pos hm, body?_eq_some hp hh hcs he]
    rfl
  | @plain h cs hh hcs =>
    simp only [List.cons_append]
    rw [markedBody?_cons hp, body?_eq_some hp hh hcs he]
    cases hm : p.marks h with
    | false => rfl
    | true =>
      -- the header may itself read as the marker of a header below it; the lines are the same
      cases cs with
      | nil =>
        have hnone : p.body? (es ++ after) = none := by
          have hsome := isSome_body? hp (es ++ after)
          rw [he.head?_any_isHeader] at hsome
          exact Option.not_isSome_iff_eq_none.mp (by simp [hsome])
        simp [hnone]
      | cons c cs =>
        cases hhc : isHeader c with
        | false =>
          simp only [List.cons_append]
          rw [body?_cons hp c, hhc]
          rfl
        | true =>
          have hbelow := body?_eq_some hp hhc (fun l hl => hcs l (List.mem_cons_of_mem c hl)) he
          simp only [List.cons_append] at hbelow ⊢
          rw [hbelow]
          rfl

/-- What the recognisers take is a core with its end. -/
theorem exists_core_of_front (hp : p.IsSingleLine) {ls body after : List Line}
    (h : (p.markedBody? ls <|> p.body? ls) = some (body, after)) :
    ∃ core es, ls = core ++ es ++ after ∧ body = core ++ es ∧ p.IsCore core ∧ Ends es after := by
  have hplain : p.body? ls = some (body, after) → ∃ core es, ls = core ++ es ++ after ∧
      body = core ++ es ∧ p.IsCore core ∧ Ends es after := by
    intro hb
    obtain ⟨k, cs, es, rfl, rfl, hk, hcs, he⟩ := exists_of_body? hp hb
    exact ⟨k :: cs, es, rfl, rfl, .plain hk hcs, he⟩
  cases ls with
  | nil => exact hplain (by rwa [markedBody?_nil hp] at h)
  | cons m ls =>
    cases hm : p.markedBody? (m :: ls) with
    | none => exact hplain (by rwa [hm] at h)
    | some x =>
      obtain rfl : x = (body, after) := by simpa [hm] using h
      rw [markedBody?_cons hp] at hm
      split at hm
      · rename_i hmark
        simp only [Option.map_eq_some_iff, Prod.mk.injEq, Prod.exists] at hm
        obtain ⟨b, r, hb, rfl, rfl⟩ := hm
        obtain ⟨k, cs, es, rfl, rfl, hk, hcs, he⟩ := exists_of_body? hp hb
        exact ⟨m :: k :: cs, es, rfl, rfl, .marked hmark hk hcs, he⟩
      · cases hm

end RegionShape

/-! ## Where a region lies -/

/-- How the lines lie around and in the region that a search finds. -/
structure Region.Fits (p : RegionShape) (r : Region) : Prop where
  /-- No header comes before the region. -/
  before : ∀ l ∈ r.before, isHeader l = false
  /-- It opens with one empty line or with none. -/
  leading : r.leading = [] ∨ ∃ e, Line.isEmpty e = true ∧ r.leading = [e]
  core : p.IsCore r.core
  ends : RegionShape.Ends r.trailing r.after
  /-- It opens with an empty line where there is one. -/
  start_empty : r.leading = [] → ∀ l ∈ r.before.getLast?, Line.isEmpty l = false
  /-- It opens with the marker where there is one. -/
  start_marker : r.leading = [] → (∀ l ∈ r.core.head?, isHeader l = true) →
    ∀ l ∈ r.before.getLast?, p.marks l = false

namespace RegionShape

variable {p : RegionShape}

/-- **A region at the front** is what fits with no line before it. -/
theorem cut?_eq_some_iff (hp : p.IsSingleLine) {ls : List Line} {r : Region} :
    p.cut? ls = some r ↔ r.before = [] ∧ r.allLines = ls ∧ r.Fits p := by
  constructor
  · intro h
    obtain ⟨hbefore, hlines, -⟩ := lines_of_cut? h
    refine ⟨hbefore, by rw [Region.allLines, hbefore, List.nil_append, hlines], ?_⟩
    simp only [cut?, Option.map_eq_some_iff, Prod.exists] at h
    obtain ⟨body, after, hfront, rfl⟩ := h
    obtain ⟨core, es, -, rfl, hcore, hends⟩ := exists_core_of_front hp hfront
    obtain ⟨hsolid, hclosing⟩ := hcore.split_blanks hends.empty
    have hleading : (splitEmptyLine ls).1 = [] ∨
        ∃ e, Line.isEmpty e = true ∧ (splitEmptyLine ls).1 = [e] := by
      unfold splitEmptyLine
      split
      · split
        · exact Or.inr ⟨_, by assumption, rfl⟩
        · exact Or.inl rfl
      · exact Or.inl rfl
    exact ⟨by simp, hleading, by rwa [hsolid], by rwa [hclosing], by simp, by simp⟩
  · rintro ⟨hbefore, rfl, hfits⟩
    obtain ⟨before, leading, core, trailing, after⟩ := r
    obtain rfl : before = [] := hbefore
    have hcore : p.IsCore core := hfits.core
    have hends : Ends trailing after := hfits.ends
    have hsplit : splitEmptyLine (leading ++ (core ++ trailing ++ after)) =
        (leading, core ++ trailing ++ after) := by
      rcases hfits.leading with rfl | ⟨e, he, rfl⟩
      · obtain ⟨c, cs, rfl⟩ := List.exists_cons_of_ne_nil hcore.ne_nil
        have hc := not_isEmpty_of_isComment (hcore.comment c (by simp))
        simp [splitEmptyLine, hc]
      · simp [splitEmptyLine, he]
    obtain ⟨hsolid, hclosing⟩ := hcore.split_blanks hends.empty
    have hall : Region.allLines ⟨[], leading, core, trailing, after⟩ =
        leading ++ (core ++ trailing ++ after) := by
      simp [Region.allLines, Region.lines]
    rw [hall, cut?, hsplit]
    simp only [front_eq hp hcore hends, Option.map_some, hsolid, hclosing]

/-- A region fits among fewer lines before it. -/
theorem fits_of_below {l : Line} {r : Region} (h : (r.below l).Fits p) : r.Fits p := by
  have hlast : ∀ k ∈ r.before.getLast?, k ∈ (l :: r.before).getLast? := by
    intro k hk
    obtain ⟨bs, hbs⟩ := List.getLast?_eq_some_iff.mp hk
    exact List.getLast?_eq_some_iff.mpr ⟨l :: bs, by rw [hbs, List.cons_append]⟩
  exact ⟨fun k hk => h.before k (List.mem_cons_of_mem l hk), h.leading, h.core, h.ends,
    fun hl k hk => h.start_empty hl k (hlast k hk),
    fun hl hc k hk => h.start_marker hl hc k (hlast k hk)⟩

/-- No region opens at a line that stands before one. -/
theorem not_opensAt_below {l : Line} {r : Region} (h : (r.below l).Fits p) :
    p.opensAt (l :: r.allLines) = false := by
  have hl : isHeader l = false := h.before l List.mem_cons_self
  obtain ⟨bs, leading, core, trailing, after⟩ := r
  have hcore : p.IsCore core := h.core
  obtain ⟨c, cs, rfl⟩ := List.exists_cons_of_ne_nil hcore.ne_nil
  have hmarked : p.marks l = false ∨
      (Region.allLines ⟨bs, leading, c :: cs, trailing, after⟩).head?.any isHeader = false := by
    cases bs with
    | cons b bs => exact Or.inr (h.before b (by simp [Region.below]))
    | nil =>
      rcases h.leading with hlead | ⟨e, he, hlead⟩
      · -- the region starts right below, so `l` is no marker where it starts with a header
        cases hc : isHeader c with
        | false =>
          obtain rfl : leading = [] := hlead
          exact Or.inr hc
        | true =>
          left
          refine h.start_marker hlead ?_ l (by simp [Region.below])
          intro k hk
          obtain rfl := Option.some.inj hk
          exact hc
      · obtain rfl : leading = [e] := hlead
        exact Or.inr (not_isHeader_of_isEmpty he)
  rcases hmarked with hm | hm <;> simp [opensAt, hl, hm]

/-- **The search cannot succeed early**: nothing is cut off at a line before the region. -/
theorem cut?_below (hp : p.IsSingleLine) {l : Line} {r : Region} (h : (r.below l).Fits p) :
    p.cut? (l :: r.allLines) = none := by
  have hfront : p.opensAt (splitEmptyLine (l :: r.allLines)).2 = false := by
    cases he : Line.isEmpty l with
    | false =>
      simp only [splitEmptyLine, he]
      exact not_opensAt_below h
    | true =>
      simp only [splitEmptyLine, he, if_true]
      obtain ⟨bs, leading, core, trailing, after⟩ := r
      cases bs with
      | cons b bs =>
        exact not_opensAt_below (r := ⟨bs, leading, core, trailing, after⟩) (fits_of_below h)
      | nil =>
        rcases h.leading with hlead | ⟨e, hempty, hlead⟩
        · -- the empty line would be the region's own
          have := h.start_empty hlead l (by simp [Region.below])
          rw [he] at this
          cases this
        · obtain rfl : leading = [e] := hlead
          have hcomment := not_isComment_of_isEmpty hempty
          have hm : p.marks e = false := by
            cases hm : p.marks e with
            | false => rfl
            | true => rw [isComment_of_marks hm] at hcomment; cases hcomment
          simp [Region.allLines, Region.lines, opensAt, hm, not_isHeader_of_isEmpty hempty]
  have := isSome_cut? hp (l :: r.allLines)
  rw [hfront] at this
  exact Option.not_isSome_iff_eq_none.mp (by simp [this])

/-- A core opens where it stands. -/
theorem opensAt_core {core : List Line} (h : p.IsCore core) (ls : List Line) :
    p.opensAt (core ++ ls) = true := by
  cases h with
  | plain hh _ => simp [opensAt, hh]
  | marked hm hh _ => simp [opensAt, hm, hh]

theorem not_opensAt_of_cut? (hp : p.IsSingleLine) {ls : List Line} (h : p.cut? ls = none) :
    p.opensAt (splitEmptyLine ls).2 = false := by
  rw [← isSome_cut? hp, h]
  rfl

/-- Where nothing is cut off, the first line is no header. -/
theorem not_isHeader_of_cut? (hp : p.IsSingleLine) {l : Line} {ls : List Line}
    (h : p.cut? (l :: ls) = none) : isHeader l = false := by
  cases hl : isHeader l with
  | false => rfl
  | true =>
    have hfront := not_opensAt_of_cut? hp h
    have hsolid := not_isEmpty_of_isComment (isComment_of_isHeader hl)
    simp [splitEmptyLine, hsolid, opensAt, hl] at hfront

/-- A region still fits below a line at which nothing is cut off. -/
theorem fits_below (hp : p.IsSingleLine) {l : Line} {r : Region} (h : r.Fits p)
    (hcut : p.cut? (l :: r.allLines) = none) : (r.below l).Fits p := by
  have hl : isHeader l = false := not_isHeader_of_cut? hp hcut
  have hfront := not_opensAt_of_cut? hp hcut
  obtain ⟨bs, leading, core, trailing, after⟩ := r
  refine ⟨?_, h.leading, h.core, h.ends, ?_, ?_⟩
  · intro k hk
    rcases List.mem_cons.mp hk with rfl | hk
    · exact hl
    · exact h.before k hk
  · intro hlead k hk
    obtain rfl : leading = [] := hlead
    cases bs with
    | cons b bs => exact h.start_empty rfl k (by simpa [Region.below] using hk)
    | nil =>
      obtain rfl : l = k := by simpa [Region.below] using hk
      cases he : Line.isEmpty l with
      | false => rfl
      | true =>
        -- the region would have been cut off behind the empty line
        have hopen := opensAt_core h.core (trailing ++ after)
        have hclosed : p.opensAt (core ++ (trailing ++ after)) = false := by
          simpa [splitEmptyLine, he, Region.allLines, Region.lines] using hfront
        rw [hopen] at hclosed
        cases hclosed
  · intro hlead hc k hk
    obtain rfl : leading = [] := hlead
    cases bs with
    | cons b bs => exact h.start_marker rfl hc k (by simpa [Region.below] using hk)
    | nil =>
      obtain rfl : l = k := by simpa [Region.below] using hk
      cases hm : p.marks l with
      | false => rfl
      | true =>
        have hsolid := not_isEmpty_of_isComment (isComment_of_marks hm)
        have hcore : p.IsCore core := h.core
        obtain ⟨c, cs, rfl⟩ := List.exists_cons_of_ne_nil hcore.ne_nil
        have hhc : isHeader c = true := hc c rfl
        simp [splitEmptyLine, hsolid, Region.allLines, Region.lines, opensAt, hm, hhc] at hfront

/-- **What the search finds** is the region that fits; there is no other. -/
theorem first?_eq_some_iff (hp : p.IsSingleLine) {ls : List Line} {r : Region} :
    p.first? ls = some r ↔ r.allLines = ls ∧ r.Fits p := by
  constructor
  · intro h
    refine ⟨(lines_of_first? h).1, ?_⟩
    -- the region was found below the first line only because nothing was cut off there
    induction ls generalizing r with
    | nil => simp [first?] at h
    | cons l ls ih =>
      rw [first?] at h
      split at h
      · rename_i g hcut
        cases h
        exact ((cut?_eq_some_iff hp).mp hcut).2.2
      · rename_i hcut
        obtain ⟨g, hg, rfl⟩ := Option.map_eq_some_iff.mp h
        obtain rfl := (lines_of_first? hg).1
        exact fits_below hp (ih hg) hcut
  · rintro ⟨rfl, hfits⟩
    obtain ⟨before, leading, core, trailing, after⟩ := r
    -- the search passes the lines before the region one by one
    induction before with
    | nil =>
      have hcut := (cut?_eq_some_iff hp).mpr ⟨rfl, rfl, hfits⟩
      cases hls : Region.allLines ⟨[], leading, core, trailing, after⟩ with
      | nil =>
        rw [hls] at hcut
        simp [cut?, splitEmptyLine, markedBody?_nil hp, body?_nil hp] at hcut
      | cons l ls =>
        rw [hls] at hcut
        rw [first?, hcut]
    | cons l bs ih =>
      have hnone := cut?_below hp (r := ⟨bs, leading, core, trailing, after⟩) hfits
      have hrest := ih (fits_of_below (l := l) hfits)
      show p.first? (l :: Region.allLines ⟨bs, leading, core, trailing, after⟩) = _
      rw [first?, hnone, hrest]
      rfl

/-- **The search finds nothing** only where no line is a header. -/
theorem first?_eq_none_iff (hp : p.IsSingleLine) {ls : List Line} :
    p.first? ls = none ↔ ∀ l ∈ ls, isHeader l = false := by
  constructor
  · intro h
    induction ls with
    | nil => simp
    | cons l ls ih =>
      rw [first?] at h
      split at h
      · cases h
      · rename_i hcut
        intro k hk
        rcases List.mem_cons.mp hk with rfl | hk
        · exact not_isHeader_of_cut? hp hcut
        · exact ih (Option.map_eq_none_iff.mp h) k hk
  · intro h
    cases hf : p.first? ls with
    | none => rfl
    | some r =>
      obtain ⟨rfl, hfits⟩ := (first?_eq_some_iff hp).mp hf
      have hcore : p.IsCore r.core := hfits.core
      obtain ⟨l, hl, hh⟩ := hcore.header
      rw [h l (by simp [Region.allLines, Region.lines, hl])] at hh
      cases hh

end RegionShape

end SchemaComment
