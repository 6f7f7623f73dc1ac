/-
  A LAST LINE WITHOUT ITS NEWLINE.

  Some editors save a file without a newline at its end.  The last line of such a file is an open end
  for the search, which goes through whole lines only.

  1. **Program** — `RegionShape.count` and `strip`, on a text and on the same text with a newline
     behind it.
  2. **Specification** — `strip_open_end`: the newline changes the number of regions just where the
     open end is a header that begins something new.  It changes what stripping leaves, line breaks at
     the end aside, just where the file ends within a schema comment (`endsWithin`): then the open
     end is left over, or all of the comment is.
  3. **The crux** — with the newline the open end is one more line, and that line stands behind the
     region, among the blanks that it closes with, or in its core (`Region.LastLine`).  In each case
     the region without that line fits, unless it was the only header.
-/
import Mathlib.Data.List.DropRight
import SchemaComment.Proofs.OptedOut

namespace SchemaComment

open Line

/-! ## Lines that end within a schema comment -/

/-- Whether some header has nothing but comment lines behind it. -/
def endsWithin : List Line → Bool
  | [] => false
  | l :: ls => endsWithin ls || (isHeader l && ls.all isComment)

/-- What stands in front has a say only where all that follows is comment lines. -/
theorem endsWithin_append (as bs : List Line) :
    endsWithin (as ++ bs) = (endsWithin bs || (endsWithin as && bs.all isComment)) := by
  induction as with
  | nil => simp [endsWithin]
  | cons a as ih =>
    rw [List.cons_append, endsWithin, endsWithin, ih, List.all_append]
    cases endsWithin bs <;> cases endsWithin as <;> cases bs.all isComment <;> simp

theorem endsWithin_eq_false {ls : List Line} (h : ∀ l ∈ ls, isHeader l = false) :
    endsWithin ls = false := by
  induction ls with
  | nil => rfl
  | cons l ls ih =>
    rw [endsWithin, ih fun k hk => h k (List.mem_cons_of_mem l hk), h l List.mem_cons_self]
    rfl

/-- Comment lines with a header among them end within a schema comment. -/
theorem endsWithin_append_comments {cs : List Line} (h : ∀ l ∈ cs, isComment l = true)
    (hh : ∃ l ∈ cs, isHeader l = true) (as : List Line) : endsWithin (as ++ cs) = true := by
  obtain ⟨l, hl, hh⟩ := hh
  obtain ⟨bs, ds, rfl⟩ := List.append_of_mem hl
  have hbelow : ds.all isComment = true := List.all_eq_true.mpr fun k hk => h k (by simp [hk])
  rw [← List.append_assoc, endsWithin_append, endsWithin, hh, hbelow]
  simp

/-- The last of such lines is a comment line. -/
theorem isComment_of_endsWithin {ls : List Line} {l : Line} (h : endsWithin (ls ++ [l]) = true) :
    isComment l = true := by
  rw [endsWithin_append, Bool.or_eq_true, Bool.and_eq_true] at h
  rcases h with h | ⟨-, h⟩
  · exact isComment_of_isHeader (by simpa [endsWithin] using h)
  · simpa using h

/-- Behind a line that is no comment there has to be a header. -/
theorem endsWithin_append_cons {e : Line} {bs : List Line} (he : isComment e = false)
    (hbs : ∀ l ∈ bs, isHeader l = false) (as : List Line) : endsWithin (as ++ e :: bs) = false := by
  rw [endsWithin_append, endsWithin, endsWithin_eq_false hbs, not_isHeader_of_not_isComment he,
    List.all_cons, he]
  simp

/-- Behind a region that has ended, lines do not end within another one without a header. -/
theorem endsWithin_append_ends {es after : List Line} (h : RegionShape.Ends es after)
    (hne : es ++ after ≠ []) (hafter : ∀ l ∈ after, isHeader l = false) (as : List Line) :
    endsWithin (as ++ (es ++ after)) = false := by
  have hes : ∀ l ∈ es, isHeader l = false := fun l hl => not_isHeader_of_isEmpty (h.empty l hl)
  cases es with
  | cons e es =>
    refine endsWithin_append_cons (not_isComment_of_isEmpty (h.empty e List.mem_cons_self)) ?_ as
    intro l hl
    rcases List.mem_append.mp hl with hl | hl
    · exact hes l (List.mem_cons_of_mem e hl)
    · exact hafter l hl
  | nil =>
    cases after with
    | nil => exact absurd rfl hne
    | cons a after =>
      exact endsWithin_append_cons (h.apart rfl a rfl)
        (fun l hl => hafter l (List.mem_cons_of_mem a hl)) as

/-- **One more line at the end** is one more heading where it is a header and no other one stands
    further up in its run of comment lines. -/
theorem headings_concat (inside : Bool) (ls : List Line) (l : Line) :
    headings inside (ls ++ [l]) = headings inside ls +
      if isHeader l && !(endsWithin ls || (inside && ls.all isComment)) then 1 else 0 := by
  induction ls generalizing inside with
  | nil => cases hl : isHeader l <;> cases inside <;> simp [headings, endsWithin, hl]
  | cons a ls ih =>
    rw [List.cons_append, headings, headings, endsWithin, List.all_cons]
    cases ha : isHeader a with
    | true =>
      rw [if_pos rfl, if_pos rfl, ih, isComment_of_isHeader ha]
      cases ls.all isComment <;> cases inside <;> simp [Nat.add_assoc]
    | false =>
      rw [if_neg Bool.false_ne_true, if_neg Bool.false_ne_true, ih, Bool.and_assoc]
      simp

/-! ## The last line and the region -/

/-- The last line of a core is its only header, or leaves a core. -/
theorem RegionShape.IsCore.concat {p : RegionShape} {cs : List Line} {l : Line}
    (h : p.IsCore (cs ++ [l])) :
    p.IsCore cs ∨ (isHeader l = true ∧ ∀ k ∈ cs, isHeader k = false) := by
  generalize hcore : cs ++ [l] = core at h
  cases h with
  | @plain k ks hk hks =>
    cases cs with
    | nil =>
      obtain ⟨rfl, -⟩ := List.cons.inj hcore
      exact Or.inr ⟨hk, by simp⟩
    | cons c cs =>
      obtain ⟨rfl, rfl⟩ := List.cons.inj hcore
      exact Or.inl (.plain hk fun j hj => hks j (List.mem_append_left _ hj))
  | @marked m k ks hm hk hks =>
    cases cs with
    | nil => cases hcore
    | cons c cs =>
      obtain ⟨rfl, hrest⟩ := List.cons.inj hcore
      cases cs with
      | cons d cs =>
        obtain ⟨rfl, rfl⟩ := List.cons.inj hrest
        exact Or.inl (.marked hm hk fun j hj => hks j (List.mem_append_left _ hj))
      | nil =>
        -- the marker alone is a core only if it reads as a header
        obtain ⟨rfl, -⟩ := List.cons.inj hrest
        cases hc : isHeader c with
        | true => exact Or.inl (.plain hc (by simp))
        | false => exact Or.inr ⟨hk, by simpa using hc⟩

namespace Region

variable {p : RegionShape} {r : Region} {ls : List Line} {l : Line}

/-- Where the last line `l` that was searched stands, in the region or behind it, and how the lines
    `ls` before it lie around a region. -/
inductive LastLine (p : RegionShape) (r : Region) (ls : List Line) (l : Line) : Prop
  /-- Behind the region. -/
  | behind {as : List Line} (hafter : r.after = as ++ [l]) (hfits : Fits p { r with after := as })
      (hls : allLines { r with after := as } = ls)
  /-- Among the blanks that the region closes with. -/
  | closing {es : List Line} (hafter : r.after = []) (htrailing : r.trailing = es ++ [l])
      (hfits : Fits p { r with trailing := es }) (hls : allLines { r with trailing := es } = ls)
  /-- In the core, below the header. -/
  | within {cs : List Line} (hback : r.trailing ++ r.after = []) (hfits : Fits p { r with core := cs })
      (hls : allLines { r with core := cs } = ls)
  /-- In the core, as the only header. -/
  | heading (hback : r.trailing ++ r.after = []) (hl : isHeader l = true)
      (hls : ∀ k ∈ ls, isHeader k = false)

/-- Fewer comment lines of a core fit, if they are a core. -/
theorem Fits.of_core_append {cs ds : List Line} (h : r.Fits p) (hcore : r.core = cs ++ ds)
    (hcs : p.IsCore cs) : Fits p { r with core := cs } := by
  refine ⟨h.before, h.leading, hcs, h.ends, h.start_empty, fun hlead hhead => ?_⟩
  refine h.start_marker hlead fun k hk => hhead k ?_
  obtain ⟨c, cs', rfl⟩ := List.exists_cons_of_ne_nil hcs.ne_nil
  rwa [hcore] at hk

/-- **Where the last line stands.** -/
theorem Fits.lastLine (h : r.Fits p) (hall : r.allLines = ls ++ [l]) : r.LastLine p ls l := by
  have hends : RegionShape.Ends r.trailing r.after := h.ends
  have hcore : p.IsCore r.core := h.core
  have hsplit : ∀ ks k, r.allLines = ks ++ [k] → ks = ls ∧ k = l := by
    intro ks k hk
    obtain ⟨hks, hlast⟩ := List.append_inj' (hk.symm.trans hall) rfl
    exact ⟨hks, List.singleton_inj.mp hlast⟩
  rcases List.eq_nil_or_concat r.after with hafter | ⟨as, a, hafter⟩
  · rcases List.eq_nil_or_concat r.trailing with htrailing | ⟨es, e, htrailing⟩
    · -- in the core
      obtain ⟨cs, d, hd⟩ := (List.eq_nil_or_concat r.core).resolve_left hcore.ne_nil
      rw [List.concat_eq_append] at hd
      have hback : r.trailing ++ r.after = [] := by rw [htrailing, hafter, List.append_nil]
      obtain ⟨hls, rfl⟩ := hsplit (r.before ++ (r.leading ++ cs)) d
        (by simp [allLines, lines, hafter, htrailing, hd])
      rw [hd] at hcore
      rcases hcore.concat with hcs | ⟨hl, hcs⟩
      · refine .within hback (h.of_core_append hd hcs) ?_
        rw [← hls]
        simp [allLines, lines, hafter, htrailing]
      · refine .heading hback hl fun k hk => ?_
        rw [← hls, List.mem_append, List.mem_append] at hk
        rcases hk with hk | hk | hk
        · exact h.before k hk
        · exact not_isHeader_of_isEmpty (h.isEmpty_leading k hk)
        · exact hcs k hk
    · -- among the blanks
      rw [List.concat_eq_append] at htrailing
      obtain ⟨hls, rfl⟩ := hsplit (r.before ++ (r.leading ++ r.core ++ es)) e
        (by simp [allLines, lines, hafter, htrailing])
      refine .closing hafter htrailing
        ⟨h.before, h.leading, h.core, ?_, h.start_empty, h.start_marker⟩ ?_
      · refine ⟨fun k hk => hends.empty k (by simp [htrailing, hk]), hends.solid, fun _ k hk => ?_⟩
        rw [show ({ r with trailing := es } : Region).after = [] from hafter] at hk
        cases hk
      · rw [← hls]
        simp [allLines, lines, hafter]
  · -- behind the region
    rw [List.concat_eq_append] at hafter
    obtain ⟨hls, rfl⟩ := hsplit (r.before ++ r.lines ++ as) a
      (by simp [allLines, hafter])
    have hhead : ∀ k ∈ as.head?, k ∈ r.after.head? := by
      intro k hk
      rw [hafter, List.head?_append, Option.mem_def.mp hk]
      rfl
    exact .behind hafter ⟨h.before, h.leading, h.core,
      ⟨hends.empty, fun k hk => hends.solid k (hhead k hk),
        fun hes k hk => hends.apart hes k (hhead k hk)⟩, h.start_empty, h.start_marker⟩ hls

/-- **Where lines end within a schema comment**, the last of them stands in the core of the region. -/
theorem Fits.endsWithin_eq (h : r.Fits p) (hone : ∀ k ∈ r.after, isHeader k = false) :
    endsWithin r.allLines = (r.trailing ++ r.after).isEmpty := by
  have hends : RegionShape.Ends r.trailing r.after := h.ends
  have hcore : p.IsCore r.core := h.core
  have hlines : r.allLines = (r.before ++ r.leading) ++ (r.core ++ (r.trailing ++ r.after)) := by
    simp [allLines, lines]
  cases hback : (r.trailing ++ r.after).isEmpty with
  | true =>
    rw [hlines, List.isEmpty_iff.mp hback, List.append_nil]
    exact endsWithin_append_comments hcore.comment hcore.header _
  | false =>
    have hne : r.trailing ++ r.after ≠ [] := fun hnil => by simp [hnil] at hback
    rw [hlines, ← List.append_assoc]
    exact endsWithin_append_ends hends hne hone _

end Region

/-! ## Line breaks at the end -/

namespace Text

/-- Whether a character is part of a line break. -/
def isBreak (d : Char) : Bool := d == '\n' || d == '\r'

/-- The text without the line breaks at its end. -/
def trimBreaks (t : Text) : Text := t.rdropWhile isBreak

theorem trimBreaks_append_of_isBreak {b : Text} (h : ∀ d ∈ b, isBreak d = true) (t : Text) :
    trimBreaks (t ++ b) = trimBreaks t := by
  have hreverse : ∀ d ∈ b.reverse, isBreak d = true := fun d hd => h d (List.mem_reverse.mp hd)
  rw [trimBreaks, trimBreaks, List.rdropWhile, List.rdropWhile, List.reverse_append,
    List.dropWhile_append_of_pos hreverse]

/-- A text that more is set behind is another one, line breaks at the end aside, unless that is line
    breaks. -/
theorem trimBreaks_append_ne {l : Text} (h : ∃ d ∈ l, isBreak d = false) (t : Text) :
    trimBreaks (t ++ l) ≠ trimBreaks t := by
  have hstops : l.reverse.dropWhile isBreak ≠ [] := by
    intro hnil
    obtain ⟨d, hd, hsolid⟩ := h
    have hbreak := List.dropWhile_eq_nil_iff.mp hnil d (List.mem_reverse.mpr hd)
    rw [hsolid] at hbreak
    cases hbreak
  have hlonger : trimBreaks (t ++ l) = t ++ trimBreaks l := by
    rw [trimBreaks, trimBreaks, List.rdropWhile, List.rdropWhile, List.reverse_append,
      List.dropWhile_append, if_neg (by simpa using hstops), List.reverse_append,
      List.reverse_reverse]
  intro hsame
  have hshorter : (trimBreaks t).length ≤ t.length := (List.rdropWhile_prefix isBreak t).length_le
  have hkept : 0 < (trimBreaks l).length := by
    simpa [trimBreaks, List.rdropWhile] using List.length_pos_iff.mpr hstops
  rw [← hsame, hlonger, List.length_append] at hshorter
  omega

end Text

/-! ## Stripping with and without the newline -/

section

variable {o : Options} {path : String} {c s : Text}

/-- What stripping leaves around a region that fits. -/
theorem strip_of_fits {r : Region} (path : String) (hp : o.shape.IsSingleLine)
    (hout : optedOut c = false) (hone : headings false (Lines.ofText c).ended ≤ 1)
    (hall : r.allLines = (Lines.ofText c).ended) (hfits : r.Fits o.shape) :
    strip o path c = .ok (some (unlines (r.before ++ r.after) ++ (Lines.ofText c).tail)) := by
  refine strip_eq_some_iff.mpr ⟨hout, ?_, r, ?_, rfl⟩
  · rw [RegionShape.count_eq hp]
    exact hone
  · exact (RegionShape.first?_eq_some_iff hp).mpr ⟨hall, hfits⟩

/-- Stripping leaves a text without a header as it is. -/
theorem strip_of_no_header (path : String) (hp : o.shape.IsSingleLine) (hout : optedOut c = false)
    (hnone : ∀ l ∈ (Lines.ofText c).ended, isHeader l = false) : strip o path c = .ok none := by
  have hcount : o.shape.count c = 0 := by
    rw [RegionShape.count_eq hp, headings_eq_zero hnone]
  have hlocate : o.shape.locate c = none := by
    rw [RegionShape.locate_eq]
    exact (RegionShape.first?_eq_none_iff hp).mpr hnone
  simp [strip, hout, hcount, hlocate]

/-- **What stripping leaves of a text with an open end**, told by what it leaves where the newline is
    there.  Within a schema comment the open end is left over, or nothing is taken out. -/
theorem strip_of_strip_newline (hw : o.wrapper.IsSingleLine)
    (hs : strip o path (c ++ ['\n']) = .ok (some s)) :
    let ls := (Lines.ofText c).ended
    let l := (Lines.ofText c).tail
    (endsWithin (ls ++ [l]) = true →
      strip o path c = .ok (if endsWithin ls then some (s ++ l) else none)) ∧
    (endsWithin (ls ++ [l]) = false →
      ∃ u, strip o path c = .ok (some u) ∧
        (s = u ++ ['\n'] ∨ (Line.isEmpty l = true ∧ u = s ++ l))) := by
  intro ls l
  have hp := Options.isSingleLine_shape hw
  obtain ⟨hout, hone, r, hr, hleft⟩ := strip_eq_some_iff.mp hs
  obtain ⟨hall, hfits⟩ := (RegionShape.first?_eq_some_iff hp).mp hr
  rw [Lines.ofText_append_newline] at hall hleft
  rw [RegionShape.count_eq hp, Lines.ofText_append_newline] at hone
  have hout : optedOut c = false := optedOut_of_infix (List.prefix_append c _).isInfix hout
  have hfew : headings false ls ≤ 1 := by
    have hmore := headings_concat false ls l
    have hlines : headings false (ls ++ [l]) ≤ 1 := hone
    omega
  have hall : r.allLines = ls ++ [l] := hall
  have hbehind : ∀ k ∈ r.after, isHeader k = false := fun k hk =>
    not_isHeader_around hfits (by rw [hall]; exact hone) k (List.mem_append_right _ hk)
  have hwithin := hfits.endsWithin_eq hbehind
  rw [hall] at hwithin
  rw [hwithin]
  cases hfits.lastLine hall with
  | @behind as hafter hfits' hls =>
    refine ⟨fun hnil => by simp [hafter] at hnil, fun _ => ?_⟩
    refine ⟨_, strip_of_fits path hp hout hfew hls hfits', Or.inl ?_⟩
    rw [← hleft, hafter]
    simp [l]
  | @closing es hafter htrailing hfits' hls =>
    refine ⟨fun hnil => by simp [htrailing] at hnil, fun _ => ?_⟩
    have hempty : Line.isEmpty l = true := hfits.ends.empty l (by simp [htrailing])
    refine ⟨_, strip_of_fits path hp hout hfew hls hfits', Or.inr ⟨hempty, ?_⟩⟩
    rw [← hleft]
    simp [l]
  | @within cs hback hfits' hls =>
    have hls' := hfits'.endsWithin_eq hbehind
    rw [hls, show (r.trailing ++ r.after).isEmpty = true by rw [hback]; rfl] at hls'
    refine ⟨fun _ => ?_, fun hsolid => by simp [hback] at hsolid⟩
    rw [hls', if_pos rfl, strip_of_fits path hp hout hfew hls hfits', ← hleft]
    simp [l]
  | heading hback hl hls =>
    refine ⟨fun _ => ?_, fun hsolid => by simp [hback] at hsolid⟩
    rw [endsWithin_eq_false hls, if_neg Bool.false_ne_true]
    exact strip_of_no_header path hp hout hls

/-- **A newline at the end of a text** changes the number of regions just where it ends a header that
    begins something new.  It changes what stripping leaves, line breaks at the end aside, just where
    the text ends within a schema comment. -/
theorem strip_open_end (path : String) (hw : o.wrapper.IsSingleLine) (c : Text) :
    let ls := (Lines.ofText c).ended
    let l := (Lines.ofText c).tail
    (o.shape.count c = o.shape.count (c ++ ['\n']) ↔
        ¬ (isHeader l = true ∧ endsWithin ls = false)) ∧
      ∀ s, strip o path (c ++ ['\n']) = .ok (some s) →
        ((∃ u, strip o path c = .ok (some u) ∧ u.trimBreaks = s.trimBreaks) ↔
          endsWithin (ls ++ [l]) = false) ∧
        (endsWithin (ls ++ [l]) = true →
          strip o path c = .ok (if endsWithin ls then some (s ++ l) else none)) := by
  intro ls l
  have hp := Options.isSingleLine_shape hw
  refine ⟨?_, fun s hs => ?_⟩
  · have hmore := headings_concat false ls l
    rw [Bool.false_and, Bool.or_false] at hmore
    rw [RegionShape.count_eq hp, RegionShape.count_eq hp, Lines.ofText_append_newline]
    show headings false ls = headings false (ls ++ [l]) ↔ _
    rw [hmore]
    cases isHeader l <;> cases endsWithin ls <;> simp
  · obtain ⟨hinside, houtside⟩ := strip_of_strip_newline hw hs
    refine ⟨⟨?_, fun hout => ?_⟩, hinside⟩
    · rintro ⟨u, hu, hsame⟩
      cases hends : endsWithin (ls ++ [l]) with
      | false => rfl
      | true =>
        -- what is left over is a comment, or nothing was stripped
        obtain ⟨r, hr⟩ := isComment_iff.mp (isComment_of_endsWithin hends)
        have hleft := Except.ok.inj (hu.symm.trans (hinside hends))
        split at hleft
        · obtain rfl := Option.some.inj hleft
          exact absurd hsame (Text.trimBreaks_append_ne ⟨'#', by simp [l, hr], rfl⟩ s)
        · cases hleft
    · obtain ⟨u, hu, hends⟩ := houtside hout
      refine ⟨u, hu, ?_⟩
      rcases hends with rfl | ⟨hempty, rfl⟩
      · exact (Text.trimBreaks_append_of_isBreak (by simp [Text.isBreak]) u).symm
      · refine Text.trimBreaks_append_of_isBreak (fun d hd => ?_) s
        rcases isEmpty_iff.mp hempty with hnil | hreturn
        · rw [hnil] at hd
          cases hd
        · rw [hreturn] at hd
          obtain rfl := List.mem_singleton.mp hd
          rfl

/-- A file whose last line has no newline, a schema comment at its top. -/
def toppedOpen : Text := "# == Schema Info\n#  id :integer\n\nclass User".toList

/-- A file whose schema comment has no newline at its end. -/
def bottomedOpen : Text := "class User\nend\n\n# == Schema Info\n#  id :integer".toList

theorem strip_newline_toppedOpen :
    strip {} "user.rb" (toppedOpen ++ ['\n']) = .ok (some "class User\n".toList) := by
  have hone : ({} : Options).shape.count (toppedOpen ++ ['\n']) ≤ 1 := by
    rw [RegionShape.count_eq isSingleLine_usual]
    decide
  exact strip_eq_some_iff.mpr ⟨by decide, hone, _, rfl, by decide⟩

theorem strip_newline_bottomedOpen :
    strip {} "user.rb" (bottomedOpen ++ ['\n']) = .ok (some "class User\nend\n".toList) := by
  have hone : ({} : Options).shape.count (bottomedOpen ++ ['\n']) ≤ 1 := by
    rw [RegionShape.count_eq isSingleLine_usual]
    decide
  exact strip_eq_some_iff.mpr ⟨by decide, hone, _, rfl, by decide⟩

/-- At the top of a file the schema comment goes as it does with the newline; at the bottom its last
    line stays. -/
theorem strip_open_end_userText :
    (∃ u, strip {} "user.rb" toppedOpen = .ok (some u) ∧ u.trimBreaks = "class User".toList) ∧
      strip {} "user.rb" bottomedOpen = .ok (some "class User\nend\n#  id :integer".toList) := by
  have hw := Wrapper.isPlain_empty.toIsSingleLine
  obtain ⟨-, htop⟩ := strip_open_end (o := {}) "user.rb" hw toppedOpen
  obtain ⟨-, hbottom⟩ := strip_open_end (o := {}) "user.rb" hw bottomedOpen
  obtain ⟨u, hu, hsame⟩ := (htop _ strip_newline_toppedOpen).1.mpr (by decide)
  exact ⟨⟨u, hu, hsame.trans (by decide)⟩, (hbottom _ strip_newline_bottomedOpen).2 (by decide)⟩

/-- **A missing newline may leave a line of the schema comment in the file.** -/
theorem not_strip_open_end :
    ¬ ∀ (o : Options) (path : String) (c : Text), o.wrapper.IsSingleLine →
      c.getLast? ≠ some '\n' → optedOut c = false →
      o.shape.count c = o.shape.count (c ++ ['\n']) ∧
        ∀ s, strip o path (c ++ ['\n']) = .ok (some s) →
          ∃ u, strip o path c = .ok (some u) ∧ u.trimBreaks = s.trimBreaks := by
  intro h
  obtain ⟨-, hsame⟩ := h {} "user.rb" bottomedOpen Wrapper.isPlain_empty.toIsSingleLine (by decide)
    (by decide)
  obtain ⟨u, hu, htrimmed⟩ := hsame _ strip_newline_bottomedOpen
  have hone : ({} : Options).shape.count bottomedOpen ≤ 1 := by
    rw [RegionShape.count_eq isSingleLine_usual]
    decide
  have hleft : strip {} "user.rb" bottomedOpen =
      .ok (some "class User\nend\n#  id :integer".toList) :=
    strip_eq_some_iff.mpr ⟨by decide, hone, _, rfl, by decide⟩
  obtain rfl := Option.some.inj (Except.ok.inj (hleft.symm.trans hu))
  exact absurd htrimmed (by decide)

end

end SchemaComment
