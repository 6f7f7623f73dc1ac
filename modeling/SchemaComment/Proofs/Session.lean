/-
  A FILE OVER MANY RUNS.

  Over its life a file is annotated and stripped again and again, with other blocks, positions,
  markers and options each time.

  1. **Program** — a `Step` is one run of `annotate` or `strip`; `Step.next` is the text after it,
     and `visits` are the texts that a list of steps comes to, each with the step that is taken
     there.
  2. **Specification** — `session_sound_iff`: no step finds several regions, no text has more than
     one, an annotated text has one and a stripped text none, exactly when no step on the way bares
     a header of the body.
  3. **The crux** — the invariant is `Clean`: one heading at the most, and no open end.  It asks for
     no markers, so it passes from a step under one pair of markers to a step under another
     (`Step.sound_of_clean` is one step, `sound_of_clean` the run).
-/
import SchemaComment.Proofs.Stripping

namespace SchemaComment

open Line

/-! ## Steps -/

/-- One run over a file. -/
inductive Step where
  /-- A block is brought into the file. -/
  | annotate (o : Options) (block : Text) (k : FileKind)
  /-- The schema comment is taken out. -/
  | strip (o : Options)

namespace Step

/-- What the run answers. -/
def run (path : String) : Step → Text → Except Fault (Option Text)
  | .annotate o block k, t => SchemaComment.annotate o path t block k
  | .strip o, t => SchemaComment.strip o path t

/-- The text after the run. -/
def next (s : Step) (t : Text) : Text :=
  match s.run "" t with
  | .ok (some u) => u
  | _ => t

/-- Blocks are rendered ones, and markers single lines. -/
def Valid : Step → Prop
  | .annotate o block _ => Rendered block ∧ o.wrapper.IsSingleLine
  | .strip o => o.wrapper.IsSingleLine

/-- Whether the run writes, and bares a header of the body in doing so. -/
def bares : Step → Text → Bool
  | .annotate o block k, t =>
    let f := SourceFile.ofText o.shape t
    decide (next (.annotate o block k) t ≠ t) &&
      (f.action? o.force (o.wrapper.wrap block)).any fun a => f.baresHeader a (o.positionFor k)
  | .strip _, _ => false

/-- How many regions there are right after the run has written. -/
def regions : Step → Nat
  | .annotate .. => 1
  | .strip _ => 0

/-- What is to be expected of a run over a text. -/
structure Sound (s : Step) (t : Text) : Prop where
  /-- The text has one region at the most, under any markers. -/
  before : ∀ p : RegionShape, p.IsSingleLine → p.count t ≤ 1
  /-- The run does not find several. -/
  answer : ∀ path n, s.run path t ≠ .error (.severalRegions path n)
  /-- What it writes has one after annotating and none after stripping. -/
  written : ∀ path u, s.run path t = .ok (some u) →
    ∀ p : RegionShape, p.IsSingleLine → p.count u = s.regions
  /-- What it leaves has one at the most. -/
  after : ∀ p : RegionShape, p.IsSingleLine → p.count (s.next t) ≤ 1

/-! ## One step -/

variable {s : Step} {path : String} {t u : Text}

/-- What the run writes is the text after it, and differs from the text before. -/
theorem next_eq (h : s.run path t = .ok (some u)) : s.next t = u := by
  have hpath : s.run "" t = .ok (some u) := by
    cases s with
    | annotate o block k => exact annotate_eq_some_iff.mpr (annotate_eq_some_iff.mp h)
    | strip o => exact strip_eq_some_iff.mpr (strip_eq_some_iff.mp h)
  rw [next, hpath]

/-- The text after a run is the text before, or one that the run wrote. -/
theorem next_cases (s : Step) (t : Text) :
    s.next t = t ∨ s.run "" t = .ok (some (s.next t)) := by
  unfold next
  split
  · rename_i u hu
    exact Or.inr hu
  · exact Or.inl rfl

/-- **What annotating writes**: one region, and a second one where a header was bared. -/
theorem regions_annotated {o : Options} {block : Text} {k : FileKind}
    (hs : (annotate o block k).Valid) (ht : (Lines.ofText t).tail = [])
    (h : (annotate o block k).run path t = .ok (some u)) :
    headings false (Lines.ofText u).ended = (if (annotate o block k).bares t then 2 else 1) ∧
      (Lines.ofText u).tail = [] := by
  obtain ⟨hb, hw⟩ := hs
  have hp := Options.isSingleLine_shape hw
  have hnext : (annotate o block k).next t = u := next_eq h
  obtain ⟨-, -, -, hne, -⟩ := annotate_eq_some_iff.mp h
  obtain ⟨a, L, hL, rfl⟩ := exists_annotation hw hb (by rw [ht]; rfl) h
  refine ⟨?_, ?_⟩
  · rw [← RegionShape.count_eq hp, hL.count hw hp]
    simp [bares, hnext, hne, hL.chosen]
  · rw [Layout.ofText_text hL.fits]
    exact hL.writes.tail_eq hp ht

end Step

/-- A text that all single-line markers find one region in at the most, and that does not end in the
    middle of a line. -/
structure Clean (t : Text) : Prop where
  one : headings false (Lines.ofText t).ended ≤ 1
  closed : (Lines.ofText t).tail = []

namespace Step

variable {s : Step} {path : String} {t u : Text}

/-- What a run writes over a clean text, where it bares no header. -/
theorem regions_written (hs : s.Valid) (ht : Clean t) (hb : s.bares t = false)
    (h : s.run path t = .ok (some u)) :
    headings false (Lines.ofText u).ended = s.regions ∧ (Lines.ofText u).tail = [] := by
  cases s with
  | annotate o block k =>
    have hwritten := regions_annotated hs ht.closed h
    rw [hb] at hwritten
    exact hwritten
  | strip o =>
    obtain ⟨hnone, htail⟩ := headings_stripped hs h
    exact ⟨hnone, htail.trans ht.closed⟩

/-- **A step keeps a text clean**, if it bares no header. -/
theorem clean_next (hs : s.Valid) (ht : Clean t) (hb : s.bares t = false) : Clean (s.next t) := by
  rcases next_cases s t with hsame | hrun
  · rw [hsame]
    exact ht
  · obtain ⟨hcount, htail⟩ := regions_written hs ht hb hrun
    refine ⟨?_, htail⟩
    rw [hcount]
    cases s <;> simp [regions]

/-- A run over a clean text does not find several regions. -/
theorem run_ne_severalRegions (hs : s.Valid) (ht : Clean t) (n : Nat) :
    s.run path t ≠ .error (.severalRegions path n) := by
  have hone := ht.one
  intro h
  cases s with
  | annotate o block k =>
    have hp := Options.isSingleLine_shape hs.2
    obtain ⟨-, hmany, hcount⟩ := annotate_eq_severalRegions_iff.mp h
    rw [← SourceFile.count_eq_regionCount hp hp, RegionShape.count_eq hp] at hcount
    omega
  | strip o =>
    have hp := Options.isSingleLine_shape hs
    obtain ⟨-, hmany, hcount⟩ := strip_eq_severalRegions_iff.mp h
    rw [RegionShape.count_eq hp] at hcount
    omega

/-- **One step** over a clean text is as expected, if it bares no header. -/
theorem sound_of_clean (hs : s.Valid) (ht : Clean t) (hb : s.bares t = false) : s.Sound t := by
  refine ⟨fun p hp => ?_, fun path n => run_ne_severalRegions hs ht n, fun path u hu p hp => ?_,
    fun p hp => ?_⟩
  · rw [RegionShape.count_eq hp]
    exact ht.one
  · rw [RegionShape.count_eq hp]
    exact (regions_written hs ht hb hu).1
  · rw [RegionShape.count_eq hp]
    exact (clean_next hs ht hb).one

/-- **A step that bares a header** writes two regions. -/
theorem not_sound_of_bares (hs : s.Valid) (ht : Clean t) (hb : s.bares t = true) : ¬ s.Sound t := by
  intro hsound
  cases s with
  | strip o => cases hb
  | annotate o block k =>
    have hmoved : (annotate o block k).next t ≠ t := by
      intro hsame
      simp [bares, hsame] at hb
    rcases next_cases (annotate o block k) t with hsame | hrun
    · exact hmoved hsame
    · have hp := Options.isSingleLine_shape hs.2
      have hone := hsound.written "" _ hrun _ hp
      have htwo := (regions_annotated hs ht.closed hrun).1
      rw [hb, ← RegionShape.count_eq hp, hone] at htwo
      cases htwo

end Step

/-! ## Many steps -/

/-- The texts that the steps come to, each with the step that is taken there. -/
def visits : Text → List Step → List (Text × Step)
  | _, [] => []
  | t, s :: ss => (t, s) :: visits (s.next t) ss

/-- **Many steps** from a clean text are as expected, if none of them bares a header. -/
theorem sound_of_clean {c : Text} {steps : List Step} (hc : Clean c) (hs : ∀ s ∈ steps, s.Valid)
    (hb : ∀ x ∈ visits c steps, x.2.bares x.1 = false) : ∀ x ∈ visits c steps, x.2.Sound x.1 := by
  induction steps generalizing c with
  | nil =>
    intro x hx
    cases hx
  | cons s ss ih =>
    have hvalid : s.Valid := hs s List.mem_cons_self
    have hfirst : s.bares c = false := hb (c, s) List.mem_cons_self
    -- the invariant is handed on to the rest of the run
    have hnext : Clean (s.next c) := Step.clean_next hvalid hc hfirst
    have hrest := ih hnext (fun s' h' => hs s' (List.mem_cons_of_mem s h'))
      (fun x hx => hb x (List.mem_cons_of_mem _ hx))
    intro x hx
    rcases List.mem_cons.mp hx with rfl | hx
    · exact Step.sound_of_clean hvalid hc hfirst
    · exact hrest x hx

/-- The first step that bares a header is not as expected. -/
theorem not_bares_of_sound {c : Text} {steps : List Step} (hc : Clean c) (hs : ∀ s ∈ steps, s.Valid)
    (hsound : ∀ x ∈ visits c steps, x.2.Sound x.1) : ∀ x ∈ visits c steps, x.2.bares x.1 = false := by
  induction steps generalizing c with
  | nil =>
    intro x hx
    cases hx
  | cons s ss ih =>
    have hvalid : s.Valid := hs s List.mem_cons_self
    have hfirst : s.bares c = false := by
      cases hb : s.bares c with
      | false => rfl
      | true => exact absurd (hsound (c, s) List.mem_cons_self) (Step.not_sound_of_bares hvalid hc hb)
    have hnext : Clean (s.next c) := Step.clean_next hvalid hc hfirst
    have hrest := ih hnext (fun s' h' => hs s' (List.mem_cons_of_mem s h'))
      (fun x hx => hsound x (List.mem_cons_of_mem _ hx))
    intro x hx
    rcases List.mem_cons.mp hx with rfl | hx
    · exact hfirst
    · exact hrest x hx

/-- A text that some markers find one region in at the most is clean, if it has no open end. -/
theorem clean_of_count {c : Text} {p : RegionShape} (hp : p.IsSingleLine) (hone : p.count c ≤ 1)
    (hclosed : (Lines.ofText c).tail = []) : Clean c := by
  rw [RegionShape.count_eq hp] at hone
  exact ⟨hone, hclosed⟩

/-- **The run invariant.**  From a text with one region at the most and no open end, every step is
    as expected exactly when no step bares a header of the body. -/
theorem session_sound_iff {c : Text} {steps : List Step} {p : RegionShape} (hp : p.IsSingleLine)
    (hone : p.count c ≤ 1) (hclosed : (Lines.ofText c).tail = []) (hs : ∀ s ∈ steps, s.Valid) :
    (∀ x ∈ visits c steps, x.2.Sound x.1) ↔ ∀ x ∈ visits c steps, x.2.bares x.1 = false := by
  have hclean := clean_of_count hp hone hclosed
  constructor
  · intro hsound
    exact not_bares_of_sound hclean hs hsound
  · intro hb
    exact sound_of_clean hclean hs hb

/-- The options of a run that writes at the end, between markers. -/
def endOptions : Options :=
  { position := .after, wrapper := ⟨some "START".toList, some "END".toList⟩ }

/-- A file that is annotated, stripped, and annotated again at its end between markers. -/
theorem session_sound_typedText :
    (Step.annotate {} shortBlock .model).Sound typedText ∧ (Step.strip {}).Sound typedAnnotated ∧
      (Step.annotate endOptions shortBlock .test).Sound typedText := by
  have hwrapper := Wrapper.isPlain_empty.toIsSingleLine
  have hvalid : ∀ s ∈ [Step.annotate {} shortBlock .model, .strip {},
      .annotate endOptions shortBlock .test], s.Valid := by
    intro s hs
    simp only [List.mem_cons, List.not_mem_nil, or_false] at hs
    rcases hs with rfl | rfl | rfl
    · exact ⟨rendered_shortBlock, hwrapper⟩
    · exact hwrapper
    · exact ⟨rendered_shortBlock, by decide, by decide⟩
  have hstripped : ({} : Options).shape.count typedAnnotated ≤ 1 := by
    rw [RegionShape.count_eq isSingleLine_usual]
    decide
  have hstrip : strip {} "user.rb" typedAnnotated = .ok (some typedText) :=
    strip_eq_some_iff.mpr ⟨by decide, hstripped, _, rfl, by decide⟩
  have hfirst : (Step.annotate {} shortBlock .model).next typedText = typedAnnotated :=
    Step.next_eq annotate_typedText
  have hsecond : (Step.strip {}).next typedAnnotated = typedText := Step.next_eq hstrip
  have hone : ({} : Options).shape.count typedText ≤ 1 := by
    rw [SourceFile.count_eq_regionCount isSingleLine_usual isSingleLine_usual]
    exact regionCount_typedText
  have hsound := (session_sound_iff isSingleLine_usual hone (by decide) hvalid).mpr
  simp only [visits, List.forall_mem_cons] at hsound
  rw [hfirst, hsecond] at hsound
  have hbares : (Step.annotate {} shortBlock .model).bares typedText = false :=
    Bool.and_eq_false_iff.mpr (.inr (by decide))
  have hbares' : (Step.annotate endOptions shortBlock .test).bares typedText = false :=
    Bool.and_eq_false_iff.mpr (.inr (by decide))
  obtain ⟨h₁, h₂, h₃, -⟩ := hsound ⟨hbares, rfl, hbares', by simp⟩
  exact ⟨h₁, h₂, h₃⟩

/-- **A session may go wrong**: the file with an indented header has two regions once it is
    annotated, and stripping finds several. -/
theorem not_session_sound :
    ¬ ∀ (c : Text) (steps : List Step) (p : RegionShape), p.IsSingleLine → p.count c ≤ 1 →
      (Lines.ofText c).tail = [] → (∀ s ∈ steps, s.Valid) →
      ∀ x ∈ visits c steps, x.2.Sound x.1 := by
  intro h
  have hwrapper := Wrapper.isPlain_empty.toIsSingleLine
  have hvalid : ∀ s ∈ [Step.annotate {} shortBlock .model, .strip {}], s.Valid := by
    intro s hs
    simp only [List.mem_cons, List.not_mem_nil, or_false] at hs
    rcases hs with rfl | rfl
    · exact ⟨rendered_shortBlock, hwrapper⟩
    · exact hwrapper
  have hone : ({} : Options).shape.count hiddenText ≤ 1 := by
    rw [SourceFile.count_eq_regionCount isSingleLine_usual isSingleLine_usual]
    exact regionCount_hiddenText
  have hsound := h hiddenText _ ({} : Options).shape isSingleLine_usual hone (by decide) hvalid
  have hnext : (Step.annotate {} shortBlock .model).next hiddenText = baredText :=
    Step.next_eq annotate_hiddenText
  have hsecond := hsound ((Step.annotate {} shortBlock .model).next hiddenText, .strip {})
    (List.mem_cons_of_mem _ List.mem_cons_self)
  rw [hnext] at hsecond
  have hseveral : strip {} "user.rb" baredText = .error (.severalRegions "user.rb" 2) :=
    strip_eq_severalRegions_iff.mpr ⟨by decide, by decide, count_baredText⟩
  exact hsecond.answer "user.rb" 2 hseveral

end SchemaComment
