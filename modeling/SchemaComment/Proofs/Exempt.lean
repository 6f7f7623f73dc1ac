/-
  FILES THAT HAVE OPTED OUT.

  A store of files is annotated and stripped, file by file and in batches, by people who each have
  their own options.  A file that has opted out is none of their business.

  1. **Program** — a `Call` is one use of the library on a store of named texts; `Call.runAll` makes
     one call after the other and gathers what they answer.
  2. **Specification** — `optedOut_final`: whatever calls are made on a store, a text with the skip
     marker is still there afterwards, and no answer names its file.  And no file opts out by
     accident, as neither operation makes up the marker.
  3. **The crux** — the marker is the first thing that either operation asks for, before it counts
     regions or asks whether it may write.  So each file of a batch leaves the text alone
     (`spares_processFile`), whether it has the same name or another one, and what each step spares
     the whole run spares.
-/
import SchemaComment.Proofs.Independence
import SchemaComment.Proofs.OptedOut

namespace SchemaComment

/-! ## Calls and answers -/

/-- The file that a fault is about. -/
def Fault.path : Fault → String
  | .frozen path => path
  | .file path _ => path
  | .severalRegions path _ => path

/-- One use of the library on a store. -/
inductive Call where
  /-- One file is annotated. -/
  | annotateFile (o : Options) (target : Target)
  /-- One file is stripped. -/
  | stripFile (o : Options) (path : String)
  /-- Several files are annotated in order. -/
  | annotateAll (o : Options) (targets : List Target)
  /-- Several files are stripped in order. -/
  | stripAll (o : Options) (paths : List String)

/-- What a call answers. -/
inductive Answer where
  /-- Whether the one file was written, or why it was not processed. -/
  | file (path : String) (result : Except Fault Bool)
  /-- The report on several files, or the fault that ended the batch. -/
  | batch (result : Except Fault Report)

/-- The answer about one file. -/
def FileRun.answer (path : String) (run : FileRun) : Answer := .file path run.result

/-- The answer about several files. -/
def BatchRun.answer (run : BatchRun) : Answer := .batch run.result

/-- Whether an answer says of a file that it was written, or that something is wrong with it. -/
def Answer.Names (path : String) : Answer → Prop
  | .file p (.ok written) => written = true ∧ p = path
  | .file p (.error e) => p = path ∨ e.path = path
  | .batch (.ok r) => path ∈ r.modified ∨ ∃ f ∈ r.failures, f.path = path
  | .batch (.error e) => e.path = path

namespace Call

/-- The call made on a store of named texts. -/
def run : Call → StateM Memory Answer
  | annotateFile o t => do return (← SchemaComment.annotateFile Memory.storage o t).answer t.path
  | stripFile o path => do return (← SchemaComment.stripFile Memory.storage o path).answer path
  | annotateAll o ts => do return (← SchemaComment.annotateAll Memory.storage o ts).answer
  | stripAll o paths => do return (← SchemaComment.stripAll Memory.storage o paths).answer

/-- One call after the other, and what they answer. -/
def runAll (cs : List Call) : StateM Memory (List Answer) := cs.mapM run

theorem runAll_cons (c : Call) (cs : List Call) (s : Memory) :
    (runAll (c :: cs)).run s =
      ((c.run.run s).1 :: ((runAll cs).run (c.run.run s).2).1,
        ((runAll cs).run (c.run.run s).2).2) := by
  rw [runAll, List.mapM_cons]
  rfl

end Call

/-! ## One file -/

/-- What is done to a store leaves the text of a file as it is, and the answer does not name the
    file. -/
def Spares {α : Type} (path : String) (t : Text) (answer : α → Answer) (act : StateM Memory α) :
    Prop :=
  ∀ s : Memory, s.lookup path = some t →
    (act.run s).2.lookup path = some t ∧ ¬ (answer (act.run s).1).Names path

section Edits

variable {o : Options} {path : String} {t block : Text} {k : FileKind} {e : Fault}

/-- What annotating finds wrong with a text is about its file. -/
theorem path_of_annotate (h : annotate o path t block k = .error e) : e.path = path := by
  unfold annotate at h
  simp only at h
  split at h
  · cases h
    rfl
  · split at h <;> cases h
    rfl

/-- What stripping finds wrong with a text is about its file. -/
theorem path_of_strip (h : strip o path t = .error e) : e.path = path := by
  unfold strip at h
  simp only at h
  split at h
  · cases h
  · split at h <;> cases h
    rfl

end Edits

section Run

variable {path p : String} {t : Text}

/-- An answer about one file names this file at the most. -/
theorem Answer.eq_of_names {result : Except Fault Bool} (hpath : ∀ e, result = .error e → e.path = p)
    (h : (Answer.file p result).Names path) : p = path := by
  cases result with
  | error e => exact h.elim id (hpath e rfl).symm.trans
  | ok written => exact h.2

/-- What is wrong with a file is about this file. -/
theorem Memory.path_of_answer {edit : Edit} (hedit : ∀ t e, edit t = .error e → e.path = p)
    {op : Operation} {log : Text → List LogEntry} {s : Memory} {e : Fault}
    (h : (s.answer op p log edit).result = .error e) : e.path = p := by
  unfold Memory.answer at h
  split at h
  · cases h
    rfl
  · split at h
    · rename_i he
      cases h
      exact hedit _ _ he
    · cases h
    · split at h <;> cases h
      rfl

/-- **One file, of the same name or another**: an operation that asks for the marker first spares a
    text that has it. -/
theorem spares_processFile {edit : Edit} (hskip : ∀ t, optedOut t = true → edit t = .ok none)
    (hedit : ∀ t e, edit t = .error e → e.path = p) (ht : optedOut t = true) (op : Operation)
    (log : Text → List LogEntry) :
    Spares path t (FileRun.answer p) (processFile Memory.storage op p log edit) := by
  intro s hs
  rw [Memory.run_processFile, FileRun.answer]
  by_cases hp : p = path
  · subst hp
    -- it is this file, and nothing is done to it
    have hnone : s.newText? p edit = none := by simp [Memory.newText?, hs, hskip t ht, Except.toOption]
    have hresult : (s.answer op p log edit).result = .ok false := by
      simp [Memory.answer, hs, hskip t ht]
    refine ⟨by rwa [Memory.edited_eq_self hnone], ?_⟩
    rw [hresult]
    simp [Answer.Names]
  · refine ⟨by rwa [Memory.lookup_edited_of_ne (Ne.symm hp)], fun hnames => hp ?_⟩
    exact Answer.eq_of_names (fun e he => Memory.path_of_answer hedit he) hnames

/-- Annotating a file spares a text that has opted out. -/
theorem spares_annotateFile (ht : optedOut t = true) (o : Options) (target : Target) :
    Spares path t (FileRun.answer target.path) (annotateFile Memory.storage o target) :=
  spares_processFile (fun _ hout => annotate_eq_none_iff.mpr (Or.inl hout))
    (fun _ _ => path_of_annotate) ht _ _

/-- Stripping a file spares a text that has opted out. -/
theorem spares_stripFile (ht : optedOut t = true) (o : Options) (p : String) :
    Spares path t (FileRun.answer p) (stripFile Memory.storage o p) :=
  spares_processFile (fun u hout => by simp [strip, hout]) (fun _ _ => path_of_strip) ht _ _

/-! ## Many files -/

/-- A fatal fault is what came of the file. -/
theorem FileRun.result_of_fatal {run : FileRun} {e : Fault} (h : run.fatal? = some e) :
    run.result = .error e := by
  unfold FileRun.fatal? at h
  split at h
  · cases h
  · rename_i e' he
    split at h
    · cases h
      exact he
    · cases h

/-- A report names the file that is noted in it, or one that it named before. -/
theorem Answer.names_note {run : FileRun} {r : Report}
    (h : (Answer.batch (.ok (run.note p r))).Names path) :
    (run.answer p).Names path ∨ (Answer.batch (.ok r)).Names path := by
  unfold FileRun.note at h
  unfold FileRun.answer
  split at h
  · rename_i hresult
    rw [hresult]
    rcases h with hmem | hfail
    · exact (List.mem_cons.mp hmem).imp (fun hp => ⟨rfl, hp.symm⟩) Or.inl
    · exact Or.inr (Or.inr hfail)
  · exact Or.inr h
  · rename_i e hresult
    rw [hresult]
    rcases h with hmem | ⟨f, hf, hpath⟩
    · exact Or.inr (Or.inl hmem)
    · rcases List.mem_cons.mp hf with rfl | hf
      · exact Or.inl (Or.inl hpath)
      · exact Or.inr (Or.inr ⟨f, hf, hpath⟩)

/-- **What every file spares**, the whole batch spares. -/
theorem spares_batch {op : Operation} {acts : List (String × StateM Memory FileRun)}
    (h : ∀ x ∈ acts, Spares path t (FileRun.answer x.1) x.2) :
    Spares path t BatchRun.answer (batch op acts) := by
  induction acts with
  | nil =>
    intro s hs
    refine ⟨hs, ?_⟩
    rintro (hmem | ⟨f, hf, -⟩)
    · cases hmem
    · cases hf
  | cons x acts ih =>
    obtain ⟨p, act⟩ := x
    intro s hs
    obtain ⟨hkept, hfirst⟩ := h (p, act) List.mem_cons_self s hs
    obtain ⟨hlast, hrest⟩ := ih (fun y hy => h y (List.mem_cons_of_mem _ hy)) _ hkept
    rw [run_batch_cons]
    split
    · -- the first file ends the batch, and its fault is not about the file that is spared
      rename_i e he
      rw [FileRun.answer, FileRun.result_of_fatal he] at hfirst
      exact ⟨hkept, fun hnames => hfirst (Or.inr hnames)⟩
    · refine ⟨hlast, fun hnames => ?_⟩
      rw [BatchRun.answer, FileRun.result_before] at hnames
      rw [BatchRun.answer] at hrest
      cases hresult : ((batch op acts).run (act.run s).2).1.result with
      | error e =>
        rw [hresult] at hnames hrest
        exact hrest hnames
      | ok r =>
        rw [hresult] at hnames hrest
        exact (Answer.names_note hnames).elim hfirst hrest

/-! ## Many calls -/

/-- **Every call spares** a text that has opted out. -/
theorem Call.spares (ht : optedOut t = true) (c : Call) : Spares path t id c.run := by
  cases c with
  | annotateFile o target => exact spares_annotateFile ht o target
  | stripFile o p => exact spares_stripFile ht o p
  | annotateAll o ts =>
    have hall : Spares path t BatchRun.answer (SchemaComment.annotateAll Memory.storage o ts) := by
      refine spares_batch fun x hx => ?_
      obtain ⟨target, -, rfl⟩ := List.mem_map.mp hx
      exact spares_annotateFile ht o target
    exact hall
  | stripAll o ps =>
    have hall : Spares path t BatchRun.answer (SchemaComment.stripAll Memory.storage o ps) := by
      refine spares_batch fun x hx => ?_
      obtain ⟨p, -, rfl⟩ := List.mem_map.mp hx
      exact spares_stripFile ht o p
    exact hall

/-- **One call after the other**, they all do. -/
theorem Call.spares_runAll (ht : optedOut t = true) (cs : List Call) {s : Memory}
    (hs : s.lookup path = some t) :
    ((runAll cs).run s).2.lookup path = some t ∧ ∀ a ∈ ((runAll cs).run s).1, ¬ a.Names path := by
  induction cs generalizing s with
  | nil => exact ⟨hs, fun a ha => absurd ha List.not_mem_nil⟩
  | cons c cs ih =>
    obtain ⟨hkept, hfirst⟩ := c.spares ht s hs
    obtain ⟨hlast, hrest⟩ := ih hkept
    rw [runAll_cons]
    refine ⟨hlast, fun a ha => ?_⟩
    rcases List.mem_cons.mp ha with rfl | ha
    · exact hfirst
    · exact hrest a ha

end Run

/-- **Opting out is final, and no accident.**  Whatever calls are made on a store, under any options,
    a text in it that has the skip marker is there after them, and none of them says that its file
    was written or that something is wrong with it.  On the other hand, what annotating gives has the
    marker just where the block between its markers has it, and what stripping gives never has. -/
theorem optedOut_final :
    (∀ (cs : List Call) (s : Memory) (path : String) (t : Text), s.lookup path = some t →
      optedOut t = true →
      ((Call.runAll cs).run s).2.lookup path = some t ∧
        ∀ a ∈ ((Call.runAll cs).run s).1, ¬ a.Names path) ∧
    (∀ (o : Options) (path : String) (c block : Text) (k : FileKind) (t : Text), Rendered block →
      annotate o path c block k = .ok (some t) →
      (optedOut t = true ↔ optedOut (o.wrapper.wrap block) = true)) ∧
    ∀ (o : Options) (path : String) (c s : Text), strip o path c = .ok (some s) →
      optedOut s = false := by
  refine ⟨fun cs s path t hs ht => Call.spares_runAll ht cs hs, fun o path c block k t hb h => ?_,
    fun o path c s h => optedOut_stripped h⟩
  rw [optedOut_annotated hb h]

/-- A file that has opted out, with two headers in it. -/
def exemptText : Text :=
  "# -*- SkipSchemaAnnotations\n# == Schema Info\n\n# == Schema Info\nclass User\nend\n".toList

/-- A store with that file, and with another one. -/
def exemptStore : Memory :=
  { texts := [("user.rb", exemptText), ("admin.rb", directedText)], locked := ["user.rb"] }

/-- Calls under options of all kinds. -/
def exemptCalls : List Call :=
  [.annotateAll { force := true } [⟨"user.rb", .model, shortBlock⟩, ⟨"admin.rb", .test, shortBlock⟩],
    .stripFile {} "user.rb", .stripAll emptyMarker ["admin.rb", "user.rb"],
    .annotateFile { frozen := true, force := true } ⟨"user.rb", .model, shortBlock⟩]

/-- Neither the two headers nor the lock comes up, and a file that has not opted out does not come to
    it. -/
theorem optedOut_final_exemptStore :
    (((Call.runAll exemptCalls).run exemptStore).2.lookup "user.rb" = some exemptText ∧
      ∀ a ∈ ((Call.runAll exemptCalls).run exemptStore).1, ¬ a.Names "user.rb") ∧
      optedOut typedAnnotated = false ∧ optedOut undirectedText = false := by
  obtain ⟨hfinal, hannotated, hstripped⟩ := optedOut_final
  refine ⟨hfinal exemptCalls exemptStore "user.rb" exemptText (by decide) (by decide), ?_,
    hstripped emptyMarker "user.rb" directedText undirectedText strip_directedText⟩
  have hiff := hannotated {} "user.rb" typedText shortBlock .model typedAnnotated rendered_shortBlock
    annotate_typedText
  rw [← Bool.not_eq_true, hiff]
  decide

end SchemaComment
