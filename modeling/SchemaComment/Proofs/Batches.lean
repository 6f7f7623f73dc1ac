/-
  BATCHES OVER A STATE.

  A batch takes its files one by one, and what is done to one of them leaves the storage in which
  the next one is looked up.

  1. **Program** — `batch`, each file worked on in the state monad of a storage.
  2. **Specification** — `batch_related`: two batches over the same files come to the same, if they
     do file by file on states that go together.  `batch_preserves` is what the whole batch leaves
     as it is, `exists_report` when it comes to its end, and `mem_failures` which files it cannot
     have passed over.
  3. **The crux** — a batch is its first file and then the others (`run_batch_cons`).  The
     inductions on the files are made here, and made over any state.
-/
import SchemaComment.Storage.Memory
import SchemaComment.Batch

namespace SchemaComment

/-! ## One file -/

section

variable {σ : Type}

/-- A step of a program, and the program after it. -/
theorem run_bind_of_run {α β : Type} {x : StateM σ α} {f : α → StateM σ β} {s s' : σ} {a : α}
    (h : x.run s = (a, s')) : (x >>= f).run s = (f a).run s' := by
  show (f (x.run s).1).run (x.run s).2 = (f a).run s'
  rw [h]

/-- **What comes of one file**: it is read, its new text is worked out, and it is written if it has
    one. -/
theorem run_processFile (st : Storage (StateM σ)) (op : Operation) (path : String)
    (log : Text → List LogEntry) (edit : Text → Except Fault (Option Text)) (s : σ) :
    (processFile st op path log edit).run s =
      match (st.read path).run s with
      | (.error e, s) => (⟨[], .error (.file path e)⟩, s)
      | (.ok t, s) =>
        match edit t with
        | .error e => (⟨log t, .error e⟩, s)
        | .ok none => (⟨log t, .ok false⟩, s)
        | .ok (some u) =>
          match (st.write path u).run s with
          | (.error e, s) => (⟨log t, .error (.file path e)⟩, s)
          | (.ok (), s) => (⟨log t ++ [op.doneEntry path], .ok true⟩, s) := by
  unfold processFile
  split
  · rename_i e s' hread
    rw [run_bind_of_run hread]
    rfl
  · rename_i t s' hread
    rw [run_bind_of_run hread]
    cases hedit : edit t with
    | error e => simp only [hedit]; rfl
    | ok new =>
      cases new with
      | none => simp only [hedit]; rfl
      | some u =>
        simp only [hedit]
        split
        · rename_i e s'' hwrite
          rw [run_bind_of_run hwrite]
          rfl
        · rename_i s'' hwrite
          rw [run_bind_of_run hwrite]
          rfl

end

/-! ## One file in front of the others -/

namespace FileRun

variable {op : Operation} {path : String} {run : FileRun} {rest : BatchRun}

/-- The report on the other files with what came of this one. -/
def note (path : String) (run : FileRun) (r : Report) : Report :=
  match run.result with
  | .ok true => { r with modified := path :: r.modified }
  | .ok false => r
  | .error e => { r with failures := ⟨path, e.message⟩ :: r.failures }

/-- **The result of a batch** is that of the other files, with what came of the first one noted. -/
theorem result_before : (run.before op path rest).result = rest.result.map (run.note path) := by
  obtain ⟨log, result⟩ := run
  cases result with
  | error e => rfl
  | ok written =>
    cases written with
    | true => rfl
    | false => cases h : rest.result <;> simp [before, note, Except.map, h]

/-- A file that could not be processed is among the failures, and the other failures stay. -/
theorem mem_failures_note {r : Report} {f : Failure} :
    f ∈ (run.note path r).failures ↔
      (∃ e, run.result = .error e ∧ f = ⟨path, e.message⟩) ∨ f ∈ r.failures := by
  unfold note
  split <;> simp_all

/-- The other files ended in a report if the batch did. -/
theorem exists_report_of_before {r : Report} (h : (run.before op path rest).result = .ok r) :
    ∃ r', rest.result = .ok r' ∧ run.note path r' = r := by
  rw [result_before] at h
  cases hrest : rest.result with
  | error e =>
    rw [hrest] at h
    cases h
  | ok r' =>
    rw [hrest] at h
    cases h
    exact ⟨r', rfl, rfl⟩

end FileRun

/-! ## Many files -/

section

variable {α σ τ : Type} {op : Operation}

/-- **A batch is its first file and then the others**, unless the first one ends it. -/
theorem run_batch_cons (op : Operation) (path : String) (act : StateM σ FileRun)
    (rest : List (String × StateM σ FileRun)) (s : σ) :
    (batch op ((path, act) :: rest)).run s =
      match (act.run s).1.fatal? with
      | some e => (⟨(act.run s).1.log, .error e⟩, (act.run s).2)
      | none =>
        ((act.run s).1.before op path ((batch op rest).run (act.run s).2).1,
          ((batch op rest).run (act.run s).2).2) := by
  show (match (act.run s).1.fatal? with
      | some e => (pure ⟨(act.run s).1.log, .error e⟩ : StateM σ BatchRun)
      | none => do return (act.run s).1.before op path (← batch op rest)).run (act.run s).2 = _
  split <;> rfl

/-- **Batches that agree file by file** agree, on states that go together. -/
theorem batch_related {path : α → String} {f : α → StateM σ FileRun} {g : α → StateM τ FileRun}
    {R : σ → τ → Prop} {xs : List α}
    (h : ∀ x ∈ xs, ∀ s t, R s t → ((f x).run s).1 = ((g x).run t).1 ∧
      R ((f x).run s).2 ((g x).run t).2) {s : σ} {t : τ} (hst : R s t) :
    ((batch op (xs.map fun x => (path x, f x))).run s).1 =
        ((batch op (xs.map fun x => (path x, g x))).run t).1 ∧
      R ((batch op (xs.map fun x => (path x, f x))).run s).2
        ((batch op (xs.map fun x => (path x, g x))).run t).2 := by
  induction xs generalizing s t with
  | nil => exact ⟨rfl, hst⟩
  | cons x xs ih =>
    obtain ⟨hrun, hnext⟩ := h x List.mem_cons_self s t hst
    rw [List.map_cons, List.map_cons, run_batch_cons, run_batch_cons, ← hrun]
    split
    · exact ⟨rfl, hnext⟩
    · obtain ⟨hrest, hlast⟩ := ih (fun y hy => h y (List.mem_cons_of_mem x hy)) hnext
      exact ⟨by rw [hrest], hlast⟩

/-- **What every file leaves as it is**, the whole batch leaves. -/
theorem batch_preserves {I : σ → Prop} {acts : List (String × StateM σ FileRun)}
    (h : ∀ x ∈ acts, ∀ s, I s → I (x.2.run s).2) {s : σ} (hs : I s) :
    I ((batch op acts).run s).2 := by
  induction acts generalizing s with
  | nil => exact hs
  | cons x acts ih =>
    obtain ⟨path, act⟩ := x
    have hnext := h (path, act) List.mem_cons_self s hs
    rw [run_batch_cons]
    split
    · exact hnext
    · exact ih (fun y hy => h y (List.mem_cons_of_mem _ hy)) hnext

/-- **A batch comes to its end**, if no file ends it. -/
theorem exists_report {acts : List (String × StateM σ FileRun)}
    (h : ∀ x ∈ acts, ∀ s, (x.2.run s).1.fatal? = none) (s : σ) :
    ∃ r, ((batch op acts).run s).1.result = .ok r := by
  induction acts generalizing s with
  | nil => exact ⟨_, rfl⟩
  | cons x acts ih =>
    obtain ⟨path, act⟩ := x
    obtain ⟨r, hr⟩ := ih (fun y hy => h y (List.mem_cons_of_mem _ hy)) (act.run s).2
    rw [run_batch_cons, h (path, act) List.mem_cons_self s]
    exact ⟨_, by rw [FileRun.result_before, hr]; rfl⟩

/-- **A file that fails is among the failures**, where no file changes the state. -/
theorem mem_failures {acts : List (String × StateM σ FileRun)} {s : σ}
    (hs : ∀ x ∈ acts, (x.2.run s).2 = s) {r : Report}
    (h : ((batch op acts).run s).1.result = .ok r) :
    ∀ x ∈ acts, ∀ e, (x.2.run s).1.result = .error e → ⟨x.1, e.message⟩ ∈ r.failures := by
  induction acts generalizing r with
  | nil =>
    intro x hx
    cases hx
  | cons y acts ih =>
    obtain ⟨path, act⟩ := y
    have hsame : (act.run s).2 = s := hs (path, act) List.mem_cons_self
    rw [run_batch_cons, hsame] at h
    split at h
    · cases h
    · obtain ⟨r', hr', rfl⟩ := FileRun.exists_report_of_before h
      intro x hx e he
      rw [FileRun.mem_failures_note]
      rcases List.mem_cons.mp hx with rfl | hx
      · exact Or.inl ⟨e, he, rfl⟩
      · exact Or.inr (ih (fun z hz => hs z (List.mem_cons_of_mem _ hz)) hr' x hx e he)

end

end SchemaComment
