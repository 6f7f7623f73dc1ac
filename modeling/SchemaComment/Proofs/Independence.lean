/-
  THE FILES OF A BATCH.

  A batch takes its files one by one out of one store.  Files of different names do not get in each
  other's way.

  1. **Program** — `annotateAll` and `stripAll` over a store of named texts.
  2. **Specification** — `Independent` is all there is to say about a batch in terms of its files
     alone: where each of them ends up, what it adds to the report, and that nothing else changes.
     `files_independent`: where writing is allowed, every batch of different names is so.
  3. **The crux** — what is done to a file depends on the text under its name and on the locks, and
     it changes that text alone (`Memory.edited`).  Then a file that comes after others does what it
     would have done first (`Memory.lookup_editedAll`), and two files can be taken in either order
     (`Memory.edited_comm`).
-/
import Mathlib.Data.List.Nodup
import SchemaComment.Proofs.Batches
import SchemaComment.Proofs.Stripping

namespace SchemaComment

/-- What is done to the text of a file. -/
abbrev Edit := Text → Except Fault (Option Text)

/-- An edit as both operations make it: it gives another text or none, and all that it finds wrong
    with a text is that there are several regions. -/
structure Edit.Regular (path : String) (edit : Edit) : Prop where
  ne : ∀ t u, edit t = .ok (some u) → u ≠ t
  fault : ∀ t e, edit t = .error e → ∃ n, e = .severalRegions path n

/-! ## One file in a store -/

namespace Memory

variable {s s' : Memory} {path other : String} {edit edit' : Edit}

/-- The new text of a file, where the file is there, has one and may be written. -/
def newText? (s : Memory) (path : String) (edit : Edit) : Option Text :=
  if path ∈ s.locked then none else (s.lookup path).bind fun t => (edit t).toOption.join

/-- The store after a file was processed. -/
def edited (s : Memory) (path : String) (edit : Edit) : Memory :=
  match s.newText? path edit with
  | none => s
  | some u => s.put path u

theorem newText?_eq_some_iff {u : Text} :
    s.newText? path edit = some u ↔
      path ∉ s.locked ∧ ∃ t, s.lookup path = some t ∧ edit t = .ok (some u) := by
  unfold newText?
  by_cases hlocked : path ∈ s.locked
  · simp [hlocked]
  · simp only [hlocked, if_false, not_false_eq_true, true_and]
    cases s.lookup path with
    | none => simp
    | some t =>
      cases hedit : edit t with
      | error e => simp [Except.toOption, hedit]
      | ok new => cases new <;> simp [Except.toOption, hedit]

/-- What a file is written with depends on the text under its name and on the locks. -/
theorem newText?_congr (h : s.lookup path = s'.lookup path) (hl : s.locked = s'.locked) :
    s.newText? path edit = s'.newText? path edit := by
  rw [newText?, newText?, h, hl]

theorem edited_eq_self (h : s.newText? path edit = none) : s.edited path edit = s := by
  rw [edited, h]

theorem edited_eq_put {u : Text} (h : s.newText? path edit = some u) :
    s.edited path edit = s.put path u := by
  rw [edited, h]

@[simp] theorem locked_edited (s : Memory) (path : String) (edit : Edit) :
    (s.edited path edit).locked = s.locked := by
  unfold edited
  split <;> rfl

/-- **Nothing changes under another name.** -/
theorem lookup_edited_of_ne (h : other ≠ path) (s : Memory) (edit : Edit) :
    (s.edited path edit).lookup other = s.lookup other := by
  unfold edited
  split
  · rfl
  · rename_i u _
    exact lookup_put_of_ne h s u

/-- What stands under the name of a file afterwards. -/
theorem lookup_edited_self (s : Memory) (path : String) (edit : Edit) :
    (s.edited path edit).lookup path = (s.newText? path edit).or (s.lookup path) := by
  unfold edited
  cases s.newText? path edit with
  | none => rfl
  | some u => simp

/-- The text of a file changes exactly where it is written. -/
theorem lookup_edited_ne_iff (hne : ∀ t u, edit t = .ok (some u) → u ≠ t) :
    (s.edited path edit).lookup path ≠ s.lookup path ↔ ∃ u, s.newText? path edit = some u := by
  rw [lookup_edited_self]
  cases hnew : s.newText? path edit with
  | none => simp
  | some u =>
    obtain ⟨-, t, ht, hu⟩ := newText?_eq_some_iff.mp hnew
    have hchanged := hne t u hu
    simp [ht, hchanged]

/-- **Two files can be taken in either order.** -/
theorem edited_comm (h : other ≠ path) (s : Memory) (edit edit' : Edit) :
    (s.edited other edit').edited path edit = (s.edited path edit).edited other edit' := by
  have hpath : (s.edited other edit').newText? path edit = s.newText? path edit :=
    newText?_congr (lookup_edited_of_ne (Ne.symm h) s edit') (locked_edited s other edit')
  have hother : (s.edited path edit).newText? other edit' = s.newText? other edit' :=
    newText?_congr (lookup_edited_of_ne h s edit) (locked_edited s path edit)
  cases hnew : s.newText? path edit with
  | none => rw [edited_eq_self (hpath.trans hnew), edited_eq_self hnew]
  | some t =>
    -- a file that is written is there, so its place in the store is settled
    obtain ⟨-, c, hc, -⟩ := newText?_eq_some_iff.mp hnew
    have hthere : (s.lookup path).isSome := by
      rw [hc]
      rfl
    cases hnew' : s.newText? other edit' with
    | none =>
      rw [edited_eq_self (hother.trans hnew'), edited_eq_self hnew']
    | some u =>
      rw [edited_eq_put (hpath.trans hnew), edited_eq_put (hother.trans hnew'), edited_eq_put hnew,
        edited_eq_put hnew']
      exact put_comm h t u hthere

/-! ## The program on one file -/

/-- What the program answers about a file. -/
def answer (s : Memory) (op : Operation) (path : String) (log : Text → List LogEntry) (edit : Edit) :
    FileRun :=
  match s.lookup path with
  | none => ⟨[], .error (.file path .unknownName)⟩
  | some t =>
    match edit t with
    | .error e => ⟨log t, .error e⟩
    | .ok none => ⟨log t, .ok false⟩
    | .ok (some _) =>
      if path ∈ s.locked then ⟨log t, .error (.file path .locked)⟩
      else ⟨log t ++ [op.doneEntry path], .ok true⟩

/-- **What the program does with a file** in a store. -/
theorem run_processFile (op : Operation) (path : String) (log : Text → List LogEntry) (edit : Edit)
    (s : Memory) :
    (processFile storage op path log edit).run s = (s.answer op path log edit, s.edited path edit) := by
  rw [SchemaComment.run_processFile, run_read, readText, answer, edited, newText?]
  by_cases hlocked : path ∈ s.locked
  · cases s.lookup path with
    | none => simp [hlocked]
    | some t =>
      cases hedit : edit t with
      | error e => simp [hlocked, hedit]
      | ok new => cases new <;> simp [hlocked, hedit, writeText]
  · cases s.lookup path with
    | none => simp [hlocked]
    | some t =>
      cases hedit : edit t with
      | error e => simp [hlocked, hedit, Except.toOption]
      | ok new => cases new <;> simp [hlocked, hedit, writeText, Except.toOption]

/-- The answer depends on the text under the name and on the locks. -/
theorem answer_congr (h : s.lookup path = s'.lookup path) (hl : s.locked = s'.locked)
    (op : Operation) (log : Text → List LogEntry) :
    s.answer op path log edit = s'.answer op path log edit := by
  rw [answer, answer, h, hl]

/-- Why a file could not be processed. -/
inductive Fails (s : Memory) (path : String) (edit : Edit) : Prop
  /-- It cannot be read. -/
  | unreadable {e : FileFault} (h : s.readText path = .error e)
  /-- It has several regions. -/
  | severalRegions {t : Text} {n : Nat} (h : s.readText path = .ok t)
      (hn : edit t = .error (.severalRegions path n))
  /-- It has a new text and cannot be written. -/
  | unwritable {t u : Text} {e : FileFault} (h : s.readText path = .ok t)
      (hu : edit t = .ok (some u)) (he : (s.writeText path u).1 = .error e)

/-- A file that has a text fails by what becomes of this text. -/
theorem fails_iff_of_lookup {t : Text} (ht : s.lookup path = some t) :
    s.Fails path edit ↔ (∃ n, edit t = .error (.severalRegions path n)) ∨
      path ∈ s.locked ∧ ∃ u, edit t = .ok (some u) := by
  have hread : s.readText path = .ok t := by rw [readText, ht]
  have hwrite : ∀ u, (∃ e, (s.writeText path u).1 = .error e) ↔ path ∈ s.locked := by
    intro u
    rw [writeText]
    by_cases hlocked : path ∈ s.locked <;> simp [hlocked]
  constructor
  · rintro (h | ⟨h, hn⟩ | ⟨h, hu, he⟩) <;> rw [hread] at h <;> cases h
    · exact Or.inl ⟨_, hn⟩
    · exact Or.inr ⟨(hwrite _).mp ⟨_, he⟩, _, hu⟩
  · rintro (⟨n, hn⟩ | ⟨hlocked, u, hu⟩)
    · exact .severalRegions hread hn
    · obtain ⟨e, he⟩ := (hwrite u).mpr hlocked
      exact .unwritable hread hu he

/-- **What comes of one file**: it is written, or it is left as it is, or it fails.  Where writing is
    allowed, no failure is fatal. -/
theorem answer_cases (hedit : Edit.Regular path edit) (op : Operation)
    (log : Text → List LogEntry) (s : Memory) :
    let result := (s.answer op path log edit).result
    (result = .ok true ∧ (∃ u, s.newText? path edit = some u) ∧ ¬ Fails s path edit) ∨
      (result = .ok false ∧ s.newText? path edit = none ∧ ¬ Fails s path edit) ∨
      ∃ e, result = .error e ∧ e.isFatal = false ∧ s.newText? path edit = none ∧
        Fails s path edit := by
  intro result
  have hresult : result = (s.answer op path log edit).result := rfl
  rw [answer] at hresult
  cases ht : s.lookup path with
  | none =>
    rw [ht] at hresult
    exact Or.inr (Or.inr ⟨_, hresult, rfl, by simp [newText?, ht], .unreadable (by rw [readText, ht])⟩)
  | some t =>
    simp only [ht] at hresult
    rw [fails_iff_of_lookup ht]
    cases hnew : edit t with
    | error e =>
      obtain ⟨n, rfl⟩ := hedit.fault t e hnew
      rw [hnew] at hresult
      exact Or.inr (Or.inr ⟨_, hresult, rfl, by simp [newText?, ht, hnew, Except.toOption],
        Or.inl ⟨n, rfl⟩⟩)
    | ok new =>
      cases new with
      | none =>
        rw [hnew] at hresult
        exact Or.inr (Or.inl ⟨hresult, by simp [newText?, ht, hnew, Except.toOption], by simp⟩)
      | some u =>
        simp only [hnew] at hresult
        by_cases hlocked : path ∈ s.locked
        · rw [if_pos hlocked] at hresult
          exact Or.inr (Or.inr ⟨_, hresult, rfl, if_pos hlocked, Or.inr ⟨hlocked, u, rfl⟩⟩)
        · rw [if_neg hlocked] at hresult
          exact Or.inl ⟨hresult, ⟨u, newText?_eq_some_iff.mpr ⟨hlocked, t, ht, hnew⟩⟩,
            by simp [hlocked]⟩

end Memory

/-! ## What one file adds to the report -/

namespace FileRun

/-- The report on one file. -/
def report (op : Operation) (path : String) (run : FileRun) : Report :=
  run.note path { operation := op }

/-- What came of a file is noted in front of what came of the others. -/
theorem note_eq (op : Operation) (path : String) (run : FileRun) (r : Report) :
    run.note path r = ⟨r.operation, (run.report op path).modified ++ r.modified,
      (run.report op path).failures ++ r.failures⟩ := by
  unfold report note
  split <;> rfl

end FileRun

/-- **What one file adds**: its name among the files that were written, or among those that failed,
    or nothing. -/
theorem Memory.report_cases {path : String} {edit : Edit} (hedit : Edit.Regular path edit)
    (op : Operation) (log : Text → List LogEntry) (s : Memory) :
    let r := (s.answer op path log edit).report op path
    (r.modified = [path] ∧ r.failures = [] ∧ (∃ u, s.newText? path edit = some u) ∧
        ¬ Fails s path edit) ∨
      (r.modified = [] ∧ r.failures = [] ∧ s.newText? path edit = none ∧ ¬ Fails s path edit) ∨
      ∃ m, r.modified = [] ∧ r.failures = [⟨path, m⟩] ∧ s.newText? path edit = none ∧
        Fails s path edit := by
  intro r
  have hr : r = (s.answer op path log edit).note path { operation := op } := rfl
  unfold FileRun.note at hr
  rcases answer_cases hedit op log s with
    ⟨hresult, hnew, hfails⟩ | ⟨hresult, hnew, hfails⟩ | ⟨e, hresult, -, hnew, hfails⟩
  · rw [hresult] at hr
    exact Or.inl ⟨by rw [hr], by rw [hr], hnew, hfails⟩
  · rw [hresult] at hr
    exact Or.inr (Or.inl ⟨by rw [hr], by rw [hr], hnew, hfails⟩)
  · rw [hresult] at hr
    exact Or.inr (Or.inr ⟨e.message, by rw [hr], by rw [hr], hnew, hfails⟩)

/-! ## Many files -/

section

variable {α : Type} (op : Operation) {path : α → String} (log : α → Text → List LogEntry)
  {edit : α → Edit} {xs : List α}

/-- The batch of some files. -/
abbrev batchOf (op : Operation) (path : α → String) (log : α → Text → List LogEntry)
    (edit : α → Edit) (xs : List α) : StateM Memory BatchRun :=
  batch op (xs.map fun x => (path x, processFile Memory.storage op (path x) (log x) (edit x)))

/-- The report on one file of a batch, taken out of the store `s`. -/
def reportOn (op : Operation) (path : α → String) (log : α → Text → List LogEntry)
    (edit : α → Edit) (s : Memory) (x : α) : Report :=
  (s.answer op (path x) (log x) (edit x)).report op (path x)

/-- No file of the batch is fatal to it. -/
theorem fatal?_answer (hedit : ∀ x, Edit.Regular (path x) (edit x)) (x : α) (s : Memory) :
    (s.answer op (path x) (log x) (edit x)).fatal? = none := by
  rcases Memory.answer_cases (hedit x) op (log x) s with
    ⟨hresult, -⟩ | ⟨hresult, -⟩ | ⟨e, hresult, hfatal, -⟩
  · rw [FileRun.fatal?, hresult]
  · rw [FileRun.fatal?, hresult]
  · rw [FileRun.fatal?, hresult]
    simp [hfatal]

/-- The store after the files of a batch were processed one by one. -/
def Memory.editedAll (path : α → String) (edit : α → Edit) (s : Memory) (xs : List α) : Memory :=
  xs.foldl (fun s x => s.edited (path x) (edit x)) s

theorem Memory.editedAll_cons (s : Memory) (x : α) (xs : List α) :
    s.editedAll path edit (x :: xs) = (s.edited (path x) (edit x)).editedAll path edit xs := rfl

/-- What a batch leaves under a name that it does not list. -/
theorem Memory.lookup_editedAll_of_not_mem {n : String} (h : ∀ x ∈ xs, path x ≠ n) (s : Memory) :
    (s.editedAll path edit xs).lookup n = s.lookup n := by
  induction xs generalizing s with
  | nil => rfl
  | cons x xs ih =>
    have hx : n ≠ path x := Ne.symm (h x List.mem_cons_self)
    rw [editedAll_cons, ih fun y hy => h y (List.mem_cons_of_mem x hy)]
    exact lookup_edited_of_ne hx s (edit x)

theorem Memory.locked_editedAll (xs : List α) (s : Memory) :
    (s.editedAll path edit xs).locked = s.locked := by
  induction xs generalizing s with
  | nil => rfl
  | cons x xs ih => rw [editedAll_cons, ih, locked_edited]

/-- **A file among others** ends up as it does alone. -/
theorem Memory.lookup_editedAll (hd : (xs.map path).Nodup) {x : α} (hx : x ∈ xs) (s : Memory) :
    (s.editedAll path edit xs).lookup (path x) =
      (s.edited (path x) (edit x)).lookup (path x) := by
  induction xs generalizing s with
  | nil => cases hx
  | cons y xs ih =>
    rw [List.map_cons, List.nodup_cons] at hd
    have hothers : ∀ z ∈ xs, path z ≠ path y := fun z hz h => hd.1 (h ▸ List.mem_map_of_mem hz)
    rw [editedAll_cons]
    rcases List.mem_cons.mp hx with rfl | hx
    · exact lookup_editedAll_of_not_mem hothers _
    · -- the file comes after `y`, which has left its text and the locks alone
      have hsame : (s.edited (path y) (edit y)).lookup (path x) = s.lookup (path x) :=
        lookup_edited_of_ne (hothers x hx) s (edit y)
      rw [ih hd.2 hx, lookup_edited_self, lookup_edited_self, hsame,
        newText?_congr hsame (locked_edited s (path y) (edit y))]

/-- The store after a batch. -/
theorem state_batchOf (hedit : ∀ x, Edit.Regular (path x) (edit x)) (xs : List α) (s : Memory) :
    ((batchOf op path log edit xs).run s).2 =
      s.editedAll path edit xs := by
  induction xs generalizing s with
  | nil => rfl
  | cons x xs ih =>
    rw [batchOf, List.map_cons, run_batch_cons, Memory.run_processFile, fatal?_answer op log hedit]
    exact ih _

/-- **The report of a batch** of different names is put together from the reports on its files, each
    of them taken out of the store at the beginning. -/
theorem result_batchOf (hedit : ∀ x, Edit.Regular (path x) (edit x)) (hd : (xs.map path).Nodup)
    (s : Memory) :
    ((batchOf op path log edit xs).run s).1.result =
      .ok ⟨op, xs.flatMap fun x => (reportOn op path log edit s x).modified,
        xs.flatMap fun x => (reportOn op path log edit s x).failures⟩ := by
  induction xs generalizing s with
  | nil => rfl
  | cons x xs ih =>
    rw [List.map_cons, List.nodup_cons] at hd
    -- the reports on the other files are as without the first one
    have hsame : ∀ y ∈ xs, reportOn op path log edit (s.edited (path x) (edit x)) y =
        reportOn op path log edit s y := by
      intro y hy
      have hne : path y ≠ path x := fun h => hd.1 (h ▸ List.mem_map_of_mem hy)
      rw [reportOn, reportOn, Memory.answer_congr (Memory.lookup_edited_of_ne hne s (edit x))
        (Memory.locked_edited s (path x) (edit x))]
    have hmodified : xs.flatMap (fun y =>
        (reportOn op path log edit (s.edited (path x) (edit x)) y).modified) =
        xs.flatMap fun y => (reportOn op path log edit s y).modified :=
      List.flatMap_congr fun y hy => by rw [hsame y hy]
    have hfailures : xs.flatMap (fun y =>
        (reportOn op path log edit (s.edited (path x) (edit x)) y).failures) =
        xs.flatMap fun y => (reportOn op path log edit s y).failures :=
      List.flatMap_congr fun y hy => by rw [hsame y hy]
    rw [batchOf, List.map_cons, run_batch_cons, Memory.run_processFile, fatal?_answer op log hedit]
    show (FileRun.before op (path x) _ ((batchOf op path log edit xs).run _).1).result = _
    rw [FileRun.result_before, ih hd.2, hmodified, hfailures,
      List.flatMap_cons, List.flatMap_cons]
    show Except.ok (FileRun.note _ _ _) = _
    rw [FileRun.note_eq op]
    rfl

/-- **What it means that the files of a batch are independent.**  The batch of `xs` comes to its end
    with the report `r`. -/
structure Independent (path : α → String) (edit : α → Edit) (run : List α → StateM Memory BatchRun)
    (s : Memory) (xs : List α) (r : Report) : Prop where
  result : ((run xs).run s).1.result = .ok r
  /-- A file ends up with the text that it has where it is the only one. -/
  text : ∀ x ∈ xs, ((run xs).run s).2.lookup (path x) = ((run [x]).run s).2.lookup (path x)
  /-- It adds to the report what it does where it is the only one, in the order of the files. -/
  report : ∃ alone : α → Report, (∀ x ∈ xs, ((run [x]).run s).1.result = .ok (alone x)) ∧
    r.modified = xs.flatMap (fun x => (alone x).modified) ∧
    r.failures = xs.flatMap fun x => (alone x).failures
  /-- Other names and the locks are left as they are. -/
  others : ∀ n, (∀ x ∈ xs, path x ≠ n) → ((run xs).run s).2.lookup n = s.lookup n
  locked : ((run xs).run s).2.locked = s.locked
  /-- The files that were written are those whose text has changed. -/
  modified : ∀ n, n ∈ r.modified ↔ ((run xs).run s).2.lookup n ≠ s.lookup n
  /-- The files that failed are those that cannot be read or written or have several regions. -/
  failures : ∀ n, n ∈ r.failures.map Failure.path ↔ ∃ x ∈ xs, path x = n ∧ s.Fails n (edit x)
  /-- A file that failed has kept its text, and so was not written. -/
  kept : ∀ n ∈ r.failures.map Failure.path,
    ((run xs).run s).2.lookup n = s.lookup n ∧ n ∉ r.modified
  /-- Both lists keep the order of the files. -/
  order : r.modified.Sublist (xs.map path) ∧ (r.failures.map Failure.path).Sublist (xs.map path)
  /-- In another order the files come to the same. -/
  permuted : ∀ ys, ys.Perm xs → ∃ r', ((run ys).run s).1.result = .ok r' ∧
    ((run ys).run s).2 = ((run xs).run s).2 ∧ r'.modified.Perm r.modified ∧
    r'.failures.Perm r.failures

/-- The batch of one file. -/
theorem run_batchOf_singleton (hedit : ∀ x, Edit.Regular (path x) (edit x)) (x : α) (s : Memory) :
    ((batchOf op path log edit [x]).run s).2 = s.edited (path x) (edit x) ∧
      ((batchOf op path log edit [x]).run s).1.result =
        .ok ⟨op, (reportOn op path log edit s x).modified,
          (reportOn op path log edit s x).failures⟩ := by
  refine ⟨state_batchOf op log hedit [x] s, ?_⟩
  rw [result_batchOf op log hedit (by simp)]
  simp

/-- What the batch writes is listed, and nothing else is. -/
theorem mem_modified_iff (hedit : ∀ x, Edit.Regular (path x) (edit x)) (hd : (xs.map path).Nodup)
    (s : Memory) (n : String) :
    (n ∈ xs.flatMap fun x => (reportOn op path log edit s x).modified) ↔
      (s.editedAll path edit xs).lookup n ≠ s.lookup n := by
  -- whether a file is listed is whether its text changes where it is alone
  have hone : ∀ x, n ∈ (reportOn op path log edit s x).modified ↔
      path x = n ∧ (s.edited (path x) (edit x)).lookup (path x) ≠ s.lookup (path x) := by
    intro x
    rw [Memory.lookup_edited_ne_iff (hedit x).ne]
    rcases Memory.report_cases (hedit x) op (log x) s with
      ⟨hm, -, ⟨u, hnew⟩, -⟩ | ⟨hm, -, hnew, -⟩ | ⟨_, hm, -, hnew, -⟩
    · simp [reportOn, hm, hnew, eq_comm]
    · simp [reportOn, hm, hnew]
    · simp [reportOn, hm, hnew]
  rw [List.mem_flatMap]
  constructor
  · rintro ⟨x, hx, hn⟩
    obtain ⟨rfl, hchanged⟩ := (hone x).mp hn
    rwa [Memory.lookup_editedAll hd hx]
  · intro hchanged
    have hlisted : ∃ x ∈ xs, path x = n := by
      apply Classical.byContradiction
      intro hnone
      exact hchanged (Memory.lookup_editedAll_of_not_mem (fun x hx h => hnone ⟨x, hx, h⟩) s)
    obtain ⟨x, hx, rfl⟩ := hlisted
    rw [Memory.lookup_editedAll hd hx] at hchanged
    exact ⟨x, hx, (hone x).mpr ⟨rfl, hchanged⟩⟩

/-- What fails is listed, and nothing else is. -/
theorem mem_failures_iff (hedit : ∀ x, Edit.Regular (path x) (edit x)) (xs : List α) (s : Memory)
    (n : String) :
    (n ∈ (xs.flatMap fun x => (reportOn op path log edit s x).failures).map Failure.path) ↔
      ∃ x ∈ xs, path x = n ∧ s.Fails n (edit x) := by
  have hone : ∀ x, n ∈ (reportOn op path log edit s x).failures.map Failure.path ↔
      path x = n ∧ s.Fails n (edit x) := by
    intro x
    rcases Memory.report_cases (hedit x) op (log x) s with
      ⟨-, hf, -, hfails⟩ | ⟨-, hf, -, hfails⟩ | ⟨_, -, hf, -, hfails⟩
    · simp only [reportOn, hf, List.map_nil, List.not_mem_nil, false_iff, not_and]
      rintro rfl
      exact hfails
    · simp only [reportOn, hf, List.map_nil, List.not_mem_nil, false_iff, not_and]
      rintro rfl
      exact hfails
    · simp only [reportOn, hf, List.map_cons, List.map_nil, List.mem_singleton]
      constructor
      · rintro rfl
        exact ⟨rfl, hfails⟩
      · rintro ⟨rfl, -⟩
        rfl
  rw [List.map_flatMap, List.mem_flatMap]
  exact exists_congr fun x => and_congr_right fun _ => hone x

/-- What is listed for the files one by one keeps their order. -/
theorem sublist_flatMap {g : α → List String} (h : ∀ x, (g x).Sublist [path x]) (xs : List α) :
    (xs.flatMap g).Sublist (xs.map path) := by
  induction xs with
  | nil => exact List.Sublist.slnil
  | cons x xs ih =>
    rw [List.flatMap_cons, List.map_cons]
    exact (h x).append ih

/-- The files of different names can be taken in any order. -/
theorem Memory.editedAll_perm {ys : List α} (hd : (ys.map path).Nodup) (h : ys.Perm xs)
    (s : Memory) :
    s.editedAll path edit ys = s.editedAll path edit xs := by
  refine h.foldl_eq' ?_ s
  intro x hx y hy z
  by_cases hpath : path x = path y
  · rw [List.inj_on_of_nodup_map hd hx hy hpath]
  · exact edited_comm hpath z (edit y) (edit x)

/-- **The files of a batch are independent**, whatever is done to them, where their names differ. -/
theorem independent_batchOf (hedit : ∀ x, Edit.Regular (path x) (edit x))
    (hd : (xs.map path).Nodup) (s : Memory) :
    ∃ r, Independent path edit (batchOf op path log edit) s xs r := by
  have hstate := state_batchOf op log hedit
  have hmodified := mem_modified_iff op log hedit hd s
  have hfailures := mem_failures_iff op log hedit xs s
  refine ⟨_, result_batchOf op log hedit hd s, ?_, ?_, ?_, ?_, ?_, hfailures, ?_, ?_, ?_⟩
  · intro x hx
    rw [hstate, hstate [x], Memory.lookup_editedAll hd hx]
    rfl
  · exact ⟨_, fun x _ => (run_batchOf_singleton op log hedit x s).2, rfl, rfl⟩
  · intro n hn
    rw [hstate, Memory.lookup_editedAll_of_not_mem hn]
  · rw [hstate, Memory.locked_editedAll]
  · intro n
    rw [hstate]
    exact hmodified n
  · intro n hn
    obtain ⟨x, hx, rfl, hfails⟩ := (hfailures n).mp hn
    have hsame : (s.edited (path x) (edit x)).lookup (path x) = s.lookup (path x) := by
      rcases Memory.report_cases (hedit x) op (log x) s with
        ⟨-, -, -, hnot⟩ | ⟨-, -, -, hnot⟩ | ⟨-, -, -, hnew, -⟩
      · exact absurd hfails hnot
      · exact absurd hfails hnot
      · rw [Memory.lookup_edited_self, hnew, Option.none_or]
    have hkept := (Memory.lookup_editedAll hd hx s).trans hsame
    rw [hstate]
    exact ⟨hkept, fun hm => (hmodified _).mp hm hkept⟩
  · have hone : ∀ x, (reportOn op path log edit s x).modified.Sublist [path x] ∧
        ((reportOn op path log edit s x).failures.map Failure.path).Sublist [path x] := by
      intro x
      rcases Memory.report_cases (hedit x) op (log x) s with
        ⟨hm, hf, -⟩ | ⟨hm, hf, -⟩ | ⟨_, hm, hf, -⟩ <;> simp [reportOn, hm, hf]
    refine ⟨sublist_flatMap (fun x => (hone x).1) xs, ?_⟩
    rw [List.map_flatMap]
    exact sublist_flatMap (fun x => (hone x).2) xs
  · intro ys hperm
    have hd' : (ys.map path).Nodup := (hperm.map path).nodup_iff.mpr hd
    refine ⟨_, result_batchOf op log hedit hd' s, ?_, hperm.flatMap_right _, hperm.flatMap_right _⟩
    rw [hstate, hstate, Memory.editedAll_perm hd' hperm]

end

/-! ## The two operations -/

/-- Annotating is regular where writing is allowed. -/
theorem regular_annotate {o : Options} (hfrozen : o.frozen = false) (t : Target) :
    Edit.Regular t.path (annotate o t.path · t.block t.kind) := by
  refine ⟨fun c u h => ?_, fun c e h => ?_⟩
  · obtain ⟨-, -, -, hne, -⟩ := annotate_eq_some_iff.mp h
    exact hne
  · have hcases : annotate o t.path c t.block t.kind = .ok none ∨
        (∃ u, annotate o t.path c t.block t.kind = .ok (some u)) ∨
        ∃ n, annotate o t.path c t.block t.kind = .error (.severalRegions t.path n) :=
      annotate_cases hfrozen
    rcases hcases with hnone | ⟨u, hu⟩ | ⟨n, hn⟩
    · rw [hnone] at h
      cases h
    · rw [hu] at h
      cases h
    · rw [hn] at h
      cases h
      exact ⟨n, rfl⟩

/-- Stripping is regular: what it takes out is not empty. -/
theorem regular_strip (o : Options) (path : String) : Edit.Regular path (strip o path) := by
  refine ⟨fun t u h => ?_, fun t e h => ?_⟩
  · rintro rfl
    obtain ⟨-, -, r, hr, htext⟩ := strip_eq_some_iff.mp h
    obtain ⟨hall, hne⟩ := RegionShape.lines_of_first? hr
    have hwhole := Lines.toText_ofText u
    rw [Lines.toText, ← hall] at hwhole
    have hlength := congrArg List.length (htext.trans hwhole.symm)
    simp only [Region.allLines, unlines_append, List.length_append] at hlength
    have hnil : unlines r.lines = [] := List.length_eq_zero_iff.mp (by omega)
    exact hne (unlines_eq_nil.mp hnil)
  · unfold strip at h
    by_cases hout : optedOut t = true
    · simp [hout] at h
    · by_cases hmany : 1 < o.shape.count t
      · simp only [hout, hmany, if_true] at h
        exact ⟨_, (Except.error.inj h).symm⟩
      · simp [hout, hmany] at h

/-- **The files of a batch are independent**, where writing is allowed and their names differ,
    whether they are annotated or stripped. -/
theorem files_independent {o : Options} (hfrozen : o.frozen = false) (s : Memory) :
    (∀ ts : List Target, (ts.map Target.path).Nodup →
      ∃ r, Independent Target.path (fun t => (annotate o t.path · t.block t.kind))
        (annotateAll Memory.storage o) s ts r) ∧
      ∀ ps : List String, ps.Nodup →
        ∃ r, Independent (fun p => p) (strip o) (stripAll Memory.storage o) s ps r := by
  refine ⟨fun ts hd => ?_, fun ps hd => ?_⟩
  · have hbatch : annotateAll Memory.storage o = batchOf .annotate Target.path
        (fun t => (annotateLog o t.path · t.block t.kind))
        (fun t => (annotate o t.path · t.block t.kind)) := rfl
    rw [hbatch]
    exact independent_batchOf _ _ (regular_annotate hfrozen) hd s
  · have hbatch : stripAll Memory.storage o = batchOf .strip (fun p => p) stripLog (strip o) := rfl
    rw [hbatch]
    exact independent_batchOf _ _ (regular_strip o) (by rwa [List.map_id']) s

/-- A store with a file that has no block and one that has one, two more of these that must not be
    written, and a file with two regions. -/
def mixedStore : Memory :=
  ⟨[("user.rb", typedText), ("post.rb", typedAnnotated), ("tag.rb", typedText),
    ("page.rb", typedAnnotated), ("bared.rb", baredText)], ["tag.rb", "page.rb"]⟩

/-- The files of the store and one that is not there, all to carry one block. -/
def mixedTargets : List Target :=
  ["tag.rb", "user.rb", "bared.rb", "post.rb", "gone.rb"].map fun p => ⟨p, .model, shortBlock⟩

/-- Such files again, all to lose their blocks. -/
def mixedPaths : List String := ["page.rb", "user.rb", "bared.rb", "post.rb", "gone.rb"]

/-- A batch of either kind in which every kind of file occurs, and the same one backwards. -/
theorem files_independent_mixedStore :
    ({} : Options).frozen = false ∧ ((mixedTargets.map Target.path).Nodup ∧
      ∃ r, Independent Target.path (fun t => (annotate {} t.path · t.block t.kind))
          (annotateAll Memory.storage {}) mixedStore mixedTargets r ∧
        r.modified = ["user.rb"] ∧ r.failures.map Failure.path = ["tag.rb", "bared.rb", "gone.rb"] ∧
        ((annotateAll Memory.storage {} mixedTargets.reverse).run mixedStore).2 =
          mixedStore.put "user.rb" typedAnnotated) ∧
      mixedPaths.Nodup ∧
      ∃ r, Independent (fun p => p) (strip {}) (stripAll Memory.storage {}) mixedStore mixedPaths r ∧
        r.modified = ["post.rb"] ∧ r.failures.map Failure.path = ["page.rb", "bared.rb", "gone.rb"] ∧
        ((stripAll Memory.storage {} mixedPaths.reverse).run mixedStore).2 =
          mixedStore.put "post.rb" typedText := by
  have hd : (mixedTargets.map Target.path).Nodup := by decide
  have hdp : mixedPaths.Nodup := by decide
  obtain ⟨r, h⟩ := (files_independent (o := {}) rfl mixedStore).1 mixedTargets hd
  obtain ⟨q, hq⟩ := (files_independent (o := {}) rfl mixedStore).2 mixedPaths hdp
  have hresult : ((annotateAll Memory.storage {} mixedTargets).run mixedStore).1.result.toOption.map
      (fun r => (r.modified, r.failures.map Failure.path)) =
        some (["user.rb"], ["tag.rb", "bared.rb", "gone.rb"]) := by decide +kernel
  have hstore : ((annotateAll Memory.storage {} mixedTargets).run mixedStore).2 =
      mixedStore.put "user.rb" typedAnnotated := by decide +kernel
  rw [h.result] at hresult
  obtain ⟨hmodified, hfailures⟩ := Prod.mk.inj (Option.some.inj hresult)
  obtain ⟨-, -, hsame, -⟩ := h.permuted mixedTargets.reverse (List.reverse_perm _)
  have hstripped : ((stripAll Memory.storage {} mixedPaths).run mixedStore).1.result.toOption.map
      (fun r => (r.modified, r.failures.map Failure.path)) =
        some (["post.rb"], ["page.rb", "bared.rb", "gone.rb"]) := by decide +kernel
  have hleft : ((stripAll Memory.storage {} mixedPaths).run mixedStore).2 =
      mixedStore.put "post.rb" typedText := by decide +kernel
  rw [hq.result] at hstripped
  obtain ⟨hlost, hkept⟩ := Prod.mk.inj (Option.some.inj hstripped)
  obtain ⟨-, -, hback, -⟩ := hq.permuted mixedPaths.reverse (List.reverse_perm _)
  exact ⟨rfl, ⟨hd, r, h, hmodified, hfailures, hsame.trans hstore⟩, hdp, q, hq, hlost, hkept,
    hback.trans hleft⟩

end SchemaComment
