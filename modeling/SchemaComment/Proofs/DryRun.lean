/-
  DRY RUNS.

  With the option `frozen` nothing may be written, and the batch ends at the first file that would
  have to be.  So a frozen batch shows what the same batch would do without the option.

  1. **Program** — `annotateAll` over a store of named texts.  `Watched` is such a store that notes
     every name it is asked to write, whether it allows that or not.
  2. **Specification** — `annotateAll_frozen`: the frozen batch leaves the store as it is; it ends in
     a fault exactly where the other one asks for a write, and names the first file that one asks
     for; and where that one asks for none, both come to the same.
  3. **The crux** — up to the first write the two batches go through the same states, as no file
     that is not written changes any (`annotateFile_frozen_cases`).
-/
import SchemaComment.Proofs.Batches
import SchemaComment.Proofs.Annotated

namespace SchemaComment

/-! ## The option in one text -/

section

variable {o : Options} {path : String} {text block : Text} {k : FileKind}

/-- The option has no part in what a schema comment looks like. -/
theorem Options.shape_frozen (o : Options) (b : Bool) :
    ({ o with frozen := b } : Options).shape = o.shape := rfl

/-- Nor has it one in where a schema comment goes. -/
theorem Options.positionFor_frozen (o : Options) (b : Bool) (k : FileKind) :
    ({ o with frozen := b } : Options).positionFor k = o.positionFor k := rfl

/-- What becomes of a file where nothing may be written. -/
theorem SourceFile.place_frozen (f : SourceFile) (o : Options) (block : Text) (p : Position) :
    f.place { o with frozen := true } block p =
      match f.place { o with frozen := false } block p with
      | .write _ _ => .refused
      | other => other := by
  simp only [place]
  split
  · rfl
  · split
    · rfl
    · split <;> rfl

/-- **Where nothing may be written**, a text that would be is a fault, and any other answer stays. -/
theorem annotate_frozen (o : Options) (path : String) (text block : Text) (k : FileKind) :
    annotate { o with frozen := true } path text block k =
      match annotate { o with frozen := false } path text block k with
      | .ok (some _) => .error (.frozen path)
      | other => other := by
  unfold annotate
  simp only
  rw [Options.shape_frozen o true, Options.shape_frozen o false, Options.positionFor_frozen o true,
    Options.positionFor_frozen o false, SourceFile.place_frozen]
  split
  · rfl
  · cases (SourceFile.ofText o.shape text).place { o with frozen := false } block
      (o.positionFor k) <;> rfl

/-- The log is the same, unless there is a text to be written. -/
theorem annotateLog_frozen
    (h : ∀ u, annotate { o with frozen := false } path text block k ≠ .ok (some u)) :
    annotateLog { o with frozen := true } path text block k =
      annotateLog { o with frozen := false } path text block k := by
  unfold annotate at h
  unfold annotateLog
  simp only at h ⊢
  rw [Options.shape_frozen o false, Options.positionFor_frozen o false] at h
  rw [Options.shape_frozen o true, Options.shape_frozen o false, Options.positionFor_frozen o true,
    Options.positionFor_frozen o false, SourceFile.place_frozen]
  split
  · rfl
  · rename_i hone
    rw [if_neg hone] at h
    cases hwrite : (SourceFile.ofText o.shape text).place { o with frozen := false } block
      (o.positionFor k) with
    | write a u => exact absurd (by rw [hwrite]) (h u)
    | skipped => rfl
    | unchanged => rfl
    | refused => rfl

end

/-! ## A store that notes what it is asked -/

/-- A store of named texts, and the names it has been asked to write. -/
structure Watched where
  /-- The store. -/
  store : Memory
  /-- The names it has been asked to write, whether it allowed that or not. -/
  asked : List String := []
deriving DecidableEq, Repr

namespace Watched

/-- What a write answers, and the store after it. -/
def writeText (w : Watched) (name : String) (t : Text) : Except FileFault Unit × Watched :=
  ((w.store.writeText name t).1, ⟨(w.store.writeText name t).2, w.asked ++ [name]⟩)

/-- The operations on a store that notes what it is asked. -/
def storage : Storage (StateM Watched) where
  read name := do return (← get).store.readText name
  write name t := modifyGet fun w => w.writeText name t

@[simp] theorem run_read (w : Watched) (name : String) :
    (storage.read name).run w = (w.store.readText name, w) := rfl

@[simp] theorem run_write (w : Watched) (name : String) (t : Text) :
    (storage.write name t).run w = w.writeText name t := rfl

end Watched

/-! ## One file -/

/-- A store that notes what it is asked does with a file what the store does, and notes the name of
    the file where that has a new text. -/
theorem Watched.run_processFile (op : Operation) (path : String) (log : Text → List LogEntry)
    (edit : Text → Except Fault (Option Text)) (w : Watched) :
    (processFile storage op path log edit).run w =
      (((processFile Memory.storage op path log edit).run w.store).1,
        ⟨((processFile Memory.storage op path log edit).run w.store).2,
          w.asked ++ match (w.store.lookup path).map edit with
            | some (.ok (some _)) => [path]
            | _ => []⟩) := by
  rw [SchemaComment.run_processFile, SchemaComment.run_processFile, Memory.run_read, run_read,
    Memory.readText]
  cases w.store.lookup path with
  | none => simp
  | some t =>
    simp only [Option.map_some]
    cases edit t with
    | error e => simp
    | ok new =>
      cases new with
      | none => simp
      | some u =>
        simp only [run_write, Memory.run_write, writeText]
        cases w.store.writeText path u with
        | mk answer s => cases answer <;> rfl

/-- **One file in the two batches.**  Either it is not to be written, both do the same with it, and
    neither changes anything; or it is, and the frozen batch ends there. -/
theorem annotateFile_frozen_cases (o : Options) (t : Target) (w : Watched) :
    (∃ run : FileRun, run.fatal? = none ∧
        (annotateFile Memory.storage { o with frozen := true } t).run w.store = (run, w.store) ∧
        (annotateFile Watched.storage { o with frozen := false } t).run w = (run, w)) ∨
      (((annotateFile Memory.storage { o with frozen := true } t).run w.store).2 = w.store ∧
        ((annotateFile Memory.storage { o with frozen := true } t).run w.store).1.result =
          .error (.frozen t.path) ∧
        ((annotateFile Watched.storage { o with frozen := false } t).run w).1.fatal? = none ∧
        ((annotateFile Watched.storage { o with frozen := false } t).run w).2.asked =
          w.asked ++ [t.path]) := by
  unfold annotateFile
  rw [Watched.run_processFile, run_processFile, run_processFile, Memory.run_read, Memory.readText]
  cases w.store.lookup t.path with
  | none => exact Or.inl ⟨_, rfl, rfl, by simp⟩
  | some c =>
    simp only [Option.map_some]
    have hdry := annotate_frozen o t.path c t.block t.kind
    have hcases : annotate { o with frozen := false } t.path c t.block t.kind = .ok none ∨
        (∃ u, annotate { o with frozen := false } t.path c t.block t.kind = .ok (some u)) ∨
        ∃ n, annotate { o with frozen := false } t.path c t.block t.kind =
          .error (.severalRegions t.path n) := annotate_cases rfl
    rcases hcases with hreal | ⟨u, hreal⟩ | ⟨n, hreal⟩
    · have hlog := annotateLog_frozen fun u hu => by rw [hreal] at hu; cases hu
      rw [hreal] at hdry
      rw [hdry, hreal, hlog]
      exact Or.inl ⟨_, rfl, rfl, by simp⟩
    · rw [hreal] at hdry
      rw [hdry, hreal]
      refine Or.inr ⟨rfl, rfl, ?_, rfl⟩
      -- a write that is refused is a fault of the file and does not end the batch
      simp only [Memory.run_write]
      cases w.store.writeText t.path u with
      | mk answer s => cases answer <;> rfl
    · have hlog := annotateLog_frozen fun u hu => by rw [hreal] at hu; cases hu
      rw [hreal] at hdry
      rw [hdry, hreal, hlog]
      exact Or.inl ⟨_, rfl, rfl, by simp⟩

/-- Where nothing may be written, no file changes the store. -/
theorem state_annotateFile_frozen (o : Options) (t : Target) (s : Memory) :
    ((annotateFile Memory.storage { o with frozen := true } t).run s).2 = s := by
  rcases annotateFile_frozen_cases o t ⟨s, []⟩ with ⟨run, -, hdry, -⟩ | ⟨hdry, -⟩
  · rw [hdry]
  · exact hdry

/-- Where writing is allowed, no file ends the batch. -/
theorem fatal?_annotateFile (o : Options) (t : Target) (w : Watched) :
    ((annotateFile Watched.storage { o with frozen := false } t).run w).1.fatal? = none := by
  rcases annotateFile_frozen_cases o t w with ⟨run, hfatal, -, hreal⟩ | ⟨-, -, hfatal, -⟩
  · rw [hreal]
    exact hfatal
  · exact hfatal

/-! ## The whole batch -/

/-- Where nothing may be written, the batch leaves the store as it is. -/
theorem state_annotateAll_frozen (o : Options) (ts : List Target) (s : Memory) :
    ((annotateAll Memory.storage { o with frozen := true } ts).run s).2 = s := by
  refine batch_preserves (I := fun s' => s' = s) ?_ rfl
  intro x hx s' hs'
  obtain ⟨t, -, rfl⟩ := List.mem_map.mp hx
  exact (state_annotateFile_frozen o t s').trans hs'

/-- Noting what it is asked changes nothing in what a store does. -/
theorem annotateAll_watched (o : Options) (ts : List Target) (w : Watched) :
    ((annotateAll Watched.storage o ts).run w).1 =
        ((annotateAll Memory.storage o ts).run w.store).1 ∧
      ((annotateAll Watched.storage o ts).run w).2.store =
        ((annotateAll Memory.storage o ts).run w.store).2 := by
  refine batch_related (R := fun (w : Watched) s => w.store = s) ?_ rfl
  rintro t - w _ rfl
  unfold annotateFile
  rw [Watched.run_processFile]
  exact ⟨rfl, rfl⟩

/-- What a batch has been asked before it is there after it. -/
theorem asked_prefix_annotateAll (o : Options) (ts : List Target) (w : Watched) :
    w.asked <+: ((annotateAll Watched.storage o ts).run w).2.asked := by
  refine batch_preserves (I := fun v : Watched => w.asked <+: v.asked) ?_ List.prefix_rfl
  intro x hx v hv
  obtain ⟨t, -, rfl⟩ := List.mem_map.mp hx
  unfold annotateFile
  rw [Watched.run_processFile]
  exact hv.trans (List.prefix_append _ _)

/-- **The two batches.**  Either no file is to be written, both come to the same, and neither
    changes anything; or the frozen batch ends at the first file that the other one asks for. -/
theorem annotateAll_frozen_cases (o : Options) (ts : List Target) (w : Watched) :
    (∃ run : BatchRun, (∃ r, run.result = .ok r) ∧
        (annotateAll Memory.storage { o with frozen := true } ts).run w.store = (run, w.store) ∧
        (annotateAll Watched.storage { o with frozen := false } ts).run w = (run, w)) ∨
      ∃ p, ((annotateAll Memory.storage { o with frozen := true } ts).run w.store).1.result =
          .error (.frozen p) ∧
        w.asked ++ [p] <+:
          ((annotateAll Watched.storage { o with frozen := false } ts).run w).2.asked := by
  induction ts with
  | nil => exact Or.inl ⟨_, ⟨_, rfl⟩, rfl, rfl⟩
  | cons t ts ih =>
    have hprefix := asked_prefix_annotateAll { o with frozen := false } ts
    unfold annotateAll at ih hprefix ⊢
    rw [List.map_cons, List.map_cons, run_batch_cons, run_batch_cons]
    rcases annotateFile_frozen_cases o t w with
      ⟨run, hfatal, hdry, hreal⟩ | ⟨-, hresult, hfatal, hasked⟩
    · rw [hdry, hreal]
      simp only [hfatal]
      rcases ih with ⟨rest, ⟨r, hr⟩, hdry, hreal⟩ | ⟨p, hresult, hasked⟩
      · rw [hdry, hreal]
        exact Or.inl ⟨_, ⟨_, by rw [FileRun.result_before, hr]; rfl⟩, rfl, rfl⟩
      · exact Or.inr ⟨p, by rw [FileRun.result_before, hresult]; rfl, hasked⟩
    · have hends : ((annotateFile Memory.storage { o with frozen := true } t).run w.store).1.fatal? =
          some (.frozen t.path) := by
        rw [FileRun.fatal?, hresult]
        rfl
      simp only [hends, hfatal]
      have hrest := hprefix ((annotateFile Watched.storage { o with frozen := false } t).run w).2
      rw [hasked] at hrest
      exact Or.inr ⟨t.path, rfl, hrest⟩

/-- **A frozen batch is a dry run.**  It leaves the store as it is.  It ends in a fault exactly if
    the same batch asks for a write where writing is allowed, and then it names the first file that
    one asks for.  Where that one asks for none, both come to the same and neither changes anything.
    A batch that may write comes to its end. -/
theorem annotateAll_frozen (o : Options) (ts : List Target) (s : Memory) :
    let dry := (annotateAll Memory.storage { o with frozen := true } ts).run s
    let real := (annotateAll Memory.storage { o with frozen := false } ts).run s
    let watched := (annotateAll Watched.storage { o with frozen := false } ts).run ⟨s, []⟩
    (watched.1 = real.1 ∧ watched.2.store = real.2) ∧
      dry.2 = s ∧
      (∀ e, dry.1.result = .error e ↔ ∃ p, watched.2.asked.head? = some p ∧ e = .frozen p) ∧
      (watched.2.asked = [] → dry.1 = real.1 ∧ real.2 = s) ∧
      ∃ r, real.1.result = .ok r := by
  intro dry real watched
  have hwatched : watched.1 = real.1 ∧ watched.2.store = real.2 := annotateAll_watched _ ts _
  have hend : ∃ r, watched.1.result = .ok r := by
    refine exists_report ?_ _
    intro x hx w
    obtain ⟨t, -, rfl⟩ := List.mem_map.mp hx
    exact fatal?_annotateFile o t w
  rw [hwatched.1] at hend
  refine ⟨hwatched, state_annotateAll_frozen o ts s, ?_⟩
  rcases annotateAll_frozen_cases o ts ⟨s, []⟩ with
    ⟨run, ⟨r, hr⟩, hdry, hreal⟩ | ⟨p, hresult, hasked⟩
  · have hdry : dry = (run, s) := hdry
    have hreal : watched = (run, ⟨s, []⟩) := hreal
    rw [hreal] at hwatched ⊢
    rw [hdry]
    refine ⟨?_, fun _ => ⟨hwatched.1, hwatched.2.symm⟩, hend⟩
    intro e
    rw [hr]
    simp
  · obtain ⟨more, hmore⟩ := hasked
    have hhead : watched.2.asked.head? = some p := List.head?_eq_some_iff.mpr ⟨more, hmore.symm⟩
    refine ⟨?_, ?_, hend⟩
    · intro e
      rw [hresult, hhead]
      simp [eq_comm]
    · intro hnone
      rw [hnone] at hhead
      cases hhead

/-- A store with a file that has its block, one without that must not be written, and one without
    that may be. -/
def dryStore : Memory :=
  ⟨[("post.rb", typedAnnotated), ("tag.rb", typedText), ("user.rb", typedText)], ["tag.rb"]⟩

/-- A file that is not there and those of the store, all to carry one block. -/
def dryTargets : List Target :=
  ["gone.rb", "post.rb", "tag.rb", "user.rb"].map fun p => ⟨p, .model, shortBlock⟩

/-- The dry run ends at the file that must not be written, though the batch itself goes on behind
    it and writes the next. -/
theorem annotateAll_frozen_dryStore :
    let dry := (annotateAll Memory.storage { frozen := true } dryTargets).run dryStore
    dry.1.result = .error (.frozen "tag.rb") ∧ dry.2 = dryStore ∧
      ((annotateAll Memory.storage {} dryTargets).run dryStore).2 =
        dryStore.put "user.rb" typedAnnotated := by
  intro dry
  obtain ⟨-, hstays, hends, -, -⟩ := annotateAll_frozen {} dryTargets dryStore
  have hasked : ((annotateAll Watched.storage {} dryTargets).run ⟨dryStore, []⟩).2.asked =
      ["tag.rb", "user.rb"] := by decide +kernel
  have hstore : ((annotateAll Memory.storage {} dryTargets).run dryStore).2 =
      dryStore.put "user.rb" typedAnnotated := by decide +kernel
  exact ⟨(hends _).mpr ⟨"tag.rb", congrArg List.head? hasked, rfl⟩, hstays, hstore⟩

end SchemaComment
