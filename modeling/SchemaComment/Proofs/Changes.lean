/-
  WHAT A RUN CHANGES.

  A run of the program reads a configuration and a block, goes through a batch of files, and may
  fail at each of these.  It never leaves its work half done.

  1. **Program** — `CommandLine.run` on any file system in which a file that can be read can be
     written.
  2. **Specification** — `run_changes`: a run that fails leaves every file as it was, and a file that
     any run changes is one that the call names and the run says it has written.
  3. **The crux** — only a batch writes, and it fails only where nothing may be written at all
     (`changes_of_unwritten`, `fatal?_of_not_fatal`).  Whatever a path leads to, it leads there from
     first to last, so what a batch has done is told by the files it has written (`Touches`).
-/
import SchemaComment.Storage.FileSystem
import SchemaComment.CommandLine.Run
import SchemaComment.Proofs.Independence
import SchemaComment.Proofs.Tree

namespace SchemaComment

/-! ## One file -/

section

variable {σ : Type} {fs : FileSystem σ} {op : Operation} {path : String} {log : Text → List LogEntry}
  {edit : Edit} {s s' : σ}

/-- **What comes of one file**: it fails, or it is left as it is, or it is written and the log says
    so. -/
theorem FileSystem.processFile_cases (fs : FileSystem σ) (op : Operation) (path : String)
    (log : Text → List LogEntry) (edit : Edit) (s : σ) :
    let run := (processFile fs.storage op path log edit).run s
    (fs.Changes [] s run.2 ∧
        ∃ e, run.1.result = .error e ∧ ((∃ f, e = .file path f) ∨ ∃ t, edit t = .error e)) ∨
      (fs.Changes [] s run.2 ∧ run.1.result = .ok false) ∨
      ∃ t u, edit t = .ok (some u) ∧ fs.Changes [path] s run.2 ∧ run.1.result = .ok true ∧
        op.doneEntry path ∈ run.1.log := by
  intro run
  have hrun : run = (processFile fs.storage op path log edit).run s := rfl
  have hchanges := fs.changes_read path s
  have hwrite := fs.changes_write path s
  rw [run_processFile] at hrun
  cases hread : (fs.storage.read path).run s with
  | mk answer s' =>
    rw [hread] at hrun hchanges
    cases answer with
    | error e =>
      rw [hrun]
      exact Or.inl ⟨hchanges, _, rfl, Or.inl ⟨e, rfl⟩⟩
    | ok t =>
      cases hedit : edit t with
      | error e =>
        simp only [hedit] at hrun
        rw [hrun]
        exact Or.inl ⟨hchanges, _, rfl, Or.inr ⟨t, hedit⟩⟩
      | ok new =>
        cases new with
        | none =>
          simp only [hedit] at hrun
          rw [hrun]
          exact Or.inr (Or.inl ⟨hchanges, rfl⟩)
        | some u =>
          obtain ⟨s'', hwritten, hlater⟩ := hwrite s' t u hread
          simp only [hedit, hwritten] at hrun
          rw [hrun]
          exact Or.inr (Or.inr ⟨t, u, hedit, hchanges.trans hlater, rfl, by simp⟩)

/-- A file without a new text changes nothing. -/
theorem changes_of_unwritten (h : ∀ t u, edit t ≠ .ok (some u)) (s : σ) :
    fs.Changes [] s ((processFile fs.storage op path log edit).run s).2 := by
  rcases fs.processFile_cases op path log edit s with ⟨hsame, -⟩ | ⟨hsame, -⟩ | ⟨t, u, hu, -⟩
  · exact hsame
  · exact hsame
  · exact absurd hu (h t u)

/-- A file ends the batch only by what is found wrong with its text. -/
theorem fatal?_of_not_fatal (h : ∀ t e, edit t = .error e → e.isFatal = false) (s : σ) :
    ((processFile fs.storage op path log edit).run s).1.fatal? = none := by
  unfold FileRun.fatal?
  rcases fs.processFile_cases op path log edit s with
    ⟨-, e, hresult, ⟨f, rfl⟩ | ⟨t, ht⟩⟩ | ⟨-, hresult⟩ | ⟨-, -, -, -, hresult, -⟩
  · rw [hresult]
    rfl
  · rw [hresult]
    simp [h t e ht]
  · rw [hresult]
  · rw [hresult]

/-- **What has become of the files**: some of those named have been written, each has its line in the
    log, and no other has changed. -/
def Touches (v : FileView σ) (op : Operation) (files : List String) (entries : List LogEntry)
    (s s' : σ) : Prop :=
  ∃ written : List String, written.Sublist files ∧ (∀ f ∈ written, op.doneEntry f ∈ entries) ∧
    v.Changes written s s'

namespace Touches

variable {v : FileView σ} {files files' : List String} {entries entries' : List LogEntry} {s'' : σ}

/-- Nothing has been written. -/
theorem of_changes_nil (h : v.Changes [] s s') : Touches v op files entries s s' :=
  ⟨[], List.nil_sublist files, by simp, h⟩

/-- A longer log tells as much. -/
theorem mono (h : Touches v op files entries s s') (hentries : entries ⊆ entries') :
    Touches v op files entries' s s' := by
  obtain ⟨written, hsub, hlines, hchanges⟩ := h
  exact ⟨written, hsub, fun f hf => hentries (hlines f hf), hchanges⟩

/-- Some files and then others. -/
theorem append (h : Touches v op files entries s s') (h' : Touches v op files' entries s' s'') :
    Touches v op (files ++ files') entries s s'' := by
  obtain ⟨written, hsub, hlines, hchanges⟩ := h
  obtain ⟨written', hsub', hlines', hchanges'⟩ := h'
  refine ⟨written ++ written', hsub.append hsub', fun f hf => ?_, hchanges.trans hchanges'⟩
  exact (List.mem_append.mp hf).elim (hlines f) (hlines' f)

/-- What comes after a state in which nothing has changed. -/
theorem of_changes_nil_append (h : v.Changes [] s s') (h' : Touches v op files entries s' s'') :
    Touches v op files entries s s'' := by
  obtain ⟨written, hsub, hlines, hchanges⟩ := h'
  exact ⟨written, hsub, hlines, h.trans hchanges⟩

end Touches

/-- **One file** changes what its own path leads to. -/
theorem touches_processFile (fs : FileSystem σ) (op : Operation) (path : String)
    (log : Text → List LogEntry) (edit : Edit) (s : σ) :
    let run := (processFile fs.storage op path log edit).run s
    Touches fs.toFileView op [path] run.1.log s run.2 := by
  intro run
  rcases fs.processFile_cases op path log edit s with
    ⟨hsame, -⟩ | ⟨hsame, -⟩ | ⟨-, -, -, hchanges, -, hline⟩
  · exact .of_changes_nil hsame
  · exact .of_changes_nil hsame
  · exact ⟨[path], List.Sublist.refl _, by simpa using hline, hchanges⟩

end

/-! ## Many files -/

namespace FileRun

variable {op : Operation} {path : String} {run : FileRun} {rest : BatchRun}

/-- The log on a file is in the log of the batch. -/
theorem log_subset_before : run.log ⊆ (run.before op path rest).log := by
  unfold before
  split <;> exact List.subset_append_left _ _

/-- So is the log on the other files. -/
theorem rest_log_subset_before : rest.log ⊆ (run.before op path rest).log := by
  unfold before
  split
  · exact List.subset_append_right _ _
  · exact List.subset_append_right _ _
  · exact List.subset_append_of_subset_right _ (List.subset_cons_self _ _)

end FileRun

section

variable {σ : Type} {fs : FileSystem σ} {op : Operation} {s : σ}

/-- **A batch** changes the files as its files do. -/
theorem touches_batch {v : FileView σ} {α : Type} {path : α → String} {f : α → StateM σ FileRun}
    (h : ∀ x s, Touches v op [path x] ((f x).run s).1.log s ((f x).run s).2) (xs : List α) (s : σ) :
    let run := (batch op (xs.map fun x => (path x, f x))).run s
    Touches v op (xs.map path) run.1.log s run.2 := by
  induction xs generalizing s with
  | nil => exact .of_changes_nil (.refl v s)
  | cons x xs ih =>
    have hfirst := h x s
    rw [List.map_cons, List.map_cons, run_batch_cons]
    split
    · obtain ⟨written, hsub, hlines, hchanges⟩ := hfirst
      exact ⟨written, hsub.trans (List.singleton_sublist.mpr List.mem_cons_self), hlines, hchanges⟩
    · have hrest := ih ((f x).run s).2
      exact (hfirst.mono FileRun.log_subset_before).append (hrest.mono FileRun.rest_log_subset_before)

theorem touches_annotateAll (fs : FileSystem σ) (o : Options) (ts : List Target) (s : σ) :
    let run := (annotateAll fs.storage o ts).run s
    Touches fs.toFileView .annotate (ts.map Target.path) run.1.log s run.2 :=
  touches_batch (fun _ s => touches_processFile fs _ _ _ _ s) ts s

theorem touches_stripAll (fs : FileSystem σ) (o : Options) (ps : List String) (s : σ) :
    let run := (stripAll fs.storage o ps).run s
    Touches fs.toFileView .strip ps run.1.log s run.2 := by
  have hbatch : Touches fs.toFileView .strip (ps.map fun p => p)
      ((stripAll fs.storage o ps).run s).1.log s ((stripAll fs.storage o ps).run s).2 :=
    touches_batch (fun _ s => touches_processFile fs _ _ _ _ s) ps s
  rwa [List.map_id'] at hbatch

/-- Annotating fails as a whole only where nothing was written. -/
theorem changes_annotateAll_of_error {o : Options} {ts : List Target} {e : Fault}
    (h : ((annotateAll fs.storage o ts).run s).1.result = .error e) :
    fs.Changes [] s ((annotateAll fs.storage o ts).run s).2 := by
  cases hfrozen : o.frozen with
  | true =>
    refine batch_preserves (I := fs.Changes [] s) ?_ (.refl _ s)
    intro x hx s' hs'
    obtain ⟨t, -, rfl⟩ := List.mem_map.mp hx
    refine hs'.trans (changes_of_unwritten ?_ s')
    intro c u hu
    obtain ⟨-, -, hwritable, -⟩ := annotate_eq_some_iff.mp hu
    rw [hfrozen] at hwritable
    cases hwritable
  | false =>
    have hend : ∃ r, ((annotateAll fs.storage o ts).run s).1.result = .ok r := by
      refine exists_report ?_ s
      intro x hx s'
      obtain ⟨t, -, rfl⟩ := List.mem_map.mp hx
      refine fatal?_of_not_fatal ?_ s'
      intro c e he
      obtain ⟨n, rfl⟩ := (regular_annotate hfrozen t).fault c e he
      rfl
    obtain ⟨r, hr⟩ := hend
    rw [hr] at h
    cases h

/-- Stripping never fails as a whole. -/
theorem exists_report_stripAll (fs : FileSystem σ) (o : Options) (ps : List String) (s : σ) :
    ∃ r, ((stripAll fs.storage o ps).run s).1.result = .ok r := by
  refine exists_report ?_ s
  intro x hx s'
  obtain ⟨p, -, rfl⟩ := List.mem_map.mp hx
  refine fatal?_of_not_fatal ?_ s'
  intro c e he
  obtain ⟨n, rfl⟩ := (regular_strip o p).fault c e he
  rfl

end

/-! ## The files of a call -/

namespace CommandLine

/-- What a command does to its files. -/
def Command.operation : Command → Operation
  | .annotate _ => .annotate
  | .strip _ => .strip

/-- The files that a command names. -/
def Command.files : Command → List String
  | .annotate c => c.files
  | .strip c => c.files

/-- The words behind a subcommand are among its arguments, in their order. -/
theorem sublist_of_readSwitches {known : List Switch} {g g' : Given} {args words : List String}
    (h : readSwitches known g args = .ok (g', words)) : words.Sublist args := by
  fun_induction readSwitches known g args generalizing g' words
  case case1 =>
    cases h
    exact .slnil
  case case3 hrest ih =>
    cases h
    exact (ih hrest).cons_cons _
  case case5 =>
    cases h
    exact List.sublist_cons_self _ _
  case case7 ih => exact (ih h).cons _
  case case9 ih => exact ((ih h).cons _).cons _
  all_goals cases h

/-- The subcommand and what is behind it end the arguments. -/
theorem suffix_of_readFront {known : List Switch} {g : Given} {args : List String} {front : Front}
    (h : readFront known g args = .ok front) : front.rest <:+ args := by
  fun_induction readFront known g args
  case case1 =>
    cases h
    exact List.nil_suffix
  case case2 =>
    cases h
    exact List.suffix_rfl
  case case5 ih => exact (ih h).trans (List.suffix_cons _ _)
  case case8 =>
    cases h
    exact (List.suffix_cons _ _).trans (List.suffix_cons _ _)
  case case9 ih => exact ((ih h).trans (List.suffix_cons _ _)).trans (List.suffix_cons _ _)
  all_goals cases h

theorem eq_of_readFiles {words files : List String} (h : readFiles words = .ok files) :
    files = words := by
  unfold readFiles at h
  split at h
  · cases h
  · exact (Except.ok.inj h).symm

theorem sublist_of_readAnnotate {env : String → Option String} {args : List String} {c : Command}
    (h : readAnnotate env args = .ok c) : c.files.Sublist args := by
  unfold readAnnotate at h
  obtain ⟨⟨g, words⟩, hwords, h⟩ := exists_of_bind_eq_ok h
  obtain ⟨g', -, h⟩ := exists_of_bind_eq_ok h
  obtain ⟨files, hfiles, h⟩ := exists_of_bind_eq_ok h
  split at h
  · cases h
  · cases h
    exact eq_of_readFiles hfiles ▸ sublist_of_readSwitches hwords

theorem sublist_of_readStrip {env : String → Option String} {args : List String} {c : Command}
    (h : readStrip env args = .ok c) : c.files.Sublist args := by
  unfold readStrip at h
  obtain ⟨⟨g, words⟩, hwords, h⟩ := exists_of_bind_eq_ok h
  obtain ⟨g', -, h⟩ := exists_of_bind_eq_ok h
  obtain ⟨files, hfiles, h⟩ := exists_of_bind_eq_ok h
  cases h
  exact eq_of_readFiles hfiles ▸ sublist_of_readSwitches hwords

/-- **The files of a call are among its arguments**, in their order. -/
theorem sublist_of_read {env : String → Option String} {args : List String} {i : Invocation}
    (h : Invocation.read env args = .ok i) : i.command.files.Sublist args := by
  unfold Invocation.read at h
  obtain ⟨front, hfront, h⟩ := exists_of_bind_eq_ok h
  have hsuffix := suffix_of_readFront hfront
  -- behind the command only the switches in front of it are still to be completed
  dsimp only at h
  split at h
  · rename_i args' hrest
    obtain ⟨command, hcommand, h⟩ := exists_of_bind_eq_ok h
    have hfiles : command.files.Sublist front.rest :=
      hrest ▸ (sublist_of_readAnnotate hcommand).cons _
    split at h <;>
    · obtain ⟨g, -, h⟩ := exists_of_bind_eq_ok h
      obtain ⟨g', -, h⟩ := exists_of_bind_eq_ok h
      cases h
      exact hfiles.trans hsuffix.sublist
  · rename_i args' hrest
    obtain ⟨command, hcommand, h⟩ := exists_of_bind_eq_ok h
    have hfiles : command.files.Sublist front.rest :=
      hrest ▸ (sublist_of_readStrip hcommand).cons _
    split at h <;>
    · obtain ⟨g, -, h⟩ := exists_of_bind_eq_ok h
      obtain ⟨g', -, h⟩ := exists_of_bind_eq_ok h
      cases h
      exact hfiles.trans hsuffix.sublist
  · cases h
  · cases h

/-! ## The run -/

/-- The log that is printed shows an entry. -/
def Outcome.Prints (o : Outcome) (e : LogEntry) : Prop :=
  ∃ above below : List LogEntry, o.stdout = String.join ((above ++ e :: below).map LogEntry.line)

/-- What is not there for debugging only is always printed. -/
theorem exists_printLog {log : List LogEntry} {e : LogEntry} (h : e ∈ log) (he : e.level ≠ .debug)
    (verbose : Bool) : ∃ above below : List LogEntry,
      printLog verbose log = String.join ((above ++ e :: below).map LogEntry.line) := by
  have hshown : e ∈ log.filter fun e => verbose || e.level != .debug := by simp [h, he]
  obtain ⟨above, below, hsplit⟩ := List.append_of_mem hshown
  exact ⟨above, below, by rw [printLog, hsplit]⟩

/-- The line about a file that was written is always printed. -/
theorem prints_batchOutcome {run : BatchRun} {r : Report} (hr : run.result = .ok r)
    {op : Operation} {f : String} (h : op.doneEntry f ∈ run.log) (verbose : Bool) :
    (batchOutcome verbose run).Prints (op.doneEntry f) := by
  have hlevel : (op.doneEntry f).level ≠ .debug := by cases op <;> simp [Operation.doneEntry]
  unfold Outcome.Prints batchOutcome
  rw [hr]
  exact exists_printLog (List.mem_append_left _ h) hlevel verbose

section

variable {σ : Type}

/-- Reading the options changes no file. -/
theorem changes_startingOptions (fs : FileSystem σ) (config : Option String) (s : σ) :
    fs.Changes [] s ((startingOptions fs.storage config).run s).2 := by
  cases config with
  | none => exact .refl _ s
  | some path =>
    show fs.Changes [] s ((readConfig fs.storage path).run s).2
    have hchanges := fs.changes_read path s
    cases hread : (fs.storage.read path).run s with
    | mk answer s' =>
      rw [hread] at hchanges
      unfold readConfig
      rw [run_bind_of_run hread]
      cases answer with
      | error e => exact hchanges
      | ok t =>
        cases h : Options.ofJson t <;>
        · simp only [h]
          exact hchanges

/-- **What comes of a command**: it cannot read its block, or it does its batch. -/
theorem Command.run_cases (fs : FileSystem σ) (o : Options) (c : Command) (s : σ) :
    (∃ e s', (c.run fs.storage o).run s = (.error e, s') ∧ fs.Changes [] s s') ∨
      ∃ run s', (c.run fs.storage o).run s = (.ok run, s') ∧
        Touches fs.toFileView c.operation c.files run.log s s' ∧
        ∀ e, run.result = .error e → fs.Changes [] s s' := by
  cases c with
  | annotate c =>
    unfold Command.run
    simp only
    have hchanges := fs.changes_read c.block s
    cases hread : (fs.storage.read c.block).run s with
    | mk answer s' =>
      rw [hread] at hchanges
      rw [run_bind_of_run hread]
      cases answer with
      | error e => exact Or.inl ⟨_, _, rfl, hchanges⟩
      | ok block =>
        have hnames : (c.files.map fun f => (⟨f, c.kind, block⟩ : Target)).map Target.path =
            c.files := by
          rw [List.map_map]
          exact List.map_id _
        have hbatch := touches_annotateAll fs (c.options o) (c.files.map fun f => ⟨f, c.kind, block⟩) s'
        rw [hnames] at hbatch
        exact Or.inr ⟨_, _, rfl, .of_changes_nil_append hchanges hbatch,
          fun e he => hchanges.trans (changes_annotateAll_of_error he)⟩
  | strip c =>
    refine Or.inr ⟨_, _, rfl, touches_stripAll fs (c.options o) c.files s, fun e he => ?_⟩
    obtain ⟨r, hr⟩ := exists_report_stripAll fs (c.options o) c.files s
    have he : ((stripAll fs.storage (c.options o) c.files).run s).1.result = .error e := he
    rw [hr] at he
    cases he

/-- **What comes of a call**: it changes nothing, or it does a batch that comes to its end. -/
theorem Invocation.run_cases (fs : FileSystem σ) (i : Invocation) (s : σ) :
    (∃ o s', (i.run fs.storage).run s = (o, s') ∧ fs.Changes [] s s') ∨
      ∃ batch r s', (i.run fs.storage).run s = (batchOutcome i.verbose batch, s') ∧
        batch.result = .ok r ∧
        Touches fs.toFileView i.command.operation i.command.files batch.log s s' := by
  unfold Invocation.run
  have hchanges := changes_startingOptions fs i.config s
  cases hoptions : (startingOptions fs.storage i.config).run s with
  | mk options s' =>
    rw [hoptions] at hchanges
    rw [run_bind_of_run hoptions]
    cases options with
    | error e => exact Or.inl ⟨_, _, rfl, hchanges⟩
    | ok o =>
      simp only
      rcases i.command.run_cases fs o s' with ⟨e, s'', hrun, hlater⟩ | ⟨batch, s'', hrun, htouches, hfails⟩
      · rw [run_bind_of_run hrun]
        exact Or.inl ⟨_, _, rfl, hchanges.trans hlater⟩
      · rw [run_bind_of_run hrun]
        cases hresult : batch.result with
        | error e => exact Or.inl ⟨_, _, rfl, hchanges.trans (hfails e hresult)⟩
        | ok r =>
          exact Or.inr ⟨batch, r, s'', rfl, hresult, .of_changes_nil_append hchanges htouches⟩

/-- **What a run changes**, in any file system in which a file that can be read can be written.  A run
    that fails leaves every file as it was.  A file that any run changes was there before, and is one
    of those that the call names, and a line of the log says that it was written. -/
theorem run_changes (fs : FileSystem σ) (env : String → Option String) (args : List String) (s : σ) :
    let after := (run fs.storage env args).run s
    (after.1.exitCode ≠ 0 → fs.bytes after.2 = fs.bytes s) ∧
      ∀ n, fs.bytes after.2 n ≠ fs.bytes s n →
        (∃ old new, fs.bytes s n = some old ∧ fs.bytes after.2 n = some new) ∧
        ∃ i, Invocation.read env args = .ok i ∧ i.command.files.Sublist args ∧
          ∃ f ∈ i.command.files, fs.node? s f = some n ∧
            after.1.Prints (i.command.operation.doneEntry f) := by
  intro after
  have hafter : after = (run fs.storage env args).run s := rfl
  unfold run at hafter
  cases hread : Invocation.read env args with
  | error h =>
    rw [hread] at hafter
    rw [hafter]
    exact ⟨fun _ => rfl, fun n hn => absurd rfl hn⟩
  | ok i =>
    simp only [hread] at hafter
    rcases i.run_cases fs s with ⟨o, s', hrun, hchanges⟩ | ⟨batch, r, s', hrun, hresult, htouches⟩
    · rw [hafter, hrun]
      exact ⟨fun _ => hchanges.bytes_eq, fun n hn => absurd (congrFun hchanges.bytes_eq n) hn⟩
    · rw [hafter, hrun]
      obtain ⟨written, hsub, hlines, hchanges⟩ := htouches
      refine ⟨fun hcode => absurd (by rw [batchOutcome, hresult]) hcode, fun n hn => ?_⟩
      obtain ⟨f, hf, hleads⟩ := hchanges.under n hn
      exact ⟨hchanges.exists_bytes hn, i, rfl, sublist_of_read hread, f, hsub.subset hf, hleads,
        prints_batchOutcome hresult (hlines f hf) i.verbose⟩

/-- A tree with the block outside of the working directory, and a link to a file in it. -/
def linkedTree : Directory :=
  ⟨[(["tmp", "block.txt"], .file (Directory.encode shortBlock)),
    (["tmp", "work", "user.rb"], .file (Directory.encode typedText)),
    (["tmp", "work", "current"], .link "../work/./user.rb")]⟩

/-- A call that names the block from the root, and the file by the link. -/
def linkedArgs : List String := ["annotate", "--block", "/tmp/block.txt", "current"]

/-- The file is annotated, and the line of the log has the name that it was given. -/
theorem run_changes_linkedTree :
    let after := (run Directory.storage (fun _ => none) linkedArgs).run linkedTree
    after.2.bytesAt ["tmp", "work", "user.rb"] = some (Directory.encode typedAnnotated) ∧
      ∃ i, Invocation.read (fun _ => none) linkedArgs = .ok i ∧
        ∃ f ∈ i.command.files, (linkedTree.resolve f).toOption = some ["tmp", "work", "user.rb"] ∧
          after.1.Prints (i.command.operation.doneEntry f) := by
  intro after
  have hnew : after.2.bytesAt ["tmp", "work", "user.rb"] = some (Directory.encode typedAnnotated) := by
    decide +kernel
  have hold : linkedTree.bytesAt ["tmp", "work", "user.rb"] ≠
      some (Directory.encode typedAnnotated) := by decide +kernel
  obtain ⟨-, hchanged⟩ := run_changes Directory.fileSystem (fun _ => none) linkedArgs linkedTree
  obtain ⟨-, i, hread, -, f, hf, hleads, hprints⟩ :=
    hchanged ["tmp", "work", "user.rb"] fun hsame => hold (hsame.symm.trans hnew)
  exact ⟨hnew, i, hread, f, hf, hleads, hprints⟩

end

end CommandLine

end SchemaComment
