import FluentShapes.Command.Run
import FluentShapes.Proofs.FileTree

/-!
# Compiling the files of a project

The sources of a project are compiled one after the other in the tree that they are listed from,
and the declarations of one are written before the next is read.  Still every file is treated on its
own.  Sources and declarations have different extensions, so what is written is never read
(`Job.Source`), and the declarations of different sources go to different places.  `Job.Compiles`
says what compiling a list of files does to the tree.  By induction on it, the tree ends up with the
declarations of the sources that compile and is otherwise as it was (`Job.Compiled`), and doing it
all again gives the same messages and the same tree (`Job.Compiles.foldl_step_withTree`).
-/

namespace FluentShapes

open FileTree (Keeps)

namespace Command

namespace Job

variable {job : Job} {t t' T : FileTree} {names other : List String} {files : List (List String)}
  {c : Compilation}

/-! ## Places -/

/-- Where a source of the job is. -/
def sourcePlace (job : Job) (names : List String) : Location :=
  Path.location (pathOf job.srcPath names)

/-- Where the declarations for a source go. -/
def outputPlace (job : Job) (names : List String) : Location :=
  Path.location (job.outputPath names)

/-- The names of a source as they are listed. -/
structure Source (job : Job) (names : List String) : Prop where
  isName : ∀ name ∈ names, Path.IsName name
  isSource : isSource job.srcPath names = true

/-- The extension of the last name of a place. -/
def extensionAt? (l : Location) : Option String := l.getLast?.bind Path.extension?

theorem requestFor_nil (job : Job) (request : Request) : job.requestFor [] ≠ .ok request := by
  unfold requestFor
  cases job.locale with
  | none => simp [relativePath, Request.parse, Request.splitAt?]
  | some tag => simp [relativePath, Request.parse, Request.splitAt?]

namespace Source

theorem sourcePlace_eq (h : job.Source names) :
    job.sourcePlace names = Path.location job.srcPath ++ names :=
  Path.location_pathOf job.srcPath h.isName

theorem extensionAt?_sourcePlace (h : job.Source names) :
    extensionAt? (job.sourcePlace names) = some sourceExtension := by
  rw [h.sourcePlace_eq]
  exact extension?_of_isSource h.isSource

theorem outputPlace_concat {dir : List String} {name : String} (h : job.Source (dir ++ [name])) :
    job.outputPlace (dir ++ [name]) =
      Path.location (job.outPath.getD job.srcPath) ++ (dir ++ [name ++ ".d.ts"]) :=
  job.location_outputPath h.isName ((isSource_concat job.srcPath dir name).mp h.isSource)

theorem extensionAt?_outputPlace (h : job.Source names) (hne : names ≠ []) :
    extensionAt? (job.outputPlace names) = some "ts" := by
  obtain ⟨dir, name, rfl⟩ := (List.eq_nil_or_concat' names).resolve_left hne
  rw [h.outputPlace_concat, extensionAt?, ← List.append_assoc, List.getLast?_concat]
  exact Path.extension?_append_declaration name

theorem outputPlace_inj (h : job.Source names) (hother : job.Source other)
    (heq : job.outputPlace names = job.outputPlace other) : names = other := by
  have hnil : job.outputPlace [] = Path.location (job.outPath.getD job.srcPath) := rfl
  rcases List.eq_nil_or_concat' names with rfl | ⟨dir, name, rfl⟩ <;>
    rcases List.eq_nil_or_concat' other with rfl | ⟨dir', name', rfl⟩
  · rfl
  · rw [hnil, hother.outputPlace_concat] at heq
    simp at heq
  · rw [hnil, h.outputPlace_concat] at heq
    simp at heq
  · rw [h.outputPlace_concat, hother.outputPlace_concat] at heq
    simpa using heq

end Source

/-! ## What becomes of a file -/

/-- The file of these names compiles. This depends on its text only. -/
def Yields (job : Job) (t : FileTree) (names : List String) (c : Compilation) : Prop :=
  ∃ text request, t.file? (job.sourcePlace names) = some (.text text) ∧
    job.requestFor names = .ok request ∧ Compilation.ofSource? text request job.options = some (.ok c)

/-- The file of these names has a fault that cannot be worded. -/
def Aborts (job : Job) (t : FileTree) (names : List String) : Prop :=
  ∃ text request, t.file? (job.sourcePlace names) = some (.text text) ∧
    job.requestFor names = .ok request ∧ Compilation.ofSource? text request job.options = none

/-- The file of these names compiles, and nothing in front of it aborts the command. -/
def Writes (job : Job) (t : FileTree) (files : List (List String)) (names : List String)
    (c : Compilation) : Prop :=
  ∃ before after, files = before ++ names :: after ∧ (∀ earlier ∈ before, ¬ job.Aborts t earlier) ∧
    job.Yields t names c

theorem compileText?_eq_ok_iff {text : String} :
    job.compileText? names text = some (.ok c) ↔
      ∃ request, job.requestFor names = .ok request ∧
        Compilation.ofSource? text request job.options = some (.ok c) := by
  unfold compileText?
  cases job.requestFor names with
  | error e => simp
  | ok request =>
      simp only [Option.map_eq_some_iff, Except.ok.injEq, exists_eq_left']
      constructor
      · rintro ⟨result, hresult, h⟩
        split at h
        · cases h
        · cases h
        · cases h
          exact hresult
      · intro h
        exact ⟨.ok c, h, rfl⟩

theorem compileText?_eq_none_iff {text : String} :
    job.compileText? names text = none ↔
      ∃ request, job.requestFor names = .ok request ∧
        Compilation.ofSource? text request job.options = none := by
  unfold compileText?
  cases job.requestFor names with
  | error e => simp
  | ok request => simp

theorem yields_iff {text : String} (h : t.file? (job.sourcePlace names) = some (.text text)) :
    job.Yields t names c ↔ job.compileText? names text = some (.ok c) := by
  simp [Yields, compileText?_eq_ok_iff, h]

theorem exists_yields_iff {text : String} (h : t.file? (job.sourcePlace names) = some (.text text)) :
    (∃ c, job.Yields t names c) ↔ (job.compileText? names text).any Except.isOk = true := by
  simp only [yields_iff h]
  rcases job.compileText? names text with _ | _ | c
  · simp
  · simp [Except.isOk, Except.toBool]
  · simp [Except.isOk, Except.toBool]

theorem aborts_iff {text : String} (h : t.file? (job.sourcePlace names) = some (.text text)) :
    job.Aborts t names ↔ job.compileText? names text = none := by
  simp [Aborts, compileText?_eq_none_iff, h]

theorem yields_congr (h : t'.file? (job.sourcePlace names) = t.file? (job.sourcePlace names)) :
    job.Yields t' names c ↔ job.Yields t names c := by
  rw [Yields, Yields, h]

theorem aborts_congr (h : t'.file? (job.sourcePlace names) = t.file? (job.sourcePlace names)) :
    job.Aborts t' names ↔ job.Aborts t names := by
  rw [Aborts, Aborts, h]

theorem Yields.ne_nil (h : job.Yields t names c) : names ≠ [] := by
  rintro rfl
  obtain ⟨-, request, -, hrequest, -⟩ := h
  exact job.requestFor_nil request hrequest

theorem Writes.yields (h : job.Writes t files names c) : job.Yields t names c := by
  obtain ⟨-, -, -, -, hyields⟩ := h
  exact hyields

theorem Writes.mem (h : job.Writes t files names c) : names ∈ files := by
  obtain ⟨before, after, rfl, -, -⟩ := h
  exact List.mem_append_right before List.mem_cons_self

theorem not_writes_nil : ¬ job.Writes t [] names c := fun h ↦ List.not_mem_nil h.mem

theorem writes_cons_iff :
    job.Writes t (other :: files) names c ↔
      names = other ∧ job.Yields t names c ∨ ¬ job.Aborts t other ∧ job.Writes t files names c := by
  constructor
  · rintro ⟨before, after, hfiles, hbefore, hyields⟩
    cases before with
    | nil =>
        cases hfiles
        exact .inl ⟨rfl, hyields⟩
    | cons first before =>
        cases hfiles
        rw [List.forall_mem_cons] at hbefore
        exact .inr ⟨hbefore.1, before, after, rfl, hbefore.2, hyields⟩
  · rintro (⟨rfl, hyields⟩ | ⟨habort, before, after, rfl, hbefore, hyields⟩)
    · exact ⟨[], files, rfl, by simp, hyields⟩
    · exact ⟨other :: before, after, rfl, List.forall_mem_cons.mpr ⟨habort, hbefore⟩, hyields⟩

section

variable {text : String} {n : List String} {d : Compilation}

theorem not_writes_cons_of_aborts (hfile : t.file? (job.sourcePlace names) = some (.text text))
    (hresult : job.compileText? names text = none) : ¬ job.Writes t (names :: files) n d := by
  rw [writes_cons_iff, aborts_iff hfile, hresult]
  rintro (⟨rfl, hyields⟩ | ⟨habort, -⟩)
  · rw [yields_iff hfile, hresult] at hyields
    cases hyields
  · exact habort rfl

theorem writes_cons_of_fails {e : CommandError}
    (hfile : t.file? (job.sourcePlace names) = some (.text text))
    (hresult : job.compileText? names text = some (.error e)) :
    job.Writes t (names :: files) n d ↔ job.Writes t files n d := by
  rw [writes_cons_iff, aborts_iff hfile, hresult]
  refine (or_iff_right ?_).trans (and_iff_right (by simp))
  rintro ⟨rfl, hyields⟩
  rw [yields_iff hfile, hresult] at hyields
  cases hyields

theorem writes_cons_of_yields (hfile : t.file? (job.sourcePlace names) = some (.text text))
    (hresult : job.compileText? names text = some (.ok c)) :
    job.Writes t (names :: files) n d ↔ n = names ∧ d = c ∨ job.Writes t files n d := by
  rw [writes_cons_iff, aborts_iff hfile, hresult]
  refine or_congr (and_congr_right ?_) (and_iff_right (by simp))
  rintro rfl
  rw [yields_iff hfile, hresult, Option.some.injEq, Except.ok.injEq, eq_comm]

end

theorem writes_congr
    (h : ∀ n ∈ files, t'.file? (job.sourcePlace n) = t.file? (job.sourcePlace n)) :
    job.Writes t' files names c ↔ job.Writes t files names c := by
  induction files with
  | nil => exact iff_of_false not_writes_nil not_writes_nil
  | cons other files ih =>
      rw [List.forall_mem_cons] at h
      rw [writes_cons_iff, writes_cons_iff, ih h.2, aborts_congr h.1]
      refine or_congr_left (and_congr_right ?_)
      rintro rfl
      exact yields_congr h.1

/-! ## Writing declarations -/

theorem written_of_writeOutput {declarations : String}
    (h : job.writeOutput names declarations t = ⟨t', none⟩) :
    FileTree.Written t (job.outputPath names) declarations t' ∧
      t'.HasParent (job.outputPath names) := by
  unfold writeOutput FileTree.Change.andThen at h
  dsimp only at h
  split at h
  · rename_i hnone
    have hextends := t.extends_createParent (job.outputPath names)
    have hwritten := FileTree.written_of_write h
    refine ⟨⟨hextends.keeps.trans hwritten.keeps, fun l hl ↦ ?_, hwritten.read_eq⟩,
      (FileTree.hasParent_createParent hnone).of_keeps hwritten.keeps⟩
    exact (hwritten.file?_eq l hl).trans (hextends.file?_eq l)
  · rename_i hsome
    rw [h] at hsome
    cases hsome

/-- What has been written is written again without a change. -/
theorem writeOutput_eq_self {declarations : String} (hparent : t.HasParent (job.outputPath names))
    (hread : t.read (job.outputPath names) = .ok declarations) :
    job.writeOutput names declarations t = ⟨t, none⟩ := by
  unfold writeOutput
  dsimp only
  rw [hparent.createParent]
  exact FileTree.write_eq_self hread

/-! ## Compiling one file after the other -/

/-- Whether all file operations succeed while files are compiled one after the other. -/
def filesSucceed (job : Job) (s : Session) : List (List String) → Bool
  | [] => true
  | names :: files =>
      match job.compileFile? names s with
      | none => true
      | some (_, .error (.file _)) => false
      | some (s, _) => filesSucceed job s files

/-- Compiling files one after the other takes the first tree to the second, with all file operations
successful. -/
inductive Compiles (job : Job) : FileTree → List (List String) → FileTree → Prop
  | done {t : FileTree} : Compiles job t [] t
  | abort {t : FileTree} {names : List String} {files : List (List String)} {text : String} :
      t.read (pathOf job.srcPath names) = .ok text → job.compileText? names text = none →
      Compiles job t (names :: files) t
  | fail {t T : FileTree} {names : List String} {files : List (List String)} {text : String}
      {e : CommandError} :
      t.read (pathOf job.srcPath names) = .ok text → job.compileText? names text = some (.error e) →
      Compiles job t files T → Compiles job t (names :: files) T
  | write {t t' T : FileTree} {names : List String} {files : List (List String)} {text : String}
      {c : Compilation} :
      t.read (pathOf job.srcPath names) = .ok text → job.compileText? names text = some (.ok c) →
      job.writeOutput names c.declarations t = ⟨t', none⟩ →
      Compiles job t' files T → Compiles job t (names :: files) T

theorem compileFile?_of_read {s : Session} {text : String}
    (h : s.tree.read (pathOf job.srcPath names) = .ok text) :
    job.compileFile? names s = (job.compileText? names text).map fun
      | .error e => (s, .error e)
      | .ok c => job.emit names c.declarations s := by
  unfold compileFile?
  split
  · rename_i herror
    cases h.symm.trans herror
  · rename_i hok
    cases h.symm.trans hok
    rfl

theorem emit_of_writeOutput {s : Session} {declarations : String} (hstdout : job.stdout = false)
    (h : job.writeOutput names declarations s.tree = ⟨t', none⟩) :
    job.emit names declarations s = ({ s with tree := t' }, .ok (job.outputPath names)) := by
  simp [emit, hstdout, h]

theorem exists_compiles_of_filesSucceed (hstdout : job.stdout = false) {s : Session}
    (h : job.filesSucceed s files = true) : ∃ T, job.Compiles s.tree files T := by
  induction files generalizing s with
  | nil => exact ⟨s.tree, .done⟩
  | cons names files ih =>
      rw [filesSucceed] at h
      cases hread : s.tree.read (pathOf job.srcPath names) with
      | error e => simp [compileFile?, hread] at h
      | ok text =>
          rw [compileFile?_of_read hread] at h
          cases hresult : job.compileText? names text with
          | none => exact ⟨s.tree, .abort hread hresult⟩
          | some result =>
              rw [hresult] at h
              cases result with
              | error e =>
                  have hrest : job.filesSucceed s files = true := by
                    cases e <;> simp_all
                  obtain ⟨T, hT⟩ := ih hrest
                  exact ⟨T, .fail hread hresult hT⟩
              | ok c =>
                  cases hwrite : job.writeOutput names c.declarations s.tree with
                  | mk t' error =>
                      cases error with
                      | some e => simp [emit, hstdout, hwrite] at h
                      | none =>
                          simp only [Option.map_some, emit_of_writeOutput hstdout hwrite] at h
                          obtain ⟨T, hT⟩ := ih h
                          exact ⟨T, .write hread hresult hwrite hT⟩

theorem Compiles.keeps (h : job.Compiles t files T) : Keeps t T := by
  induction h with
  | done => exact .refl _
  | abort => exact .refl _
  | fail _ _ _ ih => exact ih
  | write _ _ hwrite _ ih => exact (written_of_writeOutput hwrite).1.keeps.trans ih

theorem Compiles.eq_of_aborts (h : job.Compiles t (names :: files) T)
    (habort : job.Aborts t names) : T = t := by
  cases h with
  | abort => rfl
  | fail hread hresult =>
      rw [aborts_iff (FileTree.file?_of_read hread), hresult] at habort
      cases habort
  | write hread hresult =>
      rw [aborts_iff (FileTree.file?_of_read hread), hresult] at habort
      cases habort

theorem Source.sourcePlace_ne_outputPlace (h : job.Source names) (hother : job.Source other)
    (hne : other ≠ []) : job.sourcePlace names ≠ job.outputPlace other := by
  intro heq
  have hext := h.extensionAt?_sourcePlace
  rw [heq, hother.extensionAt?_outputPlace hne] at hext
  exact absurd hext (by decide)

/-- Writing the declarations for one source changes no other. -/
theorem file?_sourcePlace_of_writeOutput (hsource : ∀ n ∈ names :: files, job.Source n)
    (hyields : job.Yields t names c)
    (hwrite : job.writeOutput names c.declarations t = ⟨t', none⟩) :
    ∀ n ∈ files, t'.file? (job.sourcePlace n) = t.file? (job.sourcePlace n) := by
  intro n hn
  rw [List.forall_mem_cons] at hsource
  exact (written_of_writeOutput hwrite).1.file?_eq _
    ((hsource.2 n hn).sourcePlace_ne_outputPlace hsource.1 hyields.ne_nil)

/-- Compiling files leaves their declarations if they compile, and all other files as they were. -/
structure Compiled (job : Job) (t : FileTree) (files : List (List String)) (T : FileTree) :
    Prop where
  read_outputPath : ∀ names c, job.Writes t files names c →
    T.read (job.outputPath names) = .ok c.declarations
  file?_eq : ∀ l, (∀ names c, job.Writes t files names c → l ≠ job.outputPlace names) →
    T.file? l = t.file? l

theorem Compiles.compiled (h : job.Compiles t files T) (hsource : ∀ names ∈ files, job.Source names)
    (hnodup : files.Nodup) : job.Compiled t files T := by
  induction h with
  | done => exact ⟨fun _ _ h ↦ absurd h not_writes_nil, fun _ _ ↦ rfl⟩
  | abort hread hresult =>
      have hfile := FileTree.file?_of_read hread
      exact ⟨fun _ _ h ↦ absurd h (not_writes_cons_of_aborts hfile hresult), fun _ _ ↦ rfl⟩
  | fail hread hresult _ ih =>
      have hfile := FileTree.file?_of_read hread
      rw [List.forall_mem_cons] at hsource
      have hrest := ih hsource.2 hnodup.of_cons
      refine ⟨fun n d hwrites ↦ ?_, fun l hl ↦ ?_⟩
      · exact hrest.read_outputPath n d ((writes_cons_of_fails hfile hresult).mp hwrites)
      · exact hrest.file?_eq l fun n d hwrites ↦
          hl n d ((writes_cons_of_fails hfile hresult).mpr hwrites)
  | @write t t' T names files text c hread hresult hwrite hcompiles ih =>
      have hfile := FileTree.file?_of_read hread
      have hwritten := (written_of_writeOutput hwrite).1
      have hsources :=
        file?_sourcePlace_of_writeOutput hsource ((yields_iff hfile).mpr hresult) hwrite
      rw [List.forall_mem_cons] at hsource
      have hrest := ih hsource.2 hnodup.of_cons
      have hiff : ∀ n d, job.Writes t (names :: files) n d ↔
          n = names ∧ d = c ∨ job.Writes t' files n d := fun n d ↦ by
        rw [writes_cons_of_yields hfile hresult, writes_congr hsources]
      -- The place that has been written now is not written again.
      have hother : ∀ n d, job.Writes t' files n d → job.outputPlace names ≠ job.outputPlace n := by
        intro n d hwrites heq
        have hmem := hwrites.mem
        rw [← hsource.1.outputPlace_inj (hsource.2 n hmem) heq] at hmem
        exact (List.nodup_cons.mp hnodup).1 hmem
      refine ⟨fun n d hwrites ↦ ?_, fun l hl ↦ ?_⟩
      · rcases (hiff n d).mp hwrites with ⟨rfl, rfl⟩ | hwrites
        · exact hcompiles.keeps.read hwritten.read_eq (hrest.file?_eq _ hother)
        · exact hrest.read_outputPath n d hwrites
      · rw [hrest.file?_eq l fun n d hwrites ↦ hl n d ((hiff n d).mpr (.inr hwrites))]
        exact hwritten.file?_eq l (hl names c ((hiff names c).mpr (.inl ⟨rfl, rfl⟩)))

end Job

/-! ## Messages and counts -/

namespace Progress

variable {job : Job} {p : Progress} {names : List String} {text : String}

/-- One more file has failed. -/
def addFailure (p : Progress) (names : List String) (e : CommandError) : Progress :=
  { p with
    session := p.session.printError ("  ✗ " ++ relativePath names ++ " - " ++ e.message)
    failed := p.failed + 1 }

/-- One more file has been compiled, with this target and this tree. -/
def addSuccess (p : Progress) (names : List String) (target : String) (t : FileTree) : Progress :=
  { p with
    session := { p.session with tree := t }.print
      ("  ✓ " ++ relativePath names ++ " → " ++ target)
    succeeded := p.succeeded + 1 }

/-- The same messages and counts with another tree. -/
def withTree (p : Progress) (t : FileTree) : Progress :=
  { p with session := { p.session with tree := t } }

theorem foldl_step_of_aborted (h : p.aborted = true) (files : List (List String)) :
    files.foldl (step job) p = p := by
  induction files with
  | nil => rfl
  | cons names files ih => rwa [List.foldl_cons, step, if_pos h]

theorem step_of_aborts (hp : p.aborted = false)
    (hread : p.session.tree.read (pathOf job.srcPath names) = .ok text)
    (hresult : job.compileText? names text = none) :
    p.step job names = { p with aborted := true } := by
  simp [step, hp, Job.compileFile?_of_read hread, hresult]

theorem step_of_fails (hp : p.aborted = false) {e : CommandError}
    (hread : p.session.tree.read (pathOf job.srcPath names) = .ok text)
    (hresult : job.compileText? names text = some (.error e)) :
    p.step job names = p.addFailure names e := by
  simp [step, hp, Job.compileFile?_of_read hread, hresult, addFailure]

theorem step_of_writes (hstdout : job.stdout = false) (hp : p.aborted = false) {c : Compilation}
    {t : FileTree} (hread : p.session.tree.read (pathOf job.srcPath names) = .ok text)
    (hresult : job.compileText? names text = some (.ok c))
    (hwrite : job.writeOutput names c.declarations p.session.tree = ⟨t, none⟩) :
    p.step job names = p.addSuccess names (job.outputPath names) t := by
  simp [step, hp, Job.compileFile?_of_read hread, hresult, Job.emit_of_writeOutput hstdout hwrite,
    addSuccess]

theorem failed_le_step (job : Job) (p : Progress) (names : List String) :
    p.failed ≤ (p.step job names).failed := by
  unfold step
  split
  · exact Nat.le_refl _
  · split
    · exact Nat.le_refl _
    · exact Nat.le_refl _
    · exact Nat.le_succ _

theorem failed_le_foldl (job : Job) (p : Progress) (files : List (List String)) :
    p.failed ≤ (files.foldl (step job) p).failed := by
  induction files generalizing p with
  | nil => exact Nat.le_refl _
  | cons names files ih => exact (failed_le_step job p names).trans (ih _)

end Progress

namespace Job

open Progress

variable {job : Job} {t T : FileTree} {files : List (List String)}

theorem Compiles.tree_foldl_step (h : job.Compiles t files T) (hstdout : job.stdout = false)
    {p : Progress} (hp : p.aborted = false) (ht : p.session.tree = t) :
    (files.foldl (step job) p).session.tree = T := by
  induction h generalizing p with
  | done => exact ht
  | abort hread hresult =>
      subst ht
      rw [List.foldl_cons, step_of_aborts hp hread hresult, foldl_step_of_aborted rfl]
  | fail hread hresult _ ih =>
      subst ht
      rw [List.foldl_cons, step_of_fails hp hread hresult]
      exact ih (p := p.addFailure _ _) hp rfl
  | write hread hresult hwrite _ ih =>
      subst ht
      rw [List.foldl_cons, step_of_writes hstdout hp hread hresult hwrite]
      exact ih (p := p.addSuccess _ _ _) hp rfl

theorem Compiles.foldl_step_succeeds_iff (h : job.Compiles t files T) (hstdout : job.stdout = false)
    (hsource : ∀ names ∈ files, job.Source names) {p : Progress} (hp : p.aborted = false)
    (ht : p.session.tree = t) :
    (files.foldl (step job) p).aborted = false ∧ (files.foldl (step job) p).failed = p.failed ↔
      ∀ names ∈ files, ∃ c, job.Yields t names c := by
  induction h generalizing p with
  | done => simp [hp]
  | abort hread hresult =>
      subst ht
      rw [List.foldl_cons, step_of_aborts hp hread hresult, foldl_step_of_aborted rfl,
        List.forall_mem_cons]
      simp [yields_iff (FileTree.file?_of_read hread), hresult]
  | @fail t T names files text e hread hresult _ ih =>
      subst ht
      rw [List.foldl_cons, step_of_fails hp hread hresult, List.forall_mem_cons]
      refine iff_of_false ?_ ?_
      · rintro ⟨-, hfailed⟩
        have hle : p.failed + 1 ≤ _ := failed_le_foldl job (p.addFailure names e) files
        omega
      · simp [yields_iff (FileTree.file?_of_read hread), hresult]
  | write hread hresult hwrite _ ih =>
      subst ht
      have hyields := (yields_iff (FileTree.file?_of_read hread)).mpr hresult
      have hsources := file?_sourcePlace_of_writeOutput hsource hyields hwrite
      rw [List.forall_mem_cons] at hsource
      rw [List.foldl_cons, step_of_writes hstdout hp hread hresult hwrite, List.forall_mem_cons]
      refine (ih hsource.2 (p := p.addSuccess _ _ _) hp rfl).trans ?_
      rw [and_iff_right ⟨_, hyields⟩]
      refine forall₂_congr fun n hn ↦ exists_congr fun d ↦ ?_
      exact yields_congr (hsources n hn)

/-- Compiling the files again in a tree that has their declarations already, with the same messages
and counts. -/
theorem Compiles.foldl_step_withTree (h : job.Compiles t files T) (hstdout : job.stdout = false)
    (hsource : ∀ names ∈ files, job.Source names) {S : FileTree} (hkeeps : Keeps T S)
    (hsources : ∀ names ∈ files, S.file? (job.sourcePlace names) = t.file? (job.sourcePlace names))
    (houtputs : ∀ names c, job.Writes t files names c →
      S.read (job.outputPath names) = .ok c.declarations)
    {p : Progress} (hp : p.aborted = false) (ht : p.session.tree = t) :
    files.foldl (step job) (p.withTree S) = (files.foldl (step job) p).withTree S := by
  induction h generalizing p with
  | done => rfl
  | abort hread hresult =>
      subst ht
      rw [List.forall_mem_cons] at hsources
      have hreadS := hkeeps.read hread hsources.1
      rw [List.foldl_cons, List.foldl_cons, step_of_aborts hp hread hresult,
        step_of_aborts (p := p.withTree S) hp hreadS hresult, foldl_step_of_aborted rfl,
        foldl_step_of_aborted rfl]
      rfl
  | fail hread hresult hcompiles ih =>
      subst ht
      have hfile := FileTree.file?_of_read hread
      rw [List.forall_mem_cons] at hsource hsources
      have hreadS := (hcompiles.keeps.trans hkeeps).read hread hsources.1
      rw [List.foldl_cons, List.foldl_cons, step_of_fails hp hread hresult,
        step_of_fails (p := p.withTree S) hp hreadS hresult]
      refine ih hsource.2 hkeeps hsources.2 (fun n d hwrites ↦ ?_) (p := p.addFailure _ _) hp rfl
      exact houtputs n d ((writes_cons_of_fails hfile hresult).mpr hwrites)
  | @write t t' T names files text c hread hresult hwrite hcompiles ih =>
      subst ht
      have hfile := FileTree.file?_of_read hread
      have hkept := file?_sourcePlace_of_writeOutput hsource ((yields_iff hfile).mpr hresult) hwrite
      obtain ⟨hwritten, hparent⟩ := written_of_writeOutput hwrite
      rw [List.forall_mem_cons] at hsource hsources
      have hkeeps' := hcompiles.keeps.trans hkeeps
      have hreadS := (hwritten.keeps.trans hkeeps').read hread hsources.1
      -- The last tree has the directory and the declarations already.
      have hwriteS : job.writeOutput names c.declarations S = ⟨S, none⟩ :=
        writeOutput_eq_self (hparent.of_keeps hkeeps')
          (houtputs names c ((writes_cons_of_yields hfile hresult).mpr (.inl ⟨rfl, rfl⟩)))
      rw [List.foldl_cons, List.foldl_cons, step_of_writes hstdout hp hread hresult hwrite,
        step_of_writes (p := p.withTree S) hstdout hp hreadS hresult hwriteS]
      refine ih hsource.2 hkeeps (fun n hn ↦ ?_) (fun n d hwrites ↦ ?_)
        (p := p.addSuccess _ _ _) hp rfl
      · rw [hsources.2 n hn, hkept n hn]
      · rw [writes_congr hkept] at hwrites
        exact houtputs n d ((writes_cons_of_yields hfile hresult).mpr (.inr hwrites))

end Job

end Command

end FluentShapes
