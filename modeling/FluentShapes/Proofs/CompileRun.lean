import FluentShapes.Proofs.Project

/-!
# Runs of the compile command

A run lists the sources of a project, compiles them one after the other and says how that went.  It
treats every file on its own: what is written for a file depends on its text only, nothing but
declarations is written, and the run succeeds if all files compile.  Since declarations are never
taken for sources, a second run finds the same files and changes nothing.

There are two exceptions.  A file with a fault that cannot be worded aborts the command, so that
nothing behind it is written.  And a first run that puts its declarations in a directory with the
name of the configuration leaves a project that cannot be loaded.
-/

namespace FluentShapes

open FileTree (Keeps)

/-! ## The configuration -/

namespace Config

variable {t T : FileTree} {root : String} {config : Config}

theorem load_eq_ok_iff :
    load t root = .ok config ↔
      t.find? (Path.join root fileName) = none ∧ config = default ∨
        ∃ text, t.read (Path.join root fileName) = .ok text ∧ parse? text = some config := by
  unfold load
  dsimp only
  cases hfind : t.find? (Path.join root fileName) with
  | none =>
      have hread : ∀ text, t.read (Path.join root fileName) ≠ .ok text := by
        intro text h
        rw [FileTree.read_eq_ok_iff, ← FileTree.find?_eq_some_iff, hfind] at h
        cases h
      simp [FileTree.pathExists, hfind, hread, eq_comm]
  | some node =>
      rw [FileTree.pathExists, hfind, Option.isSome_some, if_pos rfl]
      cases t.read (Path.join root fileName) with
      | error e => simp [Except.mapError, bind, Except.bind]
      | ok text =>
          simp only [Except.mapError, bind, Except.bind]
          cases hparse : parse? text <;> simp [hparse]

/-- The configuration is the same after directories have been added, but for one where the file
would be. -/
theorem load_of_keeps (hload : load t root = .ok config)
    (hsrc : t.pathExists (config.srcPath root) = true) (hkeeps : Keeps t T)
    (hfile : T.file? (Path.location (Path.join root fileName)) =
      t.file? (Path.location (Path.join root fileName)))
    (hnode : T.find? (Path.join root fileName) ≠ some .directory) : load T root = .ok config := by
  rcases load_eq_ok_iff.mp hload with ⟨hnone, rfl⟩ | ⟨text, hread, hparse⟩
  · refine load_eq_ok_iff.mpr (.inl ⟨?_, rfl⟩)
    cases hfind : T.find? (Path.join root fileName) with
    | none => rfl
    | some node =>
        cases node with
        | directory => exact absurd hfind hnode
        | file content =>
            -- The file would have been found next to the source directory.
            obtain ⟨l, hl, hnode⟩ := FileTree.find?_eq_some_iff.mp hfind
            obtain ⟨l', hl', -⟩ := FileTree.pathExists_iff.mp hsrc
            have hlocate : t.locate (Path.join root fileName) = .ok l :=
              hkeeps.locate_join (a := default.srcDir) (by decide) (by decide) hl' hl
            rw [← FileTree.eq_location_of_locate hl] at hfile
            rw [FileTree.node?_eq_file_iff, hfile, ← FileTree.node?_eq_file_iff] at hnode
            rw [FileTree.find?_eq_some_iff.mpr ⟨l, hlocate, hnode⟩] at hnone
            cases hnone
  · exact load_eq_ok_iff.mpr (.inr ⟨text, hkeeps.read hread hfile, hparse⟩)

theorem load_of_directory (h : t.find? (Path.join root fileName) = some .directory) :
    load t root = .error (.file .isDirectory) := by
  obtain ⟨l, hl, hnode⟩ := FileTree.find?_eq_some_iff.mp h
  have hread : t.read (Path.join root fileName) = .error .isDirectory := by
    simp only [FileTree.read, hl, bind, Except.bind, hnode]
  simp [load, FileTree.pathExists, h, hread, Except.mapError, bind, Except.bind]

end Config

namespace Command

variable {job : Job} {t T : FileTree} {s : Session} {names : List String}
  {files : List (List String)}

/-! ## The sources -/

theorem Job.source_of_mem_sources (ht : t.Named) (h : names ∈ sources t job.srcPath) :
    job.Source names := by
  unfold sources at h
  split at h
  · rename_i l hl
    obtain ⟨hmem, hsource⟩ := List.mem_filter.mp h
    obtain ⟨content, hfile⟩ := FileTree.mem_filesBelow_iff.mp hmem
    exact ⟨fun name hname ↦ ht.isName hfile name (List.mem_append_right l hname), hsource⟩
  · cases h

theorem nodup_sources (t : FileTree) (srcPath : String) : (sources t srcPath).Nodup := by
  unfold sources
  split
  · exact (t.nodup_filesBelow _).filter _
  · exact List.nodup_nil

theorem sources_of_pairwise {srcPath : String} {l : Location} (hl : t.locate srcPath = .ok l)
    (h : (t.entries.filterMap (FileTree.listed? l)).Pairwise fun a b ↦
      FileTree.listedBefore a b = true) :
    sources t srcPath = (t.entries.filterMap (FileTree.listed? l)).filter (isSource srcPath) := by
  simp only [sources, hl, FileTree.filesBelow_of_pairwise h]

namespace Job

/-- Declarations are all that is written. -/
theorem Compiled.file?_of_extensionAt? (h : job.Compiled t files T)
    (hsource : ∀ names ∈ files, job.Source names) {l : Location} (hl : extensionAt? l ≠ some "ts") :
    T.file? l = t.file? l := by
  refine h.file?_eq l ?_
  rintro names c hwrites rfl
  exact hl ((hsource names hwrites.mem).extensionAt?_outputPlace hwrites.yields.ne_nil)

theorem Compiled.file?_sourcePlace (h : job.Compiled t files T)
    (hsource : ∀ names ∈ files, job.Source names) :
    ∀ names ∈ files, T.file? (job.sourcePlace names) = t.file? (job.sourcePlace names) := by
  intro names hnames
  apply h.file?_of_extensionAt? hsource
  rw [(hsource names hnames).extensionAt?_sourcePlace]
  decide

theorem Compiled.sources_eq (h : job.Compiled t files T)
    (hsource : ∀ names ∈ files, job.Source names) (hkeeps : Keeps t T)
    (hexists : t.pathExists job.srcPath = true) :
    sources T job.srcPath = sources t job.srcPath := by
  obtain ⟨l, hl, -⟩ := FileTree.pathExists_iff.mp hexists
  simp only [sources, hl, hkeeps.locate hl]
  refine FileTree.filter_filesBelow_eq fun names hnames ↦ h.file?_of_extensionAt? hsource ?_
  rw [FileTree.eq_location_of_locate hl, extensionAt?, extension?_of_isSource hnames]
  decide

end Job

/-! ## The run -/

namespace Progress

/-- Nothing is compiled yet. -/
def start (s : Session) (count : Nat) : Progress :=
  ⟨(s.print "🔨 Generating Fluent declarations...").print ("Found " ++ toString count ++ " files"),
    0, 0, false⟩

/-- How a command ends with this progress. -/
def close (p : Progress) : Session × Ending :=
  if p.aborted then (p.session, .aborted)
  else (p.session.printAll ["", p.summary],
    if p.failed = 0 then .success else .failure (.failedFiles p.failed))

theorem tree_close (p : Progress) : p.close.1.tree = p.session.tree := by
  unfold close
  split <;> rfl

theorem exit_finish_close (p : Progress) :
    (finish p.close).exit = 0 ↔ p.aborted = false ∧ p.failed = 0 := by
  unfold close
  split
  · rename_i h
    simp [finish, h]
  · rename_i h
    split
    · rename_i h'
      simp [finish, h, h']
    · rename_i h'
      simp [finish, h']

theorem withTree_eq_self {p : Progress} (h : p.session.tree = t) : p.withTree t = p := by
  subst h
  rfl

end Progress

theorem runJob_of_nil (h : sources s.tree job.srcPath = []) :
    runJob job false s =
      ((s.print "🔨 Generating Fluent declarations...").print "⚠️  No .ftl files found",
        .success) := by
  unfold runJob
  dsimp only
  split
  · rfl
  · rename_i hne
    exact absurd h hne

theorem runJob_of_ne_nil (h : sources s.tree job.srcPath ≠ []) :
    runJob job false s =
      ((sources s.tree job.srcPath).foldl (Progress.step job)
        (.start s (sources s.tree job.srcPath).length)).close := by
  unfold runJob
  dsimp only
  split
  · rename_i hnil
    exact absurd hnil h
  · rfl

theorem tree_finish (result : Session × Ending) : (finish result).session.tree = result.1.tree := by
  unfold finish
  split <;> rfl

namespace Job

theorem Compiles.tree_runJob (h : job.Compiles s.tree (sources s.tree job.srcPath) T)
    (hstdout : job.stdout = false) : (runJob job false s).1.tree = T := by
  by_cases hnil : sources s.tree job.srcPath = []
  · rw [runJob_of_nil hnil]
    rw [hnil] at h
    cases h
    rfl
  · rw [runJob_of_ne_nil hnil, Progress.tree_close]
    exact h.tree_foldl_step hstdout rfl rfl

theorem Compiles.exit_runJob (h : job.Compiles s.tree (sources s.tree job.srcPath) T)
    (hstdout : job.stdout = false)
    (hsource : ∀ names ∈ sources s.tree job.srcPath, job.Source names) :
    (finish (runJob job false s)).exit = 0 ↔
      ∀ names ∈ sources s.tree job.srcPath, ∃ c, job.Yields s.tree names c := by
  by_cases hnil : sources s.tree job.srcPath = []
  · rw [runJob_of_nil hnil, hnil]
    simp [finish]
  · rw [runJob_of_ne_nil hnil, Progress.exit_finish_close]
    exact h.foldl_step_succeeds_iff hstdout hsource rfl rfl

theorem Compiles.runJob_again (h : job.Compiles s.tree (sources s.tree job.srcPath) T)
    (hstdout : job.stdout = false)
    (hsource : ∀ names ∈ sources s.tree job.srcPath, job.Source names)
    (hcompiled : job.Compiled s.tree (sources s.tree job.srcPath) T)
    (hsources : sources T job.srcPath = sources s.tree job.srcPath) :
    runJob job false { s with tree := T } = runJob job false s := by
  by_cases hnil : sources s.tree job.srcPath = []
  · rw [hnil] at h
    cases h
    rfl
  · have hplaces := hcompiled.file?_sourcePlace hsource
    let p := Progress.start s (sources s.tree job.srcPath).length
    calc runJob job false { s with tree := T }
      _ = ((sources T job.srcPath).foldl (Progress.step job)
            (.start { s with tree := T } (sources T job.srcPath).length)).close :=
          runJob_of_ne_nil (hsources.symm ▸ hnil)
      _ = ((sources s.tree job.srcPath).foldl (Progress.step job) (p.withTree T)).close := by
          rw [hsources]
          rfl
      _ = (((sources s.tree job.srcPath).foldl (Progress.step job) p).withTree T).close := by
          rw [h.foldl_step_withTree hstdout hsource (.refl T) hplaces hcompiled.read_outputPath rfl
            rfl]
      _ = ((sources s.tree job.srcPath).foldl (Progress.step job) p).close := by
          rw [Progress.withTree_eq_self (h.tree_foldl_step hstdout rfl rfl)]
      _ = runJob job false s := (runJob_of_ne_nil hnil).symm

end Job

/-! ## Command lines -/

variable {cwd : String} {line : List String} {arguments : CompileArguments} {config : Config}

theorem runLine_of_parse (hline : parse line = .ok (.compile arguments)) (cwd : String)
    (t : FileTree) : runLine cwd line t = finish (runCompile cwd arguments ⟨t, "", ""⟩) := by
  rw [runLine, hline]
  rfl

theorem runCompile_of_load (hload : Config.load s.tree (Path.join cwd arguments.path) = .ok config)
    (hexists : s.tree.pathExists (config.srcPath (Path.join cwd arguments.path)) = true) :
    runCompile cwd arguments s =
      runJob (jobOf arguments (Path.join cwd arguments.path) config) arguments.watch s := by
  unfold runCompile
  dsimp only
  split
  · rename_i hload'
    cases hload.symm.trans hload'
  · rename_i config' hload'
    cases hload.symm.trans hload'
    exact if_pos hexists

theorem runCompile_of_error (cwd : String) (arguments : CompileArguments) {e : CommandError}
    (hload : Config.load s.tree (Path.join cwd arguments.path) = .error e) :
    runCompile cwd arguments s = (s, .failure e) := by
  unfold runCompile
  dsimp only
  split
  · rename_i hload'
    cases hload.symm.trans hload'
    rfl
  · rename_i hload'
    cases hload.symm.trans hload'

theorem runLine_of_load (hline : parse line = .ok (.compile arguments))
    (hwatch : arguments.watch = false)
    (hload : Config.load t (Path.join cwd arguments.path) = .ok config)
    (hexists : t.pathExists (config.srcPath (Path.join cwd arguments.path)) = true) :
    runLine cwd line t = finish
      (runJob (jobOf arguments (Path.join cwd arguments.path) config) false ⟨t, "", ""⟩) := by
  have hrun := runCompile_of_load (s := ⟨t, "", ""⟩) hload hexists
  rw [hwatch] at hrun
  rw [runLine_of_parse hline, hrun]

theorem runLine_of_directory (hline : parse line = .ok (.compile arguments))
    (h : t.find? (Path.join (Path.join cwd arguments.path) Config.fileName) = some .directory) :
    runLine cwd line t = finish (⟨t, "", ""⟩, .failure (.file .isDirectory)) := by
  have hrun := runCompile_of_error cwd arguments (s := ⟨t, "", ""⟩) (Config.load_of_directory h)
  rw [runLine_of_parse hline, hrun]

/-- A run of the compile command that neither watches nor prints the declarations, whose
configuration loads, whose source directory is there and whose file operations all succeed.  Reading
a source that is no text fails.  The tree holds files and directories, and no links. -/
structure CompileRun (cwd : String) (line : List String) (t : FileTree)
    (arguments : CompileArguments) (config : Config) : Prop where
  named : t.Named
  parse_line : parse line = .ok (.compile arguments)
  watch_eq : arguments.watch = false
  stdout_eq : arguments.stdout = false
  load_eq : Config.load t (Path.join cwd arguments.path) = .ok config
  pathExists : t.pathExists (config.srcPath (Path.join cwd arguments.path)) = true
  filesSucceed : (jobOf arguments (Path.join cwd arguments.path) config).filesSucceed ⟨t, "", ""⟩
    (sources t (config.srcPath (Path.join cwd arguments.path))) = true

namespace CompileRun

variable (h : CompileRun cwd line t arguments config)

include h

theorem source : ∀ names ∈ sources t (config.srcPath (Path.join cwd arguments.path)),
    (jobOf arguments (Path.join cwd arguments.path) config).Source names :=
  fun _ hnames ↦ Job.source_of_mem_sources h.named hnames

theorem runLine_eq : runLine cwd line t =
    finish (runJob (jobOf arguments (Path.join cwd arguments.path) config) false ⟨t, "", ""⟩) :=
  runLine_of_load h.parse_line h.watch_eq h.load_eq h.pathExists

theorem compiles : (jobOf arguments (Path.join cwd arguments.path) config).Compiles t
    (sources t (config.srcPath (Path.join cwd arguments.path)))
    (runLine cwd line t).session.tree := by
  obtain ⟨T, hT⟩ := Job.exists_compiles_of_filesSucceed h.stdout_eq h.filesSucceed
  rwa [h.runLine_eq, tree_finish, hT.tree_runJob h.stdout_eq]

theorem compiled : (jobOf arguments (Path.join cwd arguments.path) config).Compiled t
    (sources t (config.srcPath (Path.join cwd arguments.path))) (runLine cwd line t).session.tree :=
  h.compiles.compiled h.source (nodup_sources t _)

theorem file?_config (root : String) :
    (runLine cwd line t).session.tree.file? (Path.location (Path.join root Config.fileName)) =
      t.file? (Path.location (Path.join root Config.fileName)) := by
  apply h.compiled.file?_of_extensionAt? h.source
  rw [Path.location_join root (by decide), Job.extensionAt?, List.getLast?_concat]
  decide

theorem sources_eq : sources (runLine cwd line t).session.tree
    (config.srcPath (Path.join cwd arguments.path)) =
      sources t (config.srcPath (Path.join cwd arguments.path)) :=
  h.compiled.sources_eq h.source h.compiles.keeps h.pathExists

theorem runLine_again (hnode : (runLine cwd line t).session.tree.find?
    (Path.join (Path.join cwd arguments.path) Config.fileName) ≠ some .directory) :
    runLine cwd line (runLine cwd line t).session.tree = runLine cwd line t := by
  have hkeeps := h.compiles.keeps
  have hload := Config.load_of_keeps h.load_eq h.pathExists hkeeps (h.file?_config _) hnode
  have hsrc := hkeeps.pathExists h.pathExists
  calc runLine cwd line (runLine cwd line t).session.tree
    _ = finish (runJob (jobOf arguments (Path.join cwd arguments.path) config) false
          ⟨(runLine cwd line t).session.tree, "", ""⟩) :=
        runLine_of_load h.parse_line h.watch_eq hload hsrc
    _ = finish (runJob (jobOf arguments (Path.join cwd arguments.path) config) false ⟨t, "", ""⟩) :=
        congrArg finish
          (h.compiles.runJob_again (s := ⟨t, "", ""⟩) h.stdout_eq h.source h.compiled h.sources_eq)
    _ = runLine cwd line t := h.runLine_eq.symm

theorem tree_runLine_again :
    (runLine cwd line (runLine cwd line t).session.tree).session.tree =
      (runLine cwd line t).session.tree := by
  by_cases hnode : (runLine cwd line t).session.tree.find?
      (Path.join (Path.join cwd arguments.path) Config.fileName) = some .directory
  · rw [runLine_of_directory h.parse_line hnode, tree_finish]
  · rw [h.runLine_again hnode]

end CompileRun

/-! ## Small projects -/

/-- What `compile` means without more. -/
def plainArguments : CompileArguments := ⟨".", false, none, none, false, false⟩

/-- A project with a good file, a bad one and another good one in a directory. Its declarations go
below its sources. -/
def mixedProject : FileTree :=
  let t := FileTree.place ∅ ["p", Config.fileName] "\x7b\"outDir\": \"src/out\"\x7d"
  let t := t.place ["p", "src", "a.ftl"] "a = A \x7b $n \x7d\n"
  let t := t.place ["p", "src", "b.ftl"] "b\n"
  t.place ["p", "src", "d", "c.ftl"] "c = C\n"

def mixedConfig : Config := { Config.default with outDir := some "src/out" }

theorem sources_mixedProject :
    sources mixedProject "p/./src" = [["a.ftl"], ["b.ftl"], ["d", "c.ftl"]] := by
  rw [sources_of_pairwise (l := ["p", "src"]) (by decide +kernel) (by decide +kernel)]
  decide +kernel

theorem compileRun_mixedProject :
    CompileRun "p" ["compile"] mixedProject plainArguments mixedConfig where
  named := by decide +kernel
  parse_line := rfl
  watch_eq := rfl
  stdout_eq := rfl
  load_eq := Config.load_eq_ok_iff.mpr
    (.inr ⟨"\x7b\"outDir\": \"src/out\"\x7d", by decide +kernel, by decide +kernel⟩)
  pathExists := by decide +kernel
  filesSucceed := by
    refine (congrArg _ sources_mixedProject).trans ?_
    decide +kernel

/-- A project with one good file. -/
def loneProject : FileTree := FileTree.place ∅ ["p", "src", "b.ftl"] "b = B\n"

/-- A project with a file that aborts the command in front of a good one. -/
def garbledProject : FileTree :=
  let t := FileTree.place ∅ ["p", "src", "a.ftl"] "a = \x7b \"\\u00é\" \x7d\n"
  t.place ["p", "src", "b.ftl"] "b = B\n"

theorem sources_garbledProject : sources garbledProject "p/./src" = [["a.ftl"], ["b.ftl"]] := by
  rw [sources_of_pairwise (l := ["p", "src"]) (by decide +kernel) (by decide +kernel)]
  decide +kernel

theorem compileRun_garbledProject :
    CompileRun "p" ["compile"] garbledProject plainArguments Config.default where
  named := by decide +kernel
  parse_line := rfl
  watch_eq := rfl
  stdout_eq := rfl
  load_eq := Config.load_eq_ok_iff.mpr (.inl ⟨by decide +kernel, rfl⟩)
  pathExists := by decide +kernel
  filesSucceed := by
    refine (congrArg _ sources_garbledProject).trans ?_
    decide +kernel

theorem compileRun_loneProject :
    CompileRun "p" ["compile", "--out-dir", Config.fileName] loneProject
      { plainArguments with outDir := some Config.fileName } Config.default where
  named := by decide +kernel
  parse_line := rfl
  watch_eq := rfl
  stdout_eq := rfl
  load_eq := Config.load_eq_ok_iff.mpr (.inl ⟨by decide +kernel, rfl⟩)
  pathExists := by decide +kernel
  filesSucceed := by decide +kernel

/-! ## Every file on its own -/

/-- In a tree of files and directories, the declarations for a file are written if it compiles and no
file in front of it aborts the command, whatever else there is.  Nothing else is changed, and the run
succeeds if all files compile.  The same run again finds the same files and changes nothing.  Its
messages are the same too, unless the first run has made a directory where the configuration would
be.  Then the second run fails. -/
theorem CompileRun.each_file_on_its_own (h : CompileRun cwd line t arguments config) :
    let root := Path.join cwd arguments.path
    let job := jobOf arguments root config
    let files := sources t job.srcPath
    let after := (runLine cwd line t).session.tree
    (∀ names c, job.Writes t files names c →
        after.read (job.outputPath names) = .ok c.declarations) ∧
      (∀ l, (∀ names c, job.Writes t files names c → l ≠ job.outputPlace names) →
        after.file? l = t.file? l) ∧
      (∀ names ∈ files, (∀ c, ¬ job.Writes t files names c) →
        after.file? (job.outputPlace names) = t.file? (job.outputPlace names)) ∧
      (∀ names ∈ files, after.file? (job.sourcePlace names) = t.file? (job.sourcePlace names)) ∧
      after.file? (Path.location (Path.join root Config.fileName)) =
        t.file? (Path.location (Path.join root Config.fileName)) ∧
      ((runLine cwd line t).exit = 0 ↔ ∀ names ∈ files, ∃ c, job.Yields t names c) ∧
      sources after job.srcPath = files ∧
      (runLine cwd line after).session.tree = after ∧
      (after.find? (Path.join root Config.fileName) ≠ some .directory →
        runLine cwd line after = runLine cwd line t) ∧
      (after.find? (Path.join root Config.fileName) = some .directory →
        (runLine cwd line after).exit = 1) := by
  intro root job files after
  refine ⟨h.compiled.read_outputPath, h.compiled.file?_eq, fun names hnames hnone ↦ ?_,
    h.compiled.file?_sourcePlace h.source, h.file?_config root, ?_, h.sources_eq,
    h.tree_runLine_again, h.runLine_again, fun hnode ↦ ?_⟩
  · apply h.compiled.file?_eq
    intro other c hwrites heq
    rw [(h.source names hnames).outputPlace_inj (h.source other hwrites.mem) heq] at hnone
    exact hnone c hwrites
  · rw [h.runLine_eq]
    exact h.compiles.exit_runJob (s := ⟨t, "", ""⟩) h.stdout_eq h.source
  · rw [runLine_of_directory h.parse_line hnode]
    rfl

theorem CompileRun.each_file_on_its_own_mixed :
    let job := jobOf plainArguments "p/." mixedConfig
    let after := (runLine "p" ["compile"] mixedProject).session.tree
    CompileRun "p" ["compile"] mixedProject plainArguments mixedConfig ∧
      (∃ c, job.Yields mixedProject ["d", "c.ftl"] c ∧
        after.read "p/./src/out/d/c.ftl.d.ts" = .ok c.declarations) ∧
      after.file? ["p", "src", "b.ftl"] = some (.text "b\n") ∧
      sources after "p/./src" = [["a.ftl"], ["b.ftl"], ["d", "c.ftl"]] ∧
      (runLine "p" ["compile"] after).session.tree = after := by
  intro job after
  obtain ⟨houtput, -, -, hsource, -, -, hsources, htree, -⟩ :=
    each_file_on_its_own compileRun_mixedProject
  refine ⟨compileRun_mixedProject, ?_, ?_, hsources.trans sources_mixedProject, htree⟩
  · have ha : mixedProject.file? (job.sourcePlace ["a.ftl"]) =
        some (.text "a = A \x7b $n \x7d\n") := by decide +kernel
    have hb : mixedProject.file? (job.sourcePlace ["b.ftl"]) = some (.text "b\n") := by
      decide +kernel
    have hc : mixedProject.file? (job.sourcePlace ["d", "c.ftl"]) = some (.text "c = C\n") := by
      decide +kernel
    obtain ⟨c, hyields⟩ := (Job.exists_yields_iff hc).mpr (by decide +kernel)
    have hearlier : ∀ earlier ∈ [["a.ftl"], ["b.ftl"]], ¬ job.Aborts mixedProject earlier := by
      rw [List.forall_mem_cons, List.forall_mem_singleton, Job.aborts_iff ha, Job.aborts_iff hb]
      decide +kernel
    exact ⟨c, hyields, houtput ["d", "c.ftl"] c
      ⟨[["a.ftl"], ["b.ftl"]], [], sources_mixedProject, hearlier, hyields⟩⟩
  · refine (hsource ["b.ftl"] (sources_mixedProject ▸ by decide)).trans ?_
    decide +kernel

/-- The second run fails if declarations have gone to a directory where the configuration would be,
and nothing is written for a good file behind one that aborts the command. -/
theorem CompileRun.config_directory_and_garbled_file :
    (let line := ["compile", "--out-dir", Config.fileName]
      let first := runLine "p" line loneProject
      let second := runLine "p" line first.session.tree
      CompileRun "p" line loneProject { plainArguments with outDir := some Config.fileName }
          Config.default ∧
        first.exit = 0 ∧ second.exit = 1 ∧ second.session.stdout = "") ∧
      CompileRun "p" ["compile"] garbledProject plainArguments Config.default ∧
      (runLine "p" ["compile"] loneProject).session.tree.file? ["p", "src", "b.ftl.d.ts"] ≠ none ∧
      (runLine "p" ["compile"] garbledProject).session.tree.file? ["p", "src", "b.ftl.d.ts"] =
        none := by
  refine ⟨⟨compileRun_loneProject, by decide +kernel⟩, compileRun_garbledProject,
    by decide +kernel, ?_⟩
  have hcompiles := compileRun_garbledProject.compiles
  have hsources : sources garbledProject
    (Config.default.srcPath (Path.join "p" plainArguments.path)) = [["a.ftl"], ["b.ftl"]] :=
      sources_garbledProject
  rw [hsources] at hcompiles
  have htree := hcompiles.eq_of_aborts
    ⟨"a = \x7b \"\\u00é\" \x7d\n", ⟨"a.ftl", none⟩, by decide +kernel⟩
  rw [htree]
  decide +kernel

end Command

end FluentShapes
