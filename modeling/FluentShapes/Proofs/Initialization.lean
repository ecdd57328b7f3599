import FluentShapes.Proofs.CompileRun

/-!
# Starting a project

The init command makes the source directory, an example in it and the configuration, in this order.
The first two are only made if they are not there, so no file is changed by them and at most one is
new (`FileTree.Gains`).  The configuration comes last and is only written if all went well until
then.  `Command.runInit_cases` says this once, and what the command leaves of the files follows from
it, wherever the source directory is.
-/

namespace FluentShapes

theorem Session.tree_printAll (s : Session) (lines : List String) :
    (s.printAll lines).tree = s.tree := by
  induction lines generalizing s with
  | nil => rfl
  | cons line lines ih => exact ih (s.print line)

/-- A command goes on from a change that succeeds, and ends with one that fails. -/
theorem Session.attempt_cases (s : Session) (change : FileTree → FileTree.Change)
    (next : Session → Session × Ending) :
    (∃ t, change s.tree = ⟨t, none⟩ ∧ s.attempt change next = next { s with tree := t }) ∨
      ∃ t e, change s.tree = ⟨t, some e⟩ ∧
        s.attempt change next = ({ s with tree := t }, .failure (.file e)) := by
  unfold attempt
  obtain ⟨t, error⟩ := change s.tree
  cases error with
  | none => exact .inl ⟨t, rfl, rfl⟩
  | some e => exact .inr ⟨t, e, rfl, rfl⟩

namespace FileTree

variable {t t' t'' : FileTree} {l : Location} {path text : String}

/-- No file is lost or changed, and if there is a new one, it is at `l`. -/
def Gains (l : Location) (t t' : FileTree) : Prop :=
  ∀ m, m ≠ l ∨ (t.file? m).isSome = true → t'.file? m = t.file? m

theorem Gains.refl (l : Location) (t : FileTree) : Gains l t t := fun _ _ ↦ rfl

theorem Gains.trans (h : Gains l t t') (h' : Gains l t' t'') : Gains l t t'' := by
  intro m hm
  have hfile := h m hm
  rw [← hfile]
  apply h'
  rwa [hfile]

theorem Extends.gains (h : Extends t t') (l : Location) : Gains l t t' := fun m _ ↦ h.file?_eq m

theorem extends_createDirectories (t : FileTree) (path : String) :
    Extends t (t.createDirectories path).tree := extends_ensureDirectories t _ _

/-- Where nothing was found there is no file to lose. -/
theorem gains_write (h : t.pathExists path = false) (text : String) :
    Gains (Path.location path) t (t.write path text).tree := by
  unfold write
  split
  · exact .refl _ t
  · rename_i l hl
    split
    · exact .refl _ t
    · rename_i hnode
      intro m hm
      rw [file?_insert, if_neg]
      rintro rfl
      rcases hm with hm | hm
      · exact hm (eq_location_of_locate hl)
      · obtain ⟨old, hold⟩ := Option.isSome_iff_exists.mp hm
        have hne : m ≠ [] := by
          rintro rfl
          exact hnode rfl
        have hfound := Option.isSome_of_eq_some (node?_eq_file_iff.mpr ⟨hne, hold⟩)
        rw [pathExists_iff.mpr ⟨m, hl, hfound⟩] at h
        cases h

theorem eq_of_write_eq_error {e : FileError} (h : t.write path text = ⟨t', some e⟩) : t' = t := by
  unfold write at h
  split at h
  · cases h
    rfl
  · split at h
    · cases h
      rfl
    · cases h

end FileTree

open FileTree (Gains)

namespace Command

/-- Where the configuration of a project is. -/
def configPlace (cwd : String) : Location := Path.location (Path.join cwd Config.fileName)

/-- Where the example is put. -/
def examplePlace (cwd : String) (arguments : InitArguments) : Location :=
  Path.location (Path.join (Path.join cwd arguments.srcDir) exampleName)

theorem configPlace_ne_examplePlace (cwd cwd' : String) (arguments : InitArguments) :
    configPlace cwd ≠ examplePlace cwd' arguments := by
  intro h
  rw [configPlace, examplePlace, Path.location_join _ (by decide),
    Path.location_join _ (by decide)] at h
  have hname := (List.append_inj' h rfl).2
  exact absurd hname (by decide)

/-- How the command ends that starts a project from a tree: until the configuration is written,
files are only gained. -/
inductive Starts (cwd : String) (arguments : InitArguments) (t : FileTree) :
    Session × Ending → Prop
  | failed {s : Session} {e : CommandError} :
      Gains (examplePlace cwd arguments) t s.tree → Starts cwd arguments t (s, .failure e)
  | written {s : Session} {t' : FileTree} : Gains (examplePlace cwd arguments) t t' →
      t'.write (Path.join cwd Config.fileName) (initConfig arguments).toJson.pretty =
        ⟨s.tree, none⟩ → Starts cwd arguments t (s, .success)

variable {cwd : String} {arguments : InitArguments} {s s' : Session}

namespace Starts

variable {t t' : FileTree} {next : Session → Session × Ending}

theorem of_gains {result : Session × Ending} (h : Starts cwd arguments t' result)
    (hgains : Gains (examplePlace cwd arguments) t t') : Starts cwd arguments t result := by
  cases h with
  | failed h => exact failed (hgains.trans h)
  | written h hwrite => exact written (hgains.trans h) hwrite

theorem attempt {change : FileTree → FileTree.Change}
    (hchange : Gains (examplePlace cwd arguments) s.tree (change s.tree).tree)
    (hnext : ∀ s₁ : Session, Starts cwd arguments s₁.tree (next s₁)) :
    Starts cwd arguments s.tree (s.attempt change next) := by
  rcases s.attempt_cases change next with ⟨t, heq, hattempt⟩ | ⟨t, e, heq, hattempt⟩
  · rw [heq] at hchange
    rw [hattempt]
    exact (hnext _).of_gains hchange
  · rw [heq] at hchange
    rw [hattempt]
    exact failed hchange

theorem createMissing {path name : String} {change : FileTree → FileTree.Change}
    (hchange : s.tree.pathExists path = false →
      Gains (examplePlace cwd arguments) s.tree (change s.tree).tree)
    (hnext : ∀ s₁ : Session, Starts cwd arguments s₁.tree (next s₁)) :
    Starts cwd arguments s.tree (createMissing path change name s next) := by
  unfold Command.createMissing
  split
  · exact hnext s
  · rename_i hmissing
    exact attempt (hchange (Bool.eq_false_iff.mpr hmissing)) fun s₁ ↦ hnext (s₁.print _)

theorem writeConfig (lines : List String) :
    Starts cwd arguments s.tree (s.attempt (·.write (Path.join cwd Config.fileName)
      (initConfig arguments).toJson.pretty) fun s ↦ (s.printAll lines, .success)) := by
  rcases s.attempt_cases (·.write (Path.join cwd Config.fileName)
    (initConfig arguments).toJson.pretty) fun s ↦ (s.printAll lines, .success) with
    ⟨t, hwrite, hattempt⟩ | ⟨t, e, hwrite, hattempt⟩
  · rw [hattempt]
    refine written (.refl _ s.tree) ?_
    rw [Session.tree_printAll]
    exact hwrite
  · rw [hattempt]
    refine failed ?_
    rw [FileTree.eq_of_write_eq_error hwrite]
    exact .refl _ s.tree

end Starts

/-- A configuration that is there holds the command back, unless it is forced. -/
theorem runInit_of_exists (hexists : s.tree.pathExists (Path.join cwd Config.fileName) = true)
    (hforce : arguments.force = false) : (runInit cwd arguments s).1.tree = s.tree := by
  unfold runInit
  dsimp only
  rw [if_pos (by simp [hexists, hforce])]
  exact s.tree_printAll _

theorem starts_runInit (cwd : String) (arguments : InitArguments) (s : Session)
    (hwrites : s.tree.pathExists (Path.join cwd Config.fileName) = false ∨
      arguments.force = true) :
    Starts cwd arguments s.tree (runInit cwd arguments s) := by
  unfold runInit
  dsimp only
  rw [if_neg (by rcases hwrites with hmissing | hforce <;> simp_all)]
  refine .of_gains (.createMissing (fun _ ↦ ?_) fun s₁ ↦ ?_) (.refl _ s.tree)
  · exact (FileTree.extends_createDirectories _ _).gains _
  refine .createMissing (fun hmissing ↦ ?_) fun s₂ ↦ ?_
  · exact FileTree.gains_write hmissing exampleText
  exact .writeConfig (initEpilogue arguments)

/-- The configuration is written at last. -/
theorem write_of_runInit (h : runInit cwd arguments s = (s', .success))
    (hwrites : s.tree.pathExists (Path.join cwd Config.fileName) = false ∨ arguments.force = true) :
    ∃ t : FileTree, t.write (Path.join cwd Config.fileName) (initConfig arguments).toJson.pretty =
      ⟨s'.tree, none⟩ := by
  have hstarts := starts_runInit cwd arguments s hwrites
  rw [h] at hstarts
  cases hstarts with
  | written _ hwrite => exact ⟨_, hwrite⟩

theorem runInit_cases (cwd : String) (arguments : InitArguments) (s : Session) :
    s.tree.pathExists (Path.join cwd Config.fileName) = true ∧
        (runInit cwd arguments s).1.tree = s.tree ∨
      Starts cwd arguments s.tree (runInit cwd arguments s) := by
  by_cases hheld : s.tree.pathExists (Path.join cwd Config.fileName) = true ∧
      arguments.force = false
  · exact .inl ⟨hheld.1, runInit_of_exists hheld.1 hheld.2⟩
  · exact .inr (starts_runInit cwd arguments s (by simpa [or_iff_not_imp_left] using hheld))

theorem pathExists_of_runInit (h : runInit cwd arguments s = (s', .success)) :
    s'.tree.pathExists (Path.join cwd Config.fileName) = true := by
  have hcases := runInit_cases cwd arguments s
  rw [h] at hcases
  rcases hcases with ⟨hexists, htree⟩ | hstarts
  · rw [htree]
    exact hexists
  · cases hstarts with
    | written _ hwrite =>
        exact FileTree.pathExists_of_read (FileTree.written_of_write hwrite).read_eq

theorem runLine_of_init {line : List String} (hline : parse line = .ok (.init arguments))
    (cwd : String) (t : FileTree) :
    runLine cwd line t = finish (runInit cwd arguments ⟨t, "", ""⟩) := by
  rw [runLine, hline]
  rfl

theorem eq_success_of_finish {result : Session × Ending} (h : (finish result).exit = 0) :
    result = ((finish result).session, .success) := by
  obtain ⟨s, ending⟩ := result
  cases ending with
  | success => rfl
  | failure e => cases h
  | aborted => cases h

/-! ## What is left of the files -/

namespace Starts

variable {t : FileTree} {result : Session × Ending}

theorem file?_eq (h : Starts cwd arguments t result) {l : Location} (hl : l ≠ configPlace cwd)
    (hgains : l ≠ examplePlace cwd arguments ∨ (t.file? l).isSome = true) :
    result.1.tree.file? l = t.file? l := by
  cases h with
  | failed h => exact h l hgains
  | written h hwrite =>
      rw [(FileTree.written_of_write hwrite).file?_eq l hl]
      exact h l hgains

theorem file?_configPlace (h : Starts cwd arguments t result) (hexit : (finish result).exit ≠ 0) :
    result.1.tree.file? (configPlace cwd) = t.file? (configPlace cwd) := by
  cases h with
  | failed h => exact h _ (.inl (configPlace_ne_examplePlace cwd cwd arguments))
  | written h hwrite => exact absurd rfl hexit

end Starts

theorem file?_runInit (cwd : String) (arguments : InitArguments) (s : Session) {l : Location}
    (hl : l ≠ configPlace cwd)
    (hgains : l ≠ examplePlace cwd arguments ∨ (s.tree.file? l).isSome = true) :
    (runInit cwd arguments s).1.tree.file? l = s.tree.file? l := by
  rcases runInit_cases cwd arguments s with ⟨-, htree⟩ | hstarts
  · rw [htree]
  · exact hstarts.file?_eq hl hgains

theorem file?_configPlace_runInit (hexit : (finish (runInit cwd arguments s)).exit ≠ 0) :
    (runInit cwd arguments s).1.tree.file? (configPlace cwd) =
      s.tree.file? (configPlace cwd) := by
  rcases runInit_cases cwd arguments s with ⟨-, htree⟩ | hstarts
  · rw [htree]
  · exact hstarts.file?_configPlace hexit

/-- In a tree of files and directories, the init command never destroys a file.  It changes nothing if
there is a configuration and it is not forced.  Otherwise it changes no file but the configuration,
makes no file but that and the example, and leaves the configuration alone if it fails.  Once it has
succeeded, it changes nothing any more unless it is forced. -/
theorem init_keeps_files (cwd : String) (line : List String) (arguments : InitArguments)
    (t : FileTree) (after : RunResult) (hline : parse line = .ok (.init arguments))
    (hafter : runLine cwd line t = after) :
    (t.pathExists (Path.join cwd Config.fileName) = true → arguments.force = false →
        after.session.tree = t) ∧
      (∀ l content, t.file? l = some content → l ≠ configPlace cwd →
        after.session.tree.file? l = some content) ∧
      (∀ l content, t.file? l = none → after.session.tree.file? l = some content →
        l = configPlace cwd ∨ l = examplePlace cwd arguments) ∧
      (after.exit ≠ 0 →
        after.session.tree.file? (configPlace cwd) = t.file? (configPlace cwd)) ∧
      (after.exit = 0 → ∀ again arguments', parse again = .ok (.init arguments') →
        arguments'.force = false →
        (runLine cwd again after.session.tree).session.tree = after.session.tree) := by
  rw [runLine_of_init hline] at hafter
  subst hafter
  rw [tree_finish]
  refine ⟨?_, ?_, ?_, ?_, ?_⟩
  · intro hexists hforce
    exact runInit_of_exists (s := ⟨t, "", ""⟩) hexists hforce
  · intro l content hfile hl
    rw [← hfile]
    exact file?_runInit cwd arguments ⟨t, "", ""⟩ hl (.inr (by rw [hfile]; rfl))
  · intro l content hnone hsome
    by_contra hne
    rw [not_or] at hne
    rw [file?_runInit cwd arguments ⟨t, "", ""⟩ hne.1 (.inl hne.2), hnone] at hsome
    cases hsome
  · intro hexit
    exact file?_configPlace_runInit hexit
  · intro hexit again arguments' hagain hforce
    have hexists := pathExists_of_runInit (eq_success_of_finish hexit)
    rw [tree_finish] at hexists
    rw [runLine_of_init hagain, tree_finish]
    exact runInit_of_exists hexists hforce

/-- A forced command in a project with an example of its own, in the directory of the
configuration. -/
theorem init_keeps_files_forced :
    (runLine "p" ["init", "-f", "-s", "."] (FileTree.place (FileTree.place ∅
        ["p", Config.fileName] "broken") ["p", exampleName] "mine")).session.tree.file?
      ["p", exampleName] = some (.text "mine") :=
  (init_keeps_files "p" ["init", "-f", "-s", "."] ⟨".", none, true⟩
    (FileTree.place (FileTree.place ∅ ["p", Config.fileName] "broken") ["p", exampleName] "mine")
    _ rfl rfl).2.1 ["p", exampleName] (.text "mine") (by decide +kernel) (by decide +kernel)

end Command

end FluentShapes
