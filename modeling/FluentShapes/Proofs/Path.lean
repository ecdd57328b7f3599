import FluentShapes.Command.Compile
import Mathlib.Data.List.Basic
import Mathlib.Data.List.TakeWhile

/-!
# Where paths lead

A path is text, and following it means taking its names one by one.  `Path.location` is where they
lead if nothing on the way is missing.  Empty names and dots lead nowhere, so what counts are the
other ones (`Path.components`).  Joining a path with a name appends it to them (`components_join`),
whatever the path looks like, and to the place if it is the name of something in a directory.  So the
files below a directory and their declarations can be told apart by names alone.
-/

namespace FluentShapes

namespace Path

/-- The place that a path leads to. -/
def location (path : String) : Location := (names path).foldl FileTree.step []

/-- The names of a path that do not stay where they are. -/
def components (path : String) : List String := (names path).filter (!isIdle ·)

/-! ## Names -/

/-- What can stand between the slashes of a path and counts. -/
structure IsComponent (name : String) : Prop where
  isIdle_eq : isIdle name = false
  slash_notMem : '/' ∉ name.toList

instance : DecidablePred IsComponent := fun name ↦
  decidable_of_iff (isIdle name = false ∧ '/' ∉ name.toList)
    ⟨fun ⟨hidle, hslash⟩ ↦ ⟨hidle, hslash⟩, fun h ↦ ⟨h.isIdle_eq, h.slash_notMem⟩⟩

/-- What something in a directory can be called. -/
structure IsName (name : String) : Prop extends IsComponent name where
  ne_dots : name ≠ ".."

instance : DecidablePred IsName := fun name ↦
  decidable_of_iff (IsComponent name ∧ name ≠ "..")
    ⟨fun ⟨hcomponent, hdots⟩ ↦ ⟨hcomponent, hdots⟩, fun h ↦ ⟨h.toIsComponent, h.ne_dots⟩⟩

theorem step_eq_of_ne_dots {name : String} (hidle : isIdle name = false) (hdots : name ≠ "..")
    (l : Location) : FileTree.step l name = l ++ [name] := by
  simp [FileTree.step, hidle, hdots]

theorem foldl_step_of_isName {ns : List String} (h : ∀ name ∈ ns, IsName name) (l : Location) :
    ns.foldl FileTree.step l = l ++ ns := by
  induction ns generalizing l with
  | nil => exact (List.append_nil l).symm
  | cons name ns ih =>
      have hname := h name List.mem_cons_self
      rw [List.foldl_cons, step_eq_of_ne_dots hname.isIdle_eq hname.ne_dots,
        ih fun n hn ↦ h n (List.mem_cons_of_mem name hn), List.append_assoc,
        List.singleton_append]

/-- A place is found by the components of a path. -/
theorem location_eq (path : String) : location path = (components path).foldl FileTree.step [] := by
  have hstep : (fun l name ↦ if (!isIdle name) = true then FileTree.step l name else l) =
      FileTree.step := by
    funext l name
    by_cases hidle : isIdle name = true <;> simp [FileTree.step, hidle]
  rw [location, components, List.foldl_filter, hstep]

/-! ## Joining -/

/-- A name is appended to the names of the path, but for idle ones at the end. -/
theorem exists_names_join (base : String) :
    ∃ ns idle, names base = ns ++ idle ∧ (∀ n ∈ idle, isIdle n = true) ∧
      ∀ name : String, '/' ∉ name.toList → names (join base name) = ns ++ [name] := by
  have habsolute : ∀ name : String, '/' ∉ name.toList → isAbsolute name = false := by
    intro name hname
    rw [isAbsolute, decide_eq_false_iff_not]
    intro hhead
    exact hname (List.mem_of_mem_head? hhead)
  by_cases hempty : base = ""
  · subst hempty
    refine ⟨[], [""], rfl, by simp [isIdle], fun name hname ↦ ?_⟩
    simp [join, habsolute name hname, names, List.splitOn_eq_singleton hname]
  by_cases hslash : base.toList.getLast? = some '/'
  · obtain ⟨front, hfront⟩ := List.getLast?_eq_some_iff.mp hslash
    refine ⟨(front.splitOn '/').map String.ofList, [""], ?_, by simp [isIdle], fun name hname ↦ ?_⟩
    · rw [names, hfront, List.splitOn_append_cons_self, List.map_append]
      rfl
    · rw [join, habsolute name hname, if_neg Bool.false_ne_true, if_pos (by simp [hslash]),
        names, String.toList_append, hfront, List.append_assoc, List.singleton_append,
        List.splitOn_append_cons_self, List.splitOn_eq_singleton hname]
      simp
  · refine ⟨names base, [], (List.append_nil _).symm, by simp, fun name hname ↦ ?_⟩
    rw [join, habsolute name hname, if_neg Bool.false_ne_true, if_neg (by simp [hslash, hempty])]
    have hlist : (base ++ "/" ++ name).toList = base.toList ++ '/' :: name.toList := by simp
    rw [names, hlist, List.splitOn_append_cons_self, List.splitOn_eq_singleton hname]
    simp [names]

theorem components_join (base : String) {name : String} (h : IsComponent name) :
    components (join base name) = components base ++ [name] := by
  obtain ⟨ns, idle, hbase, hidle, hjoin⟩ := exists_names_join base
  have hnone : idle.filter (!isIdle ·) = [] := by
    rw [List.filter_eq_nil_iff]
    intro n hn
    simp [hidle n hn]
  rw [components, hjoin name h.slash_notMem, components, hbase, List.filter_append,
    List.filter_append, hnone, List.append_nil]
  simp [h.isIdle_eq]

/-- The components of the path of a file are those of the directory and then its names. -/
theorem components_pathOf (base : String) {ns : List String} (h : ∀ n ∈ ns, IsComponent n) :
    components (Command.pathOf base ns) = components base ++ ns := by
  induction ns generalizing base with
  | nil => exact (List.append_nil _).symm
  | cons name ns ih =>
      rw [Command.pathOf, List.foldl_cons]
      refine (ih _ fun n hn ↦ h n (List.mem_cons_of_mem name hn)).trans ?_
      rw [components_join base (h name List.mem_cons_self), List.append_assoc]
      rfl

theorem location_pathOf (base : String) {ns : List String} (h : ∀ name ∈ ns, IsName name) :
    location (Command.pathOf base ns) = location base ++ ns := by
  rw [location_eq, components_pathOf base fun n hn ↦ (h n hn).toIsComponent, List.foldl_append,
    foldl_step_of_isName h, location_eq]

theorem location_join (base : String) {name : String} (h : IsName name) :
    location (join base name) = location base ++ [name] := by
  have hpath : join base name = Command.pathOf base [name] := rfl
  rw [hpath, location_pathOf base (List.forall_mem_singleton.mpr h)]

/-- The name of the file at a path is its last component. -/
theorem fileName?_eq (path : String) :
    fileName? path = (components path).getLast?.filter (· ≠ "..") := by
  have hlast : (components path).getLast? = ((names path).reverse.dropWhile isIdle).head? := by
    rw [components, ← List.head?_reverse, ← List.filter_reverse, List.head?_filter,
      ← List.find?_not_eq_head?_dropWhile]
  rw [hlast, fileName?]
  cases (names path).reverse.dropWhile isIdle with
  | nil => rfl
  | cons name rest => by_cases hdots : name = ".." <;> simp [hdots, Option.filter]

/-- The name of the file at a path is the last one of its place. -/
theorem getLast?_location {path name : String} (h : fileName? path = some name) :
    (location path).getLast? = some name := by
  rw [fileName?_eq, Option.filter_eq_some_iff, decide_eq_true_iff] at h
  obtain ⟨hlast, hdots⟩ := h
  obtain ⟨front, hfront⟩ := List.getLast?_eq_some_iff.mp hlast
  have hmem : name ∈ components path := by simp [hfront]
  have hidle : isIdle name = false := by simpa [components] using (List.mem_filter.mp hmem).2
  rw [location_eq, hfront, List.foldl_concat, step_eq_of_ne_dots hidle hdots, List.getLast?_concat]

/-! ## Extensions -/

theorem splitExtension?_append {stem ext : List Char} (hstem : stem ≠ []) (hext : ext ≠ [])
    (hdot : '.' ∉ ext) :
    splitExtension? (String.ofList (stem ++ '.' :: ext)) =
      some (String.ofList stem, String.ofList ext) := by
  have hpos : ∀ c ∈ ext.reverse, decide (c ≠ '.') = true := by
    intro c hc
    rw [decide_eq_true_iff]
    rintro rfl
    exact hdot (List.mem_reverse.mp hc)
  have hdots : String.ofList (stem ++ '.' :: ext) ≠ ".." := by
    intro h
    have hlength := congrArg (fun s ↦ s.toList.length) h
    have hs := List.length_pos_iff.mpr hstem
    have he := List.length_pos_iff.mpr hext
    simp at hlength
    omega
  have hreverse : (stem ++ '.' :: ext).reverse = ext.reverse ++ '.' :: stem.reverse := by simp
  have hdrop : (ext.reverse ++ '.' :: stem.reverse).dropWhile (fun c ↦ decide (c ≠ '.')) =
      '.' :: stem.reverse := by
    rw [List.dropWhile_append_of_pos hpos]
    rfl
  have htake : (ext.reverse ++ '.' :: stem.reverse).takeWhile (fun c ↦ decide (c ≠ '.')) =
      ext.reverse := by
    rw [List.takeWhile_append_of_pos hpos]
    simp
  unfold splitExtension?
  dsimp only
  rw [String.toList_ofList, hreverse, hdrop, htake]
  cases hcases : stem.reverse with
  | nil => exact absurd (List.reverse_eq_nil_iff.mp hcases) hstem
  | cons c cs =>
      simp only [hdots, if_false, List.reverse_reverse, ← hcases]

theorem eq_append_of_splitExtension? {name stem ext : String}
    (h : splitExtension? name = some (stem, ext)) : name = stem ++ "." ++ ext := by
  unfold splitExtension? at h
  dsimp only at h
  split at h
  · cases h
  · cases h
  · rename_i c cs hne hdrop
    split at h
    · cases h
    · cases h
      have hdot : c = '.' := by
        have hhead := List.head?_dropWhile_not (fun c ↦ decide (c ≠ '.')) name.toList.reverse
        rw [hdrop] at hhead
        simpa using hhead
      have hsplit := List.takeWhile_append_dropWhile (p := fun c ↦ decide (c ≠ '.'))
        (l := name.toList.reverse)
      rw [hdrop, hdot] at hsplit
      rw [← String.toList_inj]
      simpa using (congrArg List.reverse hsplit).symm

variable {name : String}

/-- Declarations have the whole name of their source in their own. -/
theorem withExtension_eq_append (h : extension? name = some Command.sourceExtension) :
    withExtension name Command.declarationExtension = name ++ ".d.ts" := by
  obtain ⟨⟨stem, ext⟩, hsplit, rfl⟩ := Option.map_eq_some_iff.mp h
  have hname := eq_append_of_splitExtension? hsplit
  rw [withExtension, hsplit, hname, ← String.toList_inj]
  simp [Command.declarationExtension, Command.sourceExtension]

theorem extension?_append_declaration (name : String) :
    extension? (name ++ ".d.ts") = some "ts" := by
  have hstem : name.toList ++ ['.', 'd'] ≠ [] := by simp
  have hext : ['t', 's'] ≠ [] := by simp
  have hsplit := splitExtension?_append hstem hext (by decide)
  have hname : name ++ ".d.ts" =
      String.ofList (name.toList ++ ['.', 'd'] ++ '.' :: ['t', 's']) := by
    rw [← String.toList_inj]
    simp
  rw [extension?, hname, hsplit]
  rfl

theorem append_declaration_ne (name : String) {other : String} (hlength : other.toList.length < 5) :
    name ++ ".d.ts" ≠ other := by
  rintro rfl
  have hlast : ".d.ts".toList.length = 5 := by decide
  rw [String.toList_append, List.length_append] at hlength
  omega

theorem IsComponent.append_declaration (h : IsComponent name) : IsComponent (name ++ ".d.ts") := by
  have hempty : name ++ ".d.ts" ≠ "" := append_declaration_ne name (by decide)
  have hdot : name ++ ".d.ts" ≠ "." := append_declaration_ne name (by decide)
  refine ⟨?_, by simp [h.slash_notMem]⟩
  rw [isIdle, decide_eq_false hempty, decide_eq_false hdot]
  rfl

theorem IsName.append_declaration (h : IsName name) : IsName (name ++ ".d.ts") :=
  ⟨h.toIsComponent.append_declaration, append_declaration_ne name (by decide)⟩

/-- What holds of the names that lead to a source holds of those that lead to its declarations. -/
theorem forall_mem_declaration {P : String → Prop} {dir : List String}
    (happend : P name → P (name ++ ".d.ts")) (h : ∀ n ∈ dir ++ [name], P n) :
    ∀ n ∈ dir ++ [name ++ ".d.ts"], P n := by
  rw [List.forall_mem_append, List.forall_mem_singleton] at h ⊢
  exact ⟨h.1, happend h.2⟩

end Path

/-! ## Sources and their declarations -/

namespace Command

variable {srcPath : String} {names : List String}

theorem isSource_concat (srcPath : String) (dir : List String) (name : String) :
    isSource srcPath (dir ++ [name]) = true ↔ Path.extension? name = some sourceExtension := by
  simp [isSource]

/-- The last name of the place of a source has the extension of sources. -/
theorem extension?_of_isSource (h : isSource srcPath names = true) :
    ((Path.location srcPath ++ names).getLast?).bind Path.extension? = some sourceExtension := by
  rcases List.eq_nil_or_concat names with rfl | ⟨dir, name, rfl⟩
  · obtain ⟨name, hname, hext⟩ := Option.bind_eq_some_iff.mp (of_decide_eq_true h)
    rw [List.append_nil, Path.getLast?_location hname]
    exact hext
  · rw [List.concat_eq_append] at h ⊢
    rw [← List.append_assoc, List.getLast?_concat]
    exact (isSource_concat srcPath dir name).mp h

namespace Job

variable (job : Job)

theorem outputPath_concat (dir : List String) {name : String}
    (hext : Path.extension? name = some sourceExtension) :
    job.outputPath (dir ++ [name]) =
      pathOf (job.outPath.getD job.srcPath) (dir ++ [name ++ ".d.ts"]) := by
  simp [outputPath, Path.withExtension_eq_append hext]

theorem location_outputPath {dir : List String} {name : String}
    (hnames : ∀ n ∈ dir ++ [name], Path.IsName n)
    (hext : Path.extension? name = some sourceExtension) :
    Path.location (job.outputPath (dir ++ [name])) =
      Path.location (job.outPath.getD job.srcPath) ++ (dir ++ [name ++ ".d.ts"]) := by
  have houtput := Path.forall_mem_declaration Path.IsName.append_declaration hnames
  rw [job.outputPath_concat dir hext, Path.location_pathOf _ houtput]

end Job

end Command

end FluentShapes
