import FluentShapes.Proofs.Insertion
import FluentShapes.Proofs.Path
import Mathlib.Data.String.Basic
import Mathlib.Data.List.Sort

/-!
# What changes leave of a tree

A tree is looked at in two ways: which files there are and what they hold (`FileTree.file?`), and
which paths can be followed.  Directories are only ever added, so a path that could be followed can
still be followed after any change (`Keeps`).  Making directories leaves all files as they are, and
writing changes the file at one place.  What a change has made, the same change finds there and
leaves it.
-/

namespace FluentShapes

theorem Table.insert_eq_self {κ ν : Type} [DecidableEq κ] {t : Table κ ν} {k : κ} {v : ν}
    (h : t.get? k = some v) : t.insert k v = t := by
  have hk : k ∈ t.keys := by
    by_contra hk
    rw [(t.get?_eq_none_iff k).mpr hk] at h
    cases h
  refine ext_get? (by rw [keys_insert, if_pos hk]) fun j ↦ ?_
  rw [get?_insert]
  split
  · rename_i hj
    rw [hj, h]
  · rfl

namespace FileTree

variable {t t' t'' : FileTree} {l m : Location} {content : Content} {path text : String}
  {names : List String}

/-! ## Files -/

/-- What the file at a place holds. -/
def file? (t : FileTree) (l : Location) : Option Content :=
  match t.get? l with
  | some (.file content) => some content
  | some .directory | none => none

theorem file?_eq_some_iff : t.file? l = some content ↔ t.get? l = some (.file content) := by
  unfold file?
  split <;> simp_all

/-- The top is no file. -/
theorem node?_eq_file_iff :
    t.node? l = some (.file content) ↔ l ≠ [] ∧ t.file? l = some content := by
  rw [node?, file?_eq_some_iff]
  cases l <;> simp

theorem file?_insert (t : FileTree) (l : Location) (node : Node) (m : Location) :
    file? (t.insert l node) m =
      if m = l then (match node with | .file content => some content | .directory => none)
      else t.file? m := by
  unfold file?
  rw [Table.get?_insert]
  by_cases h : m = l
  · simp only [if_pos h]
    cases node <;> rfl
  · simp only [if_neg h]

theorem node?_insert (t : FileTree) (l : Location) (node : Node) (m : Location) :
    node? (t.insert l node) m = if m = l ∧ m ≠ [] then some node else t.node? m := by
  unfold node?
  rw [Table.get?_insert]
  cases m with
  | nil => simp
  | cons name m => simp

theorem read_eq_ok_iff :
    t.read path = .ok text ↔
      ∃ l, t.locate path = .ok l ∧ t.node? l = some (.file (.text text)) := by
  unfold read
  cases t.locate path with
  | error e => simp [bind, Except.bind]
  | ok l =>
      simp only [bind, Except.bind, Except.ok.injEq, exists_eq_left']
      split <;> simp_all

/-- A file is read as the text that its bytes spell, and cannot be read if they spell none. -/
theorem read_of_bytes {bytes : ByteArray} (hl : t.locate path = .ok l)
    (hnode : t.node? l = some (.file (.ofBytes bytes))) :
    t.read path = (String.fromUTF8? bytes).elim (.error .notText) .ok := by
  unfold Content.ofBytes at hnode
  simp only [read, hl, bind, Except.bind]
  split at hnode
  · rename_i s hs
    rw [hs, hnode, Option.elim_some]
  · rename_i hs
    rw [hs, hnode, Option.elim_none]

/-- All places are made of names that something in a directory can have. -/
def Named (t : FileTree) : Prop := ∀ l ∈ t.keys, ∀ name ∈ l, Path.IsName name

instance (t : FileTree) : Decidable t.Named :=
  inferInstanceAs (Decidable (∀ l ∈ t.keys, ∀ name ∈ l, Path.IsName name))

theorem Named.isName (h : t.Named) (hfile : t.file? l = some content) :
    ∀ name ∈ l, Path.IsName name := by
  refine h l ?_
  by_contra hl
  rw [file?_eq_some_iff, (t.get?_eq_none_iff l).mpr hl] at hfile
  cases hfile

/-! ## Following paths -/

theorem eq_foldl_of_walk (h : t.walk l names = .ok m) : m = names.foldl step l := by
  induction names generalizing l with
  | nil =>
      cases h
      rfl
  | cons name names ih =>
      unfold walk at h
      split at h
      · cases h
      · cases h
      · split at h
        · cases h
        · exact ih h

theorem locateNames_eq_ok_iff :
    t.locateNames names = .ok l ↔
      names.any (·.toList.contains '\x00') = false ∧
        ("/".intercalate names).utf8ByteSize ≤ pathLimit ∧ t.walk [] names = .ok l := by
  unfold locateNames
  split
  · simp_all
  · split
    · simp_all
    · simp_all

theorem eq_foldl_of_locateNames (h : t.locateNames names = .ok m) : m = names.foldl step [] :=
  eq_foldl_of_walk (locateNames_eq_ok_iff.mp h).2.2

theorem eq_location_of_locate (h : t.locate path = .ok l) : l = Path.location path :=
  eq_foldl_of_locateNames h

/-- What there is in the one tree is there in the other, and directories are still directories. -/
structure Keeps (t t' : FileTree) : Prop where
  directory : ∀ l, t.node? l = some .directory → t'.node? l = some .directory
  isSome : ∀ l, (t.node? l).isSome = true → (t'.node? l).isSome = true

theorem Keeps.refl (t : FileTree) : Keeps t t := ⟨fun _ h ↦ h, fun _ h ↦ h⟩

theorem Keeps.trans (h : Keeps t t') (h' : Keeps t' t'') : Keeps t t'' :=
  ⟨fun l hl ↦ h'.directory l (h.directory l hl), fun l hl ↦ h'.isSome l (h.isSome l hl)⟩

theorem Keeps.walk (hkeeps : Keeps t t') (h : t.walk l names = .ok m) :
    t'.walk l names = .ok m := by
  induction names generalizing l with
  | nil => exact h
  | cons name names ih =>
      unfold FileTree.walk at h ⊢
      split at h
      · cases h
      · cases h
      · rename_i hnode
        split at h
        · cases h
        · rename_i hlimit
          rw [hkeeps.directory l hnode]
          simp only [if_neg hlimit]
          exact ih h

theorem Keeps.locateNames (hkeeps : Keeps t t') (h : t.locateNames names = .ok l) :
    t'.locateNames names = .ok l := by
  rw [locateNames_eq_ok_iff] at h ⊢
  exact ⟨h.1, h.2.1, hkeeps.walk h.2.2⟩

theorem Keeps.locate (hkeeps : Keeps t t') (h : t.locate path = .ok l) : t'.locate path = .ok l :=
  hkeeps.locateNames h

theorem find?_eq_some_iff {node : Node} :
    t.find? path = some node ↔ ∃ l, t.locate path = .ok l ∧ t.node? l = some node := by
  unfold find?
  cases t.locate path with
  | error e => simp
  | ok l => simp

theorem pathExists_iff :
    t.pathExists path = true ↔ ∃ l, t.locate path = .ok l ∧ (t.node? l).isSome = true := by
  unfold pathExists find?
  cases t.locate path with
  | error e => simp
  | ok l => simp

theorem pathExists_of_read (h : t.read path = .ok text) : t.pathExists path = true := by
  obtain ⟨l, hl, hnode⟩ := read_eq_ok_iff.mp h
  exact pathExists_iff.mpr ⟨l, hl, Option.isSome_of_eq_some hnode⟩

theorem Keeps.pathExists (hkeeps : Keeps t t') (h : t.pathExists path = true) :
    t'.pathExists path = true := by
  obtain ⟨l, hl, hnode⟩ := pathExists_iff.mp h
  exact pathExists_iff.mpr ⟨l, hkeeps.locate hl, hkeeps.isSome l hnode⟩

theorem file?_of_read (h : t.read path = .ok text) :
    t.file? (Path.location path) = some (.text text) := by
  obtain ⟨l, hl, hnode⟩ := read_eq_ok_iff.mp h
  rw [← eq_location_of_locate hl]
  exact (node?_eq_file_iff.mp hnode).2

theorem Keeps.read (hkeeps : Keeps t t') (h : t.read path = .ok text)
    (hfile : t'.file? (Path.location path) = t.file? (Path.location path)) :
    t'.read path = .ok text := by
  obtain ⟨l, hl, hnode⟩ := read_eq_ok_iff.mp h
  rw [← eq_location_of_locate hl] at hfile
  rw [node?_eq_file_iff] at hnode
  have hnode' := node?_eq_file_iff.mpr ⟨hnode.1, hfile.trans hnode.2⟩
  exact read_eq_ok_iff.mpr ⟨l, hkeeps.locate hl, hnode'⟩

theorem walk_concat {name : String} :
    t.walk l (names ++ [name]) = .ok m ↔
      ∃ parent, t.walk l names = .ok parent ∧ t.node? parent = some .directory ∧
        name.utf8ByteSize ≤ nameLimit ∧ step parent name = m := by
  induction names generalizing l with
  | nil =>
      simp only [List.nil_append, FileTree.walk, Except.ok.injEq, exists_eq_left']
      split
      · simp_all
      · simp_all
      · rename_i hnode
        by_cases hsize : nameLimit < name.utf8ByteSize
        · simp [hsize]
        · simp [hnode, hsize, Nat.le_of_not_lt hsize]
  | cons first names ih =>
      simp only [List.cons_append, FileTree.walk]
      split
      · simp
      · simp
      · split
        · simp
        · exact ih

/-- Where one thing in a directory was found, another that is found after a change was found
before. -/
theorem Keeps.locate_join {base a b : String} (hkeeps : Keeps t t') (ha : Path.IsName a)
    (hb : Path.IsName b) (hl : t.locate (Path.join base a) = .ok l)
    (hm : t'.locate (Path.join base b) = .ok m) : t.locate (Path.join base b) = .ok m := by
  obtain ⟨names, -, -, -, hjoin⟩ := Path.exists_names_join base
  rw [FileTree.locate, hjoin a ha.slash_notMem, locateNames_eq_ok_iff] at hl
  rw [FileTree.locate, hjoin b hb.slash_notMem, locateNames_eq_ok_iff] at hm ⊢
  obtain ⟨-, -, hl⟩ := hl
  obtain ⟨hnull, hlimit, hm⟩ := hm
  obtain ⟨parent, hparent, hnode, -, -⟩ := walk_concat.mp hl
  obtain ⟨parent', hparent', -, hsize, hstep⟩ := walk_concat.mp hm
  cases (hkeeps.walk hparent).symm.trans hparent'
  exact ⟨hnull, hlimit, walk_concat.mpr ⟨parent, hparent, hnode, hsize, hstep⟩⟩

theorem keeps_insert {node : Node} (h : t.node? l = some .directory → node = .directory) :
    Keeps t (t.insert l node) := by
  constructor <;> intro m hm <;> rw [node?_insert]
  · split
    · rename_i heq
      rw [h (heq.1 ▸ hm)]
    · exact hm
  · split
    · rfl
    · exact hm

/-! ## Making directories -/

/-- The names lead to a directory. -/
def HasDirectory (t : FileTree) (names : List String) : Prop :=
  ∃ l, t.locateNames names = .ok l ∧ t.node? l = some .directory

theorem HasDirectory.of_keeps (h : t.HasDirectory names) (hkeeps : Keeps t t') :
    t'.HasDirectory names := by
  obtain ⟨l, hl, hnode⟩ := h
  exact ⟨l, hkeeps.locateNames hl, hkeeps.directory l hnode⟩

/-- Nothing is changed but that there may be more directories. -/
structure Extends (t t' : FileTree) : Prop where
  keeps : Keeps t t'
  file?_eq : ∀ l, t'.file? l = t.file? l

theorem Extends.refl (t : FileTree) : Extends t t := ⟨.refl t, fun _ ↦ rfl⟩

theorem Extends.trans (h : Extends t t') (h' : Extends t' t'') : Extends t t'' :=
  ⟨h.keeps.trans h'.keeps, fun l ↦ (h'.file?_eq l).trans (h.file?_eq l)⟩

theorem extends_insert_directory (h : t.node? l = none) : Extends t (t.insert l .directory) := by
  refine ⟨keeps_insert fun _ ↦ rfl, fun m ↦ ?_⟩
  rw [file?_insert]
  split
  · rename_i heq
    subst heq
    unfold node? at h
    split at h
    · cases h
    · simp only [file?, h]
  · rfl

theorem extends_ensureDirectory (t : FileTree) (names : List String) :
    Extends t (t.ensureDirectory names).tree := by
  unfold ensureDirectory
  split
  · exact .refl t
  · split
    · rename_i hnode
      exact extends_insert_directory hnode
    · exact .refl t
    · exact .refl t

theorem hasDirectory_ensureDirectory (h : (t.ensureDirectory names).error = none) :
    (t.ensureDirectory names).tree.HasDirectory names := by
  have hkeeps := (extends_ensureDirectory t names).keeps
  unfold ensureDirectory at h hkeeps ⊢
  split at h
  · cases h
  · rename_i l hl
    simp only [hl] at hkeeps ⊢
    split at h
    · rename_i hnode
      simp only [hnode] at hkeeps
      have hne : l ≠ [] := by
        rintro rfl
        cases hnode
      exact ⟨l, hkeeps.locateNames hl, by rw [node?_insert, if_pos ⟨rfl, hne⟩]⟩
    · exact ⟨l, hl, ‹_›⟩
    · cases h

theorem HasDirectory.ensureDirectory (h : t.HasDirectory names) :
    t.ensureDirectory names = ⟨t, none⟩ := by
  obtain ⟨l, hl, hnode⟩ := h
  simp only [FileTree.ensureDirectory, hl, hnode]

theorem extends_ensureDirectories (t : FileTree) (names above : List String) :
    Extends t (t.ensureDirectories names above).tree := by
  induction above generalizing names with
  | nil => exact extends_ensureDirectory t names
  | cons name above ih =>
      unfold ensureDirectories
      dsimp only
      split
      · unfold Change.andThen
        split
        · exact (ih _).trans (extends_ensureDirectory _ names)
        · exact ih _
      · exact extends_ensureDirectory t names

theorem hasDirectory_ensureDirectories {above : List String}
    (h : (t.ensureDirectories names above).error = none) :
    (t.ensureDirectories names above).tree.HasDirectory names := by
  cases above with
  | nil => exact hasDirectory_ensureDirectory h
  | cons name above =>
      unfold ensureDirectories at h ⊢
      dsimp only at h ⊢
      split at h
      · rename_i hmissing
        rw [if_pos hmissing]
        unfold Change.andThen at h ⊢
        split at h
        · exact hasDirectory_ensureDirectory h
        · rename_i hsome
          rw [hsome] at h
          cases h
      · rename_i hmissing
        rw [if_neg hmissing]
        exact hasDirectory_ensureDirectory h

theorem HasDirectory.ensureDirectories (h : t.HasDirectory names) (above : List String) :
    t.ensureDirectories names above = ⟨t, none⟩ := by
  cases above with
  | nil => exact h.ensureDirectory
  | cons name above => simp [FileTree.ensureDirectories, h.ensureDirectory]

/-- There is a directory for the file at a path. -/
def HasParent (t : FileTree) (path : String) : Prop :=
  t.HasDirectory ((Path.names path).filter (!Path.isIdle ·)).dropLast

theorem extends_createParent (t : FileTree) (path : String) :
    Extends t (t.createParent path).tree := extends_ensureDirectories t _ _

theorem hasParent_createParent (h : (t.createParent path).error = none) :
    (t.createParent path).tree.HasParent path := hasDirectory_ensureDirectories h

theorem HasParent.createParent (h : t.HasParent path) : t.createParent path = ⟨t, none⟩ :=
  h.ensureDirectories _

/-! ## Listing -/

/-- The names that lead to an entry from a place above it, if the entry is a file. -/
def listed? (l : Location) : Location × Node → Option (List String)
  | (place, .file _) => if l.isPrefixOf place then some (place.drop l.length) else none
  | (_, .directory) => none

theorem listed?_eq_some_iff {entry : Location × Node} :
    listed? l entry = some names ↔ ∃ content, entry = (l ++ names, .file content) := by
  obtain ⟨place, node⟩ := entry
  cases node with
  | directory => simp [listed?]
  | file content =>
      rw [listed?, Option.ite_none_right_eq_some, List.isPrefixOf_iff_prefix]
      constructor
      · rintro ⟨⟨rest, rfl⟩, hdrop⟩
        rw [List.drop_left, Option.some.injEq] at hdrop
        exact ⟨content, by rw [hdrop]⟩
      · rintro ⟨_, h⟩
        cases h
        exact ⟨List.prefix_append l names, by rw [List.drop_left]⟩

theorem filesBelow_eq (t : FileTree) (l : Location) :
    t.filesBelow l = (t.entries.filterMap (listed? l)).mergeSort listedBefore := by
  refine congrArg (fun f ↦ (t.entries.filterMap f).mergeSort listedBefore) ?_
  funext ⟨place, node⟩
  cases node <;> rfl

theorem filesBelow_of_pairwise
    (h : (t.entries.filterMap (listed? l)).Pairwise fun a b ↦ listedBefore a b = true) :
    t.filesBelow l = t.entries.filterMap (listed? l) := by
  rw [filesBelow_eq, List.mergeSort_of_pairwise h]

theorem mem_filesBelow_iff :
    names ∈ t.filesBelow l ↔ ∃ content, t.file? (l ++ names) = some content := by
  simp only [file?_eq_some_iff, ← Table.mem_entries_iff]
  rw [filesBelow_eq, List.mem_mergeSort, List.mem_filterMap]
  constructor
  · rintro ⟨entry, hmem, h⟩
    obtain ⟨content, rfl⟩ := listed?_eq_some_iff.mp h
    exact ⟨content, hmem⟩
  · rintro ⟨content, hmem⟩
    exact ⟨(l ++ names, .file content), hmem, listed?_eq_some_iff.mpr ⟨content, rfl⟩⟩

theorem nodup_filesBelow (t : FileTree) (l : Location) : (t.filesBelow l).Nodup := by
  -- Different entries have different places, and the names give back the place.
  have hplaces : t.entries.Pairwise fun p p' ↦ p.1 ≠ p'.1 := List.pairwise_map.mp t.nodup
  rw [filesBelow_eq, (List.mergeSort_perm _ _).nodup_iff]
  refine hplaces.filterMap _ ?_
  rintro entry entry' hne names hnames names' hnames' rfl
  obtain ⟨content, rfl⟩ := listed?_eq_some_iff.mp hnames
  obtain ⟨content', rfl⟩ := listed?_eq_some_iff.mp hnames'
  exact hne rfl

theorem listedBefore_iff (a b : Location) : listedBefore a b = true ↔ a ≤ b := by
  simp [listedBefore]

theorem pairwise_filesBelow (t : FileTree) (l : Location) :
    (t.filesBelow l).Pairwise (· ≤ ·) := by
  have hsorted : (t.filesBelow l).Pairwise fun a b ↦ listedBefore a b = true := by
    rw [filesBelow_eq]
    apply List.pairwise_mergeSort
    · intro a b c hab hbc
      rw [listedBefore_iff] at *
      exact le_trans hab hbc
    · intro a b
      rw [Bool.or_eq_true, listedBefore_iff, listedBefore_iff]
      exact le_total a b
  exact hsorted.imp fun h ↦ (listedBefore_iff _ _).mp h

/-- The files below a place that are listed for one tree are listed for another if it has the same
ones. -/
theorem filter_filesBelow_eq {q : List String → Bool}
    (h : ∀ names, q names = true → t'.file? (l ++ names) = t.file? (l ++ names)) :
    (t'.filesBelow l).filter q = (t.filesBelow l).filter q := by
  refine List.Perm.eq_of_pairwise (fun a b _ _ hab hba ↦ le_antisymm hab hba)
    ((pairwise_filesBelow t' l).filter q) ((pairwise_filesBelow t l).filter q) ?_
  rw [List.perm_ext_iff_of_nodup ((nodup_filesBelow t' l).filter q)
    ((nodup_filesBelow t l).filter q)]
  intro names
  rw [List.mem_filter, List.mem_filter, and_congr_left_iff]
  intro hq
  rw [mem_filesBelow_iff, mem_filesBelow_iff, h names hq]

/-! ## Writing -/

/-- The tree after a file has been written, where all other files are as they were. -/
structure Written (t : FileTree) (path text : String) (t' : FileTree) : Prop where
  keeps : Keeps t t'
  file?_eq : ∀ l, l ≠ Path.location path → t'.file? l = t.file? l
  read_eq : t'.read path = .ok text

theorem written_of_write (h : t.write path text = ⟨t', none⟩) : Written t path text t' := by
  unfold write at h
  split at h
  · cases h
  · rename_i l hl
    split at h
    · cases h
    · rename_i hnode
      cases h
      have hkeeps : Keeps t (t.insert l (.file (.text text))) :=
        keeps_insert fun h ↦ absurd h hnode
      refine ⟨hkeeps, fun m hm ↦ ?_, read_eq_ok_iff.mpr ⟨l, hkeeps.locate hl, ?_⟩⟩
      · rw [file?_insert, if_neg (eq_location_of_locate hl ▸ hm)]
      · rw [node?_eq_file_iff, file?_insert, if_pos rfl]
        refine ⟨?_, rfl⟩
        rintro rfl
        exact hnode rfl

/-- Writing what is there already changes nothing. -/
theorem write_eq_self (h : t.read path = .ok text) : t.write path text = ⟨t, none⟩ := by
  obtain ⟨l, hl, hnode⟩ := read_eq_ok_iff.mp h
  have hfile := file?_eq_some_iff.mp (node?_eq_file_iff.mp hnode).2
  simp [write, hl, hnode, Table.insert_eq_self hfile]

end FileTree

end FluentShapes
