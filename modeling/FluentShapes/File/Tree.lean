import FluentShapes.File.Path
import FluentShapes.Table

/-! # File trees -/

namespace FluentShapes

/-- Why an operation on files fails. -/
inductive FileError where
  | notFound
  | alreadyExists
  | notDirectory
  | isDirectory
  | nameTooLong
  | nullCharacter
  | notText
deriving DecidableEq

def FileError.message : FileError → String
  | notFound => "No such file or directory (os error 2)"
  | alreadyExists => "File exists (os error 17)"
  | notDirectory => "Not a directory (os error 20)"
  | isDirectory => "Is a directory (os error 21)"
  | nameTooLong => "File name too long (os error 36)"
  | nullCharacter => "file name contained an unexpected NUL byte"
  | notText => "stream did not contain valid UTF-8"

/-- What a file holds: a text, or bytes that are no text in UTF-8. -/
inductive Content where
  | text (text : String)
  | binary (bytes : ByteArray) (noText : String.fromUTF8? bytes = none)

instance : DecidableEq Content
  | .text a, .text b => decidable_of_iff (a = b) (by simp)
  | .binary a _, .binary b _ => decidable_of_iff (a.data = b.data) (by simp [ByteArray.ext_iff])
  | .text _, .binary .. | .binary .., .text _ => isFalse (by simp)

def Content.ofBytes (bytes : ByteArray) : Content :=
  match h : String.fromUTF8? bytes with
  | some s => .text s
  | none => .binary bytes h

/-- What there can be at a place. There are no links: whatever there is has one place. -/
inductive Node where
  | file (content : Content)
  | directory
deriving DecidableEq

/-- A place in a tree by the names that lead to it from the top. -/
abbrev Location := List String

/-- The files and directories that there are, and nothing else. The top is always a directory. -/
abbrev FileTree := Table Location Node

namespace FileTree

def node? (t : FileTree) (l : Location) : Option Node :=
  if l.isEmpty then some .directory else t.get? l

def step (l : Location) (name : String) : Location :=
  if Path.isIdle name then l else if name = ".." then l.dropLast else l ++ [name]

/-- The number of bytes that a name may have. -/
def nameLimit : Nat := 255

/-- The number of bytes that a path may have. -/
def pathLimit : Nat := 4095

/-- Follow names from a place. All but the last must lead to directories. -/
def walk (t : FileTree) (l : Location) : List String → Except FileError Location
  | [] => .ok l
  | name :: rest =>
      match t.node? l with
      | none => .error .notFound
      | some (.file _) => .error .notDirectory
      | some .directory =>
          if nameLimit < name.utf8ByteSize then .error .nameTooLong
          else walk t (step l name) rest

/-- The place that names lead to from the top. -/
def locateNames (t : FileTree) (names : List String) : Except FileError Location :=
  if names.any (·.toList.contains '\x00') then .error .nullCharacter
  else if pathLimit < ("/".intercalate names).utf8ByteSize then .error .nameTooLong
  else t.walk [] names

def locate (t : FileTree) (path : String) : Except FileError Location :=
  t.locateNames (Path.names path)

def find? (t : FileTree) (path : String) : Option Node :=
  match t.locate path with
  | .ok l => t.node? l
  | .error _ => none

def pathExists (t : FileTree) (path : String) : Bool := (t.find? path).isSome

def read (t : FileTree) (path : String) : Except FileError String := do
  match t.node? (← t.locate path) with
  | some (.file (.text text)) => .ok text
  | some (.file (.binary ..)) => .error .notText
  | some .directory => .error .isDirectory
  | none => .error .notFound

/-- What a change leaves: the tree, and why the change failed if it did. One that fails half way leaves
what it has done. -/
structure Change where
  tree : FileTree
  error : Option FileError

/-- Go on with another change unless this one failed. -/
def Change.andThen (c : Change) (next : FileTree → Change) : Change :=
  match c.error with
  | none => next c.tree
  | some _ => c

def write (t : FileTree) (path text : String) : Change :=
  match t.locate path with
  | .error e => ⟨t, some e⟩
  | .ok l =>
      if t.node? l = some .directory then ⟨t, some .isDirectory⟩
      else ⟨t.insert l (.file (.text text)), none⟩

/-- Make a directory in one that is there. It may be there itself. -/
def ensureDirectory (t : FileTree) (names : List String) : Change :=
  match t.locateNames names with
  | .error e => ⟨t, some e⟩
  | .ok l =>
      match t.node? l with
      | none => ⟨t.insert l .directory, none⟩
      | some .directory => ⟨t, none⟩
      | some (.file _) => ⟨t, some .alreadyExists⟩

/-- Make a directory. If something is missing on the way to it, make the directory above it first. That
one is given by its names in reverse. -/
def ensureDirectories (t : FileTree) (names : List String) : List String → Change
  | [] => t.ensureDirectory names
  | name :: above =>
      let c := t.ensureDirectory names
      if c.error = some .notFound then
        (t.ensureDirectories (name :: above).reverse above).andThen (·.ensureDirectory names)
      else c

/-- Make the directory of a path and all above it. A full stop at the end of the path stays there, and
the directory in front of it has to be there already. -/
def createDirectories (t : FileTree) (path : String) : Change :=
  let names := Path.names path
  t.ensureDirectories (names.reverse.dropWhile (· = "")).reverse
    (names.filter (!Path.isIdle ·)).reverse.tail

/-- Make the directory that a file is in. -/
def createParent (t : FileTree) (path : String) : Change :=
  let names := ((Path.names path).filter (!Path.isIdle ·)).dropLast
  t.ensureDirectories names names.reverse.tail

/-- The order in which a directory is listed: by name, the content of a directory behind it. -/
def listedBefore (a b : Location) : Bool := !decide (b < a)

/-- The files at or below a place, by the names that lead there from it, in listed order. -/
def filesBelow (t : FileTree) (l : Location) : List (List String) :=
  let below := t.entries.filterMap fun (place, node) ↦
    match node with
    | .file _ => if l.isPrefixOf place then some (place.drop l.length) else none
    | .directory => none
  below.mergeSort listedBefore

/-- A tree with one more text file and the directories above it. -/
def place (t : FileTree) (l : Location) (text : String) : FileTree :=
  let parents := ((List.range l.length).drop 1).map l.take
  (parents.foldl (fun t p ↦ t.insert p .directory) t).insert l (.file (.text text))

/-- The directories of `after` that `before` has not. -/
def newDirectories (before after : FileTree) : List Location :=
  after.entries.filterMap fun (l, node) ↦
    if node = .directory && (before.get? l).isNone then some l else none

/-- The text files of `after` that `before` has not, or has with something else in them. -/
def changes (before after : FileTree) : List (Location × String) :=
  after.entries.filterMap fun (l, node) ↦
    match node with
    | .file (.text text) =>
        if before.get? l = some (.file (.text text)) then none else some (l, text)
    | .file (.binary ..) | .directory => none

end FileTree

end FluentShapes
