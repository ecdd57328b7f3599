import FluentShapes.Compilation
import FluentShapes.Config
import FluentShapes.Diagnostic.Report
import FluentShapes.File.Tree

/-! # What a command does to files and says -/

namespace FluentShapes

/-- The files, and what has been written to the two output streams. -/
structure Session where
  tree : FileTree
  stdout : String
  stderr : String

namespace Session

def print (s : Session) (line : String) : Session := { s with stdout := s.stdout ++ line ++ "\n" }

def printError (s : Session) (line : String) : Session :=
  { s with stderr := s.stderr ++ line ++ "\n" }

def printAll (s : Session) (lines : List String) : Session := lines.foldl print s

end Session

/-- A report with its header, its location and what stands below its label. The text that the command
line tool prints has more in it: behind the location it draws the lines of the source, with the label
at its span. The drawing is left out here. -/
def Report.text (fileName : String) (r : Report) : String :=
  let below := match r.below with
    | some lines => lines ++ "\n"
    | none => ""
  header ++ "\n╭─[" ++ r.location.getD (fileName ++ ":?:?") ++ "]\n" ++ below

/-- The reports on the syntax errors of a file. -/
def Report.ofErrors (source fileName : String) (errors : List SyntaxError) : String :=
  String.join (errors.map fun e ↦ (ofError source fileName e).text fileName)

/-- Why a command, or the compilation of one file, fails. -/
inductive CommandError where
  | file (error : FileError)
  | cannotRead (path : String) (error : FileError)
  | noSourceDirectory (path : String)
  | invalidConfig
  | syntaxErrors (source fileName : String) (errors : List SyntaxError)
  | compile (error : CompileError)
  | failedFiles (count : Nat)

/-- What is said of an error. In two cases this is not the text of the command line tool. It says what
is wrong with a configuration in the words of its JSON reader, for which `invalid configuration`
stands here, and it draws the source of a syntax error (`Report.text`). -/
def CommandError.message : CommandError → String
  | file error => error.message
  | cannotRead path error => "Cannot read " ++ path ++ ": " ++ error.message
  | noSourceDirectory path => "Source directory does not exist: " ++ Path.quoted path
  | invalidConfig => "invalid configuration"
  | syntaxErrors source fileName errors => "\n" ++ Report.ofErrors source fileName errors
  | compile error => error.message
  | failedFiles count => toString count ++ " file(s) failed to compile"

/-- How a command ends. A source with a fault that cannot be worded aborts it. -/
inductive Ending where
  | success
  | failure (error : CommandError)
  | aborted

/-- Change the files and go on, or stop if that fails. -/
def Session.attempt (s : Session) (change : FileTree → FileTree.Change)
    (next : Session → Session × Ending) : Session × Ending :=
  let c := change s.tree
  let s := { s with tree := c.tree }
  match c.error with
  | none => next s
  | some e => (s, .failure (.file e))

/-- The name of a file in the reports on it. -/
def Path.reportName (path : String) : String := (Path.fileName? path).getD "unknown"

/-- The configuration of the project at a root. -/
def Config.load (tree : FileTree) (root : String) : Except CommandError Config := do
  let path := Path.join root Config.fileName
  if tree.pathExists path then
    let text ← (tree.read path).mapError .file
    match Config.parse? text with
    | some c => .ok c
    | none => .error .invalidConfig
  else .ok Config.default

end FluentShapes
