import FluentShapes.Command.Basic
import FluentShapes.Command.Session

/-! # Compiling the files of a project -/

namespace FluentShapes.Command

/-- What is needed to turn one source file into declarations. -/
structure Job where
  srcPath : String
  outPath : Option String
  locale : Option String
  stdout : Bool
  options : CompileOptions

def sourceExtension : String := "ftl"

def declarationExtension : String := "ftl.d.ts"

/-- The path of a file from the names that lead to it. -/
def pathOf (base : String) (names : List String) : String := names.foldl Path.join base

/-- A file by the names that lead to it from the source directory. There are none if that is a file
itself. -/
def relativePath (names : List String) : String := "/".intercalate names

/-- Whether the last name has the extension of sources. -/
def isSource (srcPath : String) (names : List String) : Bool :=
  let name := match names.getLast? with
    | some name => some name
    | none => Path.fileName? srcPath
  name.bind Path.extension? = some sourceExtension

/-- The source files at or below a directory. -/
def sources (tree : FileTree) (srcPath : String) : List (List String) :=
  match tree.locate srcPath with
  | .ok l => (tree.filesBelow l).filter (isSource srcPath)
  | .error _ => []

namespace Job

variable (job : Job)

/-- The request for a file has its path and the locale of the job. -/
def requestFor (names : List String) : Except RequestError Request :=
  let path := String.ofList
    ((relativePath names).toList.map fun c ↦ if c = '\\' then '/' else c)
  Request.parse <|
    match job.locale with
    | some tag => path ++ "?locale=" ++ tag
    | none => path

/-- Declarations have the name of their source with another extension, next to the source or below
the output directory. -/
def outputPath (names : List String) : String :=
  let base := job.outPath.getD job.srcPath
  match names.getLast? with
  | some name => pathOf base (names.dropLast ++ [Path.withExtension name declarationExtension])
  | none => base

/-- The compilation of the text of a file. -/
def compileText? (names : List String) (source : String) :
    Option (Except CommandError Compilation) :=
  match job.requestFor names with
  | .error e => some (.error (.compile (.request e)))
  | .ok request =>
      (Compilation.ofSource? source request job.options).map fun
        | .error (.parse _ errors) =>
            .error (.syntaxErrors source (Path.reportName (pathOf job.srcPath names)) errors)
        | .error e => .error (.compile e)
        | .ok c => .ok c

/-- Write declarations to their file. -/
def writeOutput (names : List String) (declarations : String) (tree : FileTree) : FileTree.Change :=
  let path := job.outputPath names
  (tree.createParent path).andThen (·.write path declarations)

/-- Put declarations where they belong, and tell where that is. -/
def emit (names : List String) (declarations : String) (s : Session) :
    Session × Except CommandError String :=
  if job.stdout then (s.print declarations, .ok "stdout")
  else
    let c := job.writeOutput names declarations s.tree
    ({ s with tree := c.tree },
      match c.error with
      | none => .ok (job.outputPath names)
      | some e => .error (.file e))

/-- Compile one file, or `none` if that aborts the command. -/
def compileFile? (names : List String) (s : Session) :
    Option (Session × Except CommandError String) :=
  match s.tree.read (pathOf job.srcPath names) with
  | .error e => some (s, .error (.file e))
  | .ok source =>
      (job.compileText? names source).map fun
        | .error e => (s, .error e)
        | .ok c => job.emit names c.declarations s

end Job

/-- How far the files of a job are compiled. -/
structure Progress where
  session : Session
  succeeded : Nat
  failed : Nat
  aborted : Bool

/-- Compile one more file and say how that went. -/
def Progress.step (job : Job) (p : Progress) (names : List String) : Progress :=
  if p.aborted then p
  else
    match job.compileFile? names p.session with
    | none => { p with aborted := true }
    | some (s, .ok target) =>
        { p with
          session := s.print ("  ✓ " ++ relativePath names ++ " → " ++ target)
          succeeded := p.succeeded + 1 }
    | some (s, .error e) =>
        { p with
          session := s.printError ("  ✗ " ++ relativePath names ++ " - " ++ e.message)
          failed := p.failed + 1 }

def Progress.summary (p : Progress) : String :=
  if p.failed = 0 then "✅ Compiled " ++ toString p.succeeded ++ " files successfully"
  else "⚠️ Compiled " ++ toString p.succeeded ++ " files, " ++ toString p.failed ++ " errors"

def runJob (job : Job) (watch : Bool) (s : Session) : Session × Ending :=
  let s := s.print "🔨 Generating Fluent declarations..."
  match sources s.tree job.srcPath with
  | [] => (s.print "⚠️  No .ftl files found", .success)
  | files =>
      let s := s.print ("Found " ++ toString files.length ++ " files")
      let p := files.foldl (Progress.step job) ⟨s, 0, 0, false⟩
      if p.aborted then (p.session, .aborted)
      else
        let s := p.session.printAll ["", p.summary]
        let s := if watch then s.printAll ["", "👀 Watching for changes..."] else s
        (s, if p.failed = 0 then .success else .failure (.failedFiles p.failed))

/-- The job that the arguments and the configuration of a project ask for. -/
def jobOf (arguments : CompileArguments) (root : String) (config : Config) : Job :=
  let options := config.compileOptions
  let options :=
    if arguments.strict then
      { options with inference := { options.inference with collisions := .reject } }
    else options
  { srcPath := config.srcPath root
    outPath := (arguments.outDir.orElse fun _ ↦ config.outDir).map (Path.join root)
    locale := arguments.locale
    stdout := arguments.stdout
    options := options }

def runCompile (cwd : String) (arguments : CompileArguments) (s : Session) : Session × Ending :=
  let root := Path.join cwd arguments.path
  match Config.load s.tree root with
  | .error e => (s, .failure e)
  | .ok config =>
      let job := jobOf arguments root config
      if s.tree.pathExists job.srcPath then runJob job arguments.watch s
      else (s, .failure (.noSourceDirectory job.srcPath))

end FluentShapes.Command
