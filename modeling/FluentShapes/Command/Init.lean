import FluentShapes.Command.Basic
import FluentShapes.Command.Session

/-! # Starting a project -/

namespace FluentShapes.Command

def exampleName : String := "example.ftl"

def exampleText : String :=
  "hello = Hello, \x7b $name \x7d!\n" ++
  "apples = I have \x7b $count ->\n" ++
  "    [one] one apple\n" ++
  "   *[other] \x7b $count \x7d apples\n" ++
  "\x7d\n" ++
  "choices =\n" ++
  "    .create = Create\n" ++
  "    .open = Open \x7b $path \x7d\n"

/-- Make what is at a path and say so, unless it is there. -/
def createMissing (path : String) (change : FileTree → FileTree.Change) (name : String) (s : Session)
    (next : Session → Session × Ending) : Session × Ending :=
  if s.tree.pathExists path then next s
  else s.attempt change fun s ↦ next (s.print ("  ✓ Created " ++ name))

def initConfig (arguments : InitArguments) : Config :=
  { Config.default with srcDir := arguments.srcDir, outDir := arguments.outDir }

def initEpilogue (arguments : InitArguments) : List String :=
  ["  ✓ Created " ++ Config.fileName,
    "",
    "✅ Project initialized!",
    "",
    "Next steps:",
    "  1. Edit " ++ arguments.srcDir ++ "/" ++ exampleName,
    "  2. Run: fluent-typegen compile",
    "  3. Import the generated example.ftl.d.ts types"]

def runInit (cwd : String) (arguments : InitArguments) (s : Session) : Session × Ending :=
  let configPath := Path.join cwd Config.fileName
  if s.tree.pathExists configPath && !arguments.force then
    (s.printAll ["⚠️ " ++ Config.fileName ++ " already exists", "Use --force to overwrite"], .success)
  else
    let srcPath := Path.join cwd arguments.srcDir
    let examplePath := Path.join srcPath exampleName
    let s := s.print "📝 Initializing fluent-typegen project..."
    createMissing srcPath (·.createDirectories srcPath) (arguments.srcDir ++ "/") s fun s ↦
    createMissing examplePath (·.write examplePath exampleText) exampleName s fun s ↦
    s.attempt (·.write configPath (initConfig arguments).toJson.pretty) fun s ↦
    (s.printAll (initEpilogue arguments), .success)

end FluentShapes.Command
