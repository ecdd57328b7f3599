import FluentShapes.Command.Compile
import FluentShapes.Command.Infer
import FluentShapes.Command.Init

/-! # Carrying out command lines -/

namespace FluentShapes

/-- What a run leaves behind. -/
structure RunResult where
  exit : Nat
  session : Session

namespace Command

def usage : String :=
  "Usage: fluent-typegen [-v] <COMMAND>\n\n" ++
  "Commands:\n" ++
  "  init     [-s <SRC_DIR>] [-o <OUT_DIR>] [-f]\n" ++
  "  compile  [PATH] [--stdout] [-o <OUT_DIR>] [-l <LOCALE>] [--strict] [-w]\n" ++
  "  infer    <FILE> [--compact] [--strict]"

def run (cwd : String) (s : Session) : Command → Session × Ending
  | init arguments => runInit cwd arguments s
  | compile arguments => runCompile cwd arguments s
  | infer arguments => runInfer cwd arguments s

def finish : Session × Ending → RunResult
  | (s, .success) => ⟨0, s⟩
  | (s, .failure e) => ⟨1, ((s.printError "").printError ("Error: " ++ e.message)).printError ""⟩
  | (s, .aborted) => ⟨101, s⟩

/-- Run the program with its arguments in the directory `cwd`. -/
def runLine (cwd : String) (arguments : List String) (tree : FileTree) : RunResult :=
  let s : Session := ⟨tree, "", ""⟩
  match parse arguments with
  | .ok command => finish (run cwd s command)
  | .error .help => ⟨0, s.print usage⟩
  | .error .version => ⟨0, s.print "fluent-typegen 0.1.0"⟩
  | .error .usage => ⟨2, s.printError usage⟩

end Command

end FluentShapes
