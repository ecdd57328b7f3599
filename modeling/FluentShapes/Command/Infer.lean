import FluentShapes.Command.Basic
import FluentShapes.Command.Session
import FluentShapes.Index.Json

/-! # Showing the arguments of a file -/

namespace FluentShapes.Command

/-- The options of a configuration and the flags that override them. -/
def inferOptions (arguments : InferArguments) (config : Config) : InferenceOptions :=
  ⟨if arguments.strict then .reject else config.collisions,
    arguments.compact || config.omitEmptyShapes⟩

/-- The index of a source, or `none` if that aborts the command. -/
def inferSource? (path source : String) (options : InferenceOptions) (strictSyntax : Bool) :
    Option (Except CommandError Index) :=
  (Resource.parseLenient? source).map fun p ↦
    if strictSyntax && !p.errors.isEmpty then
      .error (.syntaxErrors source (Path.reportName path) p.errors)
    else (Index.ofResource options p.body).mapError fun c ↦ .compile (.inference c)

def runInfer (cwd : String) (arguments : InferArguments) (s : Session) : Session × Ending :=
  match Config.load s.tree cwd with
  | .error e => (s, .failure e)
  | .ok config =>
      let path := Path.join cwd arguments.file
      match s.tree.read path with
      | .error e => (s, .failure (.cannotRead path e))
      | .ok source =>
          match inferSource? path source (inferOptions arguments config) config.strictSyntax with
          | none => (s, .aborted)
          | some (.error e) => (s, .failure e)
          | some (.ok index) => (s.print index.toJson.pretty, .success)

end FluentShapes.Command
