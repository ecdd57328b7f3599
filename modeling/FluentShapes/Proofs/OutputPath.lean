import FluentShapes.Proofs.Path

/-!
# Paths of declarations

Two paths are the same if they have the same components.  The path of the declarations for a source
is the path that the source has, or would have below the output directory, with something appended
to its last name.  The components of the directory are the same for all sources of a job, so the
paths of declarations are told apart by the names of the sources.  No assumption is made on the names
but that they are names: they may have several full stops or begin with one, and those on the way to
the source may even lead upwards.
-/

namespace FluentShapes

namespace Path

variable {name : String}

end Path

namespace Command

namespace Job

/-- Names that lead from the source directory of a job to a source below it. -/
structure Below (job : Job) (names : List String) : Prop where
  ne_nil : names ≠ []
  isComponent : ∀ n ∈ names, Path.IsComponent n
  isSource : isSource job.srcPath names = true

namespace Below

variable {job : Job} {names other : List String}

theorem outputPath_concat {dir : List String} {name : String} (h : job.Below (dir ++ [name])) :
    job.outputPath (dir ++ [name]) =
      pathOf (job.outPath.getD job.srcPath) (dir ++ [name ++ ".d.ts"]) :=
  job.outputPath_concat dir ((isSource_concat job.srcPath dir name).mp h.isSource)

end Below

end Job

end Command

end FluentShapes
