import FluentShapes.Bundler
import FluentShapes.Proofs.Compilation

/-!
# The hooks agree

Compiling, inferring and checking each read the source on their own, but with the options of the
hooks it can only fail at its syntax: no locale is asked for, and an id may be declared again.  So
the three of them succeed together (`hooks_of_clean`) or report the same errors (`hooks_of_errors`),
and the report of a failure is never empty.
-/

namespace FluentShapes

namespace SyntaxError

theorem display_ne_empty (e : SyntaxError) : e.display ≠ "" := by
  intro hempty
  unfold display at hempty
  simp only [String.append_eq_empty_iff] at hempty
  exact absurd hempty.1.1.1.1.1 (by decide)

theorem displayList_ne_empty (errors : List SyntaxError) : displayList errors ≠ "" := by
  rcases errors with _ | ⟨e, _ | ⟨e', rest⟩⟩
  · decide
  · exact e.display_ne_empty
  · intro hempty
    change e.display ++ " (and " ++ toString (e' :: rest).length ++ " more)" = "" at hempty
    simp only [String.append_eq_empty_iff] at hempty
    exact e.display_ne_empty hempty.1.1.1

end SyntaxError

namespace Bundler

theorem exists_index (compact : Bool) (body : Resource) :
    ∃ i, Index.ofResource (options compact).inference body = .ok i := by
  cases compact with
  | false => exact ⟨_, Index.ofResource_lastWriteWins false body⟩
  | true => exact ⟨_, Index.ofResource_lastWriteWins true body⟩

theorem not_lacksLocale (r : Request) (compact : Bool) : ¬ r.LacksLocale (options compact) := by
  rintro ⟨hrequired, -⟩
  cases hrequired

section Source

variable {source request : String} {r : Request} {p : Parsed}
  (hsource : Resource.parseLenient? source = some p) (hrequest : Request.parse request = .ok r)
  (compact : Bool)

include hsource

theorem ofSource?_eq_ofParsed :
    Compilation.ofSource? source r (options compact) =
      some (Compilation.ofParsed r (options compact) p) := by
  rw [Compilation.ofSource?_eq (not_lacksLocale r compact), hsource, Option.map_some]

include hrequest

theorem hooks_of_clean (herrors : p.errors = []) :
    ∃ output, checkSyntax? source = some "" ∧ infer? source compact = some (.ok output.index) ∧
      compile? source request compact = some (.ok output) := by
  obtain ⟨i, hi⟩ := exists_index compact p.body
  have hparse : Resource.parse? source = some (.ok p.body) := by
    simp [Resource.parse?_eq, hsource, herrors]
  have hcompile := Compilation.ofParsed_eq_ok (not_lacksLocale r compact)
    (fun hstrict ↦ hstrict.2 herrors) hi
  refine ⟨⟨Declaration.moduleText i r (options compact), i.toJson.compact⟩, ?_, ?_, ?_⟩
  · simp only [checkSyntax?, hparse, Option.map_some]
  · simp only [infer?, hparse, hi, Option.map_some]
  · simp only [compile?, hrequest, ofSource?_eq_ofParsed hsource, hcompile, Option.map_some]

theorem hooks_of_errors (herrors : p.errors ≠ []) :
    checkSyntax? source = some (SyntaxError.displayList p.errors) ∧
      infer? source compact = some (.error ("Parse error: " ++ SyntaxError.displayList p.errors)) ∧
      compile? source request compact =
        some (.error ("Compile error: Failed to parse " ++ r.path ++ ": " ++
          SyntaxError.displayList p.errors)) := by
  have hparse : Resource.parse? source = some (.error p.errors) := by
    simp [Resource.parse?_eq, hsource, herrors]
  have hcompile := (Compilation.ofParsed_eq_parse_iff (not_lacksLocale r compact) p
    r.path p.errors).mpr ⟨rfl, herrors, rfl, rfl⟩
  have hmessage : "Compile error: " ++ (CompileError.parse r.path p.errors).message =
      "Compile error: Failed to parse " ++ r.path ++ ": " ++
        SyntaxError.displayList p.errors := by
    change "Compile error: " ++ ("Failed to parse " ++ r.path ++ ": " ++ _) = _
    rw [← String.append_assoc, ← String.append_assoc, ← String.append_assoc]
    congr 3
  refine ⟨?_, ?_, ?_⟩
  · simp only [checkSyntax?, hparse, Option.map_some]
  · simp only [infer?, hparse, Option.map_some]
  · simp only [compile?, hrequest, ofSource?_eq_ofParsed hsource, hcompile, Option.map_some,
      hmessage]

end Source

/-- The report of an error in the syntax is not that of a collision. -/
theorem report_ne_collision (path summary : String) (c : Collision) :
    "Parse error: " ++ summary ≠ "Inference error: " ++ c.message ∧
      "Compile error: Failed to parse " ++ path ++ ": " ++ summary ≠
        "Compile error: " ++ c.message := by
  constructor
  · intro heq
    have hchars := congrArg String.toList heq
    simp at hchars
  · intro heq
    have hchars := congrArg String.toList heq
    unfold Collision.message at hchars
    simp at hchars

/-- The hooks succeed together, exactly if the check finds nothing, and then compiling and inferring
give the same index.  Otherwise both report what the check has found, and never a collision. -/
theorem hooks_agree (source request : String) (compact : Bool) (r : Request) (p : Parsed)
    (hrequest : Request.parse request = .ok r)
    (hsource : Resource.parseLenient? source = some p) :
    ∃ summary compiled inferred,
      checkSyntax? source = some summary ∧
      compile? source request compact = some compiled ∧
      infer? source compact = some inferred ∧
      ((∃ output, compiled = .ok output) ↔ ∃ index, inferred = .ok index) ∧
      ((∃ index, inferred = .ok index) ↔ summary = "") ∧
      (∀ output index, compiled = .ok output → inferred = .ok index → output.index = index) ∧
      (∀ message, inferred = .error message → message = "Parse error: " ++ summary) ∧
      (∀ message, compiled = .error message →
        message = "Compile error: Failed to parse " ++ r.path ++ ": " ++ summary) ∧
      (∀ c : Collision, inferred ≠ .error ("Inference error: " ++ c.message) ∧
        compiled ≠ .error ("Compile error: " ++ c.message)) ∧
      ∀ errors, SyntaxError.displayList errors ≠ "" := by
  by_cases herrors : p.errors = []
  · obtain ⟨output, hcheck, hinfer, hcompile⟩ := hooks_of_clean hsource hrequest compact herrors
    refine ⟨_, _, _, hcheck, hcompile, hinfer, iff_of_true ⟨_, rfl⟩ ⟨_, rfl⟩,
      iff_of_true ⟨_, rfl⟩ rfl, ?_, nofun, nofun, fun c ↦ ⟨nofun, nofun⟩,
      SyntaxError.displayList_ne_empty⟩
    rintro _ _ ⟨⟩ ⟨⟩
    rfl
  · obtain ⟨hcheck, hinfer, hcompile⟩ := hooks_of_errors hsource hrequest compact herrors
    refine ⟨_, _, _, hcheck, hcompile, hinfer, iff_of_false ?_ ?_,
      iff_of_false ?_ (SyntaxError.displayList_ne_empty _), nofun, ?_, ?_, fun c ↦ ⟨?_, ?_⟩,
      SyntaxError.displayList_ne_empty⟩
    · rintro ⟨output, ⟨⟩⟩
    · rintro ⟨index, ⟨⟩⟩
    · rintro ⟨index, ⟨⟩⟩
    · rintro message ⟨⟩
      rfl
    · rintro message ⟨⟩
      rfl
    · intro heq
      exact (report_ne_collision r.path _ c).1 (Except.error.inj heq)
    · intro heq
      exact (report_ne_collision r.path _ c).2 (Except.error.inj heq)

/-- An id that is declared again is no error, but a broken entry is. -/
theorem hooks_agree_broken :
    Request.parse "./app.ftl?locale=en" = .ok ⟨"./app.ftl", some ⟨"en", none, none, []⟩⟩ ∧
      (Resource.parseLenient? "a = A\na = B\nb = \x7d\n").isSome = true ∧
      ∃ summary, checkSyntax? "a = A\na = B\nb = \x7d\n" = some summary ∧ summary ≠ "" ∧
        infer? "a = A\na = B\nb = \x7d\n" true = some (.error ("Parse error: " ++ summary)) ∧
        compile? "a = A\na = B\nb = \x7d\n" "./app.ftl?locale=en" true =
          some (.error ("Compile error: Failed to parse ./app.ftl: " ++ summary)) := by
  have hrequest : Request.parse "./app.ftl?locale=en" =
      .ok ⟨"./app.ftl", some ⟨"en", none, none, []⟩⟩ := by decide +kernel
  have hsome : (Resource.parseLenient? "a = A\na = B\nb = \x7d\n").isSome = true := by
    decide +kernel
  obtain ⟨p, hsource⟩ := Option.isSome_iff_exists.mp hsome
  obtain ⟨summary, compiled, inferred, hcheck, hcompile, hinfer, htogether, hempty, -, hparse,
    hfailed, -⟩ := hooks_agree _ _ true _ p hrequest hsource
  have hne : summary ≠ "" := by
    rintro rfl
    exact absurd hcheck (by decide +kernel)
  refine ⟨hrequest, hsome, summary, hcheck, hne, ?_, ?_⟩
  · cases inferred with
    | ok index => exact absurd (hempty.mp ⟨index, rfl⟩) hne
    | error message => rw [hinfer, hparse message rfl]
  · cases compiled with
    | ok output => exact absurd (hempty.mp (htogether.mp ⟨output, rfl⟩)) hne
    | error message =>
        rw [hcompile, hfailed message rfl]
        rfl

end Bundler

end FluentShapes
