import FluentShapes.Proofs.Initialization
import FluentShapes.Proofs.Json

/-!
# Configurations read back

A configuration is written as an object with one member for each field that is set, and is read
field by field from the members of that name.  So what is written is read back, whatever the texts
in it are (`Config.parse?_render`).  The last thing that starting a project does is to write its
configuration (`Command.write_of_runInit`), which can then be loaded.
-/

namespace FluentShapes

namespace CollisionPolicy

theorem ofJson?_name (policy : CollisionPolicy) : ofJson? (.string policy.name) = some policy := by
  cases policy <;> rfl

end CollisionPolicy

namespace Config

theorem textual_toJson (c : Config) : c.toJson.Textual := by
  refine .object fun m hm ↦ ?_
  rcases List.mem_append.mp hm with hm | hm
  · rcases List.mem_append.mp hm with hm | hm
    · rw [List.mem_singleton.mp hm]
      exact .string c.srcDir
    · obtain ⟨dir, -, rfl⟩ := List.mem_map.mp hm
      exact .string dir
  · simp only [List.mem_cons, List.not_mem_nil, or_false] at hm
    rcases hm with rfl | rfl | rfl | rfl | rfl | rfl <;> constructor

/-- Every field is read from its member.  Only the output directory may have none. -/
theorem ofJson?_toJson (c : Config) : ofJson? c.toJson = some c := by
  obtain ⟨srcDir, outDir, runtimeModule, opaqueType, requireLocale, strictSyntax, collisions,
    omitEmptyShapes⟩ := c
  cases outDir with
  | none =>
      simp [toJson, ofJson?, ofValues?, valuesOf, field?, string?, bool?,
        CollisionPolicy.ofJson?_name]
  | some dir =>
      simp [toJson, ofJson?, ofValues?, valuesOf, field?, string?, bool?, optionalString?,
        CollisionPolicy.ofJson?_name]

theorem parse?_render {layout : Json.Layout} (hlayout : layout.Blank) (c : Config) :
    parse? (c.toJson.render layout) = some c := by
  rw [parse?, Json.parse?_render hlayout c.textual_toJson]
  exact c.ofJson?_toJson

/-- A configuration that has been written is the one that is loaded. -/
theorem load_of_write {t t' : FileTree} {root : String} {c : Config}
    (h : t.write (Path.join root fileName) c.toJson.pretty = ⟨t', none⟩) :
    load t' root = .ok c :=
  load_eq_ok_iff.mpr (.inr ⟨c.toJson.pretty, (FileTree.written_of_write h).read_eq,
    parse?_render Json.Layout.blank_pretty c⟩)

end Config

/-- A configuration is read back from either text of it.  So if the init command has succeeded and
was not held back by a configuration file, then the project has the configuration with the
directories that were asked for and with defaults otherwise. -/
theorem Config.written_config_loads :
    (∀ c : Config, parse? c.toJson.compact = some c ∧ parse? c.toJson.pretty = some c) ∧
      ∀ (cwd : String) (line : List String) (arguments : InitArguments) (t : FileTree),
        Command.parse line = .ok (.init arguments) → (Command.runLine cwd line t).exit = 0 →
        t.pathExists (Path.join cwd fileName) = false ∨ arguments.force = true →
        load (Command.runLine cwd line t).session.tree cwd =
          .ok { Config.default with srcDir := arguments.srcDir, outDir := arguments.outDir } := by
  refine ⟨fun c ↦ ⟨parse?_render Json.Layout.blank_compact c,
    parse?_render Json.Layout.blank_pretty c⟩, fun cwd line arguments t hline hexit hwrites ↦ ?_⟩
  rw [Command.runLine_of_init hline] at hexit ⊢
  obtain ⟨t', hwrite⟩ := Command.write_of_runInit (Command.eq_success_of_finish hexit) hwrites
  exact load_of_write hwrite

/-- The directories have characters that must be escaped, and a broken configuration is replaced. -/
theorem Config.written_config_loads_forced :
    load (Command.runLine "p" ["init", "-f", "-s", "a\"\t\\", "-o", "é\n"]
        (FileTree.place ∅ ["p", fileName] "broken")).session.tree "p" =
      .ok { Config.default with srcDir := "a\"\t\\", outDir := some "é\n" } :=
  written_config_loads.2 "p" ["init", "-f", "-s", "a\"\t\\", "-o", "é\n"]
    ⟨"a\"\t\\", some "é\n", true⟩ (FileTree.place ∅ ["p", fileName] "broken") rfl
    (by decide +kernel) (.inr rfl)

end FluentShapes
