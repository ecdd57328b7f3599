import FluentShapes.Declaration.Module
import FluentShapes.File.Path
import FluentShapes.Json.Reader

/-! # Project configuration -/

namespace FluentShapes

structure Config where
  srcDir : String
  /-- Declarations go next to their sources if this is not set. -/
  outDir : Option String
  runtimeModule : String
  opaqueType : String
  requireLocale : Bool
  strictSyntax : Bool
  collisions : CollisionPolicy
  omitEmptyShapes : Bool
deriving DecidableEq

namespace CollisionPolicy

def name : CollisionPolicy → String
  | lastWriteWins => "lastWriteWins"
  | reject => "reject"

def ofName? (name : String) : Option CollisionPolicy :=
  if name = "lastWriteWins" then some lastWriteWins
  else if name = "reject" then some reject
  else none

/-- A policy is a name, or an object that maps the name to nothing. -/
def ofJson? : Json → Option CollisionPolicy
  | .string name => ofName? name
  | .object [(name, .null)] => ofName? name
  | _ => none

end CollisionPolicy

namespace Config

def fileName : String := "fluent-typegen.config.json"

def default : Config :=
  let options := CompileOptions.default
  ⟨"src", none, options.runtimeModule, options.opaqueType, options.requireLocale,
    options.strictSyntax, options.inference.collisions, options.inference.omitEmptyShapes⟩

def compileOptions (c : Config) : CompileOptions :=
  ⟨c.runtimeModule, c.opaqueType, c.requireLocale, c.strictSyntax, ⟨c.collisions, c.omitEmptyShapes⟩⟩

/-- The source directory of the project at a root. -/
def srcPath (c : Config) (root : String) : String := Path.join root c.srcDir

def toJson (c : Config) : Json :=
  .object <|
    [("srcDir", .string c.srcDir)] ++
    c.outDir.toList.map (fun dir ↦ ("outDir", .string dir)) ++
    [("runtimeModule", .string c.runtimeModule),
      ("opaqueType", .string c.opaqueType),
      ("requireLocale", .bool c.requireLocale),
      ("strictSyntax", .bool c.strictSyntax),
      ("collisions", .string c.collisions.name),
      ("omitEmptyShapes", .bool c.omitEmptyShapes)]

def string? : Json → Option String
  | .string text => some text
  | _ => none

def bool? : Json → Option Bool
  | .bool value => some value
  | _ => none

/-- Null unsets a field that need not be set. -/
def optionalString? : Json → Option (Option String)
  | .null => some none
  | value => (string? value).map some

/-- The value of a field that is given at most once. -/
def field? {α : Type} (decode : Json → Option α) (missing : α) : List Json → Option α
  | [] => some missing
  | [value] => decode value
  | _ => none

/-- A configuration from the values given for its fields, which have a name and a position. Each field
has a value of its own for when none is given. -/
def ofValues? (values : String → Nat → List Json) : Option Config := do
  let srcDir ← field? string? "src" (values "srcDir" 0)
  let outDir ← field? optionalString? none (values "outDir" 1)
  let runtimeModule ← field? string? "@fluent/bundle" (values "runtimeModule" 2)
  let opaqueType ← field? string? "FluentVariable" (values "opaqueType" 3)
  let requireLocale ← field? bool? false (values "requireLocale" 4)
  let strictSyntax ← field? bool? true (values "strictSyntax" 5)
  let collisions ← field? CollisionPolicy.ofJson? .lastWriteWins (values "collisions" 6)
  let omitEmptyShapes ← field? bool? false (values "omitEmptyShapes" 7)
  pure ⟨srcDir, outDir, runtimeModule, opaqueType, requireLocale, strictSyntax, collisions,
    omitEmptyShapes⟩

/-- The values of the members of a name. -/
def valuesOf (members : List (String × Json)) (name : String) : List Json :=
  (members.filter (·.1 = name)).map Prod.snd

/-- An object of fields by name, where other members are passed over, or a list of fields by
position. What is missing has its default. -/
def ofJson? : Json → Option Config
  | .object members => ofValues? fun name _ ↦ valuesOf members name
  | .array items =>
      if items.length ≤ 8 then ofValues? fun _ position ↦ items[position]?.toList else none
  | _ => none

def parse? (text : String) : Option Config := (Json.parse? text).bind ofJson?

end Config

end FluentShapes
