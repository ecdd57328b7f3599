import FluentShapes.Index.Basic
import FluentShapes.Json.Reader

/-! # Indexes as JSON

The kind of a key is not written: what is read back holds string keys only.
-/

namespace FluentShapes

def LiteralKey.toJson (key : LiteralKey) : Json := .string key.text

def LiteralKey.ofJson? : Json → Option LiteralKey
  | .string text => some (.string text)
  | _ => none

namespace ArgumentType

def toJson : ArgumentType → Json
  | opaqueType => .string "opaque"
  | union keys => .object [("literalUnion", .array (keys.toList.map LiteralKey.toJson))]

def ofJson? : Json → Option ArgumentType
  | .string "opaque" => some opaqueType
  | .object [("opaque", .null)] => some opaqueType
  | .object [("literalUnion", .array items)] => (items.mapM LiteralKey.ofJson?).map ofKeys
  | _ => none

end ArgumentType

namespace Shape

def toJson (s : Shape) : Json := .object (s.entries.map fun (name, type) ↦ (name, type.toJson))

def ofMembers? (members : List (String × Json)) : Option Shape :=
  (members.mapM fun m ↦ (ArgumentType.ofJson? m.2).map (Prod.mk m.1)).map Table.ofList

end Shape

namespace Index

def entryToJson : Option Shape → Json
  | none => .null
  | some shape => shape.toJson

def entryOfJson? : Json → Option (Option Shape)
  | .null => some none
  | .object members => (Shape.ofMembers? members).map some
  | _ => none

def toJson (i : Index) : Json := .object (i.entries.map fun (id, entry) ↦ (id, entryToJson entry))

def ofJson? : Json → Option Index
  | .object members =>
      (members.mapM fun m ↦ (entryOfJson? m.2).map (Prod.mk m.1)).map Table.ofList
  | _ => none

def parse? (text : String) : Option Index := (Json.parse? text).bind ofJson?

end Index

end FluentShapes
