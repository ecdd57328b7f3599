import FluentShapes.Shape.Inference

/-! # Argument indexes -/

namespace FluentShapes

/-- The entries of a resource by id. An entry takes the arguments of its shape, or none at all. -/
abbrev Index := Table String (Option Shape)

namespace Index

/-- The entries that take arguments. The shape may still be empty. -/
def argumentIds (i : Index) : List (String × Shape) :=
  i.entries.filterMap fun (id, entry) ↦ entry.map fun shape ↦ (id, shape)

def noArgumentIds (i : Index) : List String :=
  i.entries.filterMap fun (id, entry) ↦ if entry.isNone then some id else none

end Index

/-! ## The index of a resource -/

/-- What happens when an id is declared again. -/
inductive CollisionPolicy where
  | lastWriteWins
  | reject
deriving DecidableEq

structure InferenceOptions where
  collisions : CollisionPolicy
  /-- Entries whose shape is empty count as taking no arguments. -/
  omitEmptyShapes : Bool
deriving DecidableEq

namespace InferenceOptions

def default : InferenceOptions := ⟨.lastWriteWins, false⟩

def strict : InferenceOptions := { default with collisions := .reject }

def compact : InferenceOptions := { default with omitEmptyShapes := true }

end InferenceOptions

/-- An id that is declared more than once. -/
structure Collision where
  id : String
deriving DecidableEq

def Collision.message (c : Collision) : String :=
  "Entry id '" ++ c.id ++ "' is declared more than once"

/-- The ids that an entry declares: a message's own, and one for each of its attributes. -/
def Entry.declarations : Entry → List (String × Pattern)
  | message name value attributes _ =>
      value.toList.map (fun p ↦ (name, p)) ++
        attributes.map fun a ↦ (name ++ "." ++ a.name, a.value)
  | term .. | comment .. | junk _ => []

def Resource.declarations (r : Resource) : List (String × Pattern) := r.flatMap Entry.declarations

namespace Index

/-- The entry for a pattern. -/
def entryOf (omitEmptyShapes : Bool) (p : Pattern) : Option Shape :=
  if omitEmptyShapes && p.shape.isEmpty then none else some p.shape

def declare (options : InferenceOptions) (i : Index) (declaration : String × Pattern) :
    Except Collision Index :=
  if options.collisions = .reject && i.contains declaration.1 then .error ⟨declaration.1⟩
  else .ok (i.insert declaration.1 (entryOf options.omitEmptyShapes declaration.2))

/-- The index of the declarations of a resource, taken in order. -/
def ofResource (options : InferenceOptions) (r : Resource) : Except Collision Index :=
  r.declarations.foldlM (declare options) Table.empty

end Index

end FluentShapes
