import FluentShapes.Shape.Basic

/-! # Scopes

A scope collects what a pattern says about its variables. The first selection on a variable fixes its
type; a plain reference only makes it known.
-/

namespace FluentShapes

/-- One thing that a pattern says about a variable. -/
inductive Mention where
  | reference (name : String)
  | selector (name : String) (candidate : ArgumentType)
deriving DecidableEq

def Mention.name : Mention → String
  | reference name | selector name _ => name

structure Scope where
  shape : Shape
  selectors : Distinct String

namespace Scope

def empty : Scope := ⟨∅, ∅⟩

def isSelector (s : Scope) (name : String) : Bool := decide (name ∈ s.selectors.toList)

def reference (s : Scope) (name : String) : Scope :=
  if s.shape.contains name then s else { s with shape := s.shape.insert name .opaqueType }

def selector (s : Scope) (name : String) (candidate : ArgumentType) : Scope :=
  if s.isSelector name then s
  else ⟨s.shape.insert name candidate, s.selectors.push name⟩

def mention (s : Scope) : Mention → Scope
  | .reference name => s.reference name
  | .selector name candidate => s.selector name candidate

/-- The scope after a list of mentions. -/
def run (s : Scope) (mentions : List Mention) : Scope := mentions.foldl mention s

@[simp] theorem run_nil (s : Scope) : s.run [] = s := rfl

@[simp] theorem run_cons (s : Scope) (m : Mention) (ms : List Mention) :
    s.run (m :: ms) = (s.mention m).run ms := rfl

@[simp] theorem run_append (s : Scope) (ms ns : List Mention) :
    s.run (ms ++ ns) = (s.run ms).run ns := List.foldl_append

end Scope

end FluentShapes
