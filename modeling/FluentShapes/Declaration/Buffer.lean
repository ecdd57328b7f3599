/-! # Indented text -/

namespace FluentShapes

/-- Text that is written from start to end, with the depth at which the next line stands. -/
structure Buffer where
  text : String
  depth : Nat

namespace Buffer

def empty : Buffer := ⟨"", 0⟩

def add (b : Buffer) (text : String) : Buffer := { b with text := b.text ++ text }

def margin (depth : Nat) : String := String.ofList (List.replicate (2 * depth) ' ')

def addIndented (b : Buffer) (text : String) : Buffer := b.add (margin b.depth ++ text)

/-- An empty line has no margin. -/
def addLine (b : Buffer) (text : String) : Buffer :=
  (if text.isEmpty then b else b.addIndented text).add "\n"

def addLines (b : Buffer) (lines : List String) : Buffer := lines.foldl addLine b

def indent (b : Buffer) : Buffer := { b with depth := b.depth + 1 }

def dedent (b : Buffer) : Buffer := { b with depth := b.depth - 1 }

/-- Lines one level deeper. -/
def addBlock (b : Buffer) (lines : List String) : Buffer := (b.indent.addLines lines).dedent

end Buffer

end FluentShapes
