import FluentShapes.Resource.Fault
import FluentShapes.Text.Rest

/-! # Outcomes of reading a piece of a resource -/

namespace FluentShapes

/-- A piece was read and what follows it is left of `after`, or reading stopped at a fault with
something left of `within`. A fault whose wording would have to end inside a character cannot be
reported: reading is then given up as garbled. -/
inductive Reading (after within : List Char) (α : Type) where
  | accept (value : α) (rest : Rest after)
  | reject (fault : Fault) (rest : Rest within)
  | garbled

namespace Reading

variable {α β : Type} {s t w : List Char} {c : Char}

def map (f : α → β) : Reading s w α → Reading s w β
  | accept a r => accept (f a) r
  | reject fault r => reject fault r
  | garbled => garbled

/-- Go on behind an accepted piece. -/
def andThen (x : Reading s s α) (f : α → Rest s → Reading s s β) : Reading s s β :=
  match x with
  | accept a r => f a r
  | reject fault r => reject fault r
  | garbled => garbled

/-- Go on behind an accepted piece that starts with `c`. -/
def andThenTail (x : Reading t (c :: t) α) (f : α → Rest t → Reading t t β) :
    Reading (c :: t) (c :: t) β :=
  match x with
  | accept a r =>
      match f a r with
      | accept b q => accept b q.tail
      | reject fault q => reject fault q.tail
      | garbled => garbled
  | reject fault r => reject fault r
  | garbled => garbled

/-- A piece that starts with `c`, read behind that character. -/
def afterHead : Reading t t α → Reading t (c :: t) α
  | accept a r => accept a r
  | reject fault r => reject fault r.tail
  | garbled => garbled

def tail : Reading t t α → Reading (c :: t) (c :: t) α
  | accept a r => accept a r.tail
  | reject fault r => reject fault r.tail
  | garbled => garbled

end Reading

namespace Rest

variable {α : Type} {s : List Char}

/-- Read on from `r`. -/
def resume (r : Rest s) : Reading r.text r.text α → Reading s s α
  | .accept a q => .accept a (r.trans q)
  | .reject fault q => .reject fault (r.trans q)
  | .garbled => .garbled

def take? (r : Rest s) (c : Char) : Option (Rest s) :=
  match h : r.text with
  | d :: _ => if d = c then some (r.next h) else none
  | [] => none

def expect (r : Rest s) (c : Char) : Reading s s Unit :=
  match r.take? c with
  | some q => .accept () q
  | none => .reject (.expectedToken c) r

end Rest

end FluentShapes
