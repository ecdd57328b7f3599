/-! # Locale tags -/

namespace FluentShapes

/-- A locale in its normal form. -/
structure Locale where
  language : String
  script : Option String
  region : Option String
  /-- In increasing order, each one once. -/
  variants : List String
deriving DecidableEq

namespace Locale

abbrev Part := List Char

def isSeparator (c : Char) : Bool := c = '-' || c = '_'

def lower (p : Part) : String := String.ofList (p.map Char.toLower)

def upper (p : Part) : String := String.ofList (p.map Char.toUpper)

def language? (p : Part) : Option String :=
  if 2 ≤ p.length && p.length ≤ 8 && p.length ≠ 4 && p.all Char.isAlpha then some (lower p)
  else none

/-- Four letters, written with a capital. -/
def script? : Part → Option String
  | [a, b, c, d] =>
      if [a, b, c, d].all Char.isAlpha then
        some (String.ofList (a.toUpper :: [b, c, d].map Char.toLower))
      else none
  | _ => none

/-- Two letters or three digits. -/
def region? (p : Part) : Option String :=
  if (p.length = 2 && p.all Char.isAlpha) || (p.length = 3 && p.all Char.isDigit) then
    some (upper p)
  else none

/-- Five to eight letters and digits, or four characters that start with a digit or end with three
letters or digits. The others of the four can be anything in ASCII. -/
def isVariant (p : Part) : Bool :=
  p.all (fun c ↦ 0 < c.toNat && c.toNat < 128) &&
    match p with
    | [a, b, c, d] => a.isDigit || [b, c, d].all Char.isAlphanum
    | _ => 5 ≤ p.length && p.length ≤ 8 && p.all Char.isAlphanum

def insertVariant (v : String) : List String → List String
  | [] => [v]
  | w :: rest =>
      if v = w then w :: rest else if v < w then v :: w :: rest else w :: insertVariant v rest

def variants? (parts : List Part) : Option (List String) :=
  if parts.all isVariant then some ((parts.map lower).foldr insertVariant []) else none

/-- Take the first part off if it is one of the kind. -/
def optional (kind? : Part → Option String) : List Part → Option String × List Part
  | [] => (none, [])
  | p :: rest =>
      match kind? p with
      | some s => (some s, rest)
      | none => (none, p :: rest)

def parse? (tag : String) : Option Locale :=
  match tag.toList.splitOnP isSeparator with
  | [] => none
  | first :: parts => do
      let language ← language? first
      let (script, parts) := optional script? parts
      let (region, parts) := optional region? parts
      let variants ← variants? parts
      pure ⟨language, script, region, variants⟩

def tag (l : Locale) : String :=
  "-".intercalate (l.language :: (l.script.toList ++ l.region.toList ++ l.variants))

end Locale

end FluentShapes
