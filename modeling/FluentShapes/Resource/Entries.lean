import FluentShapes.Diagnostic.Basic
import FluentShapes.Resource.Grammar
import FluentShapes.Text.Position

/-! # Reading a resource

A broken entry becomes junk, which reaches to the next line that may start an entry, and leaves one
syntax error that covers the junk.
-/

namespace FluentShapes

namespace Grammar

open Token

variable {s : List Char}

/-! ## Comments -/

/-- The level of a comment line behind its first number sign. -/
def commentLevel (r : Rest s) : CommentLevel × Rest s :=
  match r.take? '#' with
  | none => (.entry, r)
  | some q =>
      match q.take? '#' with
      | none => (.group, q)
      | some p => (.resource, p)

/-- A line of a comment behind its number signs: a space and the text, or nothing at all. -/
def commentLine? (r : Rest s) : Option (List Char × Rest s) :=
  if r.lineEnd?.isSome then some ([], r)
  else (r.take? ' ').map fun q ↦ ((Blank.splitLine q.text).1, q.line)

/-- The further lines of a comment, behind the line feed that ends a line of it. -/
def commentTail (level : CommentLevel) (t : List Char) : Comment × Rest ('\n' :: t) :=
  match (Rest.start t).take? '#' with
  | none => if t.isEmpty then ([], .finish _) else ([], .start ('\n' :: t))
  | some q =>
      match commentLevel q with
      | (here, q) =>
          if here ≠ level then ([], (Rest.start t).tail)
          else if q.text.isEmpty then ([], q.tail)
          else
            match commentLine? q with
            | none => ([], (Rest.start t).tail)
            | some (line, q) =>
                match h : Blank.lineEnd? q.text with
                | none => ([String.ofList line], q.tail)
                | some u =>
                    have hu := (Blank.lineEnd?_suffix h).trans q.suffix
                    match commentTail level u with
                    | (lines, r) =>
                        (String.ofList line :: lines,
                          ⟨r.text, r.suffix.trans (hu.trans (List.suffix_cons _ _))⟩)
termination_by t.length
decreasing_by
  have := hu.length_le
  simp only [List.length_cons] at this
  omega

/-- A comment behind its first number sign. -/
def comment (s : List Char) : Reading s s Entry :=
  match commentLevel (.start s) with
  | (level, q) =>
      if q.text.isEmpty then .accept (.comment level []) q
      else
        match commentLine? q with
        | none => .reject (.expectedToken ' ') q
        | some (line, q) =>
            match h : Blank.lineEnd? q.text with
            | none => .accept (.comment level [String.ofList line]) q
            | some u =>
                match commentTail level u with
                | (lines, r) =>
                    .accept (.comment level (String.ofList line :: lines))
                      ⟨r.text, r.suffix.trans ((Blank.lineEnd?_suffix h).trans q.suffix)⟩

/-! ## Messages and terms -/

/-- An attribute behind its full stop. -/
def attributeField (s : List Char) : Reading s s Attribute :=
  (identifier (.start s)).andThen fun name r ↦
  (r.blankInline.expect '=').andThen fun _ r ↦
  (r.resume (pattern r.text)).andThen fun value r ↦
    match value with
    | some value => .accept ⟨name, value⟩ r
    | none => .reject .expectedValue r

/-- The attributes up to a line that holds none, or `none` if one of them is garbled. A broken
attribute is left where it is. -/
def attributes? (s : List Char) : Option (List Attribute × Rest s) :=
  match h : (Rest.start s).blankInline.text with
  | '.' :: t =>
      match attributeField t with
      | .garbled => none
      | .reject _ _ => some ([], .start s)
      | .accept a r =>
          let q := (Rest.start s).blankInline.next h
          (attributes? r.text).map fun (as, p) ↦ (a :: as, q.trans (r.trans p))
  | _ => some ([], .start s)
termination_by s.length
decreasing_by grind

/-- What follows the equals sign of a message or a term. -/
def fields (r : Rest s) : Reading s s (Option Pattern × List Attribute) :=
  (r.resume (pattern r.text)).andThen fun value r ↦
    match attributes? r.blankBlock.text with
    | none => .garbled
    | some (attributes, q) => .accept (value, attributes) (r.blankBlock.trans q)

/-- A term behind its hyphen. -/
def term (s : List Char) : Reading s s Entry :=
  (identifier (.start s)).andThen fun name r ↦
  (r.blankInline.expect '=').andThen fun _ r ↦
  (fields r.blankInline).andThen fun (value, attributes) r ↦
    match value with
    | some value => .accept (.term name value attributes none) r
    | none => .reject (.expectedTermField name) r

/-- A message behind its name. -/
def message (name : String) (r : Rest s) : Reading s s Entry :=
  (r.blankInline.expect '=').andThen fun _ r ↦
  (fields r).andThen fun (value, attributes) r ↦
    if value.isNone && attributes.isEmpty then .reject (.expectedMessageField name) r
    else .accept (.message name value attributes none) r

/-- An entry that starts with `c`, read behind that character. -/
def entry (c : Char) (t : List Char) : Reading t t Entry :=
  if c = '#' then comment t
  else if c = '-' then term t
  else if c.isAlpha then
    message (String.ofList (c :: t.takeWhile isNameChar)) ((Rest.start t).dropWhile isNameChar)
  else .reject .expectedLetter (.start t)

/-! ## Junk -/

def startsEntry (c : Char) : Bool := c.isAlpha || c = '-' || c = '#'

/-- Skip to the next line that may start an entry. -/
def skipJunk (atLineStart : Bool) : List Char → List Char
  | [] => []
  | c :: t => if atLineStart && startsEntry c then c :: t else skipJunk (c = '\n') t

theorem skipJunk_suffix (atLineStart : Bool) (s : List Char) : skipJunk atLineStart s <:+ s := by
  fun_induction skipJunk atLineStart s with
  | case1 => exact List.suffix_refl _
  | case2 => exact List.suffix_refl _
  | case3 _ c t _ ih => exact ih.trans (List.suffix_cons c t)

/-- The end of the junk that starts with `c` and is faulty at `r`. -/
def junkEnd (c : Char) {t : List Char} (r : Rest t) : Rest t :=
  let atLineStart := (c :: r.consumed).getLast? = some '\n'
  ⟨skipJunk atLineStart r.text, (skipJunk_suffix _ _).trans r.suffix⟩

end Grammar

/-! ## Resources -/

/-- What has been read of a source, and what the broken entries left. -/
structure Recovered where
  body : Resource
  errors : List EntryError

/-- What a source holds. -/
structure Parsed where
  body : Resource
  errors : List SyntaxError

/-- What has been recovered, with the errors as they are shown. -/
def Recovered.parsed (p : Recovered) : Parsed := ⟨p.body, p.errors.map SyntaxError.ofEntryError⟩

namespace Resource

/-- Put an entry behind the comment that may belong to it. A comment for an entry is held back until
the next entry is known. -/
def attach (held : Option Comment) (blankLines : Nat) (e : Entry) :
    Resource × Option Comment :=
  let attached := held.bind fun lines ↦ if blankLines < 2 then e.withComment? lines else none
  match attached with
  | some e => ([e], none)
  | none =>
      let before := held.toList.map (Entry.comment .entry)
      match e with
      | .comment .entry lines => (before, some lines)
      | e => (before ++ [e], none)

/-- The entries of a text that starts at byte `offset`, `blankLines` below the last entry. -/
def entries (offset : Nat) (held : Option Comment) (blankLines : Nat) (s : List Char) :
    Option Recovered :=
  match s with
  | [] => some ⟨held.toList.map (Entry.comment .entry), []⟩
  | c :: t =>
      match Grammar.entry c t with
      | .garbled => none
      | .accept e r =>
          let (front, held) := attach held blankLines e
          let next := r.blankBlock
          (entries (offset + utf8Length (c :: next.consumed)) held r.blankLines next.text).map
            fun p ↦ { p with body := front ++ p.body }
      | .reject fault r =>
          let position := fault.position offset (offset + utf8Length (c :: r.consumed))
          let junk := Grammar.junkEnd c r
          let content := c :: junk.consumed
          let slice : Span := ⟨offset, offset + utf8Length content⟩
          let (front, held) := attach held blankLines (.junk (String.ofList content))
          let next := junk.blankBlock
          (entries (offset + utf8Length (c :: next.consumed)) held junk.blankLines next.text).map
            fun p ↦ ⟨front ++ p.body, ⟨fault, position, some slice⟩ :: p.errors⟩
termination_by s.length
decreasing_by all_goals grind

/-- Read a source to its end. `none` if a fault cannot be worded. -/
def recover? (source : String) : Option Recovered :=
  let r := (Rest.start source.toList).blankBlock
  entries (utf8Length r.consumed) none 0 r.text

/-- Read a source, and tell one without errors from one that had to be recovered. -/
def read? (source : String) : Option (Except Recovered Resource) :=
  (recover? source).map fun p ↦ if p.errors.isEmpty then .ok p.body else .error p

/-- Read a source that must hold no junk. -/
def parse? (source : String) : Option (Except (List SyntaxError) Resource) :=
  (read? source).map fun
    | .ok body => .ok body
    | .error p => .error (p.errors.map SyntaxError.ofEntryError)

/-- Read a source and keep what is broken as junk. -/
def parseLenient? (source : String) : Option Parsed :=
  (read? source).map fun
    | .ok body => ⟨body, []⟩
    | .error p => p.parsed

/-! ### Strict and lenient reading

Both begin with what has been recovered, and they differ only in what they make of errors.
-/

theorem parseLenient?_eq (source : String) :
    parseLenient? source = (recover? source).map Recovered.parsed := by
  rw [parseLenient?, read?, Option.map_map]
  refine congrArg (Option.map · _) (funext fun ⟨body, errors⟩ ↦ ?_)
  cases errors <;> rfl

theorem parse?_eq (source : String) :
    parse? source = (parseLenient? source).map fun p ↦
      if p.errors.isEmpty then .ok p.body else .error p.errors := by
  rw [parseLenient?_eq, parse?, read?, Option.map_map, Option.map_map]
  refine congrArg (Option.map · _) (funext fun ⟨body, errors⟩ ↦ ?_)
  cases errors <;> rfl

end Resource

end FluentShapes
