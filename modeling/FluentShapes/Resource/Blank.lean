import FluentShapes.Text.Rest

/-! # Blanks and line ends

Only spaces and line ends are blank. A line ends with a line feed, which a carriage return may
precede; a carriage return anywhere else is text.
-/

namespace FluentShapes

namespace Blank

/-- Skip spaces and line ends. -/
def skip : List Char → List Char
  | ' ' :: t => skip t
  | '\n' :: t => skip t
  | '\r' :: '\n' :: t => skip t
  | s => s

theorem skip_suffix (s : List Char) : skip s <:+ s := by
  fun_induction skip s with
  | case1 t ih => exact ih.trans (List.suffix_cons _ _)
  | case2 t ih => exact ih.trans (List.suffix_cons _ _)
  | case3 t ih => exact ih.trans ((List.suffix_cons _ _).trans (List.suffix_cons _ _))
  | case4 s => exact List.suffix_refl _

/-- The text behind a line end, if the text starts with one. -/
def lineEnd? : List Char → Option (List Char)
  | '\n' :: t => some t
  | '\r' :: '\n' :: t => some t
  | _ => none

theorem lineEnd?_suffix {s t : List Char} (h : lineEnd? s = some t) : '\n' :: t <:+ s := by
  fun_cases lineEnd? s with
  | case1 u =>
      simp only [lineEnd?, Option.some.injEq] at h
      exact h ▸ List.suffix_refl _
  | case2 u =>
      simp only [lineEnd?, Option.some.injEq] at h
      exact h ▸ List.suffix_cons _ _
  | case3 => simp_all [lineEnd?]

/-- Skip blank lines: how many, and what follows the last of them. `line` is the start of the line
that the second text belongs to. -/
def skipLines (count : Nat) (line : List Char) : List Char → Nat × List Char
  | ' ' :: t => skipLines count line t
  | '\n' :: t => skipLines (count + 1) t t
  | '\r' :: '\n' :: t => skipLines (count + 1) t t
  | _ => (count, line)

theorem skipLines_suffix {s line : List Char} (count : Nat) (t : List Char) (hl : line <:+ s)
    (ht : t <:+ s) : (skipLines count line t).2 <:+ s := by
  fun_induction skipLines count line t with
  | case1 count line t ih => exact ih hl ((List.suffix_cons _ _).trans ht)
  | case2 count line t ih =>
      have h := (List.suffix_cons _ _).trans ht
      exact ih h h
  | case3 count line t ih =>
      have h := ((List.suffix_cons _ _).trans (List.suffix_cons _ _)).trans ht
      exact ih h h
  | case4 => exact hl

/-- Split a text before the end of its first line. -/
def splitLine : List Char → List Char × List Char
  | [] => ([], [])
  | '\n' :: t => ([], '\n' :: t)
  | '\r' :: '\n' :: t => ([], '\r' :: '\n' :: t)
  | c :: t => (c :: (splitLine t).1, (splitLine t).2)

theorem splitLine_suffix (s : List Char) : (splitLine s).2 <:+ s := by
  fun_induction splitLine s with
  | case4 c t _ _ ih => exact ih.trans (List.suffix_cons _ _)
  | _ => exact List.suffix_refl _

end Blank

namespace Rest

variable {s : List Char}

def blank (r : Rest s) : Rest s := ⟨Blank.skip r.text, (Blank.skip_suffix r.text).trans r.suffix⟩

def blankInline (r : Rest s) : Rest s := r.dropWhile (· = ' ')

def lineEnd? (r : Rest s) : Option (Rest s) :=
  match h : Blank.lineEnd? r.text with
  | none => none
  | some t =>
      some ⟨t, (List.suffix_cons _ _).trans ((Blank.lineEnd?_suffix h).trans r.suffix)⟩

/-- The number of blank lines ahead. -/
def blankLines (r : Rest s) : Nat := (Blank.skipLines 0 r.text r.text).1

def blankBlock (r : Rest s) : Rest s :=
  ⟨(Blank.skipLines 0 r.text r.text).2, Blank.skipLines_suffix 0 r.text r.suffix r.suffix⟩

/-- What is left when the rest of the line has been read. -/
def line (r : Rest s) : Rest s :=
  ⟨(Blank.splitLine r.text).2, (Blank.splitLine_suffix r.text).trans r.suffix⟩

end Rest

end FluentShapes
