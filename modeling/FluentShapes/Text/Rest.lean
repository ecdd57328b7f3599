/-! # What is left of a text

Every reader of this library answers with the part of its text that it has not read. That part is a
suffix of the text by its type, so a reader that goes on where another stopped has less to read,
and what was read can be cut out exactly.
-/

namespace FluentShapes

/-- What is left of `s` after reading some of it. -/
structure Rest (s : List Char) where
  text : List Char
  suffix : text <:+ s

namespace Rest

variable {s t : List Char}

/-- Nothing has been read yet. -/
def start (s : List Char) : Rest s := ⟨s, List.suffix_refl s⟩

/-- Everything has been read. -/
def finish (s : List Char) : Rest s := ⟨[], List.nil_suffix⟩

/-- What is left after reading on from `r`. -/
def trans (r : Rest s) (q : Rest r.text) : Rest s := ⟨q.text, q.suffix.trans r.suffix⟩

def tail {c : Char} (r : Rest t) : Rest (c :: t) := ⟨r.text, r.suffix.trans (List.suffix_cons c t)⟩

def dropWhile (p : Char → Bool) (r : Rest s) : Rest s :=
  ⟨r.text.dropWhile p, (List.dropWhile_suffix p).trans r.suffix⟩

/-- Step over the first character. -/
def next (r : Rest s) {c : Char} (h : r.text = c :: t) : Rest s :=
  ⟨t, (h ▸ List.suffix_cons c t : t <:+ r.text).trans r.suffix⟩

/-- Step over the first character if it satisfies `p`. -/
def skipOne (p : Char → Bool) (r : Rest s) : Rest s :=
  match h : r.text with
  | c :: _ => if p c then r.next h else r
  | [] => r

theorem length_le (r : Rest s) : r.text.length ≤ s.length := r.suffix.length_le

grind_pattern length_le => r.text

/-- The part of `s` that has been read. -/
def consumed (r : Rest s) : List Char := s.take (s.length - r.text.length)

theorem consumed_append_text (r : Rest s) : r.consumed ++ r.text = s := by
  obtain ⟨text, p, rfl⟩ := r
  simp [consumed]

end Rest

end FluentShapes
