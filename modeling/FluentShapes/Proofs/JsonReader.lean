import FluentShapes.Json.Reader
import FluentShapes.Proofs.Readability

/-!
# Steps of the JSON reader

The readers answer with a rest of their own text, so what they do is stated as a relation between the
text before, the value and the text after: `Reads`.  There is one lemma for each way in which a reader
can go on.
-/

namespace FluentShapes.Json

/-- The reader finds `a` at the start of `s` and leaves `t`. -/
def Reads {α : Type} (read : (s : List Char) → Option (α × Rest s)) (s : List Char) (a : α)
    (t : List Char) : Prop :=
  ∃ r, read s = some (a, r) ∧ r.text = t

variable {s t u : List Char}

/-! ## Strings -/

theorem reads_units_end (t : List Char) : Reads readUnits ('"' :: t) [] t :=
  ⟨_, by rw [readUnits], rfl⟩

theorem reads_units_code {a b c d : Char} {code : Nat} {units : List Unit16}
    (hcode : hexCode? a b c d = some code) (h : Reads readUnits s units t) :
    Reads readUnits ('\\' :: 'u' :: a :: b :: c :: d :: s) (unitOfCode code :: units) t := by
  obtain ⟨r, hr, rfl⟩ := h
  exact ⟨_, by rw [readUnits, hcode, hr]; rfl, rfl⟩

theorem reads_units_escape {c d : Char} {units : List Unit16} (hescape : simpleEscape? c = some d)
    (h : Reads readUnits s units t) : Reads readUnits ('\\' :: c :: s) (.char d :: units) t := by
  obtain ⟨r, hr, rfl⟩ := h
  have hu : c ≠ 'u' := by
    rintro rfl
    cases hescape
  refine ⟨r.tail.tail, ?_, rfl⟩
  rw [readUnits]
  · rw [hescape, hr]
    rfl
  · exact fun _ _ _ _ _ h ↦ absurd h hu

theorem reads_units_char {c : Char} {units : List Unit16} (hspace : ¬ c < ' ') (hquote : c ≠ '"')
    (hbackslash : c ≠ '\\') (h : Reads readUnits s units t) :
    Reads readUnits (c :: s) (.char c :: units) t := by
  obtain ⟨r, hr, rfl⟩ := h
  refine ⟨r.tail, ?_, rfl⟩
  rw [readUnits]
  · rw [hr]
    simp [hspace, hbackslash]
  all_goals simp_all

/-! ## Values

Blanks are skipped before and after a value, so what counts is the text without the blanks that it
starts with. -/

theorem dropWhile_append_of_startsOutside {p : Char → Bool} (hs : ∀ c ∈ s, p c = true)
    (ht : StartsOutside p t) : (s ++ t).dropWhile p = t := by
  rw [List.dropWhile_append_of_pos hs]
  cases t with
  | nil => rfl
  | cons c t => exact List.dropWhile_cons_of_neg (by simp [ht c rfl])

theorem reads_null (t : List Char) : Reads readValue ("null".toList ++ t) .null t := by
  change Reads readValue ('n' :: 'u' :: 'l' :: 'l' :: t) .null t
  exact ⟨_, by rw [readValue], rfl⟩

theorem reads_bool (value : Bool) (t : List Char) :
    Reads readValue ((if value then "true" else "false").toList ++ t) (.bool value) t := by
  cases value with
  | false =>
      change Reads readValue ('f' :: 'a' :: 'l' :: 's' :: 'e' :: t) (.bool false) t
      exact ⟨_, by rw [readValue], rfl⟩
  | true =>
      change Reads readValue ('t' :: 'r' :: 'u' :: 'e' :: t) (.bool true) t
      exact ⟨_, by rw [readValue], rfl⟩

theorem reads_array_nil (hs : s.dropWhile isBlank = ']' :: t) :
    Reads readValue ('[' :: s) (.array []) t := by
  unfold Reads
  rw [readValue]
  dsimp only
  split
  · rename_i u h
    obtain rfl : u = t := List.tail_eq_of_cons_eq (h.symm.trans hs)
    exact ⟨_, rfl, rfl⟩
  · rename_i hne
    exact absurd hs (hne t)

theorem reads_array {items : List Json} (hs : ∀ u, s.dropWhile isBlank ≠ ']' :: u)
    (h : Reads readItems s items t) : Reads readValue ('[' :: s) (.array items) t := by
  obtain ⟨q, hq, rfl⟩ := h
  unfold Reads
  rw [readValue]
  dsimp only
  split
  · rename_i u h
    exact absurd h (hs u)
  · rw [hq]
    exact ⟨_, rfl, rfl⟩

/-- Behind an item there is the closing bracket, or a comma and further items. -/
theorem reads_items {value : Json} {items : List Json}
    (hvalue : Reads readValue (s.dropWhile isBlank) value u)
    (hrest : u.dropWhile isBlank = ']' :: t ∧ items = [] ∨
      ∃ w, u.dropWhile isBlank = ',' :: w ∧ Reads readItems w items t) :
    Reads readItems s (value :: items) t := by
  obtain ⟨q, hq, rfl⟩ := hvalue
  -- The reader skips blanks in its own type of rests, so the text is the same but not its term.
  have hq' : readValue (skipBlank (.start s)).text = some (value, q) := hq
  unfold Reads
  rw [readItems]
  dsimp only
  rw [hq']
  dsimp only [bind, Option.bind]
  rcases hrest with ⟨hend, rfl⟩ | ⟨w, hcomma, p, hp, rfl⟩
  · split
    · rename_i w h
      cases h.symm.trans hend
    · rename_i w h
      obtain rfl : w = t := List.tail_eq_of_cons_eq (h.symm.trans hend)
      exact ⟨_, rfl, rfl⟩
    · rename_i hne
      exact absurd hend (hne t)
  · split
    · rename_i v h
      obtain rfl : v = w := List.tail_eq_of_cons_eq (h.symm.trans hcomma)
      rw [hp]
      exact ⟨_, rfl, rfl⟩
    · rename_i v h
      cases h.symm.trans hcomma
    · rename_i hne _
      exact absurd hcomma (hne w)

theorem reads_object_nil (hs : s.dropWhile isBlank = '\x7d' :: t) :
    Reads readValue ('\x7b' :: s) (.object []) t := by
  unfold Reads
  rw [readValue]
  dsimp only
  split
  · rename_i u h
    obtain rfl : u = t := List.tail_eq_of_cons_eq (h.symm.trans hs)
    exact ⟨_, rfl, rfl⟩
  · rename_i hne
    exact absurd hs (hne t)

theorem reads_object {members : Option (List (String × Json))}
    (hs : ∀ u, s.dropWhile isBlank ≠ '\x7d' :: u) (h : Reads readMembers s members t) :
    Reads readValue ('\x7b' :: s) (members.elim .unpaired .object) t := by
  obtain ⟨q, hq, rfl⟩ := h
  unfold Reads
  rw [readValue]
  dsimp only
  split
  · rename_i u h
    exact absurd h (hs u)
  · rw [hq]
    exact ⟨_, rfl, rfl⟩

/-- A member is a name, a colon and a value.  Behind it there is the closing brace, or a comma and
further members. -/
theorem reads_members {a b c : List Char} {name : Option String} {value : Json}
    {members : Option (List (String × Json))} (hs : s.dropWhile isBlank = '"' :: a)
    (hname : Reads readString a name b) (hcolon : b.dropWhile isBlank = ':' :: c)
    (hvalue : Reads readValue (c.dropWhile isBlank) value u)
    (hrest : u.dropWhile isBlank = '\x7d' :: t ∧ members = some [] ∨
      ∃ w, u.dropWhile isBlank = ',' :: w ∧ Reads readMembers w members t) :
    Reads readMembers s (name.bind fun name ↦ members.map ((name, value) :: ·)) t := by
  obtain ⟨n, hn, rfl⟩ := hname
  obtain ⟨q, hq, rfl⟩ := hvalue
  unfold Reads
  rw [readMembers]
  dsimp only
  split
  · rename_i a' h
    obtain rfl : a' = a := List.tail_eq_of_cons_eq (h.symm.trans hs)
    rw [hn]
    dsimp only [bind, Option.bind]
    split
    · rename_i c' h'
      obtain rfl : c' = c := List.tail_eq_of_cons_eq (h'.symm.trans hcolon)
      have hq' : readValue (skipBlank ((skipBlank (((skipBlank (.start s)).next h).trans n)).next
          h')).text = some (value, q) := hq
      rw [hq']
      dsimp only
      rcases hrest with ⟨hend, rfl⟩ | ⟨w, hcomma, p, hp, rfl⟩
      · split
        · rename_i w h
          cases h.symm.trans hend
        · rename_i w h
          obtain rfl : w = t := List.tail_eq_of_cons_eq (h.symm.trans hend)
          cases name <;> exact ⟨_, rfl, rfl⟩
        · rename_i hne
          exact absurd hend (hne t)
      · split
        · rename_i v h
          obtain rfl : v = w := List.tail_eq_of_cons_eq (h.symm.trans hcomma)
          rw [hp]
          cases name <;> cases members <;> exact ⟨_, rfl, rfl⟩
        · rename_i v h
          cases h.symm.trans hcomma
        · rename_i hne _
          exact absurd hcomma (hne w)
    · rename_i hne
      exact absurd hcolon (hne c)
  · rename_i hne
    exact absurd hs (hne a)

theorem parse?_of_reads {text : String} {value : Json}
    (h : Reads readValue (text.toList.dropWhile isBlank) value t)
    (ht : t.dropWhile isBlank = []) : parse? text = some value := by
  obtain ⟨q, hq, rfl⟩ := h
  have hq' : readValue (skipBlank (.start text.toList)).text = some (value, q) := hq
  have hend : (skipBlank q).text.isEmpty = true := List.isEmpty_iff.mpr ht
  unfold parse?
  dsimp only
  rw [hq']
  dsimp only [bind, Option.bind]
  exact if_pos hend

end FluentShapes.Json
