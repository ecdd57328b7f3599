import FluentShapes.Proofs.JsonReader

/-!
# The grammar of JSON texts

`Spells` relates the parts of a JSON text to what they stand for, rule by rule as the grammar has
them: an element is a value between blanks, an array has elements with commas between them, and a
member is a name, a colon and an element.  The reader accepts all that the grammar has and finds what
it stands for (`Spells.isRead`), by one induction over the rules.  Only numbers need something of
the text behind them, which must not go on with a digit, a full stop or an exponent.

A name or a string whose escapes hold half of a surrogate pair obeys the grammar and stands for no
text, so names of members are optional here.
-/

namespace FluentShapes.Json

/-! ## Rules -/

def Blanks (s : List Char) : Prop := ∀ c ∈ s, isBlank c = true

/-- One digit or more. -/
structure Digits (s : List Char) : Prop where
  ne_nil : s ≠ []
  isDigit : ∀ c ∈ s, c.isDigit = true

/-- A zero stands alone. -/
def IsWhole (s : List Char) : Prop := s = ['0'] ∨ Digits s ∧ s.head? ≠ some '0'

def IsFraction (s : List Char) : Prop := s = [] ∨ ∃ digits, s = '.' :: digits ∧ Digits digits

def IsExponent (s : List Char) : Prop :=
  s = [] ∨ ∃ mark sign digits, s = mark :: (sign ++ digits) ∧ (mark = 'e' ∨ mark = 'E') ∧
    (sign = [] ∨ sign = ['+'] ∨ sign = ['-']) ∧ Digits digits

inductive IsNumber : List Char → Prop
  | mk {sign whole fraction exponent : List Char} : sign = [] ∨ sign = ['-'] → IsWhole whole →
      IsFraction fraction → IsExponent exponent →
      IsNumber (sign ++ (whole ++ (fraction ++ exponent)))

/-- The inside of a string literal. -/
inductive SpellsUnits : List Char → List Unit16 → Prop
  | nil : SpellsUnits [] []
  | char {c : Char} {s : List Char} {units : List Unit16} : ' ' ≤ c → c ≠ '"' → c ≠ '\\' →
      SpellsUnits s units → SpellsUnits (c :: s) (.char c :: units)
  | escape {c d : Char} {s : List Char} {units : List Unit16} : simpleEscape? c = some d →
      SpellsUnits s units → SpellsUnits ('\\' :: c :: s) (.char d :: units)
  | code {a b c d : Char} {code : Nat} {s : List Char} {units : List Unit16} :
      hexCode? a b c d = some code → SpellsUnits s units →
      SpellsUnits ('\\' :: 'u' :: a :: b :: c :: d :: s) (unitOfCode code :: units)

/-- A string literal, which stands for a text if its surrogates come in pairs. -/
inductive SpellsString : List Char → Option String → Prop
  | mk {s : List Char} {units : List Unit16} : SpellsUnits s units →
      SpellsString ('"' :: (s ++ ['"'])) ((pairUnits? units).map String.ofList)

/-- Members all of whose names are texts. -/
def named? (members : List (Option String × Json)) : Option (List (String × Json)) :=
  members.mapM fun m ↦ m.1.map fun name ↦ (name, m.2)

/-- What a part of a JSON text can stand for. -/
inductive Phrase where
  | value (v : Json)
  | element (v : Json)
  | elements (vs : List Json)
  | member (name : Option String) (v : Json)
  | members (ms : List (Option String × Json))
  | object (ms : List (Option String × Json))

inductive Spells : List Char → Phrase → Prop
  | null : Spells "null".toList (.value .null)
  | bool (b : Bool) : Spells (if b then "true" else "false").toList (.value (.bool b))
  | number {s : List Char} : IsNumber s → Spells s (.value (.number (String.ofList s)))
  | string {s : List Char} {text : Option String} : SpellsString s text →
      Spells s (.value (text.elim .unpaired .string))
  | emptyArray {s : List Char} : Blanks s → Spells ('[' :: (s ++ [']'])) (.value (.array []))
  | array {s : List Char} {vs : List Json} : Spells s (.elements vs) →
      Spells ('[' :: (s ++ [']'])) (.value (.array vs))
  | object {s : List Char} {ms : List (Option String × Json)} : Spells s (.object ms) →
      Spells s (.value ((named? ms).elim .unpaired .object))
  | element {a s b : List Char} {v : Json} : Blanks a → Spells s (.value v) → Blanks b →
      Spells (a ++ (s ++ b)) (.element v)
  | lastElement {s : List Char} {v : Json} : Spells s (.element v) → Spells s (.elements [v])
  | elements {s t : List Char} {v : Json} {vs : List Json} : Spells s (.element v) →
      Spells t (.elements vs) → Spells (s ++ ',' :: t) (.elements (v :: vs))
  | member {a n b s : List Char} {name : Option String} {v : Json} : Blanks a →
      SpellsString n name → Blanks b → Spells s (.element v) →
      Spells (a ++ (n ++ (b ++ ':' :: s))) (.member name v)
  | lastMember {s : List Char} {name : Option String} {v : Json} : Spells s (.member name v) →
      Spells s (.members [(name, v)])
  | members {s t : List Char} {name : Option String} {v : Json}
      {ms : List (Option String × Json)} : Spells s (.member name v) → Spells t (.members ms) →
      Spells (s ++ ',' :: t) (.members ((name, v) :: ms))
  | noMembers {s : List Char} : Blanks s → Spells ('\x7b' :: (s ++ ['\x7d'])) (.object [])
  | someMembers {s : List Char} {ms : List (Option String × Json)} : Spells s (.members ms) →
      Spells ('\x7b' :: (s ++ ['\x7d'])) (.object ms)

variable {s t u : List Char}

/-! ## Strings -/

theorem SpellsUnits.reads {units : List Unit16} (h : SpellsUnits s units) (t : List Char) :
    Reads readUnits (s ++ '"' :: t) units t := by
  induction h with
  | nil => exact reads_units_end t
  | char hspace hquote hbackslash _ ih =>
      exact reads_units_char (Char.not_lt.mpr hspace) hquote hbackslash ih
  | escape hescape _ ih => exact reads_units_escape hescape ih
  | code hcode _ ih => exact reads_units_code hcode ih

/-- A string literal is read behind its opening quote. -/
theorem SpellsString.reads {text : Option String} (h : SpellsString s text) (t : List Char) :
    ∃ a, s ++ t = '"' :: a ∧ Reads readString a text t := by
  obtain ⟨hunits⟩ := h
  rename_i inside units
  obtain ⟨r, hr, hrest⟩ := hunits.reads t
  refine ⟨inside ++ '"' :: t, by simp, r, ?_, hrest⟩
  rw [readString, hr]
  rfl

theorem SpellsString.reads_value {text : Option String} (h : SpellsString s text)
    (t : List Char) : Reads readValue (s ++ t) (text.elim .unpaired .string) t := by
  obtain ⟨a, hs, r, hr, hrest⟩ := h.reads t
  rw [hs]
  exact ⟨r.tail, by rw [readValue, hr]; rfl, hrest⟩

/-! ## Numbers -/

section Number

variable {w : List Char} {r : Rest w}

theorem startsOutside_append {p : Char → Bool} (hs : StartsOutside p s) (ht : StartsOutside p t) :
    StartsOutside p (s ++ t) := by
  cases s with
  | nil => exact ht
  | cons c s => exact hs

theorem exists_skipDigits? (h : r.text = s ++ t) (hs : Digits s)
    (ht : StartsOutside Char.isDigit t) : ∃ q, skipDigits? r = some q ∧ q.text = t := by
  refine ⟨r.dropWhile Char.isDigit, ?_, ?_⟩
  · obtain ⟨c, s, rfl⟩ := List.exists_cons_of_ne_nil hs.ne_nil
    rw [skipDigits?, if_pos]
    simp [h, hs.isDigit c List.mem_cons_self]
  · change r.text.dropWhile Char.isDigit = t
    rw [h]
    exact dropWhile_append_of_startsOutside hs.isDigit ht

theorem exists_skipWhole? (h : r.text = s ++ t) (hs : IsWhole s)
    (ht : StartsOutside Char.isDigit t) : ∃ q, skipWhole? r = some q ∧ q.text = t := by
  unfold skipWhole?
  split
  · rename_i t' hzero
    rcases hs with rfl | ⟨hdigits, hhead⟩
    · obtain rfl : t' = t := List.tail_eq_of_cons_eq (hzero.symm.trans h)
      refine ⟨r.next hzero, if_neg ?_, rfl⟩
      cases t' with
      | nil => simp
      | cons c t' => simp [ht c rfl]
    · obtain ⟨c, s, rfl⟩ := List.exists_cons_of_ne_nil hdigits.ne_nil
      cases hzero.symm.trans h
      exact absurd rfl hhead
  · rename_i hne
    rcases hs with rfl | ⟨hdigits, -⟩
    · exact absurd h (hne t)
    · exact exists_skipDigits? h hdigits ht

theorem exists_skipFraction? (h : r.text = s ++ t) (hs : IsFraction s)
    (ht : StartsOutside Char.isDigit t) (hdot : StartsOutside (· = '.') t) :
    ∃ q, skipFraction? r = some q ∧ q.text = t := by
  unfold skipFraction?
  split
  · rename_i t' hpoint
    rcases hs with rfl | ⟨digits, rfl, hdigits⟩
    · have hstart := hdot '.' (by rw [List.nil_append] at h; rw [← h, hpoint]; rfl)
      cases hstart
    · have htext : (r.next hpoint).text = digits ++ t :=
        List.tail_eq_of_cons_eq (hpoint.symm.trans h)
      exact exists_skipDigits? htext hdigits ht
  · rename_i hne
    rcases hs with rfl | ⟨digits, rfl, hdigits⟩
    · exact ⟨r, rfl, h⟩
    · exact absurd h (hne (digits ++ t))

theorem text_skipOne_of_pos {p : Char → Bool} {c : Char} (h : r.text = c :: t) (hc : p c = true) :
    (r.skipOne p).text = t := by
  unfold Rest.skipOne
  split
  · rename_i c' t' h'
    obtain ⟨rfl, rfl⟩ := List.cons.inj (h'.symm.trans h)
    rw [if_pos hc]
    rfl
  · rename_i h'
    cases h'.symm.trans h

theorem text_skipOne_of_startsOutside {p : Char → Bool} (h : StartsOutside p r.text) :
    (r.skipOne p).text = r.text := by
  unfold Rest.skipOne
  split
  · rename_i c t h'
    rw [if_neg]
    simp [h c (by rw [h']; rfl)]
  · rfl

theorem Digits.startsOutside_append {p : Char → Bool} (hs : Digits s)
    (hp : ∀ c, c.isDigit = true → p c = false) (t : List Char) : StartsOutside p (s ++ t) := by
  obtain ⟨c, s, rfl⟩ := List.exists_cons_of_ne_nil hs.ne_nil
  rintro d ⟨⟩
  exact hp c (hs.isDigit c List.mem_cons_self)

theorem ne_of_isDigit {c d : Char} (hc : c.isDigit = true) (hd : d.isDigit = false) : c ≠ d := by
  rintro rfl
  rw [hc] at hd
  cases hd

/-- The sign of an exponent and its digits. -/
theorem exists_skipDigits?_skipOne {sign digits : List Char} (h : r.text = sign ++ digits ++ t)
    (hsign : sign = [] ∨ sign = ['+'] ∨ sign = ['-']) (hdigits : Digits digits)
    (ht : StartsOutside Char.isDigit t) :
    ∃ q, skipDigits? (r.skipOne fun c ↦ c = '+' || c = '-') = some q ∧ q.text = t := by
  refine exists_skipDigits? ?_ hdigits ht
  rcases hsign with rfl | rfl | rfl
  · rw [text_skipOne_of_startsOutside, h]
    · rfl
    · rw [h]
      refine hdigits.startsOutside_append (fun c hc ↦ ?_) t
      simp [ne_of_isDigit hc (d := '+') rfl, ne_of_isDigit hc (d := '-') rfl]
  · exact text_skipOne_of_pos h rfl
  · exact text_skipOne_of_pos h rfl

theorem exists_skipExponent? (h : r.text = s ++ t) (hs : IsExponent s)
    (ht : StartsOutside Char.isDigit t) (hmark : StartsOutside (fun c ↦ c = 'e' || c = 'E') t) :
    ∃ q, skipExponent? r = some q ∧ q.text = t := by
  have hbehind : ∀ {mark : Char} {t' : List Char} (htext : r.text = mark :: t'),
      (mark = 'e' ∨ mark = 'E') →
      ∃ q, skipDigits? ((r.next htext).skipOne fun c ↦ c = '+' || c = '-') = some q ∧
        q.text = t := by
    intro mark t' htext hmark'
    rcases hs with rfl | ⟨mark', sign, digits, rfl, -, hsign, hdigits⟩
    · have hstart := hmark mark (by rw [List.nil_append] at h; rw [← h, htext]; rfl)
      rcases hmark' with rfl | rfl <;> simp at hstart
    · exact exists_skipDigits?_skipOne (List.tail_eq_of_cons_eq (htext.symm.trans h)) hsign hdigits ht
  unfold skipExponent?
  split
  · exact hbehind _ (.inl rfl)
  · exact hbehind _ (.inr rfl)
  · rename_i he hE
    rcases hs with rfl | ⟨mark, sign, digits, rfl, rfl | rfl, -, -⟩
    · exact ⟨r, rfl, h⟩
    · exact absurd h (he _)
    · exact absurd h (hE _)

/-- No part of a number starts the text. -/
structure Ends (t : List Char) : Prop where
  digit : StartsOutside Char.isDigit t
  point : StartsOutside (· = '.') t
  mark : StartsOutside (fun c ↦ c = 'e' || c = 'E') t

theorem IsExponent.startsOutside {p : Char → Bool} (h : IsExponent s) (he : p 'e' = false)
    (hE : p 'E' = false) : StartsOutside p s := by
  rcases h with rfl | ⟨mark, sign, digits, rfl, rfl | rfl, -, -⟩
  · rintro c ⟨⟩
  · rintro c ⟨⟩
    exact he
  · rintro c ⟨⟩
    exact hE

theorem IsFraction.startsOutside (h : IsFraction s) : StartsOutside Char.isDigit s := by
  rcases h with rfl | ⟨digits, rfl, -⟩ <;> rintro c ⟨⟩
  rfl

theorem IsWhole.startsOutside (h : IsWhole s) (t : List Char) :
    StartsOutside (· = '-') (s ++ t) := by
  rcases h with rfl | ⟨hdigits, -⟩
  · rintro c ⟨⟩
    rfl
  · refine hdigits.startsOutside_append (fun c hc ↦ ?_) t
    simp [ne_of_isDigit hc (d := '-') rfl]

theorem IsNumber.reads (h : IsNumber s) (ht : Ends t) :
    Reads readNumber (s ++ t) (.number (String.ofList s)) t := by
  obtain ⟨hsign, hwhole, hfraction, hexponent⟩ := h
  rename_i sign whole fraction exponent
  have hstart : ((Rest.start (sign ++ (whole ++ (fraction ++ exponent)) ++ t)).skipOne
      (· = '-')).text = whole ++ (fraction ++ (exponent ++ t)) := by
    rcases hsign with rfl | rfl
    · have htext : (Rest.start ([] ++ (whole ++ (fraction ++ exponent)) ++ t)).text =
          whole ++ (fraction ++ (exponent ++ t)) := by simp [Rest.start]
      rw [text_skipOne_of_startsOutside, htext]
      rw [htext]
      exact hwhole.startsOutside _
    · refine text_skipOne_of_pos (c := '-') ?_ rfl
      simp [Rest.start]
  obtain ⟨q, hq, hqtext⟩ := exists_skipWhole? hstart hwhole
    (startsOutside_append hfraction.startsOutside
      (startsOutside_append (hexponent.startsOutside rfl rfl) ht.digit))
  obtain ⟨q', hq', hqtext'⟩ := exists_skipFraction? hqtext hfraction
    (startsOutside_append (hexponent.startsOutside rfl rfl) ht.digit)
    (startsOutside_append (hexponent.startsOutside rfl rfl) ht.point)
  obtain ⟨r, hr, hrtext⟩ := exists_skipExponent? hqtext' hexponent ht.digit ht.mark
  refine ⟨r, ?_, hrtext⟩
  have hconsumed : r.consumed = sign ++ (whole ++ (fraction ++ exponent)) := by
    have happend := r.consumed_append_text
    rw [hrtext] at happend
    exact List.append_cancel_right happend
  simp [readNumber, hq, hq', hr, hconsumed]

end Number

theorem IsNumber.exists_cons (h : IsNumber s) :
    ∃ c rest, s = c :: rest ∧ (c = '-' ∨ c.isDigit = true) := by
  obtain ⟨rfl | rfl, rfl | ⟨hdigits, -⟩, -, -⟩ := h
  · exact ⟨'0', _, rfl, .inr rfl⟩
  · obtain ⟨c, whole, rfl⟩ := List.exists_cons_of_ne_nil hdigits.ne_nil
    exact ⟨c, _, rfl, .inr (hdigits.isDigit c List.mem_cons_self)⟩
  · exact ⟨'-', _, rfl, .inl rfl⟩
  · exact ⟨'-', _, rfl, .inl rfl⟩

/-- No other value begins with a digit or a minus sign. -/
theorem IsNumber.reads_value (h : IsNumber s) (ht : Ends t) :
    Reads readValue (s ++ t) (.number (String.ofList s)) t := by
  obtain ⟨r, hr, hrest⟩ := h.reads ht
  obtain ⟨c, rest, hs, hc⟩ := h.exists_cons
  have hne : ∀ d u, ¬ (d = '-' ∨ d.isDigit = true) → s ++ t ≠ d :: u := by
    intro d u hd heq
    rw [hs] at heq
    cases heq
    exact hd hc
  refine ⟨r, ?_, hrest⟩
  rw [readValue, hr]
  · exact fun u ↦ hne 'n' _ (by decide)
  · exact fun u ↦ hne 't' _ (by decide)
  · exact fun u ↦ hne 'f' _ (by decide)
  · exact fun u ↦ hne '"' _ (by decide)
  · exact fun u ↦ hne '[' _ (by decide)
  · exact fun u ↦ hne '\x7b' _ (by decide)

/-! ## Where the parts begin and end -/

section Blank

variable {a b : List Char} {v : Json} {vs : List Json} {name : Option String}
  {ms : List (Option String × Json)}

theorem Blanks.startsOutside {p : Char → Bool} (h : Blanks s) (hspace : p ' ' = false)
    (hline : p '\n' = false) (htab : p '\t' = false) (hreturn : p '\r' = false) :
    StartsOutside p s := by
  intro c hc
  have hblank := h c (List.mem_of_mem_head? hc)
  simp only [isBlank, Bool.or_eq_true, decide_eq_true_eq] at hblank
  rcases hblank with ((rfl | rfl) | rfl) | rfl <;> assumption

theorem blanks_nil : Blanks [] := by
  rintro c ⟨⟩

/-- An element need not have blanks around it. -/
theorem Spells.bare (h : Spells s (.value v)) : Spells s (.element v) := by
  have helement := h.element blanks_nil blanks_nil
  rwa [List.nil_append, List.append_nil] at helement

/-- The text ends, or goes on with a comma or closes an array or an object. -/
def Closes (t : List Char) : Prop := ∀ c ∈ t.head?, c = ',' ∨ c = ']' ∨ c = '\x7d'

theorem Closes.startsOutside {p : Char → Bool} (h : Closes t) (hcomma : p ',' = false)
    (hbracket : p ']' = false) (hbrace : p '\x7d' = false) : StartsOutside p t := by
  intro c hc
  rcases h c hc with rfl | rfl | rfl <;> assumption

theorem closes_cons {c : Char} (hc : c = ',' ∨ c = ']' ∨ c = '\x7d') (t : List Char) :
    Closes (c :: t) := by
  rintro d ⟨⟩
  exact hc

theorem Closes.ends_append (ht : Closes t) (hb : Blanks b) : Ends (b ++ t) := by
  constructor <;> refine startsOutside_append ?_ ?_
  · exact hb.startsOutside rfl rfl rfl rfl
  · exact ht.startsOutside rfl rfl rfl
  · exact hb.startsOutside rfl rfl rfl rfl
  · exact ht.startsOutside rfl rfl rfl
  · exact hb.startsOutside rfl rfl rfl rfl
  · exact ht.startsOutside rfl rfl rfl

theorem Blanks.dropWhile_append_cons (h : Blanks s) {c : Char} (hc : isBlank c = false)
    (t : List Char) : (s ++ c :: t).dropWhile isBlank = c :: t := by
  refine dropWhile_append_of_startsOutside h ?_
  rintro d ⟨⟩
  exact hc

theorem isBlank_of_isDigit {c : Char} (h : c.isDigit = true) : isBlank c = false := by
  have hne : ∀ d : Char, d.isDigit = false → c ≠ d := fun d ↦ ne_of_isDigit h
  simp [isBlank, hne ' ' rfl, hne '\n' rfl, hne '\t' rfl, hne '\r' rfl]

/-- A value begins with no blank and with no closing bracket. -/
theorem Spells.value_cons (h : Spells s (.value v)) :
    ∃ c rest, s = c :: rest ∧ isBlank c = false ∧ c ≠ ']' := by
  cases h with
  | null => exact ⟨'n', _, rfl, rfl, by decide⟩
  | bool b => cases b <;> exact ⟨_, _, rfl, rfl, by decide⟩
  | number h =>
      obtain ⟨c, rest, rfl, rfl | hc⟩ := h.exists_cons
      · exact ⟨'-', rest, rfl, rfl, by decide⟩
      · exact ⟨c, rest, rfl, isBlank_of_isDigit hc, ne_of_isDigit hc rfl⟩
  | string h =>
      obtain ⟨-⟩ := h
      exact ⟨'"', _, rfl, rfl, by decide⟩
  | emptyArray _ => exact ⟨'[', _, rfl, rfl, by decide⟩
  | array _ => exact ⟨'[', _, rfl, rfl, by decide⟩
  | object h => cases h <;> exact ⟨'\x7b', _, rfl, rfl, by decide⟩

theorem Spells.element_cons (h : Spells s (.element v)) (t : List Char) :
    ∃ c rest, (s ++ t).dropWhile isBlank = c :: rest ∧ c ≠ ']' := by
  cases h with
  | element ha hvalue hb =>
      obtain ⟨c, rest, rfl, hblank, hc⟩ := hvalue.value_cons
      rw [List.append_assoc]
      exact ⟨c, _, ha.dropWhile_append_cons hblank _, hc⟩

theorem Spells.elements_cons (h : Spells s (.elements vs)) (t : List Char) :
    ∃ c rest, (s ++ t).dropWhile isBlank = c :: rest ∧ c ≠ ']' := by
  cases h with
  | lastElement h => exact h.element_cons t
  | elements h _ =>
      rw [List.append_assoc]
      exact h.element_cons _

/-- A member begins with the quote of its name. -/
theorem Spells.member_cons (h : Spells s (.member name v)) (t : List Char) :
    ∃ rest, (s ++ t).dropWhile isBlank = '"' :: rest := by
  cases h with
  | member ha hname hb hvalue =>
      obtain ⟨-⟩ := hname
      rw [List.append_assoc]
      exact ⟨_, ha.dropWhile_append_cons rfl _⟩

theorem Spells.members_cons (h : Spells s (.members ms)) (t : List Char) :
    ∃ rest, (s ++ t).dropWhile isBlank = '"' :: rest := by
  cases h with
  | lastMember h => exact h.member_cons t
  | members h _ =>
      rw [List.append_assoc]
      exact h.member_cons _

end Blank

/-! ## Reading what the rules spell -/

theorem named?_cons (name : Option String) (v : Json) (ms : List (Option String × Json)) :
    named? ((name, v) :: ms) = name.bind fun name ↦ (named? ms).map ((name, v) :: ·) := by
  cases name with
  | none => rfl
  | some name => cases h : named? ms <;> simp_all [named?]

theorem named?_map_some (ms : List (String × Json)) :
    named? (ms.map fun m ↦ (some m.1, m.2)) = some ms := by
  induction ms with
  | nil => rfl
  | cons m ms ih => simp [named?_cons, ih]

theorem Spells.object_named {ms : List (String × Json)}
    (h : Spells s (.object (ms.map fun m ↦ (some m.1, m.2)))) : Spells s (.value (.object ms)) := by
  have hvalue := h.object
  rwa [named?_map_some] at hvalue

theorem exists_map_some {members : List (Option String × Json)} (h : ∀ m ∈ members, m.1 ≠ none) :
    ∃ ms : List (String × Json), members = ms.map fun m ↦ (some m.1, m.2) := by
  induction members with
  | nil => exact ⟨[], rfl⟩
  | cons m members ih =>
      obtain ⟨ms, rfl⟩ := ih fun m hm ↦ h m (List.mem_cons_of_mem _ hm)
      obtain ⟨name, hname⟩ := Option.ne_none_iff_exists'.mp (h m List.mem_cons_self)
      exact ⟨(name, m.2) :: ms, by rw [List.map_cons, ← hname]⟩

theorem named?_eq_none {members : List (Option String × Json)} {m : Option String × Json}
    (hm : m ∈ members) (hname : m.1 = none) : named? members = none := by
  induction members with
  | nil => cases hm
  | cons m' members ih =>
      rw [named?_cons]
      rcases List.mem_cons.mp hm with rfl | hm
      · rw [hname]
        rfl
      · rw [ih hm]
        cases m'.1 <;> rfl

/-- The reader finds the phrase at the start of a text, in front of what can stand there. -/
def Phrase.IsRead (s : List Char) : Phrase → Prop
  | value v => ∀ t, Ends t → Reads readValue (s ++ t) v t
  | element v => ∀ t, Closes t →
      ∃ u, Reads readValue ((s ++ t).dropWhile isBlank) v u ∧ u.dropWhile isBlank = t
  | elements vs => ∀ t, Reads readItems (s ++ ']' :: t) vs t
  | member name v => ∀ t, Closes t → ∃ a b c u, (s ++ t).dropWhile isBlank = '"' :: a ∧
      Reads readString a name b ∧ b.dropWhile isBlank = ':' :: c ∧
      Reads readValue (c.dropWhile isBlank) v u ∧ u.dropWhile isBlank = t
  | members ms => ∀ t, Reads readMembers (s ++ '\x7d' :: t) (named? ms) t
  | object ms => ∀ t, Reads readValue (s ++ t) ((named? ms).elim .unpaired .object) t

theorem Spells.isRead {phrase : Phrase} (h : Spells s phrase) : phrase.IsRead s := by
  induction h with
  | null => exact fun t _ ↦ reads_null t
  | bool b => exact fun t _ ↦ reads_bool b t
  | number h => exact fun t ht ↦ h.reads_value ht
  | string h => exact fun t _ ↦ h.reads_value t
  | emptyArray h =>
      intro t _
      rw [List.cons_append, List.append_assoc]
      exact reads_array_nil (h.dropWhile_append_cons rfl t)
  | array h ih =>
      intro t _
      rw [List.cons_append, List.append_assoc]
      refine reads_array ?_ (ih t)
      intro u hu
      obtain ⟨c, rest, hcons, hc⟩ := h.elements_cons (']' :: t)
      exact hc (List.cons.inj (hcons.symm.trans hu)).1
  | object _ ih => exact fun t _ ↦ ih t
  | @element a s b v ha hvalue hb ih =>
      intro t ht
      obtain ⟨c, rest, rfl, hc, -⟩ := hvalue.value_cons
      refine ⟨b ++ t, ?_, dropWhile_append_of_startsOutside hb (ht.startsOutside rfl rfl rfl)⟩
      rw [List.append_assoc, List.append_assoc, List.cons_append, ha.dropWhile_append_cons hc]
      exact ih (b ++ t) (ht.ends_append hb)
  | lastElement _ ih =>
      intro t
      obtain ⟨u, hvalue, hu⟩ := ih (']' :: t) (closes_cons (by simp) t)
      exact reads_items hvalue (.inl ⟨hu, rfl⟩)
  | elements _ _ ih ihrest =>
      intro t
      rw [List.append_assoc]
      obtain ⟨u, hvalue, hu⟩ := ih _ (closes_cons (.inl rfl) _)
      exact reads_items hvalue (.inr ⟨_, hu, ihrest t⟩)
  | @member a n b s name v ha hname hb _ ih =>
      intro t ht
      obtain ⟨q, hq, hread⟩ := hname.reads (b ++ ':' :: (s ++ t))
      obtain ⟨u, hvalue, hu⟩ := ih t ht
      refine ⟨q, _, s ++ t, u, ?_, hread, hb.dropWhile_append_cons rfl _, hvalue, hu⟩
      simp only [List.append_assoc, List.cons_append]
      rw [hq]
      exact ha.dropWhile_append_cons rfl q
  | lastMember _ ih =>
      intro t
      obtain ⟨a, b, c, u, hs, hname, hcolon, hvalue, hu⟩ := ih ('\x7d' :: t) (closes_cons (by simp) t)
      rw [named?_cons]
      exact reads_members hs hname hcolon hvalue (.inl ⟨hu, rfl⟩)
  | members _ _ ih ihrest =>
      intro t
      rw [List.append_assoc, named?_cons]
      obtain ⟨a, b, c, u, hs, hname, hcolon, hvalue, hu⟩ := ih _ (closes_cons (.inl rfl) _)
      exact reads_members hs hname hcolon hvalue (.inr ⟨_, hu, ihrest t⟩)
  | noMembers h =>
      intro t
      rw [List.cons_append, List.append_assoc]
      exact reads_object_nil (h.dropWhile_append_cons rfl t)
  | someMembers h ih =>
      intro t
      rw [List.cons_append, List.append_assoc]
      refine reads_object ?_ (ih t)
      intro u hu
      obtain ⟨rest, hcons⟩ := h.members_cons ('\x7d' :: t)
      cases hcons.symm.trans hu

/-- Every text of the grammar is read as the value that it stands for. -/
theorem parse?_of_spells {text : String} {v : Json} (h : Spells text.toList (.element v)) :
    parse? text = some v := by
  obtain ⟨u, hread, hu⟩ := h.isRead [] (by rintro c ⟨⟩)
  rw [List.append_nil] at hread
  exact parse?_of_reads hread hu

/-- The text of an object with these members, in their order. -/
def IsObjectText (text : String) (members : List (Option String × Json)) : Prop :=
  ∃ a s b, text.toList = a ++ (s ++ b) ∧ Blanks a ∧ Spells s (.object members) ∧ Blanks b

theorem IsObjectText.parse?_eq {text : String} {members : List (Option String × Json)}
    (h : IsObjectText text members) :
    parse? text = some ((named? members).elim .unpaired .object) := by
  obtain ⟨a, s, b, htext, ha, hobject, hb⟩ := h
  refine parse?_of_spells ?_
  rw [htext]
  exact .element ha (.object hobject) hb

end FluentShapes.Json
