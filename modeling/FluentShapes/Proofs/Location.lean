import FluentShapes.Diagnostic.Report
import FluentShapes.Proofs.Junk
import Mathlib.Data.List.TakeWhile

/-!
# Where reports point to

A text can be cut into lines in one way only (`Lines.cut_split`, `Lines.Cut.eq_split`), and in a
text that is not empty every character offset up to its end has one line and one column
(`Lines.exists_at`, `Lines.At.unique`).  A byte offset that cuts no character, or is behind the end,
counts the characters before it (`Report.charOffset_of_precedes`).  So an error that starts and ends
at such offsets has a location in its report.  It has a label too, unless what it marks is on one
line and the character in the middle, from which the label would hang, takes no column.
-/

namespace FluentShapes

/-! ## Lines -/

namespace Lines

/-- How a line ends before the rest of the text.  A carriage return and a line feed are not put
apart. -/
inductive Ending (rest : List Char) : List Char → Prop
  | pair : Ending rest ['\r', '\n']
  | single {c : Char} : isTerminator c = true → ¬ (c = '\r' ∧ rest.head? = some '\n') →
      Ending rest [c]

/-- A text is cut into lines, of which only the last may do without an ending. -/
inductive Cut : List Char → List (List Char) → Prop
  | nil : Cut [] []
  | last {body : List Char} : body ≠ [] → (∀ c ∈ body, isTerminator c = false) → Cut body [body]
  | line {body ending rest : List Char} {lines : List (List Char)} :
      (∀ c ∈ body, isTerminator c = false) → Ending rest ending → Cut rest lines →
      Cut (body ++ ending ++ rest) ((body ++ ending) :: lines)

variable {s rest body ending : List Char} {lines : List (List Char)} {c : Char}

theorem split_terminator (hc : isTerminator c = true)
    (hpair : ¬ (c = '\r' ∧ rest.head? = some '\n')) : split (c :: rest) = [c] :: split rest := by
  rw [split]
  · rw [if_pos hc]
  · rintro t rfl rfl
    exact hpair ⟨rfl, rfl⟩

/-- Put a character in front of the first line. -/
def consLine (c : Char) : List (List Char) → List (List Char)
  | [] => [[c]]
  | line :: lines => (c :: line) :: lines

theorem split_body (hc : isTerminator c = false) (s : List Char) :
    split (c :: s) = consLine c (split s) := by
  rw [split]
  · rw [if_neg (Bool.eq_false_iff.mp hc)]
    cases split s <;> rfl
  · rintro t rfl rfl
    cases hc

theorem split_line (hbody : ∀ c ∈ body, isTerminator c = false) (hending : Ending rest ending) :
    split (body ++ ending ++ rest) = (body ++ ending) :: split rest := by
  induction body with
  | nil =>
      cases hending with
      | pair => rw [List.nil_append, List.cons_append, List.cons_append, List.nil_append, split]
      | single hc hpair => exact split_terminator hc hpair
  | cons c body ih =>
      rw [List.forall_mem_cons] at hbody
      rw [List.cons_append, List.cons_append, split_body hbody.1, ih hbody.2]
      rfl

theorem split_last (hne : body ≠ []) (hbody : ∀ c ∈ body, isTerminator c = false) :
    split body = [body] := by
  induction body with
  | nil => exact absurd rfl hne
  | cons c body ih =>
      rw [List.forall_mem_cons] at hbody
      rw [split_body hbody.1]
      cases body with
      | nil => rfl
      | cons d body =>
          rw [ih (List.cons_ne_nil d body) hbody.2]
          rfl

/-- There is one way to cut a text into lines. -/
theorem Cut.eq_split (h : Cut s lines) : lines = split s := by
  induction h with
  | nil => rw [split]
  | last hne hbody => rw [split_last hne hbody]
  | line hbody hending _ ih => rw [split_line hbody hending, ih]

theorem Cut.consLine (hc : isTerminator c = false) (h : Cut s lines) :
    Cut (c :: s) (consLine c lines) := by
  cases h with
  | nil => exact .last (List.cons_ne_nil c []) (by simpa using hc)
  | last hne hbody => exact .last (List.cons_ne_nil c s) (List.forall_mem_cons.mpr ⟨hc, hbody⟩)
  | line hbody hending hrest => exact .line (List.forall_mem_cons.mpr ⟨hc, hbody⟩) hending hrest

theorem cut_split (s : List Char) : Cut s (split s) := by
  induction s using split.induct with
  | case1 =>
      rw [split]
      exact .nil
  | case2 t ih =>
      rw [split]
      exact .line (List.forall_mem_nil _) .pair ih
  | case3 c t hpair hc ih =>
      have hapart : ¬ (c = '\r' ∧ t.head? = some '\n') := by
        rintro ⟨rfl, hhead⟩
        obtain ⟨u, rfl⟩ := List.head?_eq_some_iff.mp hhead
        exact hpair u rfl rfl
      rw [split_terminator hc hapart]
      exact .line (List.forall_mem_nil _) (.single hc hapart) ih
  | case4 c t hpair hc hnil ih =>
      rw [split_body (Bool.eq_false_iff.mpr hc)]
      exact ih.consLine (Bool.eq_false_iff.mpr hc)
  | case5 c t hpair hc line lines hcons ih =>
      rw [split_body (Bool.eq_false_iff.mpr hc)]
      exact ih.consLine (Bool.eq_false_iff.mpr hc)

theorem Cut.flatten_eq (h : Cut s lines) : lines.flatten = s := by
  induction h with
  | nil => rfl
  | last _ _ => simp
  | line _ _ _ ih => rw [List.flatten_cons, ih]

/-! ## Places -/

/-- The line and the column of a character offset, both counted from zero.  The end of the text is
on its last line. -/
def At (s : List Char) (offset number column : Nat) : Prop :=
  ∃ before line after, Cut s (before ++ line :: after) ∧ before.length = number ∧
    before.flatten.length + column = offset ∧
    (column < line.length ∨ after = [] ∧ column = line.length)

theorem exists_line {lines : List (List Char)} (hne : lines ≠ []) {offset : Nat}
    (h : offset ≤ lines.flatten.length) :
    ∃ before line after column, lines = before ++ line :: after ∧
      before.flatten.length + column = offset ∧
      (column < line.length ∨ after = [] ∧ column = line.length) := by
  induction lines generalizing offset with
  | nil => exact absurd rfl hne
  | cons line lines ih =>
      -- The end of a line is the start of the next one, if there is one.
      by_cases hlt : offset < line.length
      · exact ⟨[], line, lines, offset, rfl, by simp, .inl hlt⟩
      · rw [List.flatten_cons, List.length_append] at h
        cases lines with
        | nil => exact ⟨[], line, [], offset, rfl, by simp, .inr ⟨rfl, by simp at h; omega⟩⟩
        | cons next lines =>
            have hrest : offset - line.length ≤ (next :: lines).flatten.length := by omega
            obtain ⟨before, found, after, column, hlines, hcolumn, hend⟩ :=
              ih (List.cons_ne_nil next lines) hrest
            refine ⟨line :: before, found, after, column, by rw [hlines]; rfl, ?_, hend⟩
            rw [List.flatten_cons, List.length_append]
            omega

theorem exists_at {offset : Nat} (hne : s ≠ []) (h : offset ≤ s.length) :
    ∃ number column, At s offset number column := by
  have hcut := cut_split s
  rw [← hcut.flatten_eq] at h hne
  have hlines : split s ≠ [] := by
    intro hnil
    rw [hnil] at hne
    exact hne rfl
  obtain ⟨before, line, after, column, hsplit, hcolumn, hend⟩ := exists_line hlines h
  exact ⟨before.length, column, before, line, after, hsplit ▸ hcut, rfl, hcolumn, hend⟩

theorem lineAt_of_lt {number offset target : Nat} (h : target < offset) :
    lineAt number offset target lines = none := by
  cases lines with
  | nil => rfl
  | cons line lines => rw [lineAt, if_pos h]

theorem lineAt_append (before : List (List Char)) {after : List (List Char)} {line : List Char}
    {column : Nat}
    (hend : column < line.length ∨ after = [] ∧ column = line.length) (number offset : Nat) :
    lineAt number offset (offset + before.flatten.length + column) (before ++ line :: after) =
      some ⟨number + before.length, offset + before.flatten.length, line.length⟩ := by
  induction before generalizing number offset with
  | nil =>
      have hnext : lineAt (number + 1) (offset + line.length) (offset + column) after = none := by
        rcases hend with hlt | ⟨rfl, -⟩
        · exact lineAt_of_lt (by omega)
        · rfl
      rw [List.nil_append, List.flatten_nil, List.length_nil, Nat.add_zero, lineAt,
        if_neg (by omega), hnext]
      rfl
  | cons first before ih =>
      have hlength : offset + (first :: before).flatten.length =
          offset + first.length + before.flatten.length := by
        rw [List.flatten_cons, List.length_append, Nat.add_assoc]
      have hnumber : number + (first :: before).length = number + 1 + before.length := by
        rw [List.length_cons]
        omega
      rw [List.cons_append, lineAt, if_neg (by omega), hlength, hnumber, ih]
      rfl

/-- The place that is found for an offset is where it is. -/
theorem At.place?_eq {offset number column : Nat} (h : At s offset number column) :
    ∃ place, place? s offset = some place ∧ place.number = number ∧
      place.offset + column = offset ∧
      (column < place.length ∨ offset = s.length ∧ column = place.length) := by
  obtain ⟨before, line, after, hcut, rfl, rfl, hend⟩ := h
  have hplace := lineAt_append before hend 0 0
  have hlength : s.length = before.flatten.length + (line.length + after.flatten.length) := by
    rw [← hcut.flatten_eq]
    simp
  rw [Nat.zero_add, Nat.zero_add] at hplace
  refine ⟨⟨before.length, before.flatten.length, line.length⟩, ?_, rfl, rfl, ?_⟩
  · rw [place?, if_neg (by rcases hend with _ | ⟨rfl, _⟩ <;> omega), ← hcut.eq_split, hplace]
  · rcases hend with hlt | ⟨rfl, heq⟩
    · exact .inl hlt
    · refine .inr ⟨?_, heq⟩
      rw [List.flatten_nil, List.length_nil] at hlength
      omega

/-- An offset has one line and one column. -/
theorem At.unique {offset number number' column column' : Nat} (h : At s offset number column)
    (h' : At s offset number' column') : number = number' ∧ column = column' := by
  obtain ⟨place, hplace, rfl, hoffset, -⟩ := h.place?_eq
  obtain ⟨place', hplace', rfl, hoffset', -⟩ := h'.place?_eq
  rw [hplace] at hplace'
  cases hplace'
  exact ⟨rfl, by omega⟩

end Lines

namespace Report

/-! ## Character offsets -/

/-- `before` is what a source has before a byte. -/
def Precedes (source : String) (bytes : Nat) (before : String) : Prop :=
  (∃ after, source = before ++ after) ∧ before.utf8ByteSize = bytes

theorem charsBefore?_append (before after : List Char) :
    charsBefore? (utf8Length before) (before ++ after) = some before.length := by
  induction before with
  | nil => simp [charsBefore?]
  | cons c before ih =>
      have hpos := c.utf8Size_pos
      rw [utf8Length_cons, List.cons_append, charsBefore?, if_neg (by omega),
        Nat.add_sub_cancel_left, ih]
      · rfl
      · omega

theorem charOffset_of_precedes {source before : String} {bytes : Nat}
    (h : Precedes source (min bytes source.utf8ByteSize) before) :
    charOffset source.toList bytes = before.length := by
  obtain ⟨⟨after, hsource⟩, hbytes⟩ := h
  have hsize (text : String) : utf8Length text.toList = text.utf8ByteSize := by
    rw [utf8Length_eq_utf8ByteSize, String.ofList_toList]
  have hchars := charsBefore?_append before.toList after.toList
  rw [← String.toList_append, ← hsource, hsize, hbytes] at hchars
  rw [charOffset, hsize, hchars]
  exact String.length_toList

theorem Precedes.length_le {source before : String} {bytes : Nat}
    (h : Precedes source bytes before) : before.length ≤ source.length := by
  obtain ⟨⟨after, rfl⟩, -⟩ := h
  rw [String.length_append]
  omega

/-- A byte offset that cuts no character, or is at or behind the end. -/
def IsBoundary (source : String) (bytes : Nat) : Prop :=
  (∃ before, Precedes source bytes before) ∨ source.utf8ByteSize ≤ bytes

theorem IsBoundary.exists_precedes {source : String} {bytes : Nat} (h : IsBoundary source bytes) :
    ∃ before, Precedes source (min bytes source.utf8ByteSize) before := by
  rcases h with ⟨before, ⟨after, rfl⟩, rfl⟩ | hend
  · refine ⟨before, ⟨after, rfl⟩, ?_⟩
    rw [String.utf8ByteSize_append]
    omega
  · exact ⟨source, ⟨"", by simp⟩, by omega⟩

/-! ## Labels -/

/-- The text up to the first line feed. -/
def FirstLine (text line : String) : Prop :=
  '\n' ∉ line.toList ∧ (text = line ∨ ∃ rest, text = line ++ "\n" ++ rest)

theorem firstLine_takeWhile (text : String) :
    FirstLine text (String.ofList (text.toList.takeWhile (· ≠ '\n'))) := by
  have hsplit := List.takeWhile_append_dropWhile (p := (· ≠ '\n')) (l := text.toList)
  refine ⟨?_, ?_⟩
  · rw [String.toList_ofList]
    intro hmem
    simpa using List.mem_takeWhile_imp hmem
  · cases hdrop : text.toList.dropWhile (· ≠ '\n') with
    | nil =>
        rw [hdrop, List.append_nil] at hsplit
        exact .inl (by rw [hsplit, String.ofList_toList])
    | cons c rest =>
        have hhead := List.head?_dropWhile_not (· ≠ '\n') text.toList
        rw [hdrop] at hhead hsplit
        obtain rfl : c = '\n' := by simpa using hhead
        refine .inr ⟨String.ofList rest, ?_⟩
        rw [← String.toList_inj]
        simpa using hsplit.symm

/-- What is marked is on one line, and the character in the middle of it takes no column. -/
def Hidden (s : List Char) (start stop : Nat) : Prop :=
  (∃ number column column', Lines.At s start number column ∧
      Lines.At s (max start (stop - 1)) number column') ∧
    ∃ c, s[(start + stop) / 2]? = some c ∧ Text.isColumnless c = true

theorem isJoined_eq_false_iff (s : List Char) (start stop : Nat) (oneLine : Bool) :
    isJoined s start stop oneLine = false ↔
      oneLine = true ∧ ∃ c, s[(start + stop) / 2]? = some c ∧ Text.isColumnless c = true := by
  rw [isJoined, List.head?_drop]
  cases s[(start + stop) / 2]? <;> simp

/-! ## Reports -/

/-- A report on an error that marks the characters from `start` up to `stop` says in which line and
column this is, and has the first line of the message as its label unless the label is hidden. -/
structure Locates (source fileName : String) (e : SyntaxError) (r : Report)
    (start stop number column : Nat) : Prop where
  start_eq : ∃ front, Precedes source (min e.start source.utf8ByteSize) front ∧
    start = min front.length stop
  stop_eq : ∃ back, Precedes source (min e.stop source.utf8ByteSize) back ∧ stop = back.length
  start_le : start ≤ stop
  stop_le : stop ≤ source.length
  place : Lines.At source.toList start number column
  location_eq : r.location =
    some (fileName ++ ":" ++ toString (number + 1) ++ ":" ++ toString (column + 1))
  label_eq : ¬ Hidden source.toList start stop →
    ∃ line, FirstLine e.message line ∧ r.label = some line
  label_eq_none : Hidden source.toList start stop → r.label = none

section OfError

variable {source : String} {e : SyntaxError} {start stop number column : Nat}

theorem ofError_eq {first last : Lines.Place} (fileName : String)
    (hstop : charOffset source.toList e.stop = stop)
    (hstart : min (charOffset source.toList e.start) stop = start)
    (hfirst : Lines.place? source.toList start = some first)
    (hlast : Lines.place? source.toList (max start (stop - 1)) = some last)
    (hend : stop ≤ last.offset + last.length) :
    ofError source fileName e =
      labelled (fileName ++ ":" ++ toString (first.number + 1) ++ ":" ++
          toString (start - first.offset + 1)) e.message
        (isJoined source.toList start stop (first.number = last.number)) := by
  have hlast' : (if stop ≤ start then some first else Lines.place? source.toList (stop - 1)) =
      some last := by
    split
    · rw [← hlast, Nat.max_eq_left (by omega), hfirst]
    · rw [← hlast, Nat.max_eq_right (by omega)]
  simp only [ofError, hstop, hstart, hfirst, hlast', if_neg (Nat.not_lt.mpr hend)]

/-- The last character that is marked is on the line where the marked text ends. -/
theorem stop_le_of_at {place : Lines.Place} (hstart : start ≤ stop) (hstop : stop ≤ source.length)
    (hplace : place.offset + column = max start (stop - 1))
    (hend : column < place.length ∨
      max start (stop - 1) = source.toList.length ∧ column = place.length) :
    stop ≤ place.offset + place.length := by
  rw [String.length_toList] at hend
  omega

theorem hidden_iff {first last column' : Nat} (h : Lines.At source.toList start first column)
    (h' : Lines.At source.toList (max start (stop - 1)) last column') :
    Hidden source.toList start stop ↔
      isJoined source.toList start stop (first = last) = false := by
  rw [isJoined_eq_false_iff, decide_eq_true_eq]
  refine and_congr_left fun _ ↦ ⟨?_, ?_⟩
  · rintro ⟨number, _, _, hnumber, hnumber'⟩
    rw [(h.unique hnumber).1, (h'.unique hnumber').1]
  · rintro rfl
    exact ⟨first, column, column', h, h'⟩

theorem locates_ofError (hne : source ≠ "") (fileName : String) (hstart : IsBoundary source e.start)
    (hstop : IsBoundary source e.stop) :
    ∃ start stop number column,
      Locates source fileName e (ofError source fileName e) start stop number column := by
  obtain ⟨front, hfront⟩ := hstart.exists_precedes
  obtain ⟨back, hback⟩ := hstop.exists_precedes
  have hlength := hback.length_le
  have htext : source.toList ≠ [] := by simpa using hne
  have hfirst_le : min front.length back.length ≤ source.toList.length := by
    rw [String.length_toList]
    omega
  have hlast_le : max (min front.length back.length) (back.length - 1) ≤ source.toList.length := by
    rw [String.length_toList]
    omega
  -- The first and the last character that are marked have lines, which may be the same.
  obtain ⟨number, column, hat⟩ := Lines.exists_at htext hfirst_le
  obtain ⟨number', column', hat'⟩ := Lines.exists_at htext hlast_le
  have hhidden := hidden_iff hat hat'
  obtain ⟨first, hfirst, rfl, hcolumn, -⟩ := hat.place?_eq
  obtain ⟨last, hlast, rfl, hcolumn', hend⟩ := hat'.place?_eq
  have hreport := ofError_eq fileName (charOffset_of_precedes hback)
    (by rw [charOffset_of_precedes hfront]) hfirst hlast
    (stop_le_of_at (Nat.min_le_right _ _) hlength hcolumn' hend)
  have hcolumn_eq : min front.length back.length - first.offset = column := by omega
  rw [hreport, hcolumn_eq]
  refine ⟨_, _, _, _, ⟨front, hfront, rfl⟩, ⟨back, hback, rfl⟩, Nat.min_le_right _ _, hlength, hat,
    rfl, fun hshown ↦ ?_, fun hidden ↦ ?_⟩
  · rw [hhidden, Bool.not_eq_false] at hshown
    exact ⟨_, firstLine_takeWhile e.message, if_pos hshown⟩
  · rw [hhidden] at hidden
    exact if_neg (by rw [hidden]; decide)

end OfError

theorem isBoundary_of_spans {source piece : String} {e : SyntaxError} (h : e.Spans source piece) :
    IsBoundary source e.start ∧ IsBoundary source e.stop := by
  obtain ⟨before, after, hsource, hstart, hstop⟩ := h
  refine ⟨.inl ⟨before, ⟨piece ++ after, ?_⟩, hstart.symm⟩,
    .inl ⟨before ++ piece, ⟨after, hsource⟩, hstop.symm⟩⟩
  rw [hsource, String.append_assoc]

/-- The errors of a source start and end between characters. -/
theorem isBoundary_of_parseLenient? {source : String} {p : Parsed}
    (h : Resource.parseLenient? source = some p) {e : SyntaxError} (he : e ∈ p.errors) :
    IsBoundary source e.start ∧ IsBoundary source e.stop := by
  obtain ⟨i, hi, rfl⟩ := List.mem_iff_getElem.mp he
  have hcovers := (Resource.located_of_parseLenient? h).covers
  exact isBoundary_of_spans (hcovers.get hi (hcovers.length_eq ▸ hi)).spans

/-- In a source that is not empty, an error that starts and ends between two characters, or at or
behind the end, has a location in its report: the line and the column where it starts, or where it
ends if that comes first.  Its label is the first line of the message, unless what is marked is on
one line and the character in the middle takes no column.  All errors of reading a source are of
this kind. -/
theorem ofError_locates_boundaries {source : String} (hne : source ≠ "") (fileName : String) :
    (∀ e : SyntaxError, IsBoundary source e.start → IsBoundary source e.stop →
        ∃ start stop number column,
          Locates source fileName e (ofError source fileName e) start stop number column) ∧
      ∀ p, Resource.parseLenient? source = some p → ∀ e ∈ p.errors,
        ∃ start stop number column,
          Locates source fileName e (ofError source fileName e) start stop number column := by
  refine ⟨fun e ↦ locates_ofError hne fileName, fun p hp e he ↦ ?_⟩
  obtain ⟨hstart, hstop⟩ := isBoundary_of_parseLenient? hp he
  exact locates_ofError hne fileName hstart hstop

/-- An error that starts behind the end and ends on the second line, behind characters of two bytes
and an ending of two characters. -/
theorem ofError_locates_boundaries_reversed :
    IsBoundary "é\r\nüx" 99 ∧ IsBoundary "é\r\nüx" 6 ∧
      (ofError "é\r\nüx" "f.ftl" ⟨99, 6, "m\nn"⟩).location = some "f.ftl:2:2" ∧
      (ofError "é\r\nüx" "f.ftl" ⟨99, 6, "m\nn"⟩).label = some "m" ∧
      ∃ start stop number column, Locates "é\r\nüx" "f.ftl" ⟨99, 6, "m\nn"⟩
        (ofError "é\r\nüx" "f.ftl" ⟨99, 6, "m\nn"⟩) start stop number column := by
  have hstart : IsBoundary "é\r\nüx" 99 := .inr (by decide +kernel)
  have hstop : IsBoundary "é\r\nüx" 6 :=
    .inl ⟨"é\r\nü", ⟨"x", by decide +kernel⟩, by decide +kernel⟩
  exact ⟨hstart, hstop, by decide +kernel, by decide +kernel,
    (ofError_locates_boundaries (by decide) "f.ftl").1 ⟨99, 6, "m\nn"⟩ hstart hstop⟩

/-- The error of a source with a combining accent in the middle has a location and no label. -/
theorem ofError_hidden_label :
    ∃ p e, Resource.parseLenient? "1\u0301" = some p ∧ e ∈ p.errors ∧
      IsBoundary "1\u0301" e.start ∧ IsBoundary "1\u0301" e.stop ∧
      (ofError "1\u0301" "f.ftl" e).location = some "f.ftl:1:1" ∧
      (ofError "1\u0301" "f.ftl" e).label = none := by
  have hread : (Resource.parseLenient? "1\u0301").map Parsed.errors =
      some [⟨0, 3, "Expected one of \"a-zA-Z\""⟩] := by decide +kernel
  obtain ⟨p, hp, herrors⟩ := Option.map_eq_some_iff.mp hread
  have he : (⟨0, 3, "Expected one of \"a-zA-Z\""⟩ : SyntaxError) ∈ p.errors := by
    rw [herrors]
    exact List.mem_singleton_self _
  obtain ⟨hstart, hstop⟩ := isBoundary_of_parseLenient? hp he
  exact ⟨p, _, hp, he, hstart, hstop, by decide +kernel, by decide +kernel⟩

end Report

end FluentShapes
