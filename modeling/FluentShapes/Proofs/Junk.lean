import FluentShapes.Resource.Entries
import Mathlib.Data.List.Forall2

/-!
# Junk and its syntax errors

A resource is read entry by entry, and only where an entry is broken junk is put into the resource
and an error is left that covers it.  `Resource.Located` says this of the part of a source that is
still to be read, by the byte at which it starts.  It holds of the end of the source, and each entry
in front of a part that it holds of keeps it, so it holds of the whole (`located_entries`).
-/

namespace FluentShapes

theorem utf8Length_eq_utf8ByteSize (s : List Char) :
    utf8Length s = (String.ofList s).utf8ByteSize := by
  induction s with
  | nil => rfl
  | cons c s ih =>
      rw [utf8Length_cons, ih, String.ofList_cons, String.utf8ByteSize_append]
      simp

/-! ## What has been read -/

namespace Rest

variable {s : List Char}

theorem text_blankBlock_suffix (r : Rest s) : r.blankBlock.text <:+ r.text :=
  Blank.skipLines_suffix 0 r.text (List.suffix_refl _) (List.suffix_refl _)

/-- Who has less left has read more. -/
theorem exists_consumed_append {r q : Rest s} (h : q.text <:+ r.text) :
    ∃ gap, q.consumed = r.consumed ++ gap := by
  obtain ⟨gap, hgap⟩ := h
  have hsource : q.consumed ++ q.text = r.consumed ++ gap ++ q.text := by
    rw [consumed_append_text, List.append_assoc, hgap, consumed_append_text]
  exact ⟨gap, List.append_cancel_right hsource⟩

end Rest

/-! ## Entries that are no junk -/

namespace Reading

variable {α β : Type} {s t w : List Char}

/-- What is accepted, if anything is, satisfies `P`. -/
def Yields (P : α → Prop) : Reading s w α → Prop
  | accept a _ => P a
  | reject _ _ | garbled => True

theorem yields_andThen {P : β → Prop} (x : Reading s s α) {f : α → Rest s → Reading s s β}
    (h : ∀ a r, (f a r).Yields P) : (x.andThen f).Yields P := by
  cases x with
  | accept a r => exact h a r
  | reject _ _ | garbled => trivial

end Reading

namespace Entry

/-- The text of junk. -/
def junk? : Entry → Option String
  | junk content => some content
  | message .. | term .. | comment .. => none

end Entry

/-- The junk of a resource in its order. -/
def Resource.junk (r : Resource) : List String := r.filterMap Entry.junk?

namespace Grammar

open Reading

variable {s t : List Char} {P : Entry → Prop}

theorem yields_comment (h : ∀ level lines, P (.comment level lines)) (s : List Char) :
    (comment s).Yields P := by
  unfold comment
  split
  split
  · exact h _ _
  · split
    · trivial
    · split <;> exact h _ _

theorem yields_term (h : ∀ name value attributes, P (.term name value attributes none))
    (s : List Char) : (term s).Yields P := by
  refine yields_andThen _ fun name r ↦ yields_andThen _ fun _ r ↦ yields_andThen _ ?_
  rintro ⟨value, attributes⟩ r
  cases value with
  | none => trivial
  | some value => exact h name value attributes

theorem yields_message (name : String) (r : Rest s) :
    (message name r).Yields fun e ↦ e.junk? = none := by
  refine yields_andThen _ fun _ r ↦ yields_andThen _ ?_
  rintro ⟨value, attributes⟩ r
  dsimp only
  split
  · trivial
  · rfl

/-- Reading an entry never gives junk. -/
theorem yields_entry (c : Char) (t : List Char) : (entry c t).Yields fun e ↦ e.junk? = none := by
  unfold entry
  split
  · exact yields_comment (fun _ _ ↦ rfl) t
  · split
    · exact yields_term (fun _ _ _ ↦ rfl) t
    · split
      · exact yields_message _ _
      · trivial

theorem junk?_of_entry_eq_accept {c : Char} {e : Entry} {r : Rest t} (h : entry c t = .accept e r) :
    e.junk? = none := by
  have hyields := yields_entry c t
  rw [h] at hyields
  exact hyields

end Grammar

namespace Resource

theorem junk_append (r r' : Resource) : junk (r ++ r') = junk r ++ junk r' := List.filterMap_append

theorem junk_comments (held : Option Comment) : junk (held.toList.map (.comment .entry)) = [] := by
  cases held <;> rfl

/-- A comment that is held back is no junk, nor is an entry that takes it. -/
theorem junk_attach (held : Option Comment) (blankLines : Nat) (e : Entry) :
    junk (attach held blankLines e).1 = e.junk?.toList := by
  unfold attach
  dsimp only
  split
  · rename_i e' he'
    obtain ⟨lines, -, hlines⟩ := Option.bind_eq_some_iff.mp he'
    split at hlines
    · cases e <;> cases hlines <;> rfl
    · cases hlines
  · split
    · exact junk_comments held
    · rw [junk_append, junk_comments]
      cases e <;> rfl

end Resource

/-! ## Where errors are -/

namespace SyntaxError

/-- The bytes of the error are those of a piece of a text that starts at byte `offset`. -/
def Covers (offset : Nat) (s : List Char) (e : SyntaxError) (piece : String) : Prop :=
  ∃ before after, s = before ++ (piece.toList ++ after) ∧ e.start = offset + utf8Length before ∧
    e.stop = e.start + utf8Length piece.toList

variable {offset : Nat} {s : List Char} {e : SyntaxError} {piece : String}

theorem Covers.le_start (h : Covers offset s e piece) : offset ≤ e.start := by
  obtain ⟨before, after, -, hstart, -⟩ := h
  omega

theorem Covers.append_left {front : List Char} (h : Covers (offset + utf8Length front) s e piece) :
    Covers offset (front ++ s) e piece := by
  obtain ⟨before, after, rfl, hstart, hstop⟩ := h
  refine ⟨front ++ before, after, by rw [List.append_assoc], ?_, hstop⟩
  rw [hstart, utf8Length_append, Nat.add_assoc]

end SyntaxError

namespace Resource

/-- In what is read of a text that starts at byte `offset`, there is one error for each piece of
junk, which is not empty, and no error reaches into the next one. -/
structure Located (offset : Nat) (s : List Char) (p : Parsed) : Prop where
  covers : List.Forall₂ (SyntaxError.Covers offset s) p.errors p.body.junk
  ne_empty : ∀ piece ∈ p.body.junk, piece ≠ ""
  ordered : p.errors.Pairwise fun e e' ↦ e.stop ≤ e'.start

namespace Located

variable {offset : Nat} {s front : List Char} {p : Parsed}

theorem le_start (h : Located offset s p) {e : SyntaxError} (he : e ∈ p.errors) :
    offset ≤ e.start := by
  obtain ⟨i, hi, rfl⟩ := List.mem_iff_getElem.mp he
  exact (h.covers.get hi (h.covers.length_eq ▸ hi)).le_start

/-- Entries that are no junk may come first. -/
theorem skip (h : Located (offset + utf8Length front) s p) {entries : Resource}
    (hentries : entries.junk = []) :
    Located offset (front ++ s) { p with body := entries ++ p.body } where
  covers := by
    rw [junk_append, hentries]
    exact h.covers.imp fun _ _ ↦ SyntaxError.Covers.append_left
  ne_empty := by
    rw [junk_append, hentries]
    exact h.ne_empty
  ordered := h.ordered

/-- A piece of junk may come first, with its error. -/
theorem broken {content gap : List Char}
    (h : Located (offset + utf8Length (content ++ gap)) s p) (hcontent : content ≠ [])
    {entries : Resource} (hentries : entries.junk = [String.ofList content]) (message : String) :
    Located offset (content ++ gap ++ s)
      ⟨entries ++ p.body, ⟨offset, offset + utf8Length content, message⟩ :: p.errors⟩ where
  covers := by
    rw [junk_append, hentries]
    refine .cons ⟨[], gap ++ s, ?_, rfl, ?_⟩ (h.covers.imp fun _ _ ↦ SyntaxError.Covers.append_left)
    · simp
    · simp
  ne_empty := by
    rw [junk_append, hentries]
    simp only [List.singleton_append, List.forall_mem_cons]
    exact ⟨by simpa [← String.toList_inj] using hcontent, h.ne_empty⟩
  ordered := by
    refine List.pairwise_cons.mpr ⟨fun e he ↦ ?_, h.ordered⟩
    have hle := h.le_start he
    rw [utf8Length_append] at hle
    show offset + utf8Length content ≤ e.start
    omega

end Located

/-- The errors of a text are where its junk is. -/
theorem located_entries {offset : Nat} {held : Option Comment} {blankLines : Nat} {s : List Char}
    {p : Recovered} (h : entries offset held blankLines s = some p) :
    Located offset s p.parsed := by
  induction offset, held, blankLines, s using entries.induct generalizing p with
  | case1 offset held blankLines =>
      rw [entries] at h
      cases h
      show Located offset [] ⟨held.toList.map (Entry.comment .entry), []⟩
      exact ⟨by rw [junk_comments]; exact .nil, by simp [junk_comments], .nil⟩
  | case2 offset held blankLines c t hentry =>
      rw [entries, hentry] at h
      cases h
  | case3 offset held blankLines c t e r hentry front held' hattach next =>
      rename_i ih
      rw [entries, hentry] at h
      simp only [hattach, Option.map_eq_some_iff] at h
      obtain ⟨p, hp, rfl⟩ := h
      have hfront := junk_attach held blankLines e
      rw [hattach, Grammar.junk?_of_entry_eq_accept hentry] at hfront
      have hlocated := (ih hp).skip hfront
      rwa [List.cons_append, Rest.consumed_append_text] at hlocated
  | case4 offset held blankLines c t fault r hentry junk content front held' hattach next =>
      rename_i ih
      rw [entries, hentry] at h
      simp only [junk, content] at hattach
      simp only [hattach, Option.map_eq_some_iff] at h
      obtain ⟨p, hp, rfl⟩ := h
      have hfront := junk_attach held blankLines (.junk (String.ofList content))
      rw [hattach] at hfront
      -- The blank lines behind the junk belong to no entry.
      obtain ⟨gap, hgap⟩ := Rest.exists_consumed_append junk.text_blankBlock_suffix
      have hread : c :: next.consumed = content ++ gap := congrArg (List.cons c) hgap
      have hnext := ih hp
      rw [hread] at hnext
      have hlocated := hnext.broken (List.cons_ne_nil c _) hfront fault.message
      rwa [← hread, List.cons_append, Rest.consumed_append_text] at hlocated

theorem located_of_parseLenient? {source : String} {p : Parsed}
    (h : parseLenient? source = some p) : Located 0 source.toList p := by
  rw [parseLenient?_eq] at h
  obtain ⟨q, hq, rfl⟩ := Option.map_eq_some_iff.mp h
  have hlocated := located_entries hq
  rw [← Nat.zero_add (utf8Length _)] at hlocated
  have hnone : junk [] = [] := rfl
  have hsource := hlocated.skip hnone
  rwa [Rest.consumed_append_text] at hsource

end Resource

/-- The bytes from the start to the end of the error are those of a piece of the source. -/
def SyntaxError.Spans (source : String) (e : SyntaxError) (piece : String) : Prop :=
  ∃ before after, source = before ++ piece ++ after ∧ e.start = before.utf8ByteSize ∧
    e.stop = (before ++ piece).utf8ByteSize

theorem SyntaxError.Covers.spans {source : String} {e : SyntaxError} {piece : String}
    (h : Covers 0 source.toList e piece) : e.Spans source piece := by
  obtain ⟨before, after, hsource, hstart, hstop⟩ := h
  refine ⟨String.ofList before, String.ofList after, ?_, ?_, ?_⟩
  · rw [← String.toList_inj, hsource]
    simp
  · rw [hstart, Nat.zero_add, utf8Length_eq_utf8ByteSize]
  · rw [hstop, hstart, String.utf8ByteSize_append, utf8Length_eq_utf8ByteSize,
      utf8Length_eq_utf8ByteSize, Nat.zero_add, String.ofList_toList]

theorem SyntaxError.Spans.start_lt_stop {source : String} {e : SyntaxError} {piece : String}
    (h : e.Spans source piece) (hne : piece ≠ "") : e.start < e.stop := by
  obtain ⟨before, after, -, hstart, hstop⟩ := h
  have hsize : piece.utf8ByteSize ≠ 0 := fun hzero ↦ hne (String.utf8ByteSize_eq_zero_iff.mp hzero)
  rw [hstart, hstop, String.utf8ByteSize_append]
  omega

namespace Resource

theorem mem_junk_iff (r : Resource) (content : String) : content ∈ r.junk ↔ .junk content ∈ r := by
  rw [junk, List.mem_filterMap]
  constructor
  · rintro ⟨e, he, hcontent⟩
    cases e with
    | junk text =>
        cases hcontent
        exact he
    | message _ _ _ _ | term _ _ _ _ | comment _ _ => cases hcontent
  · exact fun h ↦ ⟨_, h, rfl⟩

theorem parse?_eq_ok_iff {source : String} {p : Parsed} (h : parseLenient? source = some p)
    (body : Resource) : parse? source = some (.ok body) ↔ p.errors = [] ∧ body = p.body := by
  rw [parse?_eq, h, Option.map_some, Option.some.injEq]
  split
  · rename_i herrors
    rw [Except.ok.injEq, eq_comm, and_iff_right (List.isEmpty_iff.mp herrors)]
  · rename_i herrors
    refine iff_of_false (by simp) fun hbody ↦ herrors ?_
    rw [hbody.1]
    rfl

/-- A source that can be read has one error for each piece of junk, in the same order.  The error
spans the piece, which is not empty, and ends before the next one starts.  So a source is accepted
exactly if there is no junk in it, with what has been read anyway. -/
theorem errors_span_junk {source : String} {p : Parsed} (h : parseLenient? source = some p) :
    p.errors.length = p.body.junk.length ∧
      List.Forall₂ (fun e piece ↦ e.start < e.stop ∧ e.Spans source piece) p.errors p.body.junk ∧
      p.errors.Pairwise (fun e e' ↦ e.stop ≤ e'.start) ∧
      ∀ body, parse? source = some (.ok body) ↔
        (∀ content, Entry.junk content ∉ p.body) ∧ body = p.body := by
  have hlocated := located_of_parseLenient? h
  refine ⟨hlocated.covers.length_eq, ?_, hlocated.ordered, fun body ↦ ?_⟩
  · refine List.forall₂_iff_zip.mpr ⟨hlocated.covers.length_eq, fun {e piece} hmem ↦ ?_⟩
    have hspans := ((List.forall₂_iff_zip.mp hlocated.covers).2 hmem).spans
    exact ⟨hspans.start_lt_stop (hlocated.ne_empty piece (List.of_mem_zip hmem).2), hspans⟩
  · have hnone : p.errors = [] ↔ ∀ content, Entry.junk content ∉ p.body := by
      rw [← List.length_eq_zero_iff, hlocated.covers.length_eq, List.length_eq_zero_iff,
        List.eq_nil_iff_forall_not_mem]
      simp only [mem_junk_iff]
    rw [parse?_eq_ok_iff h, hnone]

/-- Two broken entries, the first of which starts with a character of two bytes. -/
theorem errors_span_junk_twoByte :
    ∃ p, parseLenient? "é = x\nb = \x7d\nc = C\n" = some p ∧
      p.body.junk = ["é = x\n", "b = \x7d\n"] ∧
      p.errors.map (fun e ↦ (e.start, e.stop)) = [(0, 7), (7, 13)] ∧
      List.Forall₂ (fun e piece ↦ e.start < e.stop ∧ e.Spans "é = x\nb = \x7d\nc = C\n" piece)
        p.errors p.body.junk := by
  have hread : (parseLenient? "é = x\nb = \x7d\nc = C\n").map
      (fun p ↦ (p.body.junk, p.errors.map fun e ↦ (e.start, e.stop))) =
        some (["é = x\n", "b = \x7d\n"], [(0, 7), (7, 13)]) := by decide +kernel
  obtain ⟨p, hp, hpair⟩ := Option.map_eq_some_iff.mp hread
  obtain ⟨hjunk, herrors⟩ := Prod.ext_iff.mp hpair
  exact ⟨p, hp, hjunk, herrors, (errors_span_junk hp).2.1⟩

end Resource

end FluentShapes
