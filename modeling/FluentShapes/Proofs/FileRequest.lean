import FluentShapes.Command.Compile
import FluentShapes.Proofs.Request

/-!
# The request for a file

The request for a file is put together as a text and read again.  Nothing is escaped on the way, so
a question mark in the path starts a query.  If there is a locale, then the query has a part with
`?locale=` in it, which is too long for a tag (`parse?_of_query`), and the request is refused.  If
there is none, then a path can pass for a shorter one with a locale.
-/

namespace FluentShapes

universe u

section Pieces

variable {α : Type u} {f : α → Bool}

theorem splitOnP_append_of_forall {w : List α} (hw : ∀ c ∈ w, f c = false) (b : List α) :
    (w ++ b).splitOnP f = (b.splitOnP f).modifyHead (w ++ ·) := by
  induction w with
  | nil => cases h : b.splitOnP f <;> simp [h]
  | cons c w ih =>
      rw [List.forall_mem_cons] at hw
      rw [List.cons_append, List.splitOnP_cons_eq_if_modifyHead, hw.1, ih hw.2]
      simp [Function.comp_def]

/-- A word without separators is in one piece. -/
theorem exists_piece {w : List α} (hw : ∀ c ∈ w, f c = false) (a b : List α) :
    ∃ p ∈ (a ++ (w ++ b)).splitOnP f, w <:+: p := by
  induction a with
  | nil =>
      rw [List.nil_append, splitOnP_append_of_forall hw]
      obtain ⟨p, pieces, hpieces⟩ := List.exists_cons_of_ne_nil (List.splitOnP_ne_nil f b)
      rw [hpieces]
      exact ⟨w ++ p, List.mem_cons_self, (List.prefix_append w p).isInfix⟩
  | cons c a ih =>
      obtain ⟨p, hp, hsub⟩ := ih
      rw [List.cons_append, List.splitOnP_cons_eq_if_modifyHead]
      split
      · exact ⟨p, List.mem_cons_of_mem _ hp, hsub⟩
      · cases hpieces : (a ++ (w ++ b)).splitOnP f with
        | nil =>
            rw [hpieces] at hp
            cases hp
        | cons q pieces =>
            rw [hpieces] at hp
            rcases List.mem_cons.mp hp with rfl | hp
            · exact ⟨c :: p, List.mem_cons_self, hsub.trans (List.suffix_cons c p).isInfix⟩
            · exact ⟨p, List.mem_cons_of_mem _ hp, hsub⟩

end Pieces

namespace Locale

theorem isSome_or_mem_of_optional {kind? : Part → Option String} {parts rest : List Part}
    {o : Option String} (h : optional kind? parts = (o, rest)) {p : Part} (hp : p ∈ parts) :
    (∃ s, kind? p = some s) ∨ p ∈ rest := by
  cases parts with
  | nil => cases hp
  | cons q parts =>
      rw [optional] at h
      split at h
      · rename_i s hs
        cases h
        rcases List.mem_cons.mp hp with rfl | hp
        · exact .inl ⟨s, hs⟩
        · exact .inr hp
      · cases h
        exact .inr hp

theorem isVariant_of_variants? {parts : List Part} {variants : List String}
    (h : variants? parts = some variants) {p : Part} (hp : p ∈ parts) : isVariant p = true := by
  unfold variants? at h
  split at h
  · exact List.all_eq_true.mp ‹_› p hp
  · cases h

theorem length_of_isVariant {p : Part} (h : isVariant p = true) {c : Char} (hc : c ∈ p)
    (hother : c.isAlphanum = false) : p.length = 4 := by
  unfold isVariant at h
  obtain ⟨-, h⟩ := (Bool.and_eq_true _ _).mp h
  split at h
  · rfl
  · rw [Bool.and_eq_true, List.all_eq_true] at h
    rw [h.2 c hc] at hother
    cases hother

/-- Only a part of four characters can have others in it than letters and digits. -/
theorem length_of_mem_part {tag : String} {l : Locale} (h : parse? tag = some l) {p : Part}
    (hp : p ∈ tag.toList.splitOnP isSeparator) {c : Char} (hc : c ∈ p)
    (hother : c.isAlphanum = false) : p.length = 4 := by
  have halpha : c.isAlpha = false := (Bool.or_eq_false_iff.mp hother).1
  have hdigit : c.isDigit = false := (Bool.or_eq_false_iff.mp hother).2
  obtain ⟨first, parts, rest, rest', hsplit, hlanguage, hscript, hregion, hvariants⟩ :=
    parse?_eq_some_iff.mp h
  rw [hsplit] at hp
  rcases List.mem_cons.mp hp with rfl | hp
  · have hall := (language?_eq_some_iff.mp hlanguage).1.2.2.2 c hc
    rw [halpha] at hall
    cases hall
  rcases isSome_or_mem_of_optional hscript hp with ⟨s, hs⟩ | hp
  · exact ((script?_isSome_iff p).mp (Option.isSome_of_eq_some hs)).1
  rcases isSome_or_mem_of_optional hregion hp with ⟨s, hs⟩ | hp
  · rcases (region?_eq_some_iff.mp hs).1 with ⟨-, hall⟩ | ⟨-, hall⟩
    · have hletter := hall c hc
      rw [halpha] at hletter
      cases hletter
    · have hnumber := hall c hc
      rw [hdigit] at hnumber
      cases hnumber
  · exact length_of_isVariant (isVariant_of_variants? hvariants hp) hc hother

/-- A second query does not fit into a tag. -/
theorem parse?_of_query (front tag : String) : parse? (front ++ "?locale=" ++ tag) = none := by
  cases h : parse? (front ++ "?locale=" ++ tag) with
  | none => rfl
  | some l =>
      have hword : ∀ c ∈ "?locale=".toList, isSeparator c = false := by simp [isSeparator]
      obtain ⟨p, hp, hsub⟩ := exists_piece hword front.toList tag.toList
      rw [← List.append_assoc, ← String.toList_append, ← String.toList_append] at hp
      have hfour := length_of_mem_part h hp (hsub.mem (by decide : '?' ∈ "?locale=".toList)) rfl
      have height : "?locale=".toList.length ≤ p.length := hsub.length_le
      rw [hfour] at height
      exact absurd height (by decide)

end Locale

namespace Request

theorem append_cons_inj {c : Char} {a a' b b' : List Char} (ha : c ∉ a) (ha' : c ∉ a')
    (h : a ++ c :: b = a' ++ c :: b') : a = a' ∧ b = b' := by
  have hsplit := splitAt?_append_cons ha b
  rw [h, splitAt?_append_cons ha' b'] at hsplit
  simpa [eq_comm] using hsplit

/-- A question mark before the query puts the query into the tag. -/
theorem exists_tag_of_query {b tag tag' : List Char}
    (h : b ++ "?locale=".toList ++ tag = "locale=".toList ++ tag') :
    ∃ front, tag' = front ++ "?locale=".toList ++ tag := by
  have hkey : '=' ∉ "locale".toList := by decide
  have hvalue : "locale=".toList ++ tag' = "locale".toList ++ '=' :: tag' := by simp
  by_cases hmem : '=' ∈ b
  · obtain ⟨key, front, rfl, hfront⟩ := List.eq_append_cons_of_mem hmem
    rw [hvalue, List.append_assoc, List.append_assoc, List.cons_append] at h
    obtain ⟨-, htag⟩ := append_cons_inj hfront hkey h
    exact ⟨front, by rw [← htag, List.append_assoc]⟩
  · have hquery : b ++ "?locale=".toList ++ tag = (b ++ "?locale".toList) ++ '=' :: tag := by simp
    have hnot : '=' ∉ b ++ "?locale".toList := by simpa using hmem
    rw [hquery, hvalue] at h
    obtain ⟨hkeys, -⟩ := append_cons_inj hnot hkey h
    have hmark : '?' ∈ b ++ "?locale".toList := by simp
    rw [hkeys] at hmark
    exact absurd hmark (by decide)

theorem query_toList (path tag : String) :
    (path ++ "?locale=" ++ tag).toList =
      path.toList ++ '?' :: ("locale=".toList ++ tag.toList) := by
  simp

/-- A text with a query at its end spells a request for what stands before the query, or none. -/
theorem spells_query_iff (path tag : String) (r : Request) :
    Spells (path ++ "?locale=" ++ tag) r ↔
      path ≠ "" ∧ '?' ∉ path.toList ∧ '&' ∉ tag.toList ∧
        ∃ l, Locale.parse? tag = some l ∧ r = ⟨path, some l⟩ := by
  constructor
  · obtain ⟨path', locale⟩ := r
    intro hspells
    cases locale with
    | none =>
        obtain ⟨rfl, -, hmark⟩ := spells_none_iff.mp hspells
        rw [query_toList] at hmark
        exact absurd (List.mem_append_right _ List.mem_cons_self) hmark
    | some l =>
        obtain ⟨hne, hmark', tag', htext, hamp, hl⟩ := spells_some_iff.mp hspells
        rw [← String.toList_inj, query_toList, query_toList] at htext
        by_cases hmark : '?' ∈ path.toList
        · -- The query starts before the end of the path, so the tag has a query in it.
          obtain ⟨a, b, ha, hpath⟩ := exists_eq_append_of_mem hmark
          rw [hpath, List.append_assoc, List.cons_append] at htext
          obtain ⟨-, hquery⟩ := append_cons_inj ha hmark' htext
          have hwhole : b.toList ++ "?locale=".toList ++ tag.toList =
              "locale=".toList ++ tag'.toList := by simpa using hquery
          obtain ⟨front, hfront⟩ := exists_tag_of_query hwhole
          obtain rfl : tag' = String.ofList front ++ "?locale=" ++ tag := by
            rw [← String.toList_inj, hfront]
            simp
          rw [Locale.parse?_of_query] at hl
          cases hl
        · obtain ⟨hpath, hquery⟩ := append_cons_inj hmark hmark' htext
          obtain rfl : tag = tag' := String.toList_injective (List.append_cancel_left hquery)
          obtain rfl : path = path' := String.toList_injective hpath
          exact ⟨hne, hmark, hamp, l, hl, rfl⟩
  · rintro ⟨hne, hmark, hamp, l, hl, rfl⟩
    exact .localized hne hmark (Locale.ne_empty_of_parse? hl) hamp hl

end Request

namespace Command.Job

variable (job : Job) (names : List String)

/-- The path of a file in a request, with slashes for backslashes. -/
def requestPath (names : List String) : String :=
  String.ofList ((relativePath names).toList.map fun c ↦ if c = '\\' then '/' else c)

theorem requestFor_of_none (h : job.locale = none) :
    job.requestFor names = Request.parse (requestPath names) := by
  simp only [requestFor, h, requestPath]

theorem requestFor_of_some {tag : String} (h : job.locale = some tag) :
    job.requestFor names = Request.parse (requestPath names ++ "?locale=" ++ tag) := by
  simp only [requestFor, h, requestPath]

/-- The request for a file has its path and the locale of the job if there is a path without a
question mark, and no ampersand in the tag.  If there is a locale, nothing else is accepted.  If
there is none, then a path that ends in `?locale=` and a tag gives a request for something else. -/
theorem requestFor_path_and_locale (r : Request) :
    job.requestFor names = .ok r ↔
      (requestPath names ≠ "" ∧ '?' ∉ (requestPath names).toList ∧ r.path = requestPath names ∧
        (job.locale = none ∧ r.locale = none ∨
          ∃ tag l, job.locale = some tag ∧ '&' ∉ tag.toList ∧ Locale.parse? tag = some l ∧
            r.locale = some l)) ∨
      (job.locale = none ∧ ∃ path tag l, requestPath names = path ++ "?locale=" ++ tag ∧
        path ≠ "" ∧ '?' ∉ path.toList ∧ '&' ∉ tag.toList ∧ Locale.parse? tag = some l ∧
        r = ⟨path, some l⟩) := by
  obtain ⟨path, locale⟩ := r
  cases hlocale : job.locale with
  | none =>
      rw [job.requestFor_of_none names hlocale, Request.parse_eq_ok_iff]
      cases locale with
      | none =>
          rw [Request.spells_none_iff]
          constructor
          · rintro ⟨rfl, hne, hmark⟩
            exact .inl ⟨hne, hmark, rfl, .inl ⟨rfl, rfl⟩⟩
          · rintro (⟨hne, hmark, rfl, -⟩ | ⟨-, path', tag, l, -, -, -, -, -, hr⟩)
            · exact ⟨rfl, hne, hmark⟩
            · cases hr
      | some l =>
          rw [Request.spells_some_iff]
          constructor
          · rintro ⟨hne, hmark, tag, htext, hamp, hl⟩
            exact .inr ⟨rfl, path, tag, l, htext, hne, hmark, hamp, hl, rfl⟩
          · rintro (⟨-, -, -, ⟨-, hr⟩ | ⟨tag, l', hnone, -⟩⟩ |
              ⟨-, path', tag, l', htext, hne, hmark, hamp, hl, hr⟩)
            · cases hr
            · cases hnone
            · cases hr
              exact ⟨hne, hmark, tag, htext, hamp, hl⟩
  | some tag =>
      rw [job.requestFor_of_some names hlocale, Request.parse_eq_ok_iff, Request.spells_query_iff]
      constructor
      · rintro ⟨hne, hmark, hamp, l, hl, hr⟩
        cases hr
        exact .inl ⟨hne, hmark, rfl, .inr ⟨tag, l, rfl, hamp, hl, rfl⟩⟩
      · rintro (⟨hne, hmark, rfl, ⟨hnone, -⟩ | ⟨tag', l, htag, hamp, hl, rfl⟩⟩ | ⟨hnone, -⟩)
        · cases hnone
        · cases htag
          exact ⟨hne, hmark, hamp, l, hl, rfl⟩
        · cases hnone

/-- The extension of a file passes for a variant, so that the file is taken for another one with a
locale that nobody gave.  With a locale the same file is refused, and so are a tag with an ampersand
in it and a source directory that is a file. -/
theorem requestFor_question_mark :
    let job : Job := ⟨"src", none, none, false, .default⟩
    let project := FileTree.place ∅ ["src", "app?locale=en-.ftl"] "hello = Hi\n"
    ["app?locale=en-.ftl"] ∈ sources project job.srcPath ∧
      job.requestFor ["app?locale=en-.ftl"] = .ok ⟨"app", some ⟨"en", none, none, [".ftl"]⟩⟩ ∧
      { job with locale := some "de" }.requestFor ["app?locale=en-.ftl"] =
        .error (.invalidLocale "app" "en-.ftl?locale=de") ∧
      Locale.parse? "en-1&ab" = some ⟨"en", none, none, ["1&ab"]⟩ ∧
      { job with locale := some "en-1&ab" }.requestFor ["app.ftl"] =
        .error (.invalidLocale "app.ftl" "en-1") ∧
      job.requestFor [] = .error (.emptyPath "") := by
  decide +kernel

end Command.Job

end FluentShapes
