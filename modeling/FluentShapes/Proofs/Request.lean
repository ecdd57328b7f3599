import FluentShapes.Proofs.Locale
import FluentShapes.Request

/-!
# The texts of requests

A request is a path, or a path, a question mark and `locale=` with a tag (`Spells`).  All else is
refused for the first thing that is wrong with it (`Refused`).  The reader goes through the pairs of
a query with the locale that it has found so far.  A pair can only be taken in if there is none yet,
and then it gives one.  So the locale found so far tells whether an earlier pair gave one (`Tracks`),
and no query with two pairs is accepted.

Nothing is escaped when a request is printed.  It is read back as the same request unless the path
or a variant of the locale has a character that the reader cuts at, or the tag itself is read
differently (`parse_display_some`).
-/

namespace FluentShapes

namespace Request

/-! ## Splitting at a character -/

theorem splitAt?_of_notMem {c : Char} {s : List Char} (h : c ∉ s) : splitAt? c s = none := by
  have hdrop : s.dropWhile (· ≠ c) = [] := by
    rw [List.dropWhile_eq_nil_iff]
    intro x hx
    rw [decide_eq_true_eq]
    rintro rfl
    exact h hx
  rw [splitAt?, hdrop]

theorem splitAt?_append_cons {c : Char} {a : List Char} (h : c ∉ a) (b : List Char) :
    splitAt? c (a ++ c :: b) = some (a, b) := by
  have hne : ∀ x ∈ a, decide (x ≠ c) = true := by
    intro x hx
    rw [decide_eq_true_eq]
    rintro rfl
    exact h hx
  have hdrop : (a ++ c :: b).dropWhile (· ≠ c) = c :: b := by
    rw [List.dropWhile_append_of_pos hne, List.dropWhile_cons_of_neg (by simp)]
  have htake : (a ++ c :: b).takeWhile (· ≠ c) = a := by
    rw [List.takeWhile_append_of_pos hne, List.takeWhile_cons_of_neg (by simp), List.append_nil]
  rw [splitAt?, hdrop, htake]

theorem exists_eq_append_of_mem {c : Char} {t : String} (h : c ∈ t.toList) :
    ∃ a b : String, c ∉ a.toList ∧ t.toList = a.toList ++ c :: b.toList := by
  obtain ⟨a, b, ht, ha⟩ := List.eq_append_cons_of_mem h
  exact ⟨String.ofList a, String.ofList b, by simpa using ha, by simpa using ht⟩

/-! ## Pairs of a query -/

/-- The pair is `locale=` and a tag. -/
def GivesLocale (pair : String) : Prop :=
  ∃ tag l, pair = "locale=" ++ tag ∧ Locale.parse? tag = some l

/-- What is wrong with a pair that stands behind others. -/
inductive PairFault (request path : String) (earlier : List String) :
    String → RequestError → Prop
  | noValue {pair : String} : '=' ∉ pair.toList →
      PairFault request path earlier pair (.malformedQuery request (.noValue pair))
  | unknown {key value : String} : '=' ∉ key.toList → key ≠ "locale" →
      PairFault request path earlier (key ++ "=" ++ value) (.unknownParameter request key)
  | repeated {value : String} : (∃ p ∈ earlier, GivesLocale p) →
      PairFault request path earlier ("locale=" ++ value)
        (.malformedQuery request .repeatedLocale)
  | missing : (∀ p ∈ earlier, ¬ GivesLocale p) →
      PairFault request path earlier "locale=" (.missingLocale path)
  | invalid {tag : String} : (∀ p ∈ earlier, ¬ GivesLocale p) → tag ≠ "" →
      Locale.parse? tag = none →
      PairFault request path earlier ("locale=" ++ tag) (.invalidLocale path tag)

/-- The first pair, from left to right, that something is wrong with behind the pairs before it. -/
inductive FirstFault (request path : String) : List String → List String → RequestError → Prop
  | here {earlier pairs : List String} {pair : String} {e : RequestError} :
      PairFault request path earlier pair e → FirstFault request path earlier (pair :: pairs) e
  | later {earlier pairs : List String} {pair : String} {e : RequestError} :
      (∀ e', ¬ PairFault request path earlier pair e') →
      FirstFault request path (earlier ++ [pair]) pairs e →
      FirstFault request path earlier (pair :: pairs) e

section Pairs

variable (request path : String) {found : Option Locale}

theorem addPair_of_notMem {pair : String} (h : '=' ∉ pair.toList) (found : Option Locale) :
    addPair request path found pair.toList =
      .error (.malformedQuery request (.noValue pair)) := by
  rw [addPair, splitAt?_of_notMem h, String.ofList_toList]

theorem addPair_of_key {key : String} (h : '=' ∉ key.toList) (hkey : key ≠ "locale")
    (value : String) (found : Option Locale) :
    addPair request path found (key ++ "=" ++ value).toList =
      .error (.unknownParameter request key) := by
  have hpair : (key ++ "=" ++ value).toList = key.toList ++ '=' :: value.toList := by simp
  simp [addPair, hpair, splitAt?_append_cons h, hkey]

theorem addPair_locale (value : String) (found : Option Locale) :
    addPair request path found ("locale=" ++ value).toList =
      if found.isSome then .error (.malformedQuery request .repeatedLocale)
      else if value = "" then .error (.missingLocale path)
      else (Locale.parse? value).elim (.error (.invalidLocale path value)) fun l ↦
        .ok (some l) := by
  have hpair : ("locale=" ++ value).toList = "locale".toList ++ '=' :: value.toList := by simp
  rw [addPair, hpair, splitAt?_append_cons (by decide)]
  cases hvalue : Locale.parse? value <;> simp [hvalue]

/-- There is a locale so far exactly if one of the pairs so far gave it. -/
def Tracks (found : Option Locale) (earlier : List String) : Prop :=
  found.isSome = true ↔ ∃ p ∈ earlier, GivesLocale p

variable {request path} {earlier : List String}

theorem Tracks.eq_none (h : Tracks found earlier) (hearlier : ∀ p ∈ earlier, ¬ GivesLocale p) :
    found = none := by
  rw [← Option.not_isSome_iff_eq_none]
  intro hsome
  obtain ⟨p, hp, hgives⟩ := h.mp hsome
  exact hearlier p hp hgives

theorem addPair_of_fault (h : Tracks found earlier) {pair : String} {e : RequestError}
    (hfault : PairFault request path earlier pair e) :
    addPair request path found pair.toList = .error e := by
  cases hfault with
  | noValue hpair => exact addPair_of_notMem request path hpair found
  | unknown hkey hne => exact addPair_of_key request path hkey hne _ found
  | repeated hearlier => rw [addPair_locale, if_pos (h.mpr hearlier)]
  | missing hearlier =>
      rw [h.eq_none hearlier]
      exact addPair_locale request path "" none
  | invalid hearlier hne hparse =>
      rw [h.eq_none hearlier, addPair_locale, if_neg (by simp), if_neg hne, hparse]
      rfl

/-- A pair that nothing is wrong with gives the first locale. -/
theorem fault_or_locale (request path : String) (h : Tracks found earlier) (pair : String) :
    (∃ e, PairFault request path earlier pair e) ∨
      ∃ tag l, pair = "locale=" ++ tag ∧ Locale.parse? tag = some l ∧ found = none := by
  by_cases hpair : '=' ∈ pair.toList
  · obtain ⟨key, value, hkey, heq⟩ := exists_eq_append_of_mem hpair
    by_cases hlocale : key = "locale"
    · obtain rfl : pair = "locale=" ++ value := by
        rw [← String.toList_inj, heq, hlocale]
        simp
      by_cases hearlier : ∃ p ∈ earlier, GivesLocale p
      · exact .inl ⟨_, .repeated hearlier⟩
      · have hgives : ∀ p ∈ earlier, ¬ GivesLocale p := fun p hp hp' ↦ hearlier ⟨p, hp, hp'⟩
        by_cases hvalue : value = ""
        · subst hvalue
          exact .inl ⟨_, .missing hgives⟩
        · cases hparse : Locale.parse? value with
          | none => exact .inl ⟨_, .invalid hgives hvalue hparse⟩
          | some l => exact .inr ⟨value, l, rfl, hparse, h.eq_none hgives⟩
    · obtain rfl : pair = key ++ "=" ++ value := by
        rw [← String.toList_inj, heq]
        simp
      exact .inl ⟨_, .unknown hkey hlocale⟩
  · exact .inl ⟨_, .noValue hpair⟩

theorem addPair_of_locale {tag : String} {l : Locale} (h : Locale.parse? tag = some l) :
    addPair request path none ("locale=" ++ tag).toList = .ok (some l) := by
  rw [addPair_locale, if_neg (by simp), if_neg (Locale.ne_empty_of_parse? h), h]
  rfl

theorem tracks_nil : Tracks none [] := by simp [Tracks]

theorem tracks_concat {tag : String} {l : Locale} (h : Locale.parse? tag = some l)
    (earlier : List String) : Tracks (some l) (earlier ++ ["locale=" ++ tag]) :=
  iff_of_true rfl ⟨"locale=" ++ tag, List.mem_append_right _ List.mem_cons_self, tag, l, rfl, h⟩

theorem foldlM_addPair_of_fault (h : Tracks found earlier) {pair : String} {e : RequestError}
    (hfault : PairFault request path earlier pair e) (pairs : List String) :
    ((pair :: pairs).map String.toList).foldlM (addPair request path) found = .error e := by
  rw [List.map_cons, List.foldlM_cons, addPair_of_fault h hfault]
  rfl

theorem foldlM_addPair_of_locale {tag : String} {l : Locale} (h : Locale.parse? tag = some l)
    (pairs : List String) :
    ((("locale=" ++ tag) :: pairs).map String.toList).foldlM (addPair request path) none =
      (pairs.map String.toList).foldlM (addPair request path) (some l) := by
  rw [List.map_cons, List.foldlM_cons, addPair_of_locale h]
  rfl

/-- The pairs of a query are taken in up to the first fault. -/
theorem foldlM_addPair_eq_error_iff (h : Tracks found earlier) (pairs : List String)
    (e : RequestError) :
    (pairs.map String.toList).foldlM (addPair request path) found = .error e ↔
      FirstFault request path earlier pairs e := by
  -- A pair that is taken in joins the earlier ones, and the locale it gives keeps track of that.
  induction pairs generalizing found earlier with
  | nil => exact iff_of_false nofun nofun
  | cons pair pairs ih =>
      rcases fault_or_locale request path h pair with ⟨e', hfault⟩ | ⟨tag, l, rfl, hl, rfl⟩
      · rw [foldlM_addPair_of_fault h hfault]
        constructor
        · intro heq
          cases heq
          exact .here hfault
        · rintro (hfault' | ⟨hnone, -⟩)
          · rw [← addPair_of_fault h hfault, addPair_of_fault h hfault']
          · exact absurd hfault (hnone e')
      · have hnone : ∀ e', ¬ PairFault request path earlier ("locale=" ++ tag) e' := by
          intro e' hfault
          have herror := addPair_of_fault h hfault
          rw [addPair_of_locale hl] at herror
          cases herror
        rw [foldlM_addPair_of_locale hl, ih (tracks_concat hl earlier)]
        constructor
        · exact .later hnone
        · rintro (hfault | ⟨-, hlater⟩)
          · exact absurd hfault (hnone e)
          · exact hlater

/-- Behind a locale there is no room for another pair. -/
theorem foldlM_addPair_eq_ok_iff (pairs : List String) (found : Option Locale) :
    (pairs.map String.toList).foldlM (addPair request path) none = .ok found ↔
      pairs = [] ∧ found = none ∨
        ∃ tag l, pairs = ["locale=" ++ tag] ∧ Locale.parse? tag = some l ∧ found = some l := by
  constructor
  · intro hok
    cases pairs with
    | nil =>
        cases hok
        exact .inl ⟨rfl, rfl⟩
    | cons pair pairs =>
        rcases fault_or_locale request path tracks_nil pair with
          ⟨e, hfault⟩ | ⟨tag, l, rfl, hl, -⟩
        · rw [foldlM_addPair_of_fault tracks_nil hfault] at hok
          cases hok
        · rw [foldlM_addPair_of_locale hl] at hok
          cases pairs with
          | nil =>
              cases hok
              exact .inr ⟨tag, l, rfl, hl, rfl⟩
          | cons pair pairs =>
              -- The next pair has a fault whatever it is, since a locale has been found.
              have htracks := tracks_concat hl []
              rcases fault_or_locale request path htracks pair with
                ⟨e, hfault⟩ | ⟨-, -, -, -, hnone⟩
              · rw [foldlM_addPair_of_fault htracks hfault] at hok
                cases hok
              · cases hnone
  · rintro (⟨rfl, rfl⟩ | ⟨tag, l, rfl, hl, rfl⟩)
    · rfl
    · exact foldlM_addPair_of_locale hl []

/-! ## Queries -/

/-- Every query is made of pairs. -/
theorem exists_pairs (query : String) :
    ∃ pairs, pairs ≠ [] ∧ (∀ p ∈ pairs, '&' ∉ p.toList) ∧ query = "&".intercalate pairs := by
  refine ⟨(query.toList.splitOn '&').map String.ofList, ?_, ?_, ?_⟩
  · simp
  · simp only [List.mem_map]
    rintro _ ⟨p, hp, rfl⟩ hmem
    rw [List.splitOn_eq_splitOnP] at hp
    rw [String.toList_ofList] at hmem
    simpa using (mem_of_mem_splitOnP hp hmem).2
  · rw [← String.toList_inj, String.toList_intercalate, List.map_map]
    simp [Function.comp_def]

theorem parseQuery_intercalate {pairs : List String} (hne : pairs ≠ [])
    (hpairs : ∀ p ∈ pairs, '&' ∉ p.toList) :
    parseQuery request path ("&".intercalate pairs).toList =
      if pairs = [""] then .error (.malformedQuery request .empty)
      else (pairs.map String.toList).foldlM (addPair request path) none := by
  have hempty : ("&".intercalate pairs).toList.isEmpty = true ↔ pairs = [""] := by
    rw [List.isEmpty_iff, String.toList_eq_nil_iff]
    match pairs with
    | [p] => simp
    | p :: q :: ps => simp [String.intercalate_cons_cons]
  have hsplit : ("&".intercalate pairs).toList.splitOn '&' = pairs.map String.toList := by
    rw [String.toList_intercalate]
    exact List.splitOn_intercalate '&' (by simpa using hpairs) (by simpa using hne)
  simp only [parseQuery, hempty, hsplit]

end Pairs

/-! ## Texts of requests -/

/-- The text of a request. -/
inductive Spells : String → Request → Prop
  | plain {path : String} : path ≠ "" → '?' ∉ path.toList → Spells path ⟨path, none⟩
  | localized {path tag : String} {l : Locale} : path ≠ "" → '?' ∉ path.toList → tag ≠ "" →
      '&' ∉ tag.toList → Locale.parse? tag = some l →
      Spells (path ++ "?locale=" ++ tag) ⟨path, some l⟩

/-- What is wrong with a text that is no request. -/
inductive Refused : String → RequestError → Prop
  | empty : Refused "" (.emptyPath "")
  | noPath {query : String} : Refused ("?" ++ query) (.emptyPath ("?" ++ query))
  | emptyQuery {path : String} : path ≠ "" → '?' ∉ path.toList →
      Refused (path ++ "?") (.malformedQuery (path ++ "?") .empty)
  | pairs {path : String} {pairs : List String} {e : RequestError} : path ≠ "" →
      '?' ∉ path.toList → (∀ p ∈ pairs, '&' ∉ p.toList) → pairs ≠ [""] →
      FirstFault (path ++ "?" ++ "&".intercalate pairs) path [] pairs e →
      Refused (path ++ "?" ++ "&".intercalate pairs) e

theorem parse_of_notMem {t : String} (h : '?' ∉ t.toList) :
    parse t = if t = "" then .error (.emptyPath t) else .ok ⟨t, none⟩ := by
  rw [parse, splitAt?_of_notMem h]
  simp

theorem parse_append {path : String} (h : '?' ∉ path.toList) (query : String) :
    parse (path ++ "?" ++ query) =
      if path = "" then .error (.emptyPath (path ++ "?" ++ query))
      else (parseQuery (path ++ "?" ++ query) path query.toList).map (Request.mk path) := by
  have htext : (path ++ "?" ++ query).toList = path.toList ++ '?' :: query.toList := by simp
  rw [parse, htext, splitAt?_append_cons h]
  simp

theorem parse_noPath (query : String) :
    parse ("?" ++ query) = .error (.emptyPath ("?" ++ query)) := by
  have hempty : '?' ∉ "".toList := by simp
  simpa using parse_append hempty query

section Path

variable {path : String} (hpath : path ≠ "") (hmark : '?' ∉ path.toList)

include hpath hmark

theorem parse_emptyQuery :
    parse (path ++ "?") = .error (.malformedQuery (path ++ "?") .empty) := by
  have happend := parse_append hmark ""
  rw [String.append_empty, if_neg hpath] at happend
  exact happend

section Pairs

variable {pairs : List String} (hpairs : ∀ p ∈ pairs, '&' ∉ p.toList) (hne : pairs ≠ [])
  (hempty : pairs ≠ [""])

include hpairs hne hempty

theorem parse_pairs :
    parse (path ++ "?" ++ "&".intercalate pairs) =
      ((pairs.map String.toList).foldlM
        (addPair (path ++ "?" ++ "&".intercalate pairs) path) none).map (Request.mk path) := by
  rw [parse_append hmark, if_neg hpath, parseQuery_intercalate hne hpairs, if_neg hempty]

theorem parse_pairs_eq_ok_iff (r : Request) :
    parse (path ++ "?" ++ "&".intercalate pairs) = .ok r ↔
      ∃ tag l, pairs = ["locale=" ++ tag] ∧ Locale.parse? tag = some l ∧ r = ⟨path, some l⟩ := by
  rw [parse_pairs hpath hmark hpairs hne hempty]
  constructor
  · intro hok
    cases hrun : (pairs.map String.toList).foldlM
      (addPair (path ++ "?" ++ "&".intercalate pairs) path) none with
    | error e =>
        rw [hrun] at hok
        cases hok
    | ok found =>
        rw [hrun] at hok
        cases hok
        rcases (foldlM_addPair_eq_ok_iff pairs found).mp hrun with
          ⟨rfl, -⟩ | ⟨tag, l, rfl, hl, rfl⟩
        · exact absurd rfl hne
        · exact ⟨tag, l, rfl, hl, rfl⟩
  · rintro ⟨tag, l, htag, hl, rfl⟩
    rw [(foldlM_addPair_eq_ok_iff pairs (some l)).mpr (.inr ⟨tag, l, htag, hl, rfl⟩)]
    rfl

theorem parse_pairs_eq_error_iff (e : RequestError) :
    parse (path ++ "?" ++ "&".intercalate pairs) = .error e ↔
      FirstFault (path ++ "?" ++ "&".intercalate pairs) path [] pairs e := by
  rw [parse_pairs hpath hmark hpairs hne hempty, ← foldlM_addPair_eq_error_iff tracks_nil]
  cases (pairs.map String.toList).foldlM
    (addPair (path ++ "?" ++ "&".intercalate pairs) path) none with
  | error e' => simp [Except.map]
  | ok found => exact iff_of_false nofun nofun

end Pairs

end Path

/-- A text has no path, no query, an empty query or one with pairs. -/
theorem text_cases (t : String) :
    t = "" ∨ (∃ query, t = "?" ++ query) ∨ (t ≠ "" ∧ '?' ∉ t.toList) ∨
      ∃ path, path ≠ "" ∧ '?' ∉ path.toList ∧ (t = path ++ "?" ∨
        ∃ pairs, (∀ p ∈ pairs, '&' ∉ p.toList) ∧ pairs ≠ [] ∧ pairs ≠ [""] ∧
          t = path ++ "?" ++ "&".intercalate pairs) := by
  by_cases hmark : '?' ∈ t.toList
  · obtain ⟨path, query, hpath, heq⟩ := exists_eq_append_of_mem hmark
    obtain rfl : t = path ++ "?" ++ query := by
      rw [← String.toList_inj, heq]
      simp
    by_cases hempty : path = ""
    · subst hempty
      exact .inr (.inl ⟨query, by rw [String.empty_append]⟩)
    · refine .inr (.inr (.inr ⟨path, hempty, hpath, ?_⟩))
      by_cases hquery : query = ""
      · exact .inl (by rw [hquery, String.append_empty])
      · obtain ⟨pairs, hne, hpairs, rfl⟩ := exists_pairs query
        refine .inr ⟨pairs, hpairs, hne, ?_, rfl⟩
        rintro rfl
        exact hquery String.intercalate_singleton
  · by_cases hempty : t = ""
    · exact .inl hempty
    · exact .inr (.inr (.inl ⟨hempty, hmark⟩))

theorem localized_eq (path tag : String) :
    path ++ "?locale=" ++ tag = path ++ "?" ++ "&".intercalate ["locale=" ++ tag] := by
  rw [← String.toList_inj]
  simp

theorem ampersand_notMem_iff (tag : String) :
    (∀ p ∈ ["locale=" ++ tag], '&' ∉ p.toList) ↔ '&' ∉ tag.toList := by
  simp

theorem parse_eq_ok_iff (t : String) (r : Request) : parse t = .ok r ↔ Spells t r := by
  constructor
  · intro hok
    rcases text_cases t with rfl | ⟨query, rfl⟩ | ⟨hne, hmark⟩ |
      ⟨path, hpath, hmark, rfl | ⟨pairs, hpairs, hne, hempty, rfl⟩⟩
    · cases hok
    · rw [parse_noPath] at hok
      cases hok
    · rw [parse_of_notMem hmark, if_neg hne] at hok
      cases hok
      exact .plain hne hmark
    · rw [parse_emptyQuery hpath hmark] at hok
      cases hok
    · obtain ⟨tag, l, rfl, hl, rfl⟩ :=
        (parse_pairs_eq_ok_iff hpath hmark hpairs hne hempty r).mp hok
      rw [← localized_eq]
      exact .localized hpath hmark (Locale.ne_empty_of_parse? hl)
        ((ampersand_notMem_iff tag).mp hpairs) hl
  · intro hspells
    cases hspells with
    | plain hpath hmark => rw [parse_of_notMem hmark, if_neg hpath]
    | @localized path tag l hpath hmark _ hamp hl =>
        rw [localized_eq, parse_pairs_eq_ok_iff hpath hmark ((ampersand_notMem_iff tag).mpr hamp)
          (by simp) (by simp)]
        exact ⟨tag, l, rfl, hl, rfl⟩

/-- A text is read as the request that it spells, and refused for what is wrong with it first. -/
theorem parse_spells_or_refuses (t : String) :
    (∀ r, parse t = .ok r ↔ Spells t r) ∧ ∀ e, parse t = .error e ↔ Refused t e := by
  refine ⟨parse_eq_ok_iff t, fun e ↦ ⟨fun herror ↦ ?_, ?_⟩⟩
  · rcases text_cases t with rfl | ⟨query, rfl⟩ | ⟨hne, hmark⟩ |
      ⟨path, hpath, hmark, rfl | ⟨pairs, hpairs, hne, hempty, rfl⟩⟩
    · cases herror
      exact .empty
    · rw [parse_noPath] at herror
      cases herror
      exact .noPath
    · rw [parse_of_notMem hmark, if_neg hne] at herror
      cases herror
    · rw [parse_emptyQuery hpath hmark] at herror
      cases herror
      exact .emptyQuery hpath hmark
    · rw [parse_pairs_eq_error_iff hpath hmark hpairs hne hempty] at herror
      exact .pairs hpath hmark hpairs hempty herror
  · intro hrefused
    cases hrefused with
    | empty => rfl
    | noPath => exact parse_noPath _
    | emptyQuery hpath hmark => exact parse_emptyQuery hpath hmark
    | pairs hpath hmark hpairs hempty hfirst =>
        refine (parse_pairs_eq_error_iff hpath hmark hpairs ?_ hempty e).mpr hfirst
        rintro rfl
        cases hfirst

/-- A variant can have an ampersand, where the query is cut. -/
theorem parse_ampersand_variant :
    "app.ftl" ≠ "" ∧ '?' ∉ "app.ftl".toList ∧ "en-1&ab" ≠ "" ∧
      Locale.parse? "en-1&ab" = some ⟨"en", none, none, ["1&ab"]⟩ ∧
      parse ("app.ftl" ++ "?locale=" ++ "en-1&ab") = .error (.invalidLocale "app.ftl" "en-1") := by
  decide +kernel

/-! ## Printing and reading -/

variable {path t : String} {l : Locale}

theorem spells_none_iff : Spells t ⟨path, none⟩ ↔ t = path ∧ path ≠ "" ∧ '?' ∉ path.toList := by
  constructor
  · rintro ⟨hpath, hmark⟩
    exact ⟨rfl, hpath, hmark⟩
  · rintro ⟨rfl, hpath, hmark⟩
    exact .plain hpath hmark

theorem spells_some_iff :
    Spells t ⟨path, some l⟩ ↔
      path ≠ "" ∧ '?' ∉ path.toList ∧ ∃ tag, t = path ++ "?locale=" ++ tag ∧ '&' ∉ tag.toList ∧
        Locale.parse? tag = some l := by
  constructor
  · intro hspells
    cases hspells with
    | localized hpath hmark _ hamp hl => exact ⟨hpath, hmark, _, rfl, hamp, hl⟩
  · rintro ⟨hpath, hmark, tag, rfl, hamp, hl⟩
    exact .localized hpath hmark (Locale.ne_empty_of_parse? hl) hamp hl

theorem parse_display_none :
    parse (display ⟨path, none⟩) = .ok ⟨path, none⟩ ↔ path ≠ "" ∧ '?' ∉ path.toList := by
  rw [parse_eq_ok_iff, spells_none_iff]
  exact and_iff_right rfl

theorem parse_display_some (h : l.Normal) :
    parse (display ⟨path, some l⟩) = .ok ⟨path, some l⟩ ↔
      path ≠ "" ∧ '?' ∉ path.toList ∧ '&' ∉ l.tag.toList ∧ ¬ l.VariantLikeScript := by
  have htag : (∃ tag, path ++ "?locale=" ++ l.tag = path ++ "?locale=" ++ tag ∧
      '&' ∉ tag.toList ∧ Locale.parse? tag = some l) ↔
      '&' ∉ l.tag.toList ∧ Locale.parse? l.tag = some l := by
    simp only [String.append_right_inj, exists_eq_left']
  rw [parse_eq_ok_iff, spells_some_iff, ← h.parse?_tag_iff]
  exact and_congr_right fun _ ↦ and_congr_right fun _ ↦ htag

/-- A request is printed as a text that is read as the same request exactly if there is a path
without a question mark, no ampersand in the tag and no variant that passes for a script.  Of a
request that has been read only the last can be otherwise. -/
theorem display_round_trip (path : String) (locale : Option Locale)
    (hlocale : ∀ l ∈ locale, ∃ tag, Locale.parse? tag = some l) :
    (parse (display ⟨path, locale⟩) = .ok ⟨path, locale⟩ ↔
      path ≠ "" ∧ '?' ∉ path.toList ∧
        ∀ l ∈ locale, '&' ∉ l.tag.toList ∧ ¬ l.VariantLikeScript) ∧
    ∀ t r, parse t = .ok r →
      (parse r.display = .ok r ↔ ∀ l ∈ r.locale, ¬ l.VariantLikeScript) := by
  constructor
  · cases locale with
    | none => simp [parse_display_none]
    | some l =>
        obtain ⟨tag, hl⟩ := hlocale l rfl
        simp [parse_display_some (Locale.normal_of_parse? hl)]
  · intro t r hr
    cases (parse_eq_ok_iff t r).mp hr with
    | plain hpath hmark => simp [parse_display_none, hpath, hmark]
    | @localized path tag l hpath hmark _ hamp hl =>
        have hnormal := Locale.normal_of_parse? hl
        have htag : '&' ∉ l.tag.toList := by
          apply hnormal.notMem_tag rfl (by decide)
          intro v hv hmem
          exact hamp (Locale.mem_of_mem_variant hl hv rfl hmem).1
        simp [parse_display_some hnormal, hpath, hmark, htag]

/-- A variant of four letters behind a region. -/
theorem display_round_trip_region :
    ∃ l, Locale.parse? "EN_us-ABCD" = some l ∧
      parse (display ⟨"./app.ftl", some l⟩) = .ok ⟨"./app.ftl", some l⟩ := by
  have hl : Locale.parse? "EN_us-ABCD" = some ⟨"en", none, some "US", ["abcd"]⟩ := by
    decide +kernel
  refine ⟨_, hl, (display_round_trip "./app.ftl" (some _) ?_).1.mpr ⟨by decide, by decide, ?_⟩⟩
  · rintro l ⟨⟩
    exact ⟨_, hl⟩
  · rintro l ⟨⟩
    exact ⟨by decide +kernel, fun hlike ↦ by simp [Locale.VariantLikeScript] at hlike⟩

/-- An ampersand in a variant cuts the query, and variants that change places can bring one of four
letters to the front, where it is read as a script. -/
theorem display_misread :
    "app.ftl" ≠ "" ∧ '?' ∉ "app.ftl".toList ∧
      (∃ l, Locale.parse? "en-1&ab" = some l ∧
        parse (display ⟨"app.ftl", some l⟩) = .error (.invalidLocale "app.ftl" "en-1")) ∧
      ∃ r r', parse "app.ftl?locale=en-wxyza-abcd" = .ok r ∧ parse r.display = .ok r' ∧ r' ≠ r := by
  refine ⟨by decide, by decide, ⟨⟨"en", none, none, ["1&ab"]⟩, ?_⟩,
    ⟨"app.ftl", some ⟨"en", none, none, ["abcd", "wxyza"]⟩⟩,
    ⟨"app.ftl", some ⟨"en", some "Abcd", none, ["wxyza"]⟩⟩, ?_⟩ <;> decide +kernel

end Request

end FluentShapes
