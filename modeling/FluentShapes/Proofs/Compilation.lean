import FluentShapes.Compilation
import FluentShapes.Proofs.Lines

/-!
# Which error a compilation ends with

A compilation can fail at the request, at the syntax and at the index, and it fails at the first of
them that is wrong.  The locale is asked for twice, but once the source has been read the answer is
known (`ofResource_eq`).  A strict and a lenient compilation take the same way from the syntax on,
since a source without errors is read to the same entries by both (`ofSource?_eq`).
-/

namespace FluentShapes

/-- The request has no locale although the options ask for one. -/
def Request.LacksLocale (request : Request) (options : CompileOptions) : Prop :=
  options.requireLocale = true ∧ request.locale = none

namespace Compilation

variable {source : String} {request : Request} {options : CompileOptions} {p : Parsed}

theorem ofSource?_of_lacksLocale (source : String) (h : request.LacksLocale options) :
    ofSource? source request options = some (.error (.request (.missingLocale request.path))) := by
  simp [ofSource?, h.1, h.2]

theorem declarations_of_not_lacksLocale (h : ¬ request.LacksLocale options) (i : Index) :
    i.declarations request options = .ok (Declaration.moduleText i request options) := by
  rw [Index.declarations_eq_ok_iff]
  exact ⟨fun hrequire hnone ↦ h ⟨hrequire, hnone⟩, rfl⟩

/-- A resource can only fail at its index. -/
theorem ofResource_eq (h : ¬ request.LacksLocale options) (p : Parsed) :
    ofResource request options p =
      match Index.ofResource options.inference p.body with
      | .error c => .error (.inference c)
      | .ok i => .ok ⟨Declaration.moduleText i request options, i, p.errors⟩ := by
  unfold ofResource
  cases Index.ofResource options.inference p.body with
  | error c => rfl
  | ok i =>
      simp only [Except.mapError, bind, Except.bind, declarations_of_not_lacksLocale h i]
      rfl

/-- What a compilation makes of what has been read, if the request is in order. -/
def ofParsed (request : Request) (options : CompileOptions) (p : Parsed) :
    Except CompileError Compilation :=
  if options.strictSyntax = true ∧ p.errors ≠ [] then .error (.parse request.path p.errors)
  else ofResource request options p

theorem ofSource?_eq (h : ¬ request.LacksLocale options) (source : String) :
    ofSource? source request options =
      (Resource.parseLenient? source).map (ofParsed request options) := by
  have hlocale : (options.requireLocale && request.locale.isNone) = false := by
    rw [Bool.eq_false_iff]
    simpa [Request.LacksLocale] using h
  unfold ofSource? ofParsed
  rw [hlocale, Resource.parse?_eq]
  rcases Resource.parseLenient? source with _ | ⟨body, errors⟩
  · simp
  · cases hstrict : options.strictSyntax <;> cases errors <;> simp

theorem ofParsed_ne_request (h : ¬ request.LacksLocale options) (p : Parsed) (e : RequestError) :
    ofParsed request options p ≠ .error (.request e) := by
  rw [ofParsed, ofResource_eq h]
  split
  · simp
  · split <;> simp

theorem ofParsed_eq_parse_iff (h : ¬ request.LacksLocale options) (p : Parsed) (path : String)
    (errors : List SyntaxError) :
    ofParsed request options p = .error (.parse path errors) ↔
      options.strictSyntax = true ∧ p.errors ≠ [] ∧ path = request.path ∧ errors = p.errors := by
  rw [ofParsed, ofResource_eq h]
  split
  · rename_i hstrict
    simp [hstrict.1, hstrict.2, eq_comm]
  · split <;> simp_all

theorem ofParsed_eq_inference_iff (h : ¬ request.LacksLocale options) (p : Parsed)
    (c : Collision) :
    ofParsed request options p = .error (.inference c) ↔
      ¬ (options.strictSyntax = true ∧ p.errors ≠ []) ∧
        Index.ofResource options.inference p.body = .error c := by
  rw [ofParsed, ofResource_eq h]
  split
  · simp_all
  · split <;> simp_all

theorem ofParsed_eq_ok (h : ¬ request.LacksLocale options) {p : Parsed}
    (hstrict : ¬ (options.strictSyntax = true ∧ p.errors ≠ [])) {i : Index}
    (hi : Index.ofResource options.inference p.body = .ok i) :
    ofParsed request options p =
      .ok ⟨Declaration.moduleText i request options, i, p.errors⟩ := by
  rw [ofParsed, if_neg hstrict, ofResource_eq h, hi]

/-- A source is only read if the request is in order. -/
theorem ofSource?_eq_request_iff (source : String) (request : Request) (options : CompileOptions)
    (e : RequestError) :
    ofSource? source request options = some (.error (.request e)) ↔
      request.LacksLocale options ∧ e = .missingLocale request.path := by
  by_cases h : request.LacksLocale options
  · simp [ofSource?_of_lacksLocale source h, h, eq_comm]
  · refine iff_of_false (fun hsome ↦ ?_) fun hlacks ↦ h hlacks.1
    rw [ofSource?_eq h, Option.map_eq_some_iff] at hsome
    obtain ⟨p, -, hp⟩ := hsome
    exact ofParsed_ne_request h p e hp

theorem syntaxErrors_of_ofParsed (h : ¬ request.LacksLocale options) {p : Parsed}
    {c : Compilation} (hc : ofParsed request options p = .ok c) : c.syntaxErrors = p.errors := by
  rw [ofParsed, ofResource_eq h] at hc
  split at hc
  · cases hc
  · split at hc
    · cases hc
    · cases hc
      rfl

/-- Where a strict compilation succeeds, syntax makes no difference. -/
theorem ofParsed_lenient_of_strict {p : Parsed} {c : Compilation}
    (h : ofParsed request { options with strictSyntax := true } p = .ok c) :
    ofParsed request { options with strictSyntax := false } p = .ok c ∧ p.errors = [] := by
  unfold ofParsed at h ⊢
  split at h
  · cases h
  · rename_i hstrict
    rw [if_neg (by simp)]
    exact ⟨h, by simpa using hstrict⟩

theorem ofSource?_lenient_of_strict {c : Compilation}
    (h : ofSource? source request { options with strictSyntax := true } = some (.ok c)) :
    ofSource? source request { options with strictSyntax := false } = some (.ok c) ∧
      c.syntaxErrors = [] := by
  have hstrict : ¬ request.LacksLocale { options with strictSyntax := true } := by
    intro hlacks
    rw [ofSource?_of_lacksLocale source hlacks] at h
    cases h
  have hlenient : ¬ request.LacksLocale { options with strictSyntax := false } := hstrict
  rw [ofSource?_eq hstrict, Option.map_eq_some_iff] at h
  obtain ⟨p, hp, hc⟩ := h
  obtain ⟨hok, herrors⟩ := ofParsed_lenient_of_strict hc
  constructor
  · rw [ofSource?_eq hlenient, hp, Option.map_some, hok]
  · rw [syntaxErrors_of_ofParsed hstrict hc, herrors]

/-- The first of a missing locale, a syntax error in a strict compilation and an id that is declared
again is what a compilation fails with, and if there is none of them it succeeds.  The errors of a
lenient compilation are those of reading its source, and where a strict one succeeds the lenient one
does too, with the same result. -/
theorem ofSource?_first_failure (source : String) (request : Request) (options : CompileOptions) :
    (∀ e, ofSource? source request options = some (.error (.request e)) ↔
      (options.requireLocale = true ∧ request.locale = none) ∧ e = .missingLocale request.path) ∧
    (∀ p, Resource.parseLenient? source = some p →
      ∃ result, ofSource? source request options = some result ∧
        (∀ path errors, result = .error (.parse path errors) ↔
          ¬ (options.requireLocale = true ∧ request.locale = none) ∧
            options.strictSyntax = true ∧ p.errors ≠ [] ∧ path = request.path ∧
            errors = p.errors) ∧
        (∀ c, result = .error (.inference c) ↔
          ¬ (options.requireLocale = true ∧ request.locale = none) ∧
            ¬ (options.strictSyntax = true ∧ p.errors ≠ []) ∧
            Index.ofResource options.inference p.body = .error c) ∧
        ∀ i, ¬ (options.requireLocale = true ∧ request.locale = none) →
          ¬ (options.strictSyntax = true ∧ p.errors ≠ []) →
          Index.ofResource options.inference p.body = .ok i →
          ∃ text, i.declarations request options = .ok text ∧ result = .ok ⟨text, i, p.errors⟩) ∧
    ∀ c, ofSource? source request { options with strictSyntax := true } = some (.ok c) →
      ofSource? source request { options with strictSyntax := false } = some (.ok c) ∧
        c.syntaxErrors = [] := by
  refine ⟨ofSource?_eq_request_iff source request options, fun p hp ↦ ?_,
    fun c ↦ ofSource?_lenient_of_strict⟩
  by_cases hlocale : request.LacksLocale options
  · refine ⟨_, ofSource?_of_lacksLocale source hlocale, ?_, ?_, fun i h ↦ absurd hlocale h⟩
    · intro path errors
      exact iff_of_false (by simp) fun h ↦ h.1 hlocale
    · intro c
      exact iff_of_false (by simp) fun h ↦ h.1 hlocale
  · refine ⟨ofParsed request options p, ?_, ?_, ?_, ?_⟩
    · rw [ofSource?_eq hlocale, hp, Option.map_some]
    · intro path errors
      rw [ofParsed_eq_parse_iff hlocale]
      exact (and_iff_right hlocale).symm
    · intro c
      rw [ofParsed_eq_inference_iff hlocale]
      exact (and_iff_right hlocale).symm
    · intro i _ hstrict hi
      exact ⟨_, declarations_of_not_lacksLocale hlocale i, ofParsed_eq_ok hlocale hstrict hi⟩

/-- An id is declared again, and an entry behind it is broken. -/
def brokenSource : String := "a = A\na = B\nb = \x7d\n"

theorem exists_parsed_brokenSource :
    ∃ p, Resource.parseLenient? brokenSource = some p ∧
      p.errors.map (fun e ↦ (e.start, e.stop)) = [(12, 18)] ∧
      Index.ofResource .strict p.body = .error ⟨"a"⟩ := by
  have hread : (Resource.parseLenient? brokenSource).map (fun p ↦
      (p.errors.map (fun e ↦ (e.start, e.stop)), Index.ofResource .strict p.body)) =
        some ([(12, 18)], .error ⟨"a"⟩) := by decide +kernel
  obtain ⟨p, hp, hpair⟩ := Option.map_eq_some_iff.mp hread
  exact ⟨p, hp, Prod.mk.inj hpair⟩

/-- The broken source fails in each of the three ways, and is compiled without its broken entry if
syntax does not matter and the last declaration of an id counts. -/
theorem ofSource?_first_failure_each_way :
    ∃ p, Resource.parseLenient? brokenSource = some p ∧
      p.errors.map (fun e ↦ (e.start, e.stop)) = [(12, 18)] ∧
      ofSource? brokenSource ⟨"app.ftl", none⟩
          { CompileOptions.default with requireLocale := true, inference := .strict } =
        some (.error (.request (.missingLocale "app.ftl"))) ∧
      ofSource? brokenSource ⟨"app.ftl", none⟩
          { CompileOptions.default with inference := .strict } =
        some (.error (.parse "app.ftl" p.errors)) ∧
      ofSource? brokenSource ⟨"app.ftl", none⟩
          { CompileOptions.default with strictSyntax := false, inference := .strict } =
        some (.error (.inference ⟨"a"⟩)) ∧
      ∃ c, ofSource? brokenSource ⟨"app.ftl", none⟩
          { CompileOptions.default with strictSyntax := false } = some (.ok c) ∧
        c.syntaxErrors = p.errors := by
  obtain ⟨p, hp, hspans, hcollision⟩ := exists_parsed_brokenSource
  have herrors : p.errors ≠ [] := by
    intro hnil
    rw [hnil] at hspans
    cases hspans
  have hfirst := ofSource?_first_failure brokenSource ⟨"app.ftl", none⟩
  obtain ⟨strict, hstrict, hparse, -⟩ :=
    (hfirst { CompileOptions.default with inference := .strict }).2.1 p hp
  obtain ⟨lenient, hlenient, -, hinference, -⟩ :=
    (hfirst { CompileOptions.default with strictSyntax := false, inference := .strict }).2.1 p hp
  obtain ⟨last, hlast, -, -, hcompiled⟩ :=
    (hfirst { CompileOptions.default with strictSyntax := false }).2.1 p hp
  obtain ⟨text, -, hresult⟩ := hcompiled _ (by decide) (by simp)
    (Index.ofResource_lastWriteWins false p.body)
  refine ⟨p, hp, hspans, ?_, ?_, ?_, _, hlast.trans (congrArg some hresult), rfl⟩
  · exact ((hfirst _).1 _).mpr ⟨⟨rfl, rfl⟩, rfl⟩
  · rw [hstrict, (hparse _ _).mpr ⟨by decide, rfl, herrors, rfl, rfl⟩]
  · rw [hlenient, (hinference _).mpr ⟨by decide, by simp, hcollision⟩]

end Compilation

end FluentShapes
