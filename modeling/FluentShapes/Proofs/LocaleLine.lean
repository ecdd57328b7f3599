import FluentShapes.Proofs.Compilation

/-!
# What the locale of a request changes

A locale is printed in a line of its own, right before the last two lines of a module, and it is
looked at nowhere else but where it is required.  So two compilations of one source for one path go
the same way whatever their locales are (`ofSource?_agree`), and end with the same error or with
modules that differ in this line.
-/

namespace FluentShapes

namespace Declaration

/-- The text of a module up to where the line of the locale stands. -/
def lead (index : Index) (path : String) (options : CompileOptions) : String :=
  String.ofList (linesText (header ⟨path, none⟩ options ++
    (interfaceLines options.opaqueType index ++ noArgumentLines index ++ overloadLines index)))

def localeText (locale : Option Locale) : String :=
  locale.elim "" fun l ↦ "export const locale: " ++ quote l.tag ++ ";\n\n"

def footerText : String := "declare const resource: FluentResource;\nexport default resource;\n"

theorem linesText_localeLines (locale : Option Locale) :
    linesText (localeLines locale) = (localeText locale).toList := by
  cases locale with
  | none => rfl
  | some l => simp [localeLines, localeText, linesText]

theorem linesText_footer : linesText footer = footerText.toList := by decide +kernel

/-- The locale of a request has a place of its own in the module. -/
theorem moduleText_eq_append (index : Index) (path : String) (locale : Option Locale)
    (options : CompileOptions) :
    moduleText index ⟨path, locale⟩ options =
      lead index path options ++ localeText locale ++ footerText := by
  rw [← String.toList_inj, moduleText_eq, bodyLines, linesText_append, linesText_append,
    linesText_localeLines, linesText_footer]
  simp only [lead, String.toList_append, String.toList_ofList, linesText_append, List.append_assoc]
  rfl

end Declaration

namespace Compilation

/-- Two compilations end alike: with a fault that cannot be worded, with the same error, or with
results that are related. -/
inductive Agree (R : Compilation → Compilation → Prop) :
    Option (Except CompileError Compilation) → Option (Except CompileError Compilation) → Prop
  | unworded : Agree R none none
  | failed (e : CompileError) : Agree R (some (.error e)) (some (.error e))
  | compiled {c c' : Compilation} : R c c' → Agree R (some (.ok c)) (some (.ok c'))

namespace Agree

variable {R S : Compilation → Compilation → Prop}
  {x y : Option (Except CompileError Compilation)}

theorem mono (hRS : ∀ c c', R c c' → S c c') (h : Agree R x y) : Agree S x y := by
  cases h with
  | unworded => exact .unworded
  | failed e => exact .failed e
  | compiled hR => exact .compiled (hRS _ _ hR)

theorem eq_error (h : Agree R x y) {e : CompileError} (hx : x = some (.error e)) :
    y = some (.error e) := by
  cases h with
  | unworded => cases hx
  | failed _ => exact hx
  | compiled _ => cases hx

theorem exists_ok (h : Agree R x y) {c : Compilation} (hx : x = some (.ok c)) :
    ∃ c', y = some (.ok c') ∧ R c c' := by
  cases h with
  | unworded => cases hx
  | failed _ => cases hx
  | compiled hR =>
      cases hx
      exact ⟨_, rfl, hR⟩

end Agree

/-- The same result but for the line of the locale. -/
structure SameUpToLocale (locale locale' : Option Locale) (c c' : Compilation) : Prop where
  index_eq : c'.index = c.index
  syntaxErrors_eq : c'.syntaxErrors = c.syntaxErrors
  declarations_eq : ∃ lead,
    c.declarations = lead ++ Declaration.localeText locale ++ Declaration.footerText ∧
      c'.declarations = lead ++ Declaration.localeText locale' ++ Declaration.footerText

variable {path : String} {options : CompileOptions} {locale locale' : Option Locale}

theorem ofParsed_agree (h : ¬ Request.LacksLocale ⟨path, locale⟩ options)
    (h' : ¬ Request.LacksLocale ⟨path, locale'⟩ options) (p : Parsed) :
    Agree (SameUpToLocale locale locale') (some (ofParsed ⟨path, locale⟩ options p))
      (some (ofParsed ⟨path, locale'⟩ options p)) := by
  by_cases hstrict : options.strictSyntax = true ∧ p.errors ≠ []
  · rw [ofParsed, ofParsed, if_pos hstrict, if_pos hstrict]
    exact .failed _
  · cases hindex : Index.ofResource options.inference p.body with
    | error c =>
        rw [(ofParsed_eq_inference_iff h p c).mpr ⟨hstrict, hindex⟩,
          (ofParsed_eq_inference_iff h' p c).mpr ⟨hstrict, hindex⟩]
        exact .failed _
    | ok i =>
        rw [ofParsed_eq_ok h hstrict hindex, ofParsed_eq_ok h' hstrict hindex]
        exact .compiled ⟨rfl, rfl, Declaration.lead i path options,
          Declaration.moduleText_eq_append i path locale options,
          Declaration.moduleText_eq_append i path locale' options⟩

theorem ofSource?_agree (source : String) (h : ¬ Request.LacksLocale ⟨path, locale⟩ options)
    (h' : ¬ Request.LacksLocale ⟨path, locale'⟩ options) :
    Agree (SameUpToLocale locale locale') (ofSource? source ⟨path, locale⟩ options)
      (ofSource? source ⟨path, locale'⟩ options) := by
  rw [ofSource?_eq h, ofSource?_eq h']
  cases Resource.parseLenient? source with
  | none => exact .unworded
  | some p => exact ofParsed_agree h h' p

/-- Where no locale is required, a locale does nothing but to add its line to the module, and with
any two locales the modules differ at most in the tag on this line. -/
theorem locale_only_in_its_line (source path : String) (options : CompileOptions)
    (l l' : Locale) :
    Agree (fun c c' ↦ c'.index = c.index ∧ c'.syntaxErrors = c.syntaxErrors ∧
        ∃ lead,
          c.declarations = lead ++
            "declare const resource: FluentResource;\nexport default resource;\n" ∧
          c'.declarations = lead ++ ("export const locale: " ++ quote l.tag ++ ";\n\n") ++
            "declare const resource: FluentResource;\nexport default resource;\n")
      (ofSource? source ⟨path, none⟩ { options with requireLocale := false })
      (ofSource? source ⟨path, some l⟩ { options with requireLocale := false }) ∧
    Agree (fun c c' ↦ c'.index = c.index ∧ c'.syntaxErrors = c.syntaxErrors ∧
        ∃ lead,
          c.declarations = lead ++ ("export const locale: " ++ quote l.tag ++ ";\n\n") ++
            "declare const resource: FluentResource;\nexport default resource;\n" ∧
          c'.declarations = lead ++ ("export const locale: " ++ quote l'.tag ++ ";\n\n") ++
            "declare const resource: FluentResource;\nexport default resource;\n")
      (ofSource? source ⟨path, some l⟩ options) (ofSource? source ⟨path, some l'⟩ options) := by
  constructor
  · have hlacks : ∀ locale, ¬ Request.LacksLocale ⟨path, locale⟩
        { options with requireLocale := false } := by
      rintro locale ⟨hrequired, -⟩
      cases hrequired
    refine (ofSource?_agree source (hlacks none) (hlacks (some l))).mono fun c c' h ↦ ?_
    obtain ⟨lead, hc, hc'⟩ := h.declarations_eq
    refine ⟨h.index_eq, h.syntaxErrors_eq, lead, ?_, hc'⟩
    rwa [Declaration.localeText, Option.elim_none, String.append_empty] at hc
  · have hlacks : ∀ l, ¬ Request.LacksLocale ⟨path, some l⟩ options := by
      rintro l ⟨-, hnone⟩
      cases hnone
    refine (ofSource?_agree source (hlacks l) (hlacks l')).mono fun c c' h ↦ ?_
    exact ⟨h.index_eq, h.syntaxErrors_eq, h.declarations_eq⟩

/-- The broken source is compiled with and without a locale to modules that differ in the line of the
locale, and fails alike for two locales if its id may not be declared again. -/
theorem locale_only_in_its_line_broken :
    (∃ c c' lead,
      ofSource? brokenSource ⟨"app.ftl", none⟩
          { CompileOptions.default with strictSyntax := false } = some (.ok c) ∧
      ofSource? brokenSource ⟨"app.ftl", some ⟨"en", none, none, []⟩⟩
          { CompileOptions.default with strictSyntax := false } = some (.ok c') ∧
      c'.syntaxErrors.map (fun e ↦ (e.start, e.stop)) = [(12, 18)] ∧
      c.declarations = lead ++
        "declare const resource: FluentResource;\nexport default resource;\n" ∧
      c'.declarations = lead ++ "export const locale: \"en\";\n\n" ++
        "declare const resource: FluentResource;\nexport default resource;\n") ∧
    ∃ options : CompileOptions, options.requireLocale = true ∧
      ofSource? brokenSource ⟨"app.ftl", some ⟨"en", none, none, []⟩⟩ options =
        some (.error (.inference ⟨"a"⟩)) ∧
      ofSource? brokenSource ⟨"app.ftl", some ⟨"de", none, none, []⟩⟩ options =
        some (.error (.inference ⟨"a"⟩)) := by
  obtain ⟨p, hp, hspans, hcollision⟩ := exists_parsed_brokenSource
  constructor
  · have hlacks : ¬ Request.LacksLocale ⟨"app.ftl", none⟩
        { CompileOptions.default with strictSyntax := false } := fun h ↦ absurd h.1 (by decide)
    have hnone := (ofSource?_eq hlacks brokenSource).trans (congrArg (Option.map _) hp)
    rw [Option.map_some, ofParsed_eq_ok hlacks (by simp)
      (Index.ofResource_lastWriteWins false p.body)] at hnone
    obtain ⟨c', hc', -, herrors, lead, hlead, hlead'⟩ := (locale_only_in_its_line brokenSource
      "app.ftl" { CompileOptions.default with strictSyntax := false } ⟨"en", none, none, []⟩
      ⟨"de", none, none, []⟩).1.exists_ok hnone
    exact ⟨_, c', lead, hnone, hc', by rw [herrors]; exact hspans, hlead, hlead'⟩
  · let options : CompileOptions :=
      { CompileOptions.default with
        requireLocale := true, strictSyntax := false, inference := .strict }
    have hlacks : ¬ Request.LacksLocale ⟨"app.ftl", some ⟨"en", none, none, []⟩⟩ options := by
      rintro ⟨-, hnone⟩
      cases hnone
    have hen : ofSource? brokenSource ⟨"app.ftl", some ⟨"en", none, none, []⟩⟩ options =
        some (.error (.inference ⟨"a"⟩)) := by
      rw [ofSource?_eq hlacks, hp, Option.map_some,
        (ofParsed_eq_inference_iff hlacks p _).mpr ⟨by simp [options], hcollision⟩]
    have hagree := (locale_only_in_its_line brokenSource "app.ftl" options ⟨"en", none, none, []⟩
      ⟨"de", none, none, []⟩).2
    exact ⟨options, rfl, hen, hagree.eq_error hen⟩

end Compilation

end FluentShapes
