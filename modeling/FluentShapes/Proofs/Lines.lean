import FluentShapes.Proofs.Declaration
import FluentShapes.Proofs.Index
import Mathlib.Logic.Basic

/-!
# The lines of a module

Ids, names, keys and locales are arbitrary texts, but they only get into a module as literals, and a
literal has no line feed in it.  So the lines that a module is written from can be read off its text
again (`splitOn_linesText`), and there are as many of them as the index has ids that take arguments,
and the fixed ones.
-/

namespace FluentShapes

/-! ## Texts on one line -/

/-- The text has no line feed. -/
def SingleLine (text : String) : Prop := '\n' ∉ text.toList

instance (text : String) : Decidable (SingleLine text) := inferInstanceAs (Decidable (_ ∉ _))

/-- Lines that end with a line feed each leave nothing behind the last one. -/
theorem splitOn_linesText {lines : List String} (h : ∀ line ∈ lines, SingleLine line) :
    (linesText lines).splitOn '\n' = lines.map String.toList ++ [[]] := by
  induction lines with
  | nil => rfl
  | cons line lines ih =>
      rw [linesText_cons, List.splitOn_append_cons_self_of_not_mem (h line List.mem_cons_self),
        ih fun l hl ↦ h l (List.mem_cons_of_mem line hl)]
      rfl

namespace SingleLine

variable {s t : String}

theorem append (hs : SingleLine s) (ht : SingleLine t) : SingleLine (s ++ t) := by
  simp only [SingleLine, String.toList_append, List.mem_append, not_or]
  exact ⟨hs, ht⟩

theorem intercalate (hs : SingleLine s) {texts : List String}
    (h : ∀ text ∈ texts, SingleLine text) :
    SingleLine (s.intercalate texts) := notMem_intercalate hs h

theorem of_word {p : Char → Bool} (hp : p '\n' = false) (h : ∀ c ∈ s.toList, p c = true) :
    SingleLine s := by
  intro hmem
  have hnewline := h _ hmem
  rw [hp] at hnewline
  cases hnewline

end SingleLine

theorem Quoted.newline_notMem_encodeChar (c : Char) : '\n' ∉ encodeChar c := by
  unfold encodeChar
  split_ifs <;> simp
  rintro rfl
  contradiction

theorem singleLine_quote (text : String) : SingleLine (quote text) := by
  simp only [SingleLine, quote, Quoted.encode, String.toList_ofList, List.mem_cons, List.mem_append,
    List.mem_flatMap, not_or, not_exists, not_and]
  exact ⟨by decide, fun c _ ↦ Quoted.newline_notMem_encodeChar c, by decide, by simp⟩

/-! ## Types and shapes -/

theorem LiteralKey.singleLine_declaration (key : LiteralKey) : SingleLine key.declaration := by
  rcases key.declaration_cases with ⟨text, htext⟩ | ⟨-, hword⟩
  · rw [htext]
    exact singleLine_quote text
  · exact .of_word rfl hword

theorem singleLine_propertyName (name : String) : SingleLine (propertyName name) := by
  rcases propertyName_cases name with ⟨text, htext⟩ | ⟨-, hword⟩
  · rw [htext]
    exact singleLine_quote text
  · exact .of_word rfl hword

section OpaqueName

variable {opaqueName : String} (h : SingleLine opaqueName)

include h

theorem ArgumentType.singleLine_declaration (type : ArgumentType) :
    SingleLine (type.declaration opaqueName) := by
  cases type with
  | opaqueType => exact h
  | union keys =>
      rw [declaration]
      split
      · decide
      · refine .intercalate (by decide) ?_
        simp only [List.mem_map]
        rintro text ⟨key, -, rfl⟩
        exact key.singleLine_declaration

theorem Shape.singleLine_declaration (s : Shape) : SingleLine (s.declaration opaqueName) := by
  unfold declaration
  split
  · decide
  · refine .append (.append (by decide) (.intercalate (by decide) ?_)) (by decide)
    simp only [List.mem_map]
    rintro text ⟨⟨name, type⟩, -, rfl⟩
    exact .append (.append (.append (by decide) (singleLine_propertyName name)) (by decide))
      (type.singleLine_declaration h)

end OpaqueName

/-! ## The lines of a module -/

namespace Declaration

theorem singleLine_idUnion (ids : List String) : SingleLine (idUnion ids) := by
  unfold idUnion
  split
  · decide
  · refine .intercalate (by decide) ?_
    simp only [List.mem_map]
    rintro text ⟨id, -, rfl⟩
    exact singleLine_quote id

theorem singleLine_interfaceLines {opaqueName : String} (h : SingleLine opaqueName)
    (index : Index) : ∀ line ∈ interfaceLines opaqueName index, SingleLine line := by
  simp only [interfaceLines, List.forall_mem_append, List.map_map]
  refine ⟨⟨by decide, ?_⟩, by decide⟩
  simp only [List.mem_map]
  rintro line ⟨⟨id, s⟩, -, rfl⟩
  exact .append (by decide) (.append (.append (.append (singleLine_quote id) (by decide))
    (s.singleLine_declaration h)) (by decide))

theorem singleLine_noArgumentLines (index : Index) :
    ∀ line ∈ noArgumentLines index, SingleLine line := by
  simp only [noArgumentLines, List.forall_mem_cons]
  exact ⟨.append (.append (by decide) (singleLine_idUnion _)) (by decide), by decide, by simp⟩

/-- The signature for ids that take no arguments. -/
def plainOverload : List String :=
  ["export function formatMessage(", "  bundle: FluentBundle,", "  id: NoArgumentId,",
    "  errors?: Array<Error> | null", "): string;"]

/-- The signature for ids that take arguments. -/
def genericOverload : List String :=
  ["export function formatMessage<Id extends keyof MessageArguments>(", "  bundle: FluentBundle,",
    "  id: Id,", "  args: MessageArguments[Id],", "  errors?: Array<Error> | null", "): string;"]

theorem overloadLines_eq (index : Index) :
    overloadLines index =
      (if !index.noArgumentIds.isEmpty || index.argumentIds.isEmpty then plainOverload else []) ++
        (if !index.argumentIds.isEmpty then genericOverload else []) ++ [""] := rfl

theorem singleLine_overloadLines (index : Index) :
    ∀ line ∈ overloadLines index, SingleLine line := by
  have hplain : ∀ line ∈ plainOverload, SingleLine line := by decide +kernel
  have hgeneric : ∀ line ∈ genericOverload, SingleLine line := by decide +kernel
  simp only [overloadLines_eq, List.forall_mem_append]
  refine ⟨⟨?_, ?_⟩, by decide⟩
  · split
    · exact hplain
    · simp
  · split
    · exact hgeneric
    · simp

theorem singleLine_localeLines (locale : Option Locale) :
    ∀ line ∈ localeLines locale, SingleLine line := by
  cases locale with
  | none => simp [localeLines]
  | some l =>
      simp only [localeLines, List.forall_mem_cons]
      exact ⟨.append (.append (by decide) (singleLine_quote l.tag)) (by decide), by decide, by simp⟩

/-- What is printed of an index stays on the line where it belongs. -/
theorem singleLine_bodyLines {opaqueName : String} (h : SingleLine opaqueName) (index : Index)
    (locale : Option Locale) : ∀ line ∈ bodyLines index locale opaqueName, SingleLine line := by
  simp only [bodyLines, List.forall_mem_append]
  exact ⟨⟨⟨⟨singleLine_interfaceLines h index, singleLine_noArgumentLines index⟩,
    singleLine_overloadLines index⟩, singleLine_localeLines locale⟩, by decide +kernel⟩

theorem idUnion_eq (ids : List String) :
    idUnion ids = if ids = [] then "never" else " | ".intercalate (ids.map quote) := by
  simp only [idUnion, List.isEmpty_iff]

theorem localeLines_eq (locale : Option Locale) :
    localeLines locale =
      locale.toList.flatMap fun l ↦ ["export const locale: " ++ quote l.tag ++ ";", ""] := by
  cases locale <;> rfl

end Declaration

namespace Index

/-! ## The text of a module -/

theorem declarations_eq_ok_iff (i : Index) (request : Request) (options : CompileOptions)
    (text : String) :
    i.declarations request options = .ok text ↔
      (options.requireLocale = true → request.locale ≠ none) ∧
        Declaration.moduleText i request options = text := by
  unfold declarations
  split <;> simp_all

/-- Behind its header a module has these lines and no others, whatever the texts of its index are.
The last piece is what the final line feed leaves.  Every id of the index is listed once, and of the
two signatures there is exactly one that it can be given to. -/
theorem declarations_lines (i : Index) (request : Request) (options : CompileOptions)
    (hnewline : '\n' ∉ options.opaqueType.toList) :
    ((∃ text, i.declarations request options = .ok text) ↔
        (options.requireLocale = true → request.locale ≠ none)) ∧
      ∀ text, i.declarations request options = .ok text →
        ∃ body arguments others plain generic,
          text.toList = linesText (Declaration.header request options) ++ body ∧
          body.splitOn '\n' = List.map String.toList
            (["export interface MessageArguments \x7b"] ++
              (arguments.map fun (id, s) ↦
                "  " ++ quote id ++ ": " ++ Shape.declaration options.opaqueType s ++ ";") ++
              ["\x7d",
                "",
                "export type NoArgumentId = " ++
                  (if others = [] then "never" else " | ".intercalate (others.map quote)) ++ ";",
                ""] ++
              (if plain = true then Declaration.plainOverload else []) ++
              (if generic = true then Declaration.genericOverload else []) ++
              [""] ++
              (request.locale.toList.flatMap fun l ↦
                ["export const locale: " ++ quote l.tag ++ ";", ""]) ++
              ["declare const resource: FluentResource;", "export default resource;", ""]) ∧
          i.SplitInto arguments others ∧
          (generic = true ↔ ∃ id s, i.get? id = some (some s)) ∧
          (plain = true ↔ (∃ id, i.get? id = some none) ∨ i.keys = []) ∧
          ∀ id ∈ i.keys, Xor (generic = true ∧ id ∈ arguments.map Prod.fst)
            (plain = true ∧ id ∈ others) := by
  refine ⟨by simp [declarations_eq_ok_iff], fun text htext ↦ ?_⟩
  obtain ⟨-, rfl⟩ := (i.declarations_eq_ok_iff request options text).mp htext
  have hsplit := i.splitInto_argumentIds
  have hgeneric : (!i.argumentIds.isEmpty) = true ↔ i.argumentIds ≠ [] := by simp
  have hplain : (!i.noArgumentIds.isEmpty || i.argumentIds.isEmpty) = true ↔
      i.noArgumentIds ≠ [] ∨ i.argumentIds = [] := by simp
  refine ⟨_, i.argumentIds, i.noArgumentIds, _, _, Declaration.moduleText_eq i request options, ?_,
    hsplit, hgeneric.trans hsplit.arguments_ne_nil_iff, hplain.trans hsplit.others_ne_nil_or_iff,
    fun id hid ↦ ?_⟩
  · rw [splitOn_linesText (Declaration.singleLine_bodyLines hnewline i request.locale),
      Declaration.bodyLines, Declaration.interfaceLines, Declaration.noArgumentLines,
      Declaration.overloadLines_eq, Declaration.localeLines_eq, Declaration.idUnion_eq]
    simp [Declaration.footer, Declaration.member, String.append_assoc]
  · have harguments : id ∈ i.argumentIds.map Prod.fst → (!i.argumentIds.isEmpty) = true := by
      intro hmem
      obtain ⟨e, he, -⟩ := List.mem_map.mp hmem
      exact hgeneric.mpr (List.ne_nil_of_mem he)
    have hothers : id ∈ i.noArgumentIds →
        (!i.noArgumentIds.isEmpty || i.argumentIds.isEmpty) = true := by
      intro hmem
      exact hplain.mpr (.inl (List.ne_nil_of_mem hmem))
    rw [and_iff_right_of_imp harguments, and_iff_right_of_imp hothers]
    exact hsplit.xor_mem hid

/-- Line feeds in ids and keys, and both signatures. -/
theorem declarations_lines_lookalike :
    '\n' ∉ CompileOptions.default.opaqueType.toList ∧
      ∃ text body,
        (lookalike (.number "1\n")).declarations ⟨"a.ftl", none⟩ .default = .ok text ∧
        text.toList = linesText (Declaration.header ⟨"a.ftl", none⟩ .default) ++ body ∧
        "export function formatMessage(".toList ∈ body.splitOn '\n' ∧
        "export function formatMessage<Id extends keyof MessageArguments>(".toList ∈
          body.splitOn '\n' := by
  have hnewline : '\n' ∉ CompileOptions.default.opaqueType.toList := by decide
  obtain ⟨hok, hlines⟩ :=
    declarations_lines (lookalike (.number "1\n")) ⟨"a.ftl", none⟩ .default hnewline
  obtain ⟨text, htext⟩ := hok.mpr (by decide)
  obtain ⟨body, arguments, others, plain, generic, hbody, hsplitOn, -, hgeneric, hplain, -⟩ :=
    hlines text htext
  rw [if_pos (hplain.mpr (.inl ⟨"c\n\\", rfl⟩)), if_pos (hgeneric.mpr ⟨"d", ∅, rfl⟩)] at hsplitOn
  refine ⟨hnewline, text, body, htext, hbody, ?_, ?_⟩ <;> rw [hsplitOn]
  · exact List.mem_map_of_mem (by simp [Declaration.plainOverload])
  · exact List.mem_map_of_mem (by simp [Declaration.genericOverload])

end Index

end FluentShapes
