import FluentShapes.Proofs.Literal
import FluentShapes.Proofs.Locale

/-!
# The header of a module

Of the path of a request only the name of the file gets into a module, and only into the comment on
its first line.  Nothing is escaped there.  So the lines behind the comment are the same for every
path (`splitOn_moduleText`), but a name with a line feed in it makes more lines of the comment, and
to a script the comment is over at the first character of the name that ends a line.
-/

namespace FluentShapes

namespace Script

/-- The comment that two slashes start goes up to the end of the line. -/
def lineComment (text : String) : List Char := text.toList.takeWhile fun c ↦ !isLineTerminator c

end Script

namespace Declaration

/-- The comment that a module starts with. -/
def comment (fileName : String) : String :=
  "// Generated by fluent-typegen from " ++ fileName ++ ". Do not edit."

def importLine (options : CompileOptions) : String :=
  "import type \x7b " ++ ", ".intercalate (imports options.opaqueType) ++ " \x7d from "
    ++ quote options.runtimeModule ++ ";"

/-- The lines behind the comment. -/
def laterLines (index : Index) (locale : Option Locale) (options : CompileOptions) : List String :=
  [importLine options, ""] ++ bodyLines index locale options.opaqueType

theorem moduleText_eq_comment_append (index : Index) (request : Request)
    (options : CompileOptions) :
    (moduleText index request options).toList =
      (comment request.fileName).toList ++
        '\n' :: linesText (laterLines index request.locale options) := by
  rw [moduleText_eq, ← linesText_append, ← linesText_cons]
  rfl

/-! ## One line each -/

theorem singleLine_of_isPlainProperty {name : String} (h : isPlainProperty name = true) :
    SingleLine name :=
  .of_word rfl (isPlainProperty_word h).2

theorem singleLine_imports {opaqueName : String} (h : SingleLine opaqueName) :
    ∀ name ∈ imports opaqueName, SingleLine name := by
  unfold imports
  dsimp only
  split
  · rw [List.forall_mem_append, List.forall_mem_singleton]
    exact ⟨by decide, h⟩
  · decide

theorem singleLine_laterLines {options : CompileOptions} (h : SingleLine options.opaqueType)
    (index : Index) (locale : Option Locale) :
    ∀ line ∈ laterLines index locale options, SingleLine line := by
  have himports : SingleLine (importLine options) :=
    .append (.append (.append (.append (by decide)
      (.intercalate (by decide) (singleLine_imports h))) (by decide)) (singleLine_quote _))
      (by decide)
  rw [laterLines, List.forall_mem_append, List.forall_mem_cons, List.forall_mem_singleton]
  exact ⟨⟨himports, by decide⟩, singleLine_bodyLines h index locale⟩

/-- The comment has the line feeds of the file name, and nothing behind it depends on the path. -/
theorem splitOn_moduleText {options : CompileOptions} (h : SingleLine options.opaqueType)
    (index : Index) (request : Request) :
    (moduleText index request options).toList.splitOn '\n' =
      (comment request.fileName).toList.splitOn '\n' ++
        (laterLines index request.locale options ++ [""]).map String.toList := by
  rw [moduleText_eq_comment_append, List.splitOn_append_cons_self,
    splitOn_linesText (singleLine_laterLines h index request.locale), List.map_append]
  rfl

/-! ## Names that end the comment -/

theorem mem_between_iff {c : Char} {lead tail : String} (hlead : c ∉ lead.toList)
    (htail : c ∉ tail.toList) (name : String) :
    c ∈ (lead ++ name ++ tail).toList ↔ c ∈ name.toList := by
  rw [String.toList_append, String.toList_append, List.mem_append, List.mem_append,
    or_iff_left htail, or_iff_right hlead]

/-- The fixed parts of the comment do not end it. -/
theorem mem_comment_iff {c : Char} (h : Script.isLineTerminator c = true) (fileName : String) :
    c ∈ (comment fileName).toList ↔ c ∈ fileName.toList := by
  have hnot : ∀ s : List Char, (s.all fun d ↦ !Script.isLineTerminator d) = true → c ∉ s := by
    intro s hall hc
    have hc' := List.all_eq_true.mp hall c hc
    rw [h] at hc'
    cases hc'
  exact mem_between_iff (hnot _ (by decide +kernel)) (hnot _ (by decide +kernel)) fileName

theorem splitOn_comment_iff (fileName : String) :
    (comment fileName).toList.splitOn '\n' = [(comment fileName).toList] ↔
      '\n' ∉ fileName.toList := by
  rw [← mem_comment_iff rfl]
  constructor
  · intro hsplit hmem
    have hpiece : (comment fileName).toList ∈ (comment fileName).toList.splitOn '\n' := by
      rw [hsplit]
      exact List.mem_singleton_self _
    rw [List.splitOn_eq_splitOnP] at hpiece
    simpa using (mem_of_mem_splitOnP hpiece hmem).2
  · exact List.splitOn_eq_singleton

theorem forall_mem_comment_iff (fileName : String) :
    (∀ c ∈ (comment fileName).toList, Script.isLineTerminator c = false) ↔
      ∀ c ∈ fileName.toList, Script.isLineTerminator c = false := by
  refine forall_congr' fun c ↦ ?_
  cases h : Script.isLineTerminator c with
  | false => simp
  | true => rw [mem_comment_iff h]

/-- To a script the comment is over at the first character that ends a line. -/
theorem lineComment_moduleText_iff (index : Index) (request : Request) (options : CompileOptions) :
    Script.lineComment (moduleText index request options) = (comment request.fileName).toList ↔
      ∀ c ∈ request.fileName.toList, Script.isLineTerminator c = false := by
  rw [Script.lineComment, moduleText_eq_comment_append, ← forall_mem_comment_iff]
  constructor
  · intro hcomment c hc
    rw [← hcomment] at hc
    simpa using List.mem_takeWhile_imp hc
  · intro hall
    have hnot : ∀ c ∈ (comment request.fileName).toList, (!Script.isLineTerminator c) = true := by
      intro c hc
      rw [hall c hc]
      rfl
    rw [List.takeWhile_append_of_pos hnot, List.takeWhile_cons_of_neg (by decide), List.append_nil]

end Declaration

namespace Index

/-- Whatever the path of a request is, the lines behind the comment are the same, and the first of
them has the imports.  The comment takes one line exactly if there is no line feed in the name of
the file, and to a script it takes the whole of this line exactly if nothing in the name ends a
line. -/
theorem declarations_header (i : Index) (locale : Option Locale) (options : CompileOptions)
    (hplain : propertyName options.opaqueType = options.opaqueType) :
    ∃ later : List String,
      later.head? = some ("import type \x7b " ++
        ", ".intercalate (Declaration.imports options.opaqueType) ++ " \x7d from " ++
        quote options.runtimeModule ++ ";") ∧
      ∀ request : Request, request.locale = locale →
        ((∃ text, i.declarations request options = .ok text) ↔
          (options.requireLocale = true → locale ≠ none)) ∧
        ∀ text, i.declarations request options = .ok text →
          text.toList.splitOn '\n' =
            (Declaration.comment request.fileName).toList.splitOn '\n' ++
              later.map String.toList ∧
          (text.toList.splitOn '\n' =
              (Declaration.comment request.fileName :: later).map String.toList ↔
            '\n' ∉ request.fileName.toList) ∧
          (Script.lineComment text = (Declaration.comment request.fileName).toList ↔
            ∀ c ∈ request.fileName.toList, Script.isLineTerminator c = false) := by
  have hopaque :=
    Declaration.singleLine_of_isPlainProperty (isPlainProperty_of_propertyName_eq hplain)
  refine ⟨Declaration.laterLines i locale options ++ [""], rfl, ?_⟩
  rintro request rfl
  refine ⟨by simp [declarations_eq_ok_iff], fun text htext ↦ ?_⟩
  obtain ⟨-, rfl⟩ := (i.declarations_eq_ok_iff request options text).mp htext
  have hlines := Declaration.splitOn_moduleText hopaque i request
  refine ⟨hlines, ?_, Declaration.lineComment_moduleText_iff i request options⟩
  rw [hlines, List.map_cons, ← Declaration.splitOn_comment_iff]
  change _ ++ _ = [_] ++ _ ↔ _
  exact List.append_left_inj _

/-- A path with a line feed in the name of a directory. -/
theorem declarations_header_directory :
    ∃ request text, Request.parse "a\n/b.ftl" = .ok request ∧
      propertyName CompileOptions.default.opaqueType = CompileOptions.default.opaqueType ∧
      Index.declarations ∅ request .default = .ok text ∧
      (text.toList.splitOn '\n').take 2 = List.map String.toList
        ["// Generated by fluent-typegen from b.ftl. Do not edit.",
          "import type \x7b FluentBundle, FluentResource, FluentVariable \x7d from " ++
            "\"@fluent/bundle\";"] ∧
      Script.lineComment text =
        "// Generated by fluent-typegen from b.ftl. Do not edit.".toList := by
  have hplain : propertyName CompileOptions.default.opaqueType =
    CompileOptions.default.opaqueType := by decide +kernel
  obtain ⟨later, hlater, hrequest⟩ := declarations_header ∅ none .default hplain
  obtain ⟨hok, hheader⟩ := hrequest ⟨"a\n/b.ftl", none⟩ rfl
  obtain ⟨text, htext⟩ := hok.mpr (by decide)
  obtain ⟨-, hline, hcomment⟩ := hheader text htext
  have hname : Request.fileName ⟨"a\n/b.ftl", none⟩ = "b.ftl" := by decide +kernel
  obtain ⟨rest, rfl⟩ := List.head?_eq_some_iff.mp hlater
  rw [hname] at hline hcomment
  refine ⟨_, text, by decide +kernel, hplain, htext, ?_, ?_⟩
  · have himports : ", ".intercalate (Declaration.imports CompileOptions.default.opaqueType) =
      "FluentBundle, FluentResource, FluentVariable" := by decide +kernel
    rw [hline.mpr (by decide), himports]
    rfl
  · have hall : ("b.ftl".toList.all fun c ↦ Script.isLineTerminator c = false) = true := by
      decide +kernel
    exact hcomment.mpr (by simpa only [List.all_eq_true, decide_eq_true_eq] using hall)

/-- A line feed in the name of the file ends the comment in the middle of the name. -/
theorem header_broken_by_file_name :
    ∃ request text, Request.parse "a\nb.ftl" = .ok request ∧
      propertyName CompileOptions.default.opaqueType = CompileOptions.default.opaqueType ∧
      Index.declarations ∅ request .default = .ok text ∧
      (text.toList.splitOn '\n').take 2 = List.map String.toList
        ["// Generated by fluent-typegen from a", "b.ftl. Do not edit."] := by
  have hname : (Declaration.comment (Request.fileName ⟨"a\nb.ftl", none⟩)).toList.splitOn '\n' =
      List.map String.toList ["// Generated by fluent-typegen from a", "b.ftl. Do not edit."] := by
    decide +kernel
  refine ⟨⟨"a\nb.ftl", none⟩, _, by decide +kernel, by decide +kernel, rfl, ?_⟩
  rw [Declaration.splitOn_moduleText (by decide), hname]
  rfl

end Index

end FluentShapes
