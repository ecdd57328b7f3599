import FluentShapes.Declaration.Module

/-!
# A module line by line

A declaration module is written into a buffer line by line, and every block moves the margin back
out to where it was.  So at any time the buffer holds the text of a list of lines
(`Buffer.Written`), and each part of the module adds its own lines to the list.
-/

namespace FluentShapes

/-- The text of lines that each end with a line feed. -/
def linesText (lines : List String) : List Char := lines.flatMap fun l ↦ l.toList ++ ['\n']

theorem linesText_append (lines lines' : List String) :
    linesText (lines ++ lines') = linesText lines ++ linesText lines' := List.flatMap_append

theorem linesText_cons (line : String) (lines : List String) :
    linesText (line :: lines) = line.toList ++ '\n' :: linesText lines := by
  rw [linesText, List.flatMap_cons, List.append_assoc]
  rfl

theorem linesText_nil : linesText [] = [] := rfl

namespace Buffer

/-! ## Lines in a buffer -/

/-- The buffer holds the lines, and the next one starts at the margin. -/
structure Written (b : Buffer) (lines : List String) : Prop where
  depth_eq : b.depth = 0
  text_eq : b.text.toList = linesText lines

theorem written_empty : empty.Written [] := ⟨rfl, rfl⟩

theorem depth_addLine (b : Buffer) (text : String) : (b.addLine text).depth = b.depth := by
  unfold addLine
  split <;> rfl

theorem text_addLine (b : Buffer) {text : String} (h : text ≠ "") :
    (b.addLine text).text.toList =
      b.text.toList ++ linesText [margin b.depth ++ text] := by
  have hempty : text.isEmpty = false := by
    rw [Bool.eq_false_iff, Ne, String.isEmpty_iff]
    exact h
  rw [addLine, hempty, linesText_cons]
  simp [addIndented, add, linesText_nil]

theorem margin_zero : margin 0 = "" := rfl

theorem margin_one : margin 1 = "  " := rfl

variable {b : Buffer} {lines : List String}

theorem Written.addLine (h : b.Written lines) (text : String) :
    (b.addLine text).Written (lines ++ [text]) := by
  refine ⟨(depth_addLine b text).trans h.depth_eq, ?_⟩
  by_cases hempty : text = ""
  · subst hempty
    rw [linesText_append, ← h.text_eq]
    exact String.toList_append
  · rw [text_addLine b hempty, h.depth_eq, h.text_eq, margin_zero, String.empty_append,
      linesText_append]

theorem Written.addLines (h : b.Written lines) (texts : List String) :
    (b.addLines texts).Written (lines ++ texts) := by
  induction texts generalizing b lines with
  | nil =>
      rw [List.append_nil]
      exact h
  | cons text texts ih =>
      rw [List.append_cons]
      exact ih (h.addLine text)

theorem text_addLines_indented {texts : List String} (h : ∀ text ∈ texts, text ≠ "")
    (hdepth : b.depth = 1) :
    (b.addLines texts).depth = 1 ∧
      (b.addLines texts).text.toList =
        b.text.toList ++ linesText (texts.map fun text ↦ "  " ++ text) := by
  induction texts generalizing b with
  | nil => exact ⟨hdepth, (List.append_nil _).symm⟩
  | cons text texts ih =>
      obtain ⟨hdepth', htext⟩ := ih (fun t ht ↦ h t (List.mem_cons_of_mem text ht))
        ((depth_addLine b text).trans hdepth)
      refine ⟨hdepth', htext.trans ?_⟩
      rw [text_addLine b (h text List.mem_cons_self), hdepth, margin_one, List.append_assoc,
        ← linesText_append]
      rfl

/-- The lines of a block stand two spaces behind the margin. -/
theorem Written.addBlock (h : b.Written lines) {texts : List String}
    (hne : ∀ text ∈ texts, text ≠ "") :
    (b.addBlock texts).Written (lines ++ texts.map fun text ↦ "  " ++ text) := by
  have hindent : b.indent.depth = 1 := congrArg (· + 1) h.depth_eq
  obtain ⟨hdepth, htext⟩ := text_addLines_indented hne hindent
  refine ⟨congrArg (· - 1) hdepth, htext.trans ?_⟩
  rw [linesText_append, ← h.text_eq]
  rfl

theorem Written.ite (h : b.Written lines) (c : Bool) {b' : Buffer} {texts : List String}
    (h' : b'.Written (lines ++ texts)) :
    (if c then b' else b).Written (lines ++ if c then texts else []) := by
  cases c with
  | false => exact (List.append_nil lines).symm ▸ h
  | true => exact h'

end Buffer

/-! ## The parts of a module -/

namespace Declaration

open Buffer

def interfaceLines (opaqueName : String) (index : Index) : List String :=
  ["export interface MessageArguments \x7b"] ++
    ((index.argumentIds.map (member opaqueName)).map fun text ↦ "  " ++ text) ++ ["\x7d", ""]

def noArgumentLines (index : Index) : List String :=
  ["export type NoArgumentId = " ++ idUnion index.noArgumentIds ++ ";", ""]

def signatureLines (head : String) (parameters : List String) : List String :=
  [head] ++ (parameters.map fun text ↦ "  " ++ text) ++ ["): string;"]

def overloadLines (index : Index) : List String :=
  (if !index.noArgumentIds.isEmpty || index.argumentIds.isEmpty then
      signatureLines "export function formatMessage("
        ["bundle: FluentBundle,", "id: NoArgumentId,", errorsParameter]
    else []) ++
  (if !index.argumentIds.isEmpty then
      signatureLines "export function formatMessage<Id extends keyof MessageArguments>("
        ["bundle: FluentBundle,", "id: Id,", "args: MessageArguments[Id],", errorsParameter]
    else []) ++ [""]

def localeLines : Option Locale → List String
  | some l => ["export const locale: " ++ quote l.tag ++ ";", ""]
  | none => []

/-- What comes after the header. -/
def bodyLines (index : Index) (locale : Option Locale) (opaqueName : String) : List String :=
  interfaceLines opaqueName index ++ noArgumentLines index ++ overloadLines index ++
    localeLines locale ++ footer

variable {b : Buffer} {lines : List String}

theorem member_ne_empty (opaqueName : String) (entry : String × Shape) :
    member opaqueName entry ≠ "" := by
  intro h
  have hlist := congrArg String.toList h
  simp [member] at hlist

theorem written_addInterface (h : b.Written lines) (opaqueName : String) (index : Index) :
    (addInterface opaqueName index b).Written (lines ++ interfaceLines opaqueName index) := by
  have hne : ∀ text ∈ index.argumentIds.map (member opaqueName), text ≠ "" := by
    intro text htext
    obtain ⟨entry, -, rfl⟩ := List.mem_map.mp htext
    exact member_ne_empty opaqueName entry
  rw [interfaceLines, ← List.append_assoc, ← List.append_assoc]
  exact ((h.addLine _).addBlock hne).addLines _

theorem written_addSignature (h : b.Written lines) (head : String) (parameters : List String)
    (hne : ∀ text ∈ parameters, text ≠ "") :
    (addSignature head parameters b).Written (lines ++ signatureLines head parameters) := by
  rw [signatureLines, ← List.append_assoc, ← List.append_assoc]
  exact ((h.addLine head).addBlock hne).addLine _

theorem written_addSignatures (h : b.Written lines) (index : Index) :
    (addSignatures index b).Written (lines ++ overloadLines index) := by
  have hfirst := h.ite (!index.noArgumentIds.isEmpty || index.argumentIds.isEmpty)
    (written_addSignature h "export function formatMessage("
      ["bundle: FluentBundle,", "id: NoArgumentId,", errorsParameter] (by simp [errorsParameter]))
  have hsecond := hfirst.ite (!index.argumentIds.isEmpty)
    (written_addSignature hfirst "export function formatMessage<Id extends keyof MessageArguments>("
      ["bundle: FluentBundle,", "id: Id,", "args: MessageArguments[Id],", errorsParameter]
      (by simp [errorsParameter]))
  rw [overloadLines, ← List.append_assoc, ← List.append_assoc]
  simp only [addSignatures, Bool.not_not]
  exact hsecond.addLine ""

theorem written_addLocale (h : b.Written lines) (locale : Option Locale) :
    (addLocale locale b).Written (lines ++ localeLines locale) := by
  cases locale with
  | none => exact (List.append_nil lines).symm ▸ h
  | some l => exact h.addLines _

/-- The module is the text of its lines. -/
theorem moduleText_eq (index : Index) (request : Request) (options : CompileOptions) :
    (moduleText index request options).toList =
      linesText (header request options) ++
        linesText (bodyLines index request.locale options.opaqueType) := by
  have hheader := written_empty.addLines (header request options)
  have hinterface := written_addInterface hheader options.opaqueType index
  have hids : (addNoArgumentIds index _).Written _ := hinterface.addLines _
  have hmodule := (written_addLocale (written_addSignatures hids index) request.locale).addLines
    footer
  rw [← linesText_append, bodyLines]
  refine hmodule.text_eq.trans ?_
  simp only [List.nil_append, List.append_assoc]
  rfl

end Declaration

end FluentShapes
