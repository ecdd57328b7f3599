import FluentShapes.Declaration.Buffer
import FluentShapes.Declaration.Type
import FluentShapes.Index.Basic
import FluentShapes.Request

/-! # Declaration modules

The TypeScript declarations of a resource: the arguments of each id that takes any, the ids that take
none, and the signatures of the function that formats them.
-/

namespace FluentShapes

structure CompileOptions where
  /-- The module that exports the types of bundles and resources. -/
  runtimeModule : String
  /-- The type of an argument of which nothing is known. -/
  opaqueType : String
  requireLocale : Bool
  /-- A syntax error fails the compilation; otherwise broken entries are skipped. -/
  strictSyntax : Bool
  inference : InferenceOptions
deriving DecidableEq

def CompileOptions.default : CompileOptions :=
  ⟨"@fluent/bundle", "FluentVariable", false, true, .default⟩

namespace Declaration

def builtinTypes : List String :=
  ["any", "unknown", "string", "number", "boolean", "object", "never", "bigint"]

/-- The names that the module imports. -/
def imports (opaqueName : String) : List String :=
  let base := ["FluentBundle", "FluentResource"]
  if opaqueName ∉ builtinTypes && propertyName opaqueName = opaqueName && opaqueName ∉ base then
    base ++ [opaqueName]
  else base

def header (request : Request) (options : CompileOptions) : List String :=
  ["// Generated by fluent-typegen from " ++ request.fileName ++ ". Do not edit.",
    "import type \x7b " ++ ", ".intercalate (imports options.opaqueType) ++ " \x7d from "
      ++ quote options.runtimeModule ++ ";",
    ""]

/-- The member of the arguments interface for an id. -/
def member (opaqueName : String) (entry : String × Shape) : String :=
  quote entry.1 ++ ": " ++ entry.2.declaration opaqueName ++ ";"

def addInterface (opaqueName : String) (index : Index) (b : Buffer) : Buffer :=
  ((b.addLine "export interface MessageArguments \x7b").addBlock
    (index.argumentIds.map (member opaqueName))).addLines ["\x7d", ""]

def idUnion (ids : List String) : String :=
  if ids.isEmpty then "never" else " | ".intercalate (ids.map quote)

def addNoArgumentIds (index : Index) (b : Buffer) : Buffer :=
  b.addLines ["export type NoArgumentId = " ++ idUnion index.noArgumentIds ++ ";", ""]

def errorsParameter : String := "errors?: Array<Error> | null"

/-- A signature of the function that formats messages. -/
def addSignature (head : String) (parameters : List String) (b : Buffer) : Buffer :=
  ((b.addLine head).addBlock parameters).addLine "): string;"

/-- One signature for the ids that take arguments and one for the others, each if there are any. An
empty index still gets one that cannot be called. -/
def addSignatures (index : Index) (b : Buffer) : Buffer :=
  let takesArguments := !index.argumentIds.isEmpty
  let b :=
    if !index.noArgumentIds.isEmpty || !takesArguments then
      addSignature "export function formatMessage("
        ["bundle: FluentBundle,", "id: NoArgumentId,", errorsParameter] b
    else b
  let b :=
    if takesArguments then
      addSignature "export function formatMessage<Id extends keyof MessageArguments>("
        ["bundle: FluentBundle,", "id: Id,", "args: MessageArguments[Id],", errorsParameter] b
    else b
  b.addLine ""

def addLocale (locale : Option Locale) (b : Buffer) : Buffer :=
  match locale with
  | some l => b.addLines ["export const locale: " ++ quote l.tag ++ ";", ""]
  | none => b

def footer : List String :=
  ["declare const resource: FluentResource;", "export default resource;"]

/-- The text of the module for an index. -/
def moduleText (index : Index) (request : Request) (options : CompileOptions) : String :=
  let b := Buffer.empty.addLines (header request options)
  let b := addInterface options.opaqueType index b
  let b := addNoArgumentIds index b
  let b := addSignatures index b
  let b := addLocale request.locale b
  (b.addLines footer).text

end Declaration

/-- The declarations for an index. -/
def Index.declarations (index : Index) (request : Request) (options : CompileOptions) :
    Except RequestError String :=
  if options.requireLocale && request.locale.isNone then .error (.missingLocale request.path)
  else .ok (Declaration.moduleText index request options)

end FluentShapes
