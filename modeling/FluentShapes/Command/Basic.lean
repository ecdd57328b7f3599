import FluentShapes.Command.Line

/-! # Commands -/

namespace FluentShapes

structure InitArguments where
  srcDir : String
  outDir : Option String
  force : Bool

structure CompileArguments where
  path : String
  stdout : Bool
  outDir : Option String
  locale : Option String
  strict : Bool
  watch : Bool

structure InferArguments where
  file : String
  compact : Bool
  strict : Bool

inductive Command where
  | init (arguments : InitArguments)
  | compile (arguments : CompileArguments)
  | infer (arguments : InferArguments)

namespace Command

open CommandLine

def srcDir : OptionSpec := ⟨"src-dir", some 's', true⟩

def outDir : OptionSpec := ⟨"out-dir", some 'o', true⟩

def force : OptionSpec := ⟨"force", some 'f', false⟩

def stdout : OptionSpec := ⟨"stdout", none, false⟩

def locale : OptionSpec := ⟨"locale", some 'l', true⟩

def strict : OptionSpec := ⟨"strict", none, false⟩

def watch : OptionSpec := ⟨"watch", some 'w', false⟩

def compact : OptionSpec := ⟨"compact", none, false⟩

def parseInit (arguments : List String) : Except Fault Command := do
  let items ← itemsOf [srcDir, outDir, force] 0 arguments
  pure (.init ⟨(setting? items srcDir).getD "src", setting? items outDir, flagged items force⟩)

def parseCompile (arguments : List String) : Except Fault Command := do
  let items ← itemsOf [stdout, outDir, locale, strict, watch] 1 arguments
  pure (.compile ⟨(positionals items).head?.getD ".", flagged items stdout, setting? items outDir,
    setting? items locale, flagged items strict, flagged items watch⟩)

def parseInfer (arguments : List String) : Except Fault Command := do
  let items ← itemsOf [compact, strict] 1 arguments
  match (positionals items).head? with
  | some file => pure (.infer ⟨file, flagged items compact, flagged items strict⟩)
  | none => .error .usage

/-- Help is on the program, or on one of its subcommands. -/
def parseHelp : List String → Fault
  | [] | ["init"] | ["compile"] | ["infer"] | ["help"] => .help
  | _ => .usage

def parse (arguments : List String) : Except Fault Command := do
  let (name, rest) ← subcommand arguments
  match name with
  | "init" => parseInit rest
  | "compile" => parseCompile rest
  | "infer" => parseInfer rest
  | "help" => .error (parseHelp rest)
  | _ => .error .usage

end Command

end FluentShapes
