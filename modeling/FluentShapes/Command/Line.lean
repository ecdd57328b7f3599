/-! # Command lines -/

namespace FluentShapes

/-- An option by its long name and the letter that may stand for it. -/
structure OptionSpec where
  long : String
  short : Option Char
  takesValue : Bool
deriving DecidableEq

namespace CommandLine

/-- An argument that was recognised. -/
inductive Item where
  | flag (long : String)
  | setting (long : String) (value : String)
  | positional (value : String)
deriving DecidableEq

/-- Why a command line is not carried out. -/
inductive Fault where
  | help
  | version
  | usage
deriving DecidableEq

def verbose : OptionSpec := ⟨"verbose", some 'v', false⟩

def help : OptionSpec := ⟨"help", some 'h', false⟩

def version : OptionSpec := ⟨"version", some 'V', false⟩

/-- Options that are carried out where they stand. -/
def fault? (spec : OptionSpec) : Option Fault :=
  if spec = help then some .help else if spec = version then some .version else none

/-- How the reading of an argument ends: it is done, it waits for the value of an option, or it has
come upon a fault. -/
inductive Stop where
  | done
  | waiting (spec : OptionSpec)
  | fault (f : Fault)

/-- The options behind a hyphen, one letter each, up to the first fault. One that takes a value takes
the letters behind it, with or without an equals sign. -/
def letters (specs : List OptionSpec) : List Char → List Item × Stop
  | [] => ([], .done)
  | c :: rest =>
      match specs.find? (·.short = some c) with
      | none => ([], .fault .usage)
      | some spec =>
          match fault? spec with
          | some f => ([], .fault f)
          | none =>
              if spec.takesValue then
                match rest with
                | [] => ([], .waiting spec)
                | '=' :: value => ([.setting spec.long (String.ofList value)], .done)
                | value => ([.setting spec.long (String.ofList value)], .done)
              else (letters specs rest).map (.flag spec.long :: ·) id

/-- A long option, with its value behind an equals sign. -/
def word (specs : List OptionSpec) (text : List Char) : List Item × Stop :=
  match specs.find? (·.long = String.ofList (text.takeWhile (· ≠ '='))) with
  | none => ([], .fault .usage)
  | some spec =>
      match text.dropWhile (· ≠ '='), spec.takesValue, fault? spec with
      | [], true, _ => ([], .waiting spec)
      | _ :: value, true, _ => ([.setting spec.long (String.ofList value)], .done)
      | [], false, some f => ([], .fault f)
      | [], false, none => ([.flag spec.long], .done)
      | _ :: _, false, _ => ([], .fault .usage)

/-- A lone hyphen is no option. -/
def isOption (argument : String) : Bool :=
  match argument.toList with
  | '-' :: _ :: _ => true
  | _ => false

/-- The options that an argument holds. -/
def options (specs : List OptionSpec) (argument : String) : List Item × Stop :=
  match argument.toList with
  | '-' :: '-' :: text => word specs text
  | '-' :: text => letters specs text
  | _ => ([], .fault .usage)

/-- The items that arguments hold, up to the first fault. Behind `--` all are positional. -/
def recognise (specs : List OptionSpec) : List String → List Item × Option Fault
  | [] => ([], none)
  | argument :: rest =>
      if argument = "--" then (rest.map .positional, none)
      else if isOption argument then
        match options specs argument, rest with
        | (items, .fault f), _ => (items, some f)
        | (items, .done), rest => (recognise specs rest).map (items ++ ·) id
        | (items, .waiting _), [] => (items, some .usage)
        | (items, .waiting spec), value :: rest =>
            if isOption value then (items, some .usage)
            else (recognise specs rest).map (items ++ .setting spec.long value :: ·) id
      else (recognise specs rest).map (.positional argument :: ·) id

/-- The name of the subcommand and what follows it. -/
def subcommand : List String → Except Fault (String × List String)
  | [] => .error .usage
  | argument :: rest =>
      if isOption argument then
        match options [verbose, help, version] argument with
        | (_, .done) => subcommand rest
        | (_, .waiting _) => .error .usage
        | (_, .fault f) => .error f
      else .ok (argument, rest)

/-! ## What was given -/

section Items

variable (items : List Item) (spec : OptionSpec)

def flagged : Bool := items.contains (.flag spec.long)

def setting? : Option String :=
  items.findSome? fun
    | .setting long value => if long = spec.long then some value else none
    | _ => none

def positionals : List String :=
  items.filterMap fun
    | .positional value => some value
    | _ => none

/-- How often an option is given. -/
def occurrences : Nat :=
  items.countP fun
    | .flag long | .setting long _ => long = spec.long
    | .positional _ => false

end Items

/-- The items of a subcommand. Its own options may be given once, and it takes at most `limit`
positional arguments. The first fault counts. -/
def itemsOf (specs : List OptionSpec) (limit : Nat) (arguments : List String) :
    Except Fault (List Item) :=
  let (items, fault) := recognise (specs ++ [verbose, help]) arguments
  if specs.any (1 < occurrences items ·) || limit < (positionals items).length then .error .usage
  else
    match fault with
    | some f => .error f
    | none => .ok items

end CommandLine

end FluentShapes
