/-
LinkGrammar/Cli/Invocation.lean

The command line: what the arguments ask for.

Arguments are read from left to right.  The first mistake wins, and so does a
request for help or for the version that comes before it.  An option with a value
is written as two arguments, or as one with `=` between; of an option given twice
the last value counts.
-/
import LinkGrammar.Generation.Basic

namespace LinkGrammar.Cli

/-- What the words on the command line, or their absence, ask for. -/
inductive Mode where
  /-- sentences of the given words -/
  | words (words : List Text)
  /-- a report on a file with one sentence a line -/
  | benchmark (path : Text)
  deriving DecidableEq

/-- What a command line asks for when it asks for work to be done. -/
structure Invocation where
  dictionary : Text
  mode : Mode
  options : Options
  color : Bool
  deriving DecidableEq

/-- What can be wrong with the arguments. -/
inductive UsageError where
  | missingValue (option : Text)
  | invalidLimit (value : Text)
  | unknownOption (argument : Text)
  | noDictionary
  | benchmarkWithWords
  | noWords
  deriving DecidableEq

/-! ### Options with a value -/

/-- The options that take a value. -/
inductive ValueOption where
  | dictionary
  | sentences
  | maxBag
  deriving DecidableEq

namespace ValueOption

/-- In the order in which an argument is compared with them. -/
def all : List ValueOption := [dictionary, sentences, maxBag]

/-- The name that every option has. -/
def long : ValueOption → Text
  | dictionary => "--dict".toList
  | sentences => "--sentences".toList
  | maxBag => "--max-bag".toList

/-- The name with one letter, for the options that have one. -/
def short? : ValueOption → Option Text
  | dictionary => some "-d".toList
  | sentences => some "-s".toList
  | maxBag => none

/-- What stands before the value in a single argument. -/
def opening (o : ValueOption) : Text := o.long ++ ['=']

/-- The option that an argument names. -/
def ofArgument? (arg : Text) : Option ValueOption :=
  all.find? fun o => arg = o.long || some arg = o.short?

/-- The text behind `opening`, as often as it opens the text. -/
def dropOpenings (opening t : Text) : Text :=
  match opening.isPrefixOf? t with
  | none => t
  | some rest => if rest.length < t.length then dropOpenings opening rest else t
termination_by t.length

/-- The option and the value in a single argument.  A value does not begin with the
opening once more. -/
def ofInline? (arg : Text) : Option (ValueOption × Text) :=
  (all.find? fun o => o.opening.isPrefixOf arg).map fun o => (o, dropOpenings o.opening arg)

end ValueOption

/-- A limit: decimal digits, perhaps after `+`, of a number of 64 bits. -/
def readLimit? (t : Text) : Option Nat :=
  let digits := match t with
    | '+' :: rest => rest
    | _ => t
  if digits = [] || !digits.all Char.isDigit then none
  else
    let n := digits.foldl (fun n c => 10 * n + (c.toNat - '0'.toNat)) 0
    if n < 0x10000000000000000 then some n else none

/-! ### Reading arguments -/

/-- What the arguments so far have said. -/
structure Draft where
  dictionary : Option Text
  sentences : Option Text
  words : List Text
  options : Options
  color : Bool

namespace Draft

/-- Before any argument; color is off unless it is asked for or `color` says so. -/
def start (color : Bool) : Draft := ⟨none, none, [], .default, color⟩

/-- Take in an option with its value; only the limit can be malformed. -/
def set (d : Draft) (o : ValueOption) (value : Text) : Except UsageError Draft :=
  match o with
  | .dictionary => .ok { d with dictionary := some value }
  | .sentences => .ok { d with sentences := some value }
  | .maxBag =>
    match readLimit? value with
    | some n => .ok { d with options := { d.options with maxBag := some n } }
    | none => .error (.invalidLimit value)

end Draft

/-- What the arguments as a whole ask for. -/
inductive Request (α : Type) where
  | help
  | version
  | run (what : α)
  deriving DecidableEq

/-- Read arguments after those that `d` comes from. -/
def readArguments (d : Draft) : List Text → Except UsageError (Request Draft)
  | [] => .ok (.run d)
  | arg :: args =>
    if arg = "-h".toList || arg = "--help".toList then .ok .help
    else if arg = "-V".toList || arg = "--version".toList then .ok .version
    else if arg = "--color".toList then readArguments { d with color := true } args
    else if arg = "--no-color".toList then readArguments { d with color := false } args
    else if arg = "--no-modifiers".toList then
      readArguments { d with options := { d.options with modifiers := false } } args
    else if arg = "--".toList then .ok (.run { d with words := d.words ++ args })
    else
      match ValueOption.ofArgument? arg, ValueOption.ofInline? arg with
      | some o, _ =>
        match args with
        | [] => .error (.missingValue o.long)
        | value :: args =>
          match d.set o value with
          | .ok d => readArguments d args
          | .error e => .error e
      | none, some (o, value) =>
        match d.set o value with
        | .ok d => readArguments d args
        | .error e => .error e
      | none, none =>
        if arg.head? = some '-' then .error (.unknownOption arg)
        else readArguments { d with words := d.words ++ [arg] } args

/-- The invocation that a draft amounts to. -/
def Draft.finish (d : Draft) : Except UsageError Invocation :=
  match d.dictionary, d.sentences, d.words with
  | none, _, _ => .error .noDictionary
  | some _, some _, _ :: _ => .error .benchmarkWithWords
  | some dictionary, some path, [] => .ok ⟨dictionary, .benchmark path, d.options, d.color⟩
  | some _, none, [] => .error .noWords
  | some dictionary, none, words => .ok ⟨dictionary, .words words, d.options, d.color⟩

/-- What the arguments ask for. -/
def readCommand (color : Bool) (args : List Text) : Except UsageError (Request Invocation) := do
  match ← readArguments (.start color) args with
  | .help => return .help
  | .version => return .version
  | .run d => return .run (← d.finish)

/-! ### Messages -/

/-- The answer to a request for the version. -/
def versionText : String := "linkgen 0.1.0"

/-- The answer to a request for help. -/
def helpText : String :=
  versionText ++ "\n\n" ++
  "Generate sentences from a bag of words using a Link Grammar dictionary.\n\n" ++
  "Usage:\n" ++
  "  linkgen --dict <file> [OPTIONS] [--] <word...>\n" ++
  "  linkgen --dict <file> --sentences <file> [OPTIONS]\n\n" ++
  "Options:\n" ++
  "  -d, --dict <file>          Dictionary in Link Grammar text format.\n" ++
  "  -s, --sentences <file>     Benchmark mode: one reference sentence per line.\n" ++
  "  --max-bag <n>              Refuse bags larger than <n>. Default: no limit\n" ++
  "  --no-modifiers             Treat \"not\"/\"now\" as ordinary words.\n" ++
  "  --color                    Force ANSI color output.\n" ++
  "  --no-color                 Disable ANSI color output.\n" ++
  "  -h, --help                 Show this help message.\n" ++
  "  -V, --version              Print version information.\n\n" ++
  "Environment:\n" ++
  "  LINKGEN_LOG=<filter>         Log filter for stderr output (default: warn).\n\n" ++
  "Exit codes:\n" ++
  "  0  Success.\n" ++
  "  1  Dictionary or generation error.\n" ++
  "  2  Invalid arguments.\n"

/-- What the user is told; without a dictionary or without words the help follows. -/
def UsageError.message : UsageError → String
  | missingValue option => String.ofList option ++ " expects a value"
  | invalidLimit value =>
    "invalid --max-bag '" ++ String.ofList value ++ "' (expected a positive integer)"
  | unknownOption argument => "unknown option '" ++ String.ofList argument ++ "'"
  | noDictionary => "--dict is required\n\n" ++ helpText
  | benchmarkWithWords => "give either --sentences or words, not both"
  | noWords => "no words provided\n\n" ++ helpText

end LinkGrammar.Cli
