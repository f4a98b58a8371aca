/-
LinkGrammar/Cli/Run.lean

The program as a whole: from arguments to output.

Design.  Files and the clock are asked for through a `Host`, so the same program
runs over the real ones and over any others.
-/
import LinkGrammar.Cli.Invocation
import LinkGrammar.Cli.Report
import LinkGrammar.Dictionary.Load

namespace LinkGrammar.Cli

/-- Why a file cannot be read as text. -/
inductive ReadFault where
  | notFound
  | isDirectory
  | notDirectory
  | notText
  | other (reason : String)

/-- The reason as an operating system words it. -/
def ReadFault.message : ReadFault → String
  | notFound => "No such file or directory (os error 2)"
  | isDirectory => "Is a directory (os error 21)"
  | notDirectory => "Not a directory (os error 20)"
  | notText => "stream did not contain valid UTF-8"
  | other reason => reason

/-- What the program needs of its surroundings. -/
structure Host (m : Type → Type) where
  read : Text → m (Except ReadFault ByteArray)
  /-- work something out, and say how long that took -/
  timed : {α : Type} → (Unit → α) → m (α × String)
  /-- whether the output is shown in color by itself -/
  color : Bool

/-- What the program leaves behind. -/
structure Response where
  exit : Nat
  stdout : String
  stderr : String

namespace Response

/-- All went well. -/
def success (stdout : String) : Response := ⟨0, stdout, ""⟩

/-- Something went wrong, and the user is told what. -/
def failure (exit : Nat) (message : String) : Response := ⟨exit, "", "error: " ++ message ++ "\n"⟩

end Response

/-- The text of a file. -/
def decode (bytes : Except ReadFault ByteArray) : Except ReadFault Text := do
  match String.fromUTF8? (← bytes) with
  | some s => return s.toList
  | none => throw .notText

section

variable {m : Type → Type} [Monad m]

/-- Sentences of the given words. -/
def runWords (host : Host m) (l : Lexicon) (i : Invocation) (words : List Text) : m Response := do
  let (result, elapsed) ← host.timed fun _ => generate l.grammar i.options words
  match result with
  | .ok r => return .success (bagReport i.color words r elapsed)
  | .error e => return .failure 1 e.message

/-- A report on the sentences of a file. -/
def runBenchmark (host : Host m) (l : Lexicon) (i : Invocation) (path : Text) : m Response := do
  match decode (← host.read path) with
  | .error fault =>
    return .failure 1
      ("failed to read sentences '" ++ String.ofList path ++ "': " ++ fault.message)
  | .ok text =>
    let b := Benchmark.ofLines l.grammar i.options (referenceLines text)
    let report := benchmarkReport i.color b
    match b.failure with
    | none => return .success report
    | some e => return { Response.failure 1 e.message with stdout := report }

/-- What an invocation leads to. -/
def runInvocation (host : Host m) (i : Invocation) : m Response := do
  match decode (← host.read i.dictionary) with
  | .error fault =>
    return .failure 1
      ("failed to read dictionary '" ++ String.ofList i.dictionary ++ "': " ++ fault.message)
  | .ok text =>
    match Lexicon.ofDictionary text with
    | .error e => return .failure 1 e.message
    | .ok l =>
      match i.mode with
      | .words words => runWords host l i words
      | .benchmark path => runBenchmark host l i path

/-- What the arguments lead to. -/
def run (host : Host m) (args : List Text) : m Response :=
  match readCommand host.color args with
  | .error e => return .failure 2 e.message
  | .ok .help => return .success (helpText ++ "\n")
  | .ok .version => return .success (versionText ++ "\n")
  | .ok (.run i) => runInvocation host i

end

end LinkGrammar.Cli
