/-
LinkGrammar/Cli/Benchmark.lean

Benchmarks: how well the words of reference sentences lead back to them.

Each line of a file is a sentence.  Its words are taken as a bag, and the sentences
of the bag are compared with the line.
-/
import LinkGrammar.Generation.Basic
import LinkGrammar.Text.Blank

namespace LinkGrammar.Cli

/-- The marks that end a sentence. -/
def endMarks : List Char := ['.', '?', '!']

/-- The words of a line: what stands between spaces, without the marks at the end. -/
def sentenceWords (line : Text) : List Text :=
  let words := (Text.splitAt ' ' line).filter (· ≠ [])
  match words.getLast? with
  | none => []
  | some last =>
    let last := Text.trimEndMarks endMarks last
    words.dropLast ++ (if last = [] then [] else [last])

/-- The sentences to be found again: the lines that are not blank, trimmed. -/
def referenceLines (t : Text) : List Text :=
  ((Text.lines t).map Text.trim).filter (· ≠ [])

/-- The words of `candidate` at whose place the reference has another word, or none.
End marks do not count, and neither does the case of ASCII letters; the reference is
taken in lower case altogether. -/
def misplacedWords (reference candidate : Text) : List Text :=
  let expected := Text.splitAt ' ' (Text.lower (Text.trimEndMarks endMarks reference))
  ((Text.splitAt ' ' (Text.trimEndMarks endMarks candidate)).zipIdx.filter fun (word, i) =>
    match expected[i]? with
    | some r => !Text.sameIgnoringAsciiCase r word
    | none => true).map Prod.fst

/-! ### Outcomes -/

/-- What the words of a line led to. -/
inductive Verdict where
  | none
  | single
  | multipleOneCorrect
  | multipleNoneCorrect
  deriving DecidableEq

/-- What the sentences of a line's words say.  A single one is not compared with the line. -/
def Verdict.ofSentences (line : Text) : List Text → Verdict
  | [] => none
  | [_] => single
  | sentences => if sentences.contains line then multipleOneCorrect else multipleNoneCorrect

/-- A line with the sentences of its words. -/
structure Outcome where
  line : Text
  result : Except GenerateError (List Text)

/-- The outcomes of the lines up to an error that ends the benchmark, and that error.
A word without rules, or a bag too large, does not end it. -/
structure Benchmark where
  outcomes : List Outcome
  failure : Option GenerateError

/-- Take the words of one line after the other, up to an error that ends the benchmark. -/
def Benchmark.ofLines (g : Grammar) (o : Options) : List Text → Benchmark
  | [] => ⟨[], none⟩
  | line :: lines =>
    match generate g o (sentenceWords line) with
    | .error (.formula e) => ⟨[], some (.formula e)⟩
    | result =>
      let rest := ofLines g o lines
      ⟨⟨line, result.map (·.sentences)⟩ :: rest.outcomes, rest.failure⟩

/-! ### Tallies -/

/-- How often each outcome occurred. -/
structure Tally where
  total : Nat
  single : Nat
  multipleOneCorrect : Nat
  multipleNoneCorrect : Nat
  none : Nat
  errors : Nat
  deriving DecidableEq

namespace Tally

/-- No outcomes. -/
def zero : Tally := ⟨0, 0, 0, 0, 0, 0⟩

/-- One outcome more. -/
def add (t : Tally) (o : Outcome) : Tally :=
  let t := { t with total := t.total + 1 }
  match o.result.map (Verdict.ofSentences o.line) with
  | .error _ => { t with errors := t.errors + 1 }
  | .ok .none => { t with none := t.none + 1 }
  | .ok .single => { t with single := t.single + 1 }
  | .ok .multipleOneCorrect => { t with multipleOneCorrect := t.multipleOneCorrect + 1 }
  | .ok .multipleNoneCorrect => { t with multipleNoneCorrect := t.multipleNoneCorrect + 1 }

/-- The tally of a list of outcomes. -/
def ofOutcomes (os : List Outcome) : Tally := os.foldl add zero

/-- The share of the lines whose words have a single sentence, with three decimals. -/
def accuracy (t : Tally) : String := Decimal.share t.single t.total 3

end Tally

end LinkGrammar.Cli
