/-
LinkGrammar/Cli/Report.lean

The reports of the command line.
-/
import LinkGrammar.Cli.Benchmark
import LinkGrammar.Text.Quoted

namespace LinkGrammar.Cli

/-! ### Styles -/

/-- Colors and weights of a terminal. -/
inductive Style where
  | bold
  | dim
  | red
  | green
  | yellow
  | blue
  | cyan
  | gray

/-- The control sequence that switches a style on. -/
def Style.code : Style → String
  | bold => "\x1b[1m"
  | dim => "\x1b[2m"
  | red => "\x1b[31m"
  | green => "\x1b[32m"
  | yellow => "\x1b[33m"
  | blue => "\x1b[34m"
  | cyan => "\x1b[36m"
  | gray => "\x1b[90m"

/-- A text in a style, if color is on. -/
def paint (color : Bool) (style : Style) (s : String) : String :=
  if color then style.code ++ s ++ "\x1b[0m" else s

/-! ### One bag -/

/-- The modifiers in play, `not` before `now`. -/
def modifierNames (m : Modifiers) : List String :=
  (if m.negated then ["not"] else []) ++ (if m.present then ["now"] else [])

/-- The words that were given, and the modifiers among them. -/
def bagHeading (color : Bool) (tokens : List Text) (m : Modifiers) : String :=
  let bag := "⚙  Bag: " ++ String.ofList (Text.quoteList tokens)
  "\n" ++ paint color .bold (paint color .cyan bag) ++ "\n" ++
    match modifierNames m with
    | [] => ""
    | names =>
      "  " ++ paint color .dim "modifiers:" ++ " " ++
        paint color .yellow (", ".intercalate names) ++ "\n"

/-- What to say when no arrangement is a sentence. -/
def noSentences (color : Bool) : String :=
  paint color .dim "  No valid ordering" ++ "\n\n" ++
  paint color .yellow "Possible reasons:" ++ "\n" ++
  "  • No adjacent pair shares a connector in the right direction\n" ++
  "  • The first or last word carries a tag that cannot open or close a sentence\n" ++
  "  • An idiom window (article, \"with\", \"on\", \"wants to\") did not line up\n\n" ++
  paint color .dim "  Tip: set LINKGEN_LOG=linkgen=trace to see why each ordering was rejected" ++
  "\n"

/-- A sentence with its number, counted from 0. -/
def numberedSentence (color : Bool) (sentence : Text) (i : Nat) : String :=
  "  " ++ paint color .gray ("[" ++ toString i ++ "]") ++ " " ++
    paint color .bold (paint color .green (String.ofList sentence)) ++ "\n"

/-- All sentences with their numbers. -/
def sentenceList (color : Bool) (sentences : List Text) : String :=
  "\n" ++ paint color .gray "━━━ Sentences ━━━" ++ "\n" ++
    if sentences.isEmpty then noSentences color
    else String.join (sentences.zipIdx.map fun (s, i) => numberedSentence color s i)

/-- The counts of a search, and how long it took. -/
def searchSummary (color : Bool) (r : Generation) (elapsed : String) : String :=
  "\n" ++ paint color .gray "━━━ Search ━━━" ++ "\n" ++
  "  Arrangements: " ++ paint color .blue (toString r.arrangements) ++
  "  │  Accepted: " ++ paint color .green (toString r.accepted) ++
  "  │  Filtered: " ++ paint color .dim (toString r.filtered) ++ "\n" ++
  "  Total: " ++ paint color .green elapsed ++ "\n\n"

/-- The report on a bag. -/
def bagReport (color : Bool) (tokens : List Text) (r : Generation) (elapsed : String) : String :=
  bagHeading color tokens r.modifiers ++ sentenceList color r.sentences ++
    searchSummary color r elapsed

/-! ### Benchmarks -/

/-- A sentence that was found beside the reference line. -/
def otherSentence (color : Bool) (line sentence : Text) : String :=
  let misplaced := (misplacedWords line sentence).map String.ofList
  "    " ++ paint color .cyan (String.ofList sentence) ++ " " ++
    paint color .dim ("misplaced: " ++ ", ".intercalate misplaced) ++ "\n"

/-- The sign in front of a line. -/
def verdictMark (color : Bool) : Verdict → String
  | .none => paint color .red "✗"
  | .single => paint color .green "✓"
  | .multipleOneCorrect => paint color .yellow "≈"
  | .multipleNoneCorrect => paint color .yellow "✗"

/-- A line with its outcome; where there are several sentences the others are listed below it. -/
def outcomeReport (color : Bool) (o : Outcome) : String :=
  let line := paint color .bold (String.ofList o.line)
  match o.result with
  | .error e => paint color .red "!" ++ " " ++ line ++ " " ++ paint color .red e.message ++ "\n"
  | .ok sentences =>
    let others := if sentences.length ≤ 1 then [] else sentences.filter (· ≠ o.line)
    verdictMark color (Verdict.ofSentences o.line sentences) ++ " " ++ line ++ " " ++
      paint color .dim ("(" ++ toString sentences.length ++ ")") ++ "\n" ++
      String.join (others.map (otherSentence color o.line))

/-- The counts of a tally, each with the total; errors are left out if there are none. -/
def tallyReport (color : Bool) (t : Tally) : String :=
  let row (title : String) (style : Style) (n : Nat) :=
    title ++ paint color style (toString n) ++ "/" ++ toString t.total ++ "\n"
  "\n" ++ paint color .gray "━━━ Benchmark ━━━" ++ "\n" ++
  row "  Single result:               " .green t.single ++
  row "  Multiple with one correct:   " .yellow t.multipleOneCorrect ++
  row "  Multiple with none correct:  " .yellow t.multipleNoneCorrect ++
  row "  None:                        " .red t.none ++
  (if t.errors = 0 then "" else row "  Errors:                      " .red t.errors) ++
  "  Accuracy:                    " ++ paint color .bold t.accuracy ++ "\n\n"

/-- The report on the outcomes of a benchmark; one that failed has no tally. -/
def benchmarkReport (color : Bool) (b : Benchmark) : String :=
  String.join (b.outcomes.map (outcomeReport color)) ++
    match b.failure with
    | none => tallyReport color (Tally.ofOutcomes b.outcomes)
    | some _ => ""

end LinkGrammar.Cli
