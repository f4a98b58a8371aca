/-
LinkGrammar/Generation/Sentence.lean

Sentences: arrangements written out, with the modifiers back in their places.
-/
import LinkGrammar.Bag.Trigger

namespace LinkGrammar.Sentence

/-- Whether a word is the article `a`, in either case. -/
def isArticle (word : Text) : Bool := Text.sameIgnoringAsciiCase word ['a']

/-- Put the modifiers into an arrangement.  `not` goes before the first `a`; `now`
goes behind the word that follows this `a`, or to the front if the arrangement opens
with it.  Without an `a` there is no place for them. -/
def splice (m : Modifiers) (words : List Text) : List Text :=
  let before := words.takeWhile fun w => !isArticle w
  let negation := if m.negated then [['n', 'o', 't']] else []
  let now := if m.present then [['n', 'o', 'w']] else []
  match words.dropWhile fun w => !isArticle w with
  | [] => words
  | article :: after =>
    if before.isEmpty then now ++ negation ++ article :: after
    else before ++ negation ++ article :: after.take 1 ++ now ++ after.drop 1

/-- Whether an arrangement asks a question: it opens with `is` or `was`. -/
def isQuestion (words : List Text) : Bool :=
  words.head?.any fun w =>
    Text.sameIgnoringAsciiCase w ['i', 's'] || Text.sameIgnoringAsciiCase w ['w', 'a', 's']

/-- The sentence of an arrangement. -/
def render (m : Modifiers) (words : List Text) : Text :=
  Text.capitalize ([' '].intercalate (splice m words)) ++
    [if isQuestion words then '?' else '.']

/-! ### Sets of sentences -/

/-- Drop each member that equals the one before it. -/
def dropRepeats : List Text → List Text
  | s :: t :: rest => if s = t then dropRepeats (t :: rest) else s :: dropRepeats (t :: rest)
  | rest => rest

/-- The sentences in ascending order, none twice. -/
def sorted (sentences : List Text) : List Text :=
  dropRepeats (sentences.mergeSort fun s t => !decide (t < s))

end LinkGrammar.Sentence
