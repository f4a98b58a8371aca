/-
LinkGrammar/Validation/Basic.lean

Whether a list of tokens, in its order, is a sentence.

The first and the last word must be able to stand there.  Between them one scan
from left to right must find a pattern at every place it comes to; it never goes
back.
-/
import LinkGrammar.Validation.Place

namespace LinkGrammar

/-- The token that may stand at the front only, and is told apart by its case. -/
def placeholder : Text := ['A']

namespace Grammar

/-- Whether a word cannot open a sentence: verbs that are no nouns. -/
def cannotOpen (g : Grammar) (word : Text) : Bool :=
  (g.hasTag word Tag.verb || g.hasTag word Tag.pastVerb) &&
    !(g.hasTag word Tag.noun || g.hasTag word Tag.massNoun)

/-- Whether a word cannot close a sentence: the article, and words with tags none of
which is that of a noun or an adverb. -/
def cannotClose (g : Grammar) (word : Text) : Bool :=
  word = Keyword.a ||
    (g.tags word ≠ [] &&
      !(g.hasTag word Tag.noun || g.hasTag word Tag.adverb || g.hasTag word Tag.massNoun))

/-- The scan from the `i`-th word on. -/
def scanFrom (g : Grammar) (idioms : Idioms) (words : List Text) (i : Nat) :
    Except GenerateError Bool :=
  match h : Place.at? words i with
  | none => .ok true
  | some p =>
    if p.left = p.right then .ok false
    else
      match p.pattern? g idioms with
      | .error e => .error e
      | .ok none => .ok false
      | .ok (some pattern) =>
        have := Place.lt_length_of_at? h
        have := pattern.advance_pos
        g.scanFrom idioms words (i + pattern.advance)
termination_by words.length - i

/-- Whether tokens form a sentence.  But for the placeholder, case does not matter. -/
def accepts (g : Grammar) (idioms : Idioms) (tokens : List Text) : Except GenerateError Bool :=
  if tokens.tail.contains placeholder then .ok false
  else
    let words := tokens.map fun t => Text.lower (Text.trim t)
    match words.head?, words.getLast? with
    | some first, some last =>
      if g.cannotOpen first || g.cannotClose last then .ok false
      else g.scanFrom idioms words 0
    | _, _ => .ok false

end Grammar

end LinkGrammar
