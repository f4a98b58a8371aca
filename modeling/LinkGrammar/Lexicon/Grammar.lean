/-
LinkGrammar/Lexicon/Grammar.lean

Grammars: what the search for links asks about words.

A grammar is usually a lexicon.  Rules for a few more words can be laid over it
for the length of one question, without changing it.
-/
import LinkGrammar.Lexicon.Basic

namespace LinkGrammar

/-- Words are looked up as they are written; a word without rules is unknown. -/
structure Grammar where
  rules : Text → List Rule
  tags : Text → List Text

namespace Grammar

/-- Whether a word has a tag. -/
def hasTag (g : Grammar) (word tag : Text) : Bool := (g.tags word).contains tag

/-- The grammar in which the words of `added` have the rules given there, and no
others; the tags stay the same. -/
def overlay (g : Grammar) (added : List (Text × Rule)) : Grammar where
  rules word :=
    match added.filter (·.1 = word) with
    | [] => g.rules word
    | own => own.map Prod.snd
  tags := g.tags

end Grammar

/-- A lexicon as a grammar: words are looked up in its entries. -/
def Lexicon.grammar (l : Lexicon) : Grammar where
  rules word := (l.entry word).rules
  tags word := (l.entry word).tags

/-! ### Tags with a meaning -/

namespace Tag

/-- Nouns. -/
def noun : Text := ['n']

/-- Nouns that are not counted. -/
def massNoun : Text := ['n', '-', 'u']

/-- Verbs. -/
def verb : Text := ['v']

/-- Verbs in the past tense. -/
def pastVerb : Text := ['v', '-', 'd']

/-- Adverbs. -/
def adverb : Text := ['r']

/-- Modifiers, which clash with a mass noun. -/
def modifier : Text := ['m']

/-- Words of feminine gender, which clash with a mass noun too. -/
def feminine : Text := ['f']

end Tag

end LinkGrammar
