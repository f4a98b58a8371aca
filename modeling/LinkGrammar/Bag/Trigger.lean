/-
LinkGrammar/Bag/Trigger.lean

What the words of a bag set off before any ordering is tried: modifiers that are
taken out of the bag, and idioms that may apply to its orderings.
-/
import LinkGrammar.Text.Case

namespace LinkGrammar

/-- The modifiers in play. -/
structure Modifiers where
  /-- `not`, which goes before the first `a` of a sentence -/
  negated : Bool
  /-- `now`, which goes behind the word after the first `a` -/
  present : Bool
  deriving DecidableEq

/-- No modifiers. -/
def Modifiers.none : Modifiers := ⟨false, false⟩

/-- The idioms to look for, by their key words. -/
structure Idioms where
  /-- an instrument verb, later `with` -/
  instrument : Bool
  /-- `on` at the end of a phrase -/
  particle : Bool
  /-- `wants … to` -/
  infinitive : Bool
  /-- `a` or `the` -/
  article : Bool
  deriving DecidableEq

/-- All idioms, whatever the words. -/
def Idioms.all : Idioms := ⟨true, true, true, true⟩

/-- What the words of a bag set off. -/
structure Trigger where
  modifiers : Modifiers
  idioms : Idioms
  deriving DecidableEq

namespace Trigger

/-- Scan a bag, whatever the case of its words.  Without `a` in the bag, `not` and
`now` are ordinary words. -/
def scan (bag : List Text) : Trigger :=
  let words := bag.map Text.lower
  let hasArticle := words.contains ['a']
  { modifiers := {
      negated := hasArticle && words.contains ['n', 'o', 't']
      present := hasArticle && words.contains ['n', 'o', 'w'] }
    idioms := {
      instrument := words.contains ['w', 'i', 't', 'h']
      particle := words.contains ['o', 'n']
      infinitive := words.contains ['w', 'a', 'n', 't', 's']
      article := hasArticle || words.contains ['t', 'h', 'e'] } }

end Trigger

end LinkGrammar
