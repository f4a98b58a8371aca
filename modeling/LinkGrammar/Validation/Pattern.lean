/-
LinkGrammar/Validation/Pattern.lean

The patterns that cover neighbouring words of a sentence.

A pattern is met at some word.  It covers that word and the next few, and says how
far on the next word to look at is.
-/

namespace LinkGrammar

/-- What two neighbours and the words behind them can be. -/
inductive Pattern where
  /-- an instrument verb and `with` two words on -/
  | instrumentNear
  /-- an instrument verb and `with` three words on -/
  | instrumentFar
  /-- a word, an article, and a word to which both link -/
  | article
  /-- a word before `on` -/
  | particle
  /-- `wants to` and a verb -/
  | infinitive
  /-- `wants`, one word, `to` and a verb -/
  | infinitiveOverOne
  /-- `wants`, two words, `to` and a verb -/
  | infinitiveOverTwo
  /-- two words that link -/
  | link
  /-- a word before a `with` that goes with a later `on` -/
  | detachedWith
  deriving DecidableEq

namespace Pattern

/-- How far the last word covered is from the first. -/
def reach : Pattern → Nat
  | instrumentNear => 2
  | instrumentFar => 3
  | article => 2
  | particle => 1
  | infinitive => 2
  | infinitiveOverOne => 3
  | infinitiveOverTwo => 4
  | link => 1
  | detachedWith => 1

/-- How far on the next word to look at is. -/
def advance : Pattern → Nat
  | instrumentNear => 2
  | instrumentFar => 3
  | article => 2
  | particle => 1
  | infinitive => 3
  | infinitiveOverOne => 4
  | infinitiveOverTwo => 5
  | link => 1
  | detachedWith => 1

/-- Every pattern moves on. -/
theorem advance_pos (p : Pattern) : 0 < p.advance := by cases p <;> decide

end Pattern

end LinkGrammar
