/-
LinkGrammar/Dictionary/Error.lean

What can be wrong with the text of a dictionary.
-/
import LinkGrammar.Formula.Error

namespace LinkGrammar

/-- A fault in a dictionary. -/
inductive LoadError where
  /-- A statement without a colon. -/
  | missingColon (line : Nat) (entry : Text)
  /-- A pair of quotes with no word in it. -/
  | emptyWord (line : Nat)
  /-- An abbreviation that no earlier statement defines. -/
  | undefinedAbbreviation (line : Nat) (name : Text)
  /-- A word whose formula cannot be read. -/
  | malformedFormula (word : Text) (error : FormulaError)
  deriving DecidableEq

/-- What the user is told about the fault, with its line or word. -/
def LoadError.message : LoadError → String
  | missingColon line entry =>
    "line " ++ toString line ++ ": expected ':' in entry '" ++ String.ofList entry ++ "'"
  | emptyWord line => "line " ++ toString line ++ ": empty word"
  | undefinedAbbreviation line name =>
    "line " ++ toString line ++ ": macro <" ++ String.ofList name ++
      "> used before it was defined"
  | malformedFormula word error =>
    "entry for '" ++ String.ofList word ++ "' has a malformed formula: " ++ error.message

end LinkGrammar
