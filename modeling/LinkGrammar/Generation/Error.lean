/-
LinkGrammar/Generation/Error.lean

Why no sentences can be generated, or a question about words has no answer.
-/
import LinkGrammar.Formula.Error

namespace LinkGrammar

/-- Why there is no answer. -/
inductive GenerateError where
  /-- A word without rules. -/
  | unknownWord (word : Text)
  /-- A formula that cannot be read. -/
  | formula (error : FormulaError)
  /-- More words than may be arranged. -/
  | bagTooLarge (size limit : Nat)
  deriving DecidableEq

/-- What the user is told. -/
def GenerateError.message : GenerateError → String
  | unknownWord word => "word '" ++ String.ofList word ++ "' not found in lexicon"
  | formula error => error.message
  | bagTooLarge size limit =>
    "bag of " ++ toString size ++ " tokens exceeds the enumeration limit of " ++ toString limit

end LinkGrammar
