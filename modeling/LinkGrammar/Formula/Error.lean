/-
LinkGrammar/Formula/Error.lean

What can be wrong with the text of a formula.
-/
import LinkGrammar.Text.Basic

namespace LinkGrammar

/-- A fault in a formula, with the whole text that was read. -/
inductive FormulaError where
  /-- A bracket without its partner, and the byte at which it stands. -/
  | unbalanced (formula : Text) (delimiter : Char) (offset : Nat)
  /-- A token that cannot stand where it was found; `none` is the end of the text. -/
  | unexpected (formula : Text) (token : Option Text)
  deriving DecidableEq

/-- What the user is told about the fault, with the text of the formula. -/
def FormulaError.message : FormulaError → String
  | unbalanced formula delimiter offset =>
    "unbalanced '" ++ String.singleton delimiter ++ "' at byte " ++ toString offset ++
      " in formula '" ++ String.ofList formula ++ "'"
  | unexpected formula token =>
    "unexpected '" ++ ((token.map String.ofList).getD "<end>") ++ "' in formula '" ++
      String.ofList formula ++ "'"

end LinkGrammar
