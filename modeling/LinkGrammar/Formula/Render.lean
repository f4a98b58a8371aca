/-
LinkGrammar/Formula/Render.lean

The text of a formula.  Operands that join operands themselves stand in
parentheses, so the text shows the grouping of the tree.
-/
import LinkGrammar.Formula.Basic

namespace LinkGrammar.Formula

/-- What stands between the operands of `&`. -/
def andSign : Text := [' ', '&', ' ']

/-- What stands between the operands of `or`. -/
def orSign : Text := [' ', 'o', 'r', ' ']

mutual

/-- The text of a formula. -/
def render : Formula → Text
  | leaf name => name
  | and fs => andSign.intercalate (renderOperands fs)
  | or fs => orSign.intercalate (renderOperands fs)
  | optional f => '{' :: render f ++ ['}']
  | cost f => '[' :: render f ++ [']']

/-- The texts of operands, each in parentheses if it is compound. -/
def renderOperands : List Formula → List Text
  | [] => []
  | f :: fs => (if f.isCompound then '(' :: render f ++ [')'] else render f) :: renderOperands fs

end

end LinkGrammar.Formula
