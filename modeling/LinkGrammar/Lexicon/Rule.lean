/-
LinkGrammar/Lexicon/Rule.lean

Rules: what a formula says about a word, worked out once.
-/
import LinkGrammar.Formula.Expansion
import LinkGrammar.Formula.NormalForm

namespace LinkGrammar

/-- The alternatives of a normal form, part by part. -/
structure Shape where
  /-- of the required part -/
  required : List Disjunct
  /-- of each optional group -/
  groups : List (List Disjunct)
  /-- of each optional group without what costs -/
  uncosted : List (List Disjunct)
  deriving DecidableEq

/-- The kept disjuncts of a formula; no formula has none. -/
def alternatives (f : Option Formula) : List Disjunct :=
  match f with
  | none => []
  | some f => f.expand.disjuncts

/-- The alternatives of each part of a normal form. -/
def Shape.ofNormalForm (n : Formula.NormalForm) : Shape where
  required := alternatives n.required
  groups := n.optionals.map fun g => alternatives (some g.body)
  uncosted := n.optionals.map fun g => alternatives g.uncosted

/-- A formula with what follows from it. -/
structure Rule where
  /-- the text of the formula, without the blanks at its ends -/
  formula : Text
  normal : Formula.NormalForm
  shape : Shape
  /-- the kept disjuncts of the whole formula that name a connector -/
  disjuncts : List Disjunct
  deriving DecidableEq

/-- The rule that a formula states. -/
def Rule.ofText (t : Text) : Except FormulaError Rule := do
  let normal ← Formula.normalize t
  let tree ← Formula.parse t
  return {
    formula := Text.trim t
    normal
    shape := Shape.ofNormalForm normal
    disjuncts := (alternatives tree).filter (· ≠ []) }

end LinkGrammar
