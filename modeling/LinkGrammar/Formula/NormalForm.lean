/-
LinkGrammar/Formula/NormalForm.lean

Formulas with their optional groups set apart.

A word must use its required part and may use its optional groups, so links are
looked for in each of these by itself.  Optional groups inside a group are left
out of it, and of each group there is a second view without what costs.

Design.  The groups are cut out of the canonical text, and what is left is repaired
and read again.
-/
import LinkGrammar.Formula.Cleanup
import LinkGrammar.Formula.Parser
import LinkGrammar.Formula.Region
import LinkGrammar.Formula.Render

namespace LinkGrammar.Formula

/-- One optional group. -/
structure OptionalGroup where
  body : Formula
  /-- the body without its cost groups, if anything is left -/
  uncosted : Option Formula
  deriving DecidableEq

/-- The canonical text of a formula: empty brackets have become optional groups or
are gone, and the grouping shows. -/
def canonicalText (t : Text) : Except FormulaError Text :=
  (parse t).map fun f => (f.map render).getD []

/-- The text with every region cut out and the damage repaired. -/
def withoutGroups (opener closer : Char) (t : Text) : Except FormulaError Text :=
  (withoutRegions opener closer t).map cleanup

/-- The group with the given contents, if anything is left of them. -/
def OptionalGroup.ofText? (inner : Text) : Except FormulaError (Option OptionalGroup) := do
  let bodyText ← withoutGroups '{' '}' inner
  match ← parse bodyText with
  | none => return none
  | some body =>
    let uncosted ← parse (← withoutGroups '[' ']' bodyText)
    return some ⟨body, uncosted⟩

/-- The optional groups of a text, and the text without them. -/
def splitGroups (t : Text) : Except FormulaError (List OptionalGroup × Text) :=
  match h : cutRegion '{' '}' t with
  | .error e => .error e
  | .ok none => .ok ([], t)
  | .ok (some cut) => do
    have := length_rest_lt_of_cutRegion h
    let group? ← OptionalGroup.ofText? cut.inner
    let (groups, rest) ← splitGroups cut.rest
    return (group?.toList ++ groups, rest)
termination_by t.length

/-- A formula split into its required part and its optional groups. -/
structure NormalForm where
  required : Option Formula
  optionals : List OptionalGroup
  deriving DecidableEq

/-- The normal form of a formula. -/
def normalize (t : Text) : Except FormulaError NormalForm := do
  let (optionals, rest) ← splitGroups (← canonicalText t)
  let required ← parse (cleanup rest)
  return ⟨required, optionals⟩

/-- The text without any bracket. -/
def flatten (t : Text) : Text := tidy (t.filter fun c => !(isOpener c || isCloser c))

namespace NormalForm

/-- The text of the required part; next to optional groups a choice stands in
parentheses. -/
def renderRequired (n : NormalForm) : List Text :=
  match n.required with
  | none => []
  | some (or fs) =>
    let text := Formula.render (or fs)
    [if n.optionals.isEmpty then text else '(' :: text ++ [')']]
  | some f => [Formula.render f]

/-- The text of a normal form. -/
def render (n : NormalForm) : Text :=
  andSign.intercalate
    (n.renderRequired ++ n.optionals.map fun g => '{' :: Formula.render g.body ++ ['}'])

/-- The connectors of a normal form and the operators between them. -/
def flat (n : NormalForm) : Text := flatten n.render

end NormalForm

end LinkGrammar.Formula
