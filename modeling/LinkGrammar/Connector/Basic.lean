/-
LinkGrammar/Connector/Basic.lean

Connectors: names with a mark that says on which side the other word stands.
`X+` links to a later word, `X-` to an earlier one; a name without a mark has no
direction.
-/
import LinkGrammar.Text.Basic

namespace LinkGrammar

/-- A connector as it stands in a formula, its mark included. -/
abbrev Connector := Text

/-- The side on which the other word stands. -/
inductive Polarity where
  | left
  | right
  deriving DecidableEq

namespace Polarity

/-- The sign behind the name of a connector: `-` or `+`. -/
def mark : Polarity → Char
  | left => '-'
  | right => '+'

/-- The other side. -/
def flip : Polarity → Polarity
  | left => right
  | right => left

/-- The polarity that a mark stands for. -/
def ofMark? (c : Char) : Option Polarity :=
  if c = '+' then some right else if c = '-' then some left else none

/-- The other side of the other side is the side itself. -/
@[simp] theorem flip_flip (p : Polarity) : p.flip.flip = p := by cases p <;> rfl

/-- A mark tells its polarity. -/
@[simp] theorem ofMark?_mark (p : Polarity) : ofMark? p.mark = some p := by cases p <;> rfl

end Polarity

namespace Connector

/-- The polarity that the last character gives. -/
def polarity? (c : Connector) : Option Polarity := c.getLast?.bind Polarity.ofMark?

/-- The connector with its mark reversed; without a mark it stays as it is. -/
def flip (c : Connector) : Connector :=
  match polarity? c with
  | some p => c.dropLast ++ [p.flip.mark]
  | none => c

/-- The connector without its mark. -/
def name (c : Connector) : Text := if (polarity? c).isSome then c.dropLast else c

end Connector

/-- An ordered list of connectors that a word offers together. -/
abbrev Disjunct := List Connector

namespace Disjunct

/-- The connectors of one polarity, in order. -/
def pointing (p : Polarity) (d : Disjunct) : List Connector :=
  d.filter fun c => Connector.polarity? c = some p

/-- The connectors to later words. -/
def rightward (d : Disjunct) : List Connector := pointing .right d

/-- The connectors to earlier words. -/
def leftward (d : Disjunct) : List Connector := pointing .left d

end Disjunct

end LinkGrammar
