/-
LinkGrammar/Connector/Compare.lean

When two connectors fit together.

Both sides are written with the same polarity: whoever looks for a link first
flips one of them.  Single connectors fit when they are equal, when a wildcard in
one covers the other, or when one name begins the other (`Ss` fits `Ssm`).  In
lists of several connectors a shortened name does not count.
-/
import LinkGrammar.Connector.Basic

namespace LinkGrammar.Connector

/-- Whether the stars of `pattern` cover `other`.  Of two texts of one length the
parts around the stars must agree; otherwise all of `other` must begin the part
before the first star. -/
def wildcard (pattern other : Text) : Bool :=
  let before := pattern.takeWhile (· ≠ '*')
  let after := (pattern.reverse.takeWhile (· ≠ '*')).reverse
  if !pattern.contains '*' then false
  else if Text.byteLength pattern = Text.byteLength other then
    before.isPrefixOf other && after.isSuffixOf other
  else other.isPrefixOf before

/-- Whether one name begins the other and is shorter. -/
def shortens (a b : Text) : Bool :=
  a ≠ [] && b ≠ [] && a ≠ b && (a.isPrefixOf b || b.isPrefixOf a)

/-- Equal or covered by a wildcard, with the same polarity. -/
def fitsExactly (a b : Connector) : Bool :=
  a ≠ [] && polarity? a = polarity? b && (a = b || wildcard a b || wildcard b a)

/-- Whether two connectors fit; shortened names count.  An empty one fits nothing. -/
def fits (a b : Connector) : Bool :=
  a ≠ [] && b ≠ [] && polarity? a = polarity? b &&
    (a = b || wildcard a b || wildcard b a || shortens (name a) (name b))

/-- Whether two lists of connectors fit: single connectors as `fits` has it,
longer lists place by place and exactly, and an empty list never. -/
def fitAll : List Connector → List Connector → Bool
  | [], _ => false
  | _, [] => false
  | [a], [b] => fits a b
  | as, bs => as.length = bs.length && (as.zip bs).all fun (a, b) => fitsExactly a b

end LinkGrammar.Connector
