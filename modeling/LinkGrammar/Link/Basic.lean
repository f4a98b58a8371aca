/-
LinkGrammar/Link/Basic.lean

Links between two rules, of an earlier and of a later word.

The parts of the rules are paired in four passes, and the first pair that links
counts: required parts with each other, optional groups with each other, optional
groups of the earlier word with the required part of the later one, and the other
way round.  In the last two passes what costs is left out.
-/
import LinkGrammar.Connector.Compare
import LinkGrammar.Lexicon.Rule

namespace LinkGrammar

/-- Where two rules link: the place, counted from 1, of the alternative or of the
optional group on either side. -/
structure Link where
  left : Nat
  right : Nat
  deriving DecidableEq

/-- Whether two alternatives link: the rightward connectors of the earlier one,
flipped, fit the leftward connectors of the later one. -/
def alternativesLink (left right : Disjunct) : Bool :=
  Connector.fitAll (left.rightward.map Connector.flip) right.leftward

namespace Link

/-- The places of the first pair that passes `test`, counted from 1; the places of
the first list vary slowest. -/
def firstPair? {α β : Type} (test : α → β → Bool) (as : List α) (bs : List β) :
    Option (Nat × Nat) :=
  (as.zipIdx 1).findSome? fun (a, i) =>
    (bs.zipIdx 1).findSome? fun (b, j) => if test a b then some (i, j) else none

/-- A link between the required parts. -/
def requiredPass (left right : Shape) : Option Link :=
  (firstPair? alternativesLink left.required right.required).map fun (i, j) => ⟨i, j⟩

/-- A link between two optional groups, one of either word. -/
def groupPass (left right : Shape) : Option Link :=
  let test as bs := as.any fun a => bs.any (alternativesLink a)
  (firstPair? test left.groups right.groups).map fun (i, j) => ⟨i, j⟩

/-- A link between an optional group of the earlier word and the required part of the later. -/
def groupToRequiredPass (left right : Shape) : Option Link :=
  let test as b := as.any fun a => alternativesLink a b
  (firstPair? test left.uncosted right.required).map fun (i, j) => ⟨i, j⟩

/-- Here the groups of the later word vary slowest. -/
def requiredToGroupPass (left right : Shape) : Option Link :=
  let test bs a := bs.any fun b => alternativesLink a b
  (firstPair? test right.uncosted left.required).map fun (j, i) => ⟨i, j⟩

/-- The first link between two shapes. -/
def between? (left right : Shape) : Option Link :=
  requiredPass left right
    <|> groupPass left right
    <|> groupToRequiredPass left right
    <|> requiredToGroupPass left right

end Link

end LinkGrammar
