/-
LinkGrammar/Formula/Expansion.lean

The disjuncts of a formula: the ordered lists of connectors that it admits.

`disjuncts` lists all of them.  Their number grows exponentially with the optional
parts, so words are compared by `expand`, which keeps the first `maxDisjuncts` at
every node and notes whether any were dropped.
-/
import LinkGrammar.Formula.Basic

namespace LinkGrammar.Formula

/-! ### All disjuncts -/

/-- Every way to choose from `front` and then from `back`, `front` varying slowest. -/
def product (front back : List Disjunct) : List Disjunct :=
  front.flatMap fun a => back.map (a ++ ·)

mutual

/-- Every disjunct of the formula, in order. -/
def disjuncts : Formula → List Disjunct
  | leaf name => [[name]]
  | and fs => disjunctsOfAll fs
  | or fs => disjunctsOfAny fs
  | optional f => [] :: disjuncts f
  | cost f => disjuncts f

/-- One disjunct of each operand, joined. -/
def disjunctsOfAll : List Formula → List Disjunct
  | [] => [[]]
  | f :: fs => product (disjuncts f) (disjunctsOfAll fs)

/-- The disjuncts of one operand after the other. -/
def disjunctsOfAny : List Formula → List Disjunct
  | [] => []
  | f :: fs => disjuncts f ++ disjunctsOfAny fs

end

/-! ### The first of them -/

/-- How many disjuncts of one formula are kept. -/
def maxDisjuncts : Nat := 2048

/-- The disjuncts of a formula that were kept. -/
structure Expansion where
  disjuncts : List Disjunct
  /-- whether disjuncts were seen to be dropped -/
  truncated : Bool

namespace Expansion

/-- Keep the first `maxDisjuncts`. -/
def cap (e : Expansion) : Expansion :=
  ⟨e.disjuncts.take maxDisjuncts, e.truncated || maxDisjuncts < e.disjuncts.length⟩

end Expansion

/-- The first `room` entries of `product front back`. -/
def productUpTo (room : Nat) (front back : List Disjunct) : List Disjunct :=
  match front with
  | [] => []
  | a :: front =>
    if room = 0 then []
    else
      let here := (back.take room).map (a ++ ·)
      here ++ productUpTo (room - here.length) front back

mutual

/-- The first `maxDisjuncts` disjuncts of the formula. -/
def expand : Formula → Expansion
  | leaf name => ⟨[[name]], false⟩
  | and fs => expandAll ⟨[[]], false⟩ fs
  | or fs => (expandAny 0 fs).cap
  | optional f =>
    let e := expand f
    Expansion.cap ⟨[] :: e.disjuncts, e.truncated⟩
  | cost f => expand f

/-- `chosen` followed by one disjunct of each operand. -/
def expandAll (chosen : Expansion) : List Formula → Expansion
  | [] => chosen
  | f :: fs =>
    let e := expand f
    expandAll
      ⟨productUpTo maxDisjuncts chosen.disjuncts e.disjuncts,
        chosen.truncated || e.truncated ||
          maxDisjuncts < chosen.disjuncts.length * e.disjuncts.length⟩ fs

/-- The disjuncts of one operand after the other, when `found` are found already;
operands are left out once there are enough. -/
def expandAny (found : Nat) : List Formula → Expansion
  | [] => ⟨[], false⟩
  | f :: fs =>
    let e := expand f
    let found := found + e.disjuncts.length
    if maxDisjuncts ≤ found then e
    else
      let others := expandAny found fs
      ⟨e.disjuncts ++ others.disjuncts, e.truncated || others.truncated⟩

end

end LinkGrammar.Formula
