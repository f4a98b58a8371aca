/-
LinkGrammar/Formula/Basic.lean

Connector formulas as trees.

A formula says how a word may link: all of several parts (`&`), one of several
parts (`or`), a part that may be absent (`{…}`), a part that is allowed but less
liked (`[…]`).  There is no empty formula; where a text says nothing, the tree is
absent.

Design.  The operands of `&` and `or` are lists of any length, so that the tree
keeps the grouping of the text.  Functions on trees come with a companion on lists
of operands.
-/
import LinkGrammar.Connector.Basic

namespace LinkGrammar

/-- A formula as the tree of its parts. -/
inductive Formula where
  | leaf (name : Connector)
  | and (operands : List Formula)
  | or (operands : List Formula)
  | optional (body : Formula)
  | cost (body : Formula)

namespace Formula

/-! ### Equality -/

mutual

/-- Whether two trees are equal. -/
def decEq : (f g : Formula) → Decidable (f = g)
  | leaf a, leaf b => if h : a = b then isTrue (h ▸ rfl) else isFalse fun e => h (by injection e)
  | and fs, and gs =>
    match decEqList fs gs with
    | isTrue h => isTrue (h ▸ rfl)
    | isFalse h => isFalse fun e => h (by injection e)
  | or fs, or gs =>
    match decEqList fs gs with
    | isTrue h => isTrue (h ▸ rfl)
    | isFalse h => isFalse fun e => h (by injection e)
  | optional f, optional g =>
    match decEq f g with
    | isTrue h => isTrue (h ▸ rfl)
    | isFalse h => isFalse fun e => h (by injection e)
  | cost f, cost g =>
    match decEq f g with
    | isTrue h => isTrue (h ▸ rfl)
    | isFalse h => isFalse fun e => h (by injection e)
  | leaf _, and _ | leaf _, or _ | leaf _, optional _ | leaf _, cost _
  | and _, leaf _ | and _, or _ | and _, optional _ | and _, cost _
  | or _, leaf _ | or _, and _ | or _, optional _ | or _, cost _
  | optional _, leaf _ | optional _, and _ | optional _, or _ | optional _, cost _
  | cost _, leaf _ | cost _, and _ | cost _, or _ | cost _, optional _ =>
    isFalse fun e => by injection e

/-- Whether two lists of operands are equal. -/
def decEqList : (fs gs : List Formula) → Decidable (fs = gs)
  | [], [] => isTrue rfl
  | [], _ :: _ | _ :: _, [] => isFalse fun e => by injection e
  | f :: fs, g :: gs =>
    match decEq f g, decEqList fs gs with
    | isTrue h, isTrue hs => isTrue (h ▸ hs ▸ rfl)
    | isFalse h, _ => isFalse fun e => h (by injection e)
    | _, isFalse h => isFalse fun e => h (by injection e)

end

instance : DecidableEq Formula := decEq

/-! ### Shape -/

/-- Whether the formula joins operands, and so needs parentheses inside another. -/
def isCompound : Formula → Bool
  | and _ | or _ => true
  | _ => false

/-- The formula made optional.  What is optional already, at once or inside one
cost group, does not become optional twice. -/
def orAbsent : Formula → Formula
  | optional f => optional f
  | cost (optional f) => optional (cost f)
  | f => optional f

/-- All of the given parts; an absent part asks for nothing. -/
def conjunction (parts : List (Option Formula)) : Option Formula :=
  match parts.filterMap id with
  | [] => none
  | [f] => some f
  | fs => some (and fs)

/-- One of the given parts; an absent part allows to choose nothing. -/
def disjunction (parts : List (Option Formula)) : Option Formula :=
  let whole :=
    match parts.filterMap id with
    | [] => none
    | [f] => some f
    | fs => some (or fs)
  if parts.any Option.isNone then whole.map orAbsent else whole

end Formula

end LinkGrammar
