/-
LinkGrammar/Link/Words.lean

Links between words of a grammar.

Words are looked up as they are written, in the order in which they are named; the
first that has no rules is the answer's error.

A link has a place on either side, and the checks on three words compare places: a
word that links to two others must do so in their order.
-/
import LinkGrammar.Generation.Error
import LinkGrammar.Lexicon.Grammar
import LinkGrammar.Link.Basic

namespace LinkGrammar.Grammar

/-- The rules of a word that has some. -/
def knownRules (g : Grammar) (word : Text) : Except GenerateError (List Rule) :=
  match g.rules word with
  | [] => .error (.unknownWord word)
  | rules => .ok rules

/-! ### Two words -/

/-- Whether one word is a mass noun and the other a modifier or feminine. -/
def clash (g : Grammar) (word other : Text) : Bool :=
  g.hasTag word Tag.massNoun && (g.hasTag other Tag.modifier || g.hasTag other Tag.feminine)

/-- Whether two words may link at all.  The article `a` clashes with nothing, but
does not link to `is`. -/
def agree (g : Grammar) (left right : Text) : Bool :=
  if left = right || (left = ['a'] && right = ['i', 's']) then false
  else if left = ['a'] || right = ['a'] then true
  else !(g.clash left right || g.clash right left)

/-- The first link between the rules of two words. -/
def firstLink? (g : Grammar) (left right : Text) : Except GenerateError (Option Link) := do
  let leftRules ← g.knownRules left
  let rightRules ← g.knownRules right
  if g.agree left right then
    return leftRules.findSome? fun l => rightRules.findSome? fun r => Link.between? l.shape r.shape
  else
    return none

/-- Whether `left` links to the later word `right`. -/
def connects (g : Grammar) (left right : Text) : Except GenerateError Bool :=
  (g.firstLink? left right).map Option.isSome

/-- One of the two words of a link. -/
inductive Side where
  | left
  | right
  deriving DecidableEq

/-- The place of a link on one side. -/
def Side.place (s : Side) (l : Link) : Nat :=
  match s with
  | left => l.left
  | right => l.right

/-- Whether two words link, and the place of the link on one side; without a link
the place is 0. -/
def connectsAt (g : Grammar) (side : Side) (left right : Text) :
    Except GenerateError (Bool × Nat) :=
  (g.firstLink? left right).map fun
    | some link => (true, side.place link)
    | none => (false, 0)

/-! ### Three words -/

/-- Whether `left` and `mid` both link to `right`, `left` at the earlier place. -/
def connectsThrough (g : Grammar) (left mid right : Text) : Except GenerateError Bool :=
  if left = mid || left = right || mid = right || (mid = ['a'] && right = ['i', 's']) then
    return false
  else do
    let (leftOk, leftAt) ← g.connectsAt .right left right
    let (midOk, midAt) ← g.connectsAt .right mid right
    return leftOk && midOk && leftAt < midAt

/-- Whether `left` links to both `mid` and `right`, to `mid` from the earlier place. -/
def connectsLeft (g : Grammar) (left mid right : Text) : Except GenerateError Bool :=
  if left = mid || left = right || mid = right then
    return false
  else do
    let (midOk, midAt) ← g.connectsAt .left left mid
    let (rightOk, rightAt) ← g.connectsAt .left left right
    return midOk && rightOk && midAt < rightAt

/-! ### Single connectors -/

/-- Whether some rightward connector of a disjunct of `left` fits some leftward
connector of a disjunct of `right`.  Agreement is not asked for. -/
def connectsMin (g : Grammar) (left right : Text) : Except GenerateError Bool := do
  let leftRules ← g.knownRules left
  let rightRules ← g.knownRules right
  return (leftRules.flatMap Rule.disjuncts).any fun l =>
    (rightRules.flatMap Rule.disjuncts).any fun r =>
      l.rightward.any fun c => r.leftward.any fun d => Connector.fits (Connector.flip c) d

/-- Whether some disjunct of `rules` has a leftward connector that meets the rightward
connector `c`. -/
def meetsAny (rules : List Rule) (c : Connector) : Bool :=
  (rules.flatMap Rule.disjuncts).any fun d =>
    d.leftward.any fun e => Connector.fits (Connector.flip e) c

/-- As `meetsAny`, for disjuncts with no other leftward connector. -/
def meetsSole (rules : List Rule) (c : Connector) : Bool :=
  (rules.flatMap Rule.disjuncts).any fun d =>
    match d.leftward with
    | [e] => Connector.fits (Connector.flip e) c
    | _ => false

/-- The disjuncts of `rules` with several rightward connectors, reduced to these. -/
def branchings (rules : List Rule) : List (List Connector) :=
  ((rules.flatMap Rule.disjuncts).map Disjunct.rightward).filter (2 ≤ ·.length)

/-- The first connector that passes `test`, given by its place in its branching. -/
def firstPlace? (test : Connector → Bool) (bs : List (List Connector)) : Option Nat :=
  bs.findSome? (List.findIdx? test)

/-- Whether `mid`, `right` and `next` attach in this order to branchings of `left`.
Of each word the first place that is found counts. -/
def connectsFour (g : Grammar) (left mid right next : Text) : Except GenerateError Bool := do
  let bs := branchings (← g.knownRules left)
  let midRules ← g.knownRules mid
  let rightRules ← g.knownRules right
  let nextRules ← g.knownRules next
  match firstPlace? (meetsSole midRules) bs, firstPlace? (meetsSole rightRules) bs,
    firstPlace? (meetsAny nextRules) bs with
  | some m, some r, some n => return m < r && r < n
  | _, _, _ => return false

/-- The grammar in which the connector `c` is also a word, whose one rule is `c`. -/
def withConnectorWord (g : Grammar) (c : Connector) : Except GenerateError Grammar :=
  match Rule.ofText c with
  | .ok rule => .ok (g.overlay [(c, rule)])
  | .error e => .error (.formula e)

/-- What was found of `connectsAll` so far. -/
structure Reach where
  /-- some connector links through `mid` to `right` -/
  through : Bool
  /-- some connector links to `next` -/
  onward : Bool

/-- Try one connector as a word. -/
def reachFrom (g : Grammar) (mid right next : Text) (found : Reach) (c : Connector) :
    Except GenerateError Reach := do
  let extended ← g.withConnectorWord c
  let through ← extended.connectsThrough c mid right
  let onward ← extended.connects c next
  return ⟨found.through || through, found.onward || onward⟩

/-- Try the connectors of one rule after the other, until both links are found. -/
def reachAll (g : Grammar) (mid right next : Text) (found : Reach) :
    List Rule → Except GenerateError Bool
  | [] => .ok false
  | rule :: rules => do
    let found ← (branchings [rule]).flatten.foldlM (g.reachFrom mid right next) found
    if found.through && found.onward then return true
    else g.reachAll mid right next found rules

/-- Whether the connectors in the branchings of `left`, each taken as a word of its
own, reach both through `mid` to `right`, and to `next`. -/
def connectsAll (g : Grammar) (left mid right next : Text) : Except GenerateError Bool := do
  let leftRules ← g.knownRules left
  for word in [mid, right, next] do
    let _ ← g.knownRules word
  g.reachAll mid right next ⟨false, false⟩ leftRules

end LinkGrammar.Grammar
