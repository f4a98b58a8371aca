/-
LinkGrammar/Validation/Place.lean

Which pattern is met at a place of a sentence.

Design.  A place shows two neighbours with the words around them as lists, so that
every word a window asks for is there by the match that found it.  A window that
applies decides: if its check fails, the later patterns are not tried.
-/
import LinkGrammar.Bag.Trigger
import LinkGrammar.Link.Words
import LinkGrammar.Validation.Pattern

namespace LinkGrammar

/-! ### Key words of the idioms -/

namespace Keyword

/-- The article that gives the modifiers their place. -/
def a : Text := ['a']

/-- The other article. -/
def the : Text := ['t', 'h', 'e']

/-- The word between `wants` and its verb. -/
def toWord : Text := ['t', 'o']

/-- The particle that may end a phrase. -/
def onWord : Text := ['o', 'n']

/-- The word before an instrument. -/
def withWord : Text := ['w', 'i', 't', 'h']

/-- The verb that asks for `to` and another verb. -/
def wants : Text := ['w', 'a', 'n', 't', 's']

/-- The verb that takes an instrument whatever its rules. -/
def saw : Text := ['s', 'a', 'w']

/-- The word whose first rule marks instrument verbs. -/
def sawed : Text := ['s', 'a', 'w', 'e', 'd']

/-- As `sawed`, in sentences that hold `to`. -/
def writes : Text := ['w', 'r', 'i', 't', 'e', 's']

end Keyword

/-- Two neighbours in a sentence. -/
structure Place where
  /-- the words before them, the nearest first -/
  before : List Text
  left : Text
  right : Text
  /-- the words behind them -/
  after : List Text

namespace Place

/-- The place whose left word is the `i`-th, if a word follows it. -/
def at? (words : List Text) (i : Nat) : Option Place :=
  match words.drop i with
  | left :: right :: after => some ⟨(words.take i).reverse, left, right, after⟩
  | _ => none

/-- The right neighbour of a place is a word of the sentence. -/
theorem lt_length_of_at? {words : List Text} {i : Nat} {p : Place} (h : at? words i = some p) :
    i + 1 < words.length := by
  unfold at? at h
  split at h
  · next e =>
    have := congrArg List.length e
    simp at this; omega
  · simp at h

/-- Whether a word occurs anywhere in the sentence. -/
def holds (p : Place) (word : Text) : Bool :=
  p.before.contains word || word = p.left || word = p.right || p.after.contains word

/-- Whether a word occurs before the right neighbour. -/
def holdsUpToLeft (p : Place) (word : Text) : Bool :=
  p.before.contains word || word = p.left

/-! ### Instrument verbs -/

/-- Whether two words have the same first rule; rules are compared by their text. -/
def sameFirstRule (g : Grammar) (word other : Text) : Bool :=
  match (g.rules word).head?, (g.rules other).head? with
  | some r, some s => r.formula = s.formula
  | _, _ => false

/-- Whether the left word takes an instrument. -/
def isInstrumentVerb (g : Grammar) (p : Place) : Bool :=
  p.left = Keyword.saw || sameFirstRule g p.left Keyword.sawed ||
    (sameFirstRule g p.left Keyword.writes && p.holds Keyword.toWord)

/-- Where an instrument begins. -/
inductive WithPosition where
  /-- the word after the right neighbour is `with` -/
  | near
  /-- so is the next but one, with a word between -/
  | far (between : Text)

/-- The position of the first `with` of the sentence, if it is among the two words
after the right neighbour. -/
def withPosition? (p : Place) : Option WithPosition :=
  if p.holdsUpToLeft Keyword.withWord || p.right = Keyword.withWord then none
  else
    match p.after with
    | [] => none
    | x :: rest =>
      if x = Keyword.withWord then some .near
      else if rest.head? = some Keyword.withWord then some (.far x)
      else none

/-! ### Windows -/

/-- The pattern, if its check holds. -/
def guarded (pattern : Pattern) (check : Except GenerateError Bool) :
    Except GenerateError (Option Pattern) :=
  check.map fun ok => if ok then some pattern else none

/-- The check that an instrument verb makes of the words up to `with`. -/
def instrumentCheck (g : Grammar) (p : Place) : WithPosition → Except GenerateError (Option Pattern)
  | .near => guarded .instrumentNear (g.connectsLeft p.left p.right Keyword.withWord)
  | .far between =>
    guarded .instrumentFar <|
      if p.right = Keyword.toWord then do
        if ← g.connectsLeft p.left p.right Keyword.withWord then g.connects p.right between
        else return false
      else if p.right = Keyword.the then
        g.connectsAll p.left p.right between Keyword.withWord
      else return false

/-- The window of an instrument verb; `none` if it does not apply. -/
def instrument? (g : Grammar) (p : Place) : Option (Except GenerateError (Option Pattern)) :=
  if p.isInstrumentVerb g then p.withPosition?.map (p.instrumentCheck g) else none

/-- The window of an article. -/
def article? (g : Grammar) (p : Place) : Option (Except GenerateError (Option Pattern)) :=
  if p.right = Keyword.a || p.right = Keyword.the then
    p.after.head?.map fun x => guarded .article (g.connectsThrough p.left p.right x)
  else none

/-- The window of `on`, for words that stand behind `a` or `with`. -/
def particle? (g : Grammar) (p : Place) : Option (Except GenerateError (Option Pattern)) :=
  if p.right = Keyword.onWord then
    match p.before with
    | x :: y :: more =>
      if x = Keyword.a || x = Keyword.withWord then
        some <| guarded .particle <|
          match (if x = Keyword.a then more.head? else none) with
          | some z => g.connectsLeft z y p.right
          | none => do
            if ← g.connectsLeft y x p.right then return true
            else
              match more.tail.head? with
              | some head => g.connectsMin head p.right
              | none => return false
      else none
    | _ => none
  else none

/-- The window of `wants`.  Over two words, the one right behind `wants` is not asked
about. -/
def infinitive? (g : Grammar) (p : Place) : Option (Except GenerateError (Option Pattern)) :=
  if p.left = Keyword.wants then
    match p.after with
    | [] => none
    | x :: rest =>
      some <|
        if p.right = Keyword.toWord then guarded .infinitive (g.connectsLeft p.left p.right x)
        else if x = Keyword.toWord then
          match rest with
          | y :: _ => guarded .infinitiveOverOne (g.connectsFour p.left p.right x y)
          | [] => return none
        else
          match rest with
          | y :: z :: _ =>
            if y = Keyword.toWord then guarded .infinitiveOverTwo (g.connectsFour p.left x y z)
            else return none
          | _ => return none
  else none

/-! ### The pattern at a place -/

/-- Two words that link, or failing that a `with` that goes with a later `on`. -/
def neighbours (g : Grammar) (p : Place) : Except GenerateError (Option Pattern) := do
  if ← g.connects p.left p.right then return some .link
  else if p.right = Keyword.withWord && !p.holdsUpToLeft Keyword.onWord &&
      p.after.contains Keyword.onWord then
    guarded .detachedWith (g.connectsLeft p.left p.right Keyword.onWord)
  else return none

/-- The window that applies at a place, of the idioms to look for. -/
def window? (g : Grammar) (idioms : Idioms) (p : Place) :
    Option (Except GenerateError (Option Pattern)) :=
  (if idioms.instrument then p.instrument? g else none)
    <|> (if idioms.article then p.article? g else none)
    <|> (if idioms.particle then p.particle? g else none)
    <|> (if idioms.infinitive then p.infinitive? g else none)

/-- The pattern met at a place. -/
def pattern? (g : Grammar) (idioms : Idioms) (p : Place) :
    Except GenerateError (Option Pattern) :=
  (p.window? g idioms).getD (p.neighbours g)

end Place

end LinkGrammar
