/-
LinkGrammar/Generation/Basic.lean

All sentences of a bag of words.

The modifiers are taken out of the bag, every arrangement of the rest is judged, and
those that are accepted are written out with the modifiers back in.
-/
import LinkGrammar.Bag.Arrangement
import LinkGrammar.Decimal.Share
import LinkGrammar.Generation.Sentence
import LinkGrammar.Validation.Basic

namespace LinkGrammar

/-- What a user may set for a run. -/
structure Options where
  /-- the most words that may be arranged -/
  maxBag : Option Nat
  /-- whether `not` and `now` are modifiers when the bag holds `a` -/
  modifiers : Bool
  deriving DecidableEq

/-- No limit on the bag, and modifiers are taken out of it. -/
def Options.default : Options := ⟨none, true⟩

/-- What a user may want to know before waiting for the answer. -/
inductive Warning where
  | largeBag
  deriving DecidableEq

/-- What the user is told. -/
def Warning.message : Warning → String
  | largeBag => "large bag; enumeration is factorial in its size"

/-- The number of words above which a bag is called large. -/
def largeBag : Nat := 8

/-- The sentences of a bag, with the counts of the search for them. -/
structure Generation where
  /-- in ascending order, none twice -/
  sentences : List Text
  /-- the modifiers taken out of the bag -/
  modifiers : Modifiers
  /-- how many arrangements were seen -/
  arrangements : Nat
  /-- how many were accepted -/
  accepted : Nat
  /-- how many the filter refused -/
  filtered : Nat
  warnings : List Warning
  deriving DecidableEq

namespace Generation

/-- The share of the arrangements that was accepted, with six decimals. -/
def acceptance (r : Generation) : String := Decimal.share r.accepted r.arrangements 6

/-! ### The bag -/

/-- The modifiers that count under the options. -/
def modifiersOf (o : Options) (tokens : List Text) : Modifiers :=
  if o.modifiers then (Trigger.scan tokens).modifiers else .none

/-- The tokens without the first `not` and the first `now` that are modifiers. -/
def withoutModifiers (m : Modifiers) (tokens : List Text) : List Text :=
  let remove (word : Text) (tokens : List Text) :=
    tokens.eraseP (Text.sameIgnoringAsciiCase · word)
  let tokens := if m.negated then remove ['n', 'o', 't'] tokens else tokens
  if m.present then remove ['n', 'o', 'w'] tokens else tokens

/-- The words to arrange. -/
def bagOf (o : Options) (tokens : List Text) : List Text :=
  withoutModifiers (modifiersOf o tokens) tokens

/-- What stands against arranging a bag: too many words, or else a word without rules. -/
def obstacle? (g : Grammar) (o : Options) (bag : List Text) : Option GenerateError :=
  match o.maxBag.filter (· < bag.length) with
  | some limit => some (.bagTooLarge bag.length limit)
  | none => (bag.find? fun w => (g.rules (Text.lower w)).isEmpty).map .unknownWord

/-! ### The search -/

/-- What the search has found so far, the last sentence first. -/
structure Search where
  found : List Text
  arrangements : Nat
  accepted : Nat
  filtered : Nat

namespace Search

/-- Before the first arrangement. -/
def start : Search := ⟨[], 0, 0, 0⟩

/-- Judge one arrangement. -/
def consider (g : Grammar) (idioms : Idioms) (m : Modifiers) (keep : List Text → Bool)
    (s : Search) (words : List Text) : Except GenerateError Search :=
  let s := { s with arrangements := s.arrangements + 1 }
  if !keep words then .ok { s with filtered := s.filtered + 1 }
  else
    (g.accepts idioms words).map fun ok =>
      if ok then { s with accepted := s.accepted + 1, found := Sentence.render m words :: s.found }
      else s

/-- Judge one arrangement with a filter that may change its memory. -/
def considerWith {μ : Type} (g : Grammar) (idioms : Idioms) (m : Modifiers)
    (filter : μ → List Text → Bool × μ) (s : Search × μ) (words : List Text) :
    Except GenerateError (Search × μ) :=
  let (pass, memory) := filter s.2 words
  (s.1.consider g idioms m (fun _ => pass) words).map (·, memory)

end Search

/-! ### Runs -/

/-- What is told of a search that has judged all arrangements of the bag. -/
def ofSearch (m : Modifiers) (bag : List Text) (s : Search) : Generation where
  sentences := Sentence.sorted s.found
  modifiers := m
  arrangements := s.arrangements
  accepted := s.accepted
  filtered := s.filtered
  warnings := if largeBag < bag.length then [.largeBag] else []

/-- All sentences of the tokens whose arrangements the filter lets pass.  The filter is asked
about every arrangement before it is judged; what it remembers in the end is given too. -/
def runWith {μ : Type} (g : Grammar) (filter : μ → List Text → Bool × μ) (memory : μ)
    (o : Options) (tokens : List Text) : Except GenerateError (Generation × μ) :=
  let m := modifiersOf o tokens
  let bag := bagOf o tokens
  if bag.isEmpty then .ok (⟨[], m, 0, 0, 0, []⟩, memory)
  else
    match obstacle? g o bag with
    | some e => .error e
    | none =>
      let consider := Search.considerWith g (Trigger.scan tokens).idioms m filter
      (visitArrangements consider (Search.start, memory) bag).map fun (s, memory) =>
        (ofSearch m bag s, memory)

/-- The filter that answers as `keep` does and remembers nothing. -/
def memoryless (keep : List Text → Bool) (_ : Unit) (words : List Text) : Bool × Unit :=
  (keep words, ())

/-- All sentences of the tokens whose arrangements `keep` lets pass. -/
def run (g : Grammar) (keep : List Text → Bool) (o : Options) (tokens : List Text) :
    Except GenerateError Generation :=
  (runWith g (memoryless keep) () o tokens).map Prod.fst

end Generation

/-- All sentences of the tokens. -/
def generate (g : Grammar) (o : Options) (tokens : List Text) : Except GenerateError Generation :=
  Generation.run g (fun _ => true) o tokens

end LinkGrammar
