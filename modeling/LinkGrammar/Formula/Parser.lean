/-
LinkGrammar/Formula/Parser.lean

Reading formula text.

    choice   := sequence ("or" sequence)*
    sequence := part ("&" part)*
    part     := "(" choice? ")" | "{" choice? "}" | "[" choice? "]" weight? | name

An empty pair of brackets stands for nothing.  Next to `or` it makes the choice
optional, next to `&` it is dropped.

Design.  The reader takes the tokens one by one and keeps a stack of the brackets
that are open, with what was read before each.  It is a left fold, so reading
`s ++ t` is reading `s` and then `t` from where that ended.

Where a part is missing, the token in its place is to blame.  Where a part is
complete and something else than `&`, `or` or the right closer follows, the
innermost open bracket is to blame, for it was not closed.
-/
import LinkGrammar.Text.Digit
import LinkGrammar.Formula.Basic
import LinkGrammar.Formula.Error
import LinkGrammar.Formula.Token

namespace LinkGrammar.Formula

/-- A fault, without the text that was read. -/
inductive Fault where
  | unbalanced (delimiter : Char) (offset : Nat)
  | unexpected (token : Option Text)
  deriving DecidableEq

/-- The fault with the text that was read. -/
def Fault.inText (formula : Text) : Fault → FormulaError
  | unbalanced delimiter offset => .unbalanced formula delimiter offset
  | unexpected token => .unexpected formula token

/-- Whether a name is a number such as `0.5`, the weight after a cost group. -/
def isWeight (t : Text) : Bool :=
  let unsigned := match t with
    | '-' :: rest => rest
    | _ => t
  unsigned.takeWhile isDigit ≠ [] &&
    match unsigned.dropWhile isDigit with
    | [] => true
    | '.' :: decimals => decimals ≠ [] && decimals.all isDigit
    | _ => false

/-! ### The state of the reader -/

/-- What was read between two brackets so far, the last part first. -/
structure Level where
  /-- the finished sequences -/
  sequences : List (Option Formula)
  /-- the parts of the sequence under way -/
  parts : List (Option Formula)

namespace Level

/-- Nothing was read. -/
def empty : Level := ⟨[], []⟩

/-- One more part of the sequence under way; an absent part is kept as one. -/
def push (l : Level) (part : Option Formula) : Level := { l with parts := part :: l.parts }

/-- The sequence under way, as a formula. -/
def sequence (l : Level) : Option Formula := conjunction l.parts.reverse

/-- Finish the sequence under way and begin another. -/
def next (l : Level) : Level := ⟨l.sequence :: l.sequences, []⟩

/-- All that was read, as a formula. -/
def value (l : Level) : Option Formula := disjunction (l.sequence :: l.sequences).reverse

end Level

/-- A bracket that is still open, with what was read before it. -/
structure Enclosure where
  bracket : Bracket
  offset : Nat
  outer : Level

namespace Enclosure

/-- The fault of never closing this bracket. -/
def unclosed (e : Enclosure) : Fault := .unbalanced e.bracket.opener e.offset

/-- What the bracket makes of its contents. -/
def wrap (e : Enclosure) (inner : Option Formula) : Option Formula :=
  match e.bracket with
  | .round => inner
  | .square => inner.map cost
  | .curly => inner.map orAbsent

end Enclosure

/-- What may come next. -/
inductive Expectation where
  /-- a part, or at once the closer of the bracket just opened -/
  | partOrCloser
  | part
  /-- `&`, `or` or a closer -/
  | operator
  /-- the same, or the weight of the cost group just closed -/
  | operatorOrWeight
  deriving DecidableEq

/-- What was read of a formula so far: the level under way, and around it the brackets that
are open, the innermost first. -/
structure Reader where
  expectation : Expectation
  level : Level
  enclosures : List Enclosure

namespace Reader

/-- Before the first token. -/
def start : Reader := ⟨.part, .empty, []⟩

/-- Leave the innermost bracket if `b` closes it. -/
def leave? (r : Reader) (b : Bracket) : Option Reader :=
  match r.enclosures with
  | [] => none
  | e :: es =>
    if e.bracket = b then
      some ⟨if b = .square then .operatorOrWeight else .operator,
        e.outer.push (e.wrap r.level.value), es⟩
    else none

/-- Take a token where a part is expected. -/
def readPart (r : Reader) (t : Token) : Except Fault Reader :=
  match t.lexeme with
  | .name text => .ok { r with expectation := .operator, level := r.level.push (some (leaf text)) }
  | .opening b => .ok ⟨.partOrCloser, .empty, ⟨b, t.offset, r.level⟩ :: r.enclosures⟩
  | .closing b => .error (.unbalanced b.closer t.offset)
  | .and | .or => .error (.unexpected (some t.lexeme.text))

/-- Take a token where a part is complete. -/
def readOperator (r : Reader) (t : Token) : Except Fault Reader :=
  match t.lexeme with
  | .and => .ok { r with expectation := .part }
  | .or => .ok { r with expectation := .part, level := r.level.next }
  | .closing b =>
    match r.leave? b, r.enclosures with
    | some r, _ => .ok r
    | none, [] => .error (.unbalanced b.closer t.offset)
    | none, e :: _ => .error e.unclosed
  | .opening _ | .name _ =>
    match r.enclosures with
    | [] => .error (.unexpected (some t.lexeme.text))
    | e :: _ => .error e.unclosed

/-- Take one token.  The closer of an empty pair of brackets stands where a part is expected,
and a weight where an operator is. -/
def read (r : Reader) (t : Token) : Except Fault Reader :=
  match r.expectation, t.lexeme with
  | .part, _ => r.readPart t
  | .partOrCloser, .closing b => (r.leave? b).elim (r.readPart t) .ok
  | .partOrCloser, _ => r.readPart t
  | .operatorOrWeight, .name text =>
    if isWeight text then .ok { r with expectation := .operator } else r.readOperator t
  | .operator, _ | .operatorOrWeight, _ => r.readOperator t

/-- The formula, once all tokens are read. -/
def finish (r : Reader) : Except Fault (Option Formula) :=
  match r.expectation, r.enclosures with
  | .part, _ | .partOrCloser, _ => .error (.unexpected none)
  | _, [] => .ok r.level.value
  | _, e :: _ => .error e.unclosed

end Reader

/-- The formula of a list of tokens; no tokens stand for nothing. -/
def ofTokens (ts : List Token) : Except Fault (Option Formula) :=
  if ts.isEmpty then .ok none
  else do
    let r ← ts.foldlM Reader.read Reader.start
    r.finish

/-- The formula of a text. -/
def parse (t : Text) : Except FormulaError (Option Formula) :=
  (ofTokens (tokens t)).mapError (Fault.inText t)

end LinkGrammar.Formula
