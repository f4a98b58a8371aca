/-
LinkGrammar/Formula/Token.lean

Tokens of formula text: brackets, `&`, the word `or`, and names.

A name is a longest run of characters that are neither blanks nor brackets nor
`&`.  Each token knows the byte at which it starts, for messages.
-/
import LinkGrammar.Text.Blank

namespace LinkGrammar.Formula

/-- The three kinds of brackets. -/
inductive Bracket where
  /-- parentheses, for grouping -/
  | round
  /-- brackets around what is less liked -/
  | square
  /-- braces around what may be absent -/
  | curly
  deriving DecidableEq

namespace Bracket

/-- The character that opens a bracket of the kind. -/
def opener : Bracket → Char
  | round => '('
  | square => '['
  | curly => '{'

/-- The character that closes it. -/
def closer : Bracket → Char
  | round => ')'
  | square => ']'
  | curly => '}'

end Bracket

/-- What a token says, wherever it stands. -/
inductive Lexeme where
  | opening (bracket : Bracket)
  | closing (bracket : Bracket)
  | and
  | or
  | name (text : Text)
  deriving DecidableEq

namespace Lexeme

/-- The text of a token. -/
def text : Lexeme → Text
  | opening b => [b.opener]
  | closing b => [b.closer]
  | and => ['&']
  | or => ['o', 'r']
  | name t => t

/-- The token that a single character makes, if it is no part of a name. -/
def ofChar? (c : Char) : Option Lexeme :=
  if c = '(' then some (opening .round)
  else if c = ')' then some (closing .round)
  else if c = '[' then some (opening .square)
  else if c = ']' then some (closing .square)
  else if c = '{' then some (opening .curly)
  else if c = '}' then some (closing .curly)
  else if c = '&' then some and
  else none

/-- The token that a run of name characters makes. -/
def ofRun (t : Text) : Lexeme := if t = ['o', 'r'] then or else name t

end Lexeme

/-- Whether a character can stand in a name. -/
def isNameChar (c : Char) : Bool := !isBlank c && (Lexeme.ofChar? c).isNone

/-- A token with the byte at which it starts. -/
structure Token where
  lexeme : Lexeme
  offset : Nat
  deriving DecidableEq

/-- The tokens of a text that starts at byte `offset`. -/
def tokensFrom (offset : Nat) (t : Text) : List Token :=
  match t with
  | [] => []
  | c :: rest =>
    if isBlank c then tokensFrom (offset + c.utf8Size) rest
    else
      match Lexeme.ofChar? c with
      | some lexeme => ⟨lexeme, offset⟩ :: tokensFrom (offset + c.utf8Size) rest
      | none =>
        let run := c :: rest.takeWhile isNameChar
        ⟨Lexeme.ofRun run, offset⟩ ::
          tokensFrom (offset + Text.byteLength run) (rest.dropWhile isNameChar)
termination_by t.length
decreasing_by
  · simp
  · simp
  · have := Text.length_dropWhile_le isNameChar rest
    simp; omega

/-- The tokens of a whole text. -/
def tokens (t : Text) : List Token := tokensFrom 0 t

end LinkGrammar.Formula
