/-
LinkGrammar/Text/Basic.lean

Texts: words, connectors, formulas and dictionaries are lists of characters.

Design.  A list of characters, rather than a packed string, lets every later
definition recurse on the text itself; packed strings appear only where output
leaves the library.  Positions in messages and the length rule for wildcards
count UTF-8 bytes, so the byte length of a text is the one measure defined here.
-/

namespace LinkGrammar

/-- A text is the list of its characters. -/
abbrev Text := List Char

namespace Text

/-- The number of bytes of the UTF-8 form. -/
def byteLength : Text → Nat
  | [] => 0
  | c :: t => c.utf8Size + byteLength t

/-- No characters, no bytes. -/
@[simp] theorem byteLength_nil : byteLength [] = 0 := rfl

/-- One character more. -/
@[simp] theorem byteLength_cons (c : Char) (t : Text) :
    byteLength (c :: t) = c.utf8Size + byteLength t := rfl

/-- The bytes of two texts add up. -/
@[simp] theorem byteLength_append (s t : Text) :
    byteLength (s ++ t) = byteLength s + byteLength t := by
  induction s with
  | nil => simp
  | cons c s ih => simp [ih, Nat.add_assoc]

/-- The pieces between the occurrences of `sep`; there is always at least one. -/
def splitAt (sep : Char) : Text → List Text
  | [] => [[]]
  | c :: t =>
    if c = sep then [] :: splitAt sep t
    else
      match splitAt sep t with
      | [] => [[c]]
      | piece :: pieces => (c :: piece) :: pieces

/-- Equality that ignores the case of ASCII letters, and of no others. -/
def sameIgnoringAsciiCase (s t : Text) : Bool :=
  s.map Char.toLower == t.map Char.toLower

end Text

/-- Membership of a number in a list of inclusive spans. -/
def inSpans (spans : List (Nat × Nat)) (n : Nat) : Bool :=
  spans.any fun span => span.1 ≤ n && n ≤ span.2

end LinkGrammar
