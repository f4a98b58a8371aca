/-
LinkGrammar/Text/Case.lean

Full Unicode case mapping.  Lower case is taken of whole texts, because a capital
sigma at the end of a word becomes the final sigma; upper case is needed of single
characters only, and may give several.
-/
import LinkGrammar.Text.Case.Table

namespace LinkGrammar

/-- The lower case of a character by itself. -/
def lowerChar (c : Char) : Text :=
  if c = 'İ' then ['i', '\u0307']
  else
    match CaseRun.image? lowerRuns c.toNat with
    | some n => [Char.ofNat n]
    | none => [c]

/-- The upper case of a character. -/
def upperChar (c : Char) : Text :=
  match upperSequences.lookup c.toNat with
  | some ns => ns.map Char.ofNat
  | none =>
    match CaseRun.image? upperRuns c.toNat with
    | some n => [Char.ofNat n]
    | none => [c]

/-- Whether a character has the property Cased. -/
def isCased (c : Char) : Bool := inSpans casedSpans c.toNat

/-- Characters passed over when looking for a cased neighbour. -/
def isCaseIgnorable (c : Char) : Bool := inSpans ignorableSpans c.toNat

namespace Text

/-- Whether the first character that is not passed over is cased. -/
def leadsToCased (t : Text) : Bool :=
  match t.dropWhile isCaseIgnorable with
  | [] => false
  | c :: _ => isCased c

/-- `lower` of what follows `before`, given in reverse.  A capital sigma is final
when a cased letter stands before it and none after it. -/
def lowerAfter (before : Text) : Text → Text
  | [] => []
  | c :: t =>
    (if c = 'Σ' then
      (if leadsToCased before && !leadsToCased t then ['ς'] else ['σ'])
    else lowerChar c) ++ lowerAfter (c :: before) t

/-- The lower case of a text. -/
def lower (t : Text) : Text := lowerAfter [] t

/-- The first character in upper case. -/
def capitalize : Text → Text
  | [] => []
  | c :: t => upperChar c ++ t

end Text

end LinkGrammar
