/-
LinkGrammar/Text/Quoted.lean

Quoted texts: a text between double quotes, with the characters escaped that a
reader could not see or would mistake.
-/
import LinkGrammar.Text.Quoted.Table

namespace LinkGrammar.Text

/-- A character escaped by its number, as in `\u{200b}`. -/
def numberEscape (c : Char) : Text :=
  ['\\', 'u', '\x7b'] ++ Nat.toDigits 16 c.toNat ++ ['\x7d']

/-- Whether a character is escaped by its number. -/
def isHidden (c : Char) : Bool :=
  inSpans extenderSpans c.toNat || inSpans hiddenSpans c.toNat

/-- A character as it stands between quotes. -/
def quoteChar (c : Char) : Text :=
  if c = '\x00' then ['\\', '0']
  else if c = '\t' then ['\\', 't']
  else if c = '\r' then ['\\', 'r']
  else if c = '\n' then ['\\', 'n']
  else if c = '\\' then ['\\', '\\']
  else if c = '"' then ['\\', '"']
  else if isHidden c then numberEscape c
  else [c]

/-- A text between double quotes. -/
def quote (t : Text) : Text := '"' :: t.flatMap quoteChar ++ ['"']

/-- A list of quoted texts, in brackets. -/
def quoteList (ts : List Text) : Text :=
  '[' :: [',', ' '].intercalate (ts.map quote) ++ [']']

end LinkGrammar.Text
