/-
LinkGrammar/Dictionary/Statement.lean

Dictionary text, split into statements.

A statement ends with `;` and may take several lines.  `%` begins a comment that
runs to the end of its line, and a line that begins with `#` between statements is
a directive and is passed over.  Between double quotes these signs mean nothing; a
quote that is still open at the end of a line is forgotten there.

Design.  Lines are taken one by one, and characters one by one within a line, so
the reader is a fold over the lines whose state is what was read so far.
-/
import LinkGrammar.Text.Blank

namespace LinkGrammar.Dictionary

/-- The text of a statement, without its `;` and without comments. -/
structure Statement where
  /-- the number of the line on which it begins -/
  line : Nat
  text : Text
  deriving DecidableEq

/-- What was read of a dictionary so far. -/
structure Reader where
  /-- the statements read, the last first -/
  finished : List Statement
  /-- the text of the statement under way, in reverse -/
  pending : Text
  /-- the line on which the statement under way begins -/
  line : Nat

namespace Reader

/-- Before the first line. -/
def start : Reader := ⟨[], [], 1⟩

/-- Whether no statement is under way. -/
def isIdle (r : Reader) : Bool := Text.isBlankText r.pending

/-- End the statement under way, if there is one. -/
def finish (r : Reader) : Reader :=
  { r with
    finished := if r.isIdle then r.finished else ⟨r.line, r.pending.reverse⟩ :: r.finished
    pending := [] }

/-- Take a character of line `number` that is no sign; the first one that is no
blank begins a statement. -/
def push (r : Reader) (number : Nat) (c : Char) : Reader :=
  { r with
    pending := c :: r.pending
    line := if r.isIdle && !isBlank c then number else r.line }

/-- Take the characters of line `number`; `quoted` tells whether a quote is open.
Quotes are kept in the text, and do not begin a statement. -/
def readChars (number : Nat) (quoted : Bool) (r : Reader) : Text → Reader
  | [] => r
  | c :: t =>
    if c = '"' then readChars number (!quoted) { r with pending := c :: r.pending } t
    else if c = '%' && !quoted then r
    else if c = ';' && !quoted then readChars number quoted r.finish t
    else readChars number quoted (r.push number c) t

/-- Take line `number`.  The end of a line separates like a space. -/
def readLine (r : Reader) (number : Nat) (line : Text) : Reader :=
  if r.isIdle && (Text.skipBlanks line).head? = some '#' then r
  else
    let r := readChars number false r line
    { r with pending := ' ' :: r.pending }

end Reader

/-- The statements of a dictionary text. -/
def statements (t : Text) : List Statement :=
  let numbered := (Text.lines t).zipIdx 1
  let r := numbered.foldl (fun r (line, number) => r.readLine number line) Reader.start
  r.finish.finished.reverse

end LinkGrammar.Dictionary
