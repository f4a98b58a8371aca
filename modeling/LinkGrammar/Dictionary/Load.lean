/-
LinkGrammar/Dictionary/Load.lean

From dictionary text to a lexicon.

The statement `names : formula` gives the formula to each word before the colon.
A name in angle brackets is no word but an abbreviation, and stands for the formula,
in parentheses, in all later statements.  A name that begins with `/` is that of a
list of words kept elsewhere, and is passed over.
-/
import LinkGrammar.Dictionary.Error
import LinkGrammar.Dictionary.Statement
import LinkGrammar.Lexicon.Basic

namespace LinkGrammar.Dictionary

/-! ### The two sides of a statement -/

/-- Split at the first colon outside quotes. -/
def splitColon? (quoted : Bool) : Text → Option (Text × Text)
  | [] => none
  | c :: t =>
    if c = ':' && !quoted then some ([], t)
    else
      (splitColon? (if c = '"' then !quoted else quoted) t).map fun (left, right) =>
        (c :: left, right)

/-- The names before the colon: texts between quotes, the quotes included, and
otherwise the runs between blanks. -/
def nameTokens (t : Text) : List Text :=
  match t with
  | [] => []
  | c :: t =>
    if isBlank c then nameTokens t
    else if c = '"' && t.contains '"' then
      (c :: t.takeWhile (· ≠ '"') ++ ['"']) :: nameTokens (t.dropWhile (· ≠ '"')).tail
    else (c :: t.takeWhile fun d => !isBlank d) :: nameTokens (t.dropWhile fun d => !isBlank d)
termination_by t.length
decreasing_by
  · simp
  · have := Text.length_dropWhile_le (· ≠ '"') t
    simp at this ⊢; omega
  · have := Text.length_dropWhile_le (fun d => !isBlank d) t
    simp at this ⊢; omega

/-- What a name before the colon stands for. -/
inductive Name where
  | abbreviation (name : Text)
  | wordList
  | word (text : Text)
  deriving DecidableEq

/-- What a name stands for: by its angle brackets an abbreviation, by its `/` a list of words
kept elsewhere, otherwise a word, without the quotes around it. -/
def Name.ofToken (t : Text) : Name :=
  if 2 < t.length ∧ t.head? = some '<' ∧ t.getLast? = some '>' then
    abbreviation t.tail.dropLast
  else if t.head? = some '/' then wordList
  else word (Text.trimEndMarks ['"'] (t.dropWhile (· = '"')))

/-! ### Abbreviations -/

/-- Formulas by abbreviation, the latest definition first. -/
abbrev Abbreviations := List (Text × Text)

/-- A reference behind its `<`, and what follows it. -/
def reference? (t : Text) : Option (Text × Text) :=
  let isPart c := c ≠ '<' && c ≠ '>' && !isBlank c
  match t.takeWhile isPart, t.dropWhile isPart with
  | c :: name, '>' :: rest => some (c :: name, rest)
  | _, _ => none

/-- What follows a reference is shorter than the text. -/
theorem length_lt_of_reference? {t name rest : Text} (h : reference? t = some (name, rest)) :
    rest.length < t.length := by
  unfold reference? at h
  dsimp only at h
  split at h
  · next e =>
    have := Text.length_dropWhile_le (fun c => c ≠ '<' && c ≠ '>' && !isBlank c) t
    rw [e] at this
    simp at h this
    rw [← h.2]; omega
  · simp at h

/-- The formula with every reference replaced by what it stands for, in parentheses.
`line` is the line to name if a reference is not defined. -/
def expandAbbreviations (table : Abbreviations) (line : Nat) (t : Text) : Except LoadError Text :=
  match t with
  | [] => .ok []
  | c :: t =>
    if c = '<' then
      match h : reference? t with
      | some (name, rest) =>
        have := length_lt_of_reference? h
        match table.lookup name with
        | some body => (expandAbbreviations table line rest).map fun u => '(' :: body ++ ')' :: u
        | none => .error (.undefinedAbbreviation line name)
      | none => (expandAbbreviations table line t).map (c :: ·)
    else (expandAbbreviations table line t).map (c :: ·)
termination_by t.length

/-! ### Loading -/

/-- What the statements so far have said. -/
structure Definitions where
  abbreviations : Abbreviations
  lexicon : Lexicon

namespace Definitions

/-- Before any statement. -/
def empty : Definitions := ⟨[], .empty⟩

/-- Give a formula to one name of a statement. -/
def define (line : Nat) (formula : Text) (rule : Except FormulaError Rule) (d : Definitions)
    (name : Name) : Except LoadError Definitions :=
  match name with
  | .abbreviation name => .ok { d with abbreviations := (name, formula) :: d.abbreviations }
  | .wordList => .ok d
  | .word [] => .error (.emptyWord line)
  | .word word =>
    match rule with
    | .ok rule => .ok { d with lexicon := d.lexicon.insert word rule }
    | .error e => .error (.malformedFormula word e)

/-- Take in one statement. -/
def load (d : Definitions) (s : Statement) : Except LoadError Definitions :=
  match splitColon? false s.text with
  | none => .error (.missingColon s.line (Text.trim s.text))
  | some (left, right) => do
    let formula ← expandAbbreviations d.abbreviations s.line (Text.trim right)
    let rule := Rule.ofText formula
    ((nameTokens left).map Name.ofToken).foldlM (define s.line formula rule) d

end Definitions

end Dictionary

/-- The lexicon of a dictionary text. -/
def Lexicon.ofDictionary (t : Text) : Except LoadError Lexicon :=
  ((Dictionary.statements t).foldlM Dictionary.Definitions.load .empty).map (·.lexicon)

end LinkGrammar
