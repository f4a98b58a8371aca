/-
LinkGrammar/Text/Blank.lean

Blanks: the characters with the Unicode property White_Space, and what is done
with them: trimming, squeezing runs to one space, and reading a text by lines.

Main statement: skipping blanks, trimming and squeezing never lengthen a text.
-/
import LinkGrammar.Text.Basic

namespace LinkGrammar

/-- Characters with the property White_Space. -/
def blankSpans : List (Nat × Nat) :=
  [(0x0009, 0x000d), (0x0020, 0x0020), (0x0085, 0x0085), (0x00a0, 0x00a0), (0x1680, 0x1680),
   (0x2000, 0x200a), (0x2028, 0x2029), (0x202f, 0x202f), (0x205f, 0x205f), (0x3000, 0x3000)]

/-- Whether a character is a blank. -/
def isBlank (c : Char) : Bool := inSpans blankSpans c.toNat

namespace Text

/-- Whether nothing but blanks is left. -/
def isBlankText (t : Text) : Bool := t.all isBlank

/-- Whether the text opens with a blank. -/
def startsBlank : Text → Bool
  | [] => false
  | c :: _ => isBlank c

/-- The text without the blanks at its front. -/
def skipBlanks (t : Text) : Text := t.dropWhile isBlank

/-- The text without the blanks at its end. -/
def trimEnd (t : Text) : Text := (t.reverse.dropWhile isBlank).reverse

/-- The text without the blanks at its two ends. -/
def trim (t : Text) : Text := trimEnd (skipBlanks t)

/-- `squeeze` after a character that was a blank or not. -/
def squeezeAfter : Bool → Text → Text
  | _, [] => []
  | blank, c :: t =>
    if isBlank c then (if blank then squeezeAfter true t else ' ' :: squeezeAfter true t)
    else c :: squeezeAfter false t

/-- Every run of blanks becomes one space. -/
def squeeze (t : Text) : Text := squeezeAfter false t

/-- Drop the characters of `marks` that end the text. -/
def trimEndMarks (marks : List Char) (t : Text) : Text :=
  (t.reverse.dropWhile marks.contains).reverse

/-! ### Lines -/

/-- The lines of a text, `current` holding the line under way in reverse.  A
line feed ends a line, and takes one carriage return before it along; after the
last line feed nothing is left to be a line. -/
def linesAfter (current : Text) : Text → List Text
  | [] => if current.isEmpty then [] else [current.reverse]
  | c :: t =>
    if c = '\n' then
      (match current with
        | '\r' :: rest => rest.reverse
        | _ => current.reverse) :: linesAfter [] t
    else linesAfter (c :: current) t

/-- The lines of a text, without the characters that end them. -/
def lines (t : Text) : List Text := linesAfter [] t

/-! ### Lengths -/

/-- Dropping members from the front never lengthens a list. -/
theorem length_dropWhile_le {α : Type _} (p : α → Bool) (l : List α) :
    (l.dropWhile p).length ≤ l.length :=
  (List.dropWhile_suffix p).length_le

/-- Skipping blanks never lengthens a text. -/
theorem length_skipBlanks_le (t : Text) : (skipBlanks t).length ≤ t.length :=
  length_dropWhile_le isBlank t

/-- Neither does trimming its end. -/
theorem length_trimEnd_le (t : Text) : (trimEnd t).length ≤ t.length := by
  simpa [trimEnd] using length_dropWhile_le isBlank t.reverse

/-- Neither does trimming both ends. -/
theorem length_trim_le (t : Text) : (trim t).length ≤ t.length :=
  Nat.le_trans (length_trimEnd_le _) (length_skipBlanks_le t)

/-- Neither does squeezing what is left of it. -/
theorem length_squeezeAfter_le (blank : Bool) (t : Text) :
    (squeezeAfter blank t).length ≤ t.length := by
  induction t generalizing blank with
  | nil => simp [squeezeAfter]
  | cons c t ih =>
    have ht := ih true
    have hf := ih false
    unfold squeezeAfter
    split
    · split <;> simp <;> omega
    · simp; omega

/-- Neither does squeezing all of it. -/
theorem length_squeeze_le (t : Text) : (squeeze t).length ≤ t.length :=
  length_squeezeAfter_le false t

end Text

end LinkGrammar
