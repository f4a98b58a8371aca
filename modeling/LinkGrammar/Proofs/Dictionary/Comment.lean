/-
LinkGrammar/Proofs/Dictionary/Comment.lean

Comments in a dictionary.

A comment can be written behind any line on which no quote stays open.  What the comment says is
of no account: the reader of lines leaves it at the sign, so whatever reads statements later never
sees it, be it quotes, semicolons, colons or references.

    cat.n: D- & Ss+; % "a noun; see <det>: below
    dog.n: D-        % begun here
      & Ss+;

The reader is in the same state behind the line with the comment as behind the line without it
(`Reader.readLine_comment`), and so are the statements.  Only where the comment stands behind the
last line feed there was no line before; then the statement under way is one space longer, and
loading does not mind (`Definitions.load_concat_blank`).
-/
import Mathlib
import LinkGrammar.Dictionary.Load
import LinkGrammar.Proofs.Text.Pieces
import LinkGrammar.Proofs.Text.Trim

namespace LinkGrammar

/-! ### A line of a text -/

/-- In the text `before ++ line ++ after` the middle is a line.  What ends a line, a line feed
perhaps with a carriage return before it, is no part of the line. -/
structure Text.StandsAsLine (before line after : Text) : Prop where
  begins : before = [] ∨ ∃ s, before = s ++ ['\n']
  ends : after = [] ∨ ∃ t, after = '\r' :: '\n' :: t ∨
    after = '\n' :: t ∧ line.getLast? ≠ some '\r'
  newline_not_mem : '\n' ∉ line

namespace Dictionary

/-- The line with a comment. -/
def commented (line comment : Text) : Text := line ++ '%' :: comment

variable {line comment : Text}

theorem newline_not_mem_commented (hline : '\n' ∉ line) (hcomment : '\n' ∉ comment) :
    '\n' ∉ commented line comment := by
  simp [commented, hline, hcomment]

/-- The carriage return at the end of a comment is taken for one of the line end. -/
theorem exists_withoutReturn_commented (line comment : Text) :
    ∃ c, Text.withoutReturn (commented line comment) = commented line c := by
  rcases List.eq_nil_or_concat comment with rfl | ⟨c, d, rfl⟩
  · refine ⟨[], Text.withoutReturn_eq_self ?_⟩
    rw [commented, List.getLast?_concat]
    decide
  · by_cases hd : d = '\r'
    · refine ⟨c, ?_⟩
      rw [hd, List.concat_eq_append, commented, ← List.cons_append, ← List.append_assoc,
        Text.withoutReturn_concat]
      rfl
    · refine ⟨c.concat d, Text.withoutReturn_eq_self ?_⟩
      rw [List.concat_eq_append, commented, ← List.cons_append, ← List.append_assoc,
        List.getLast?_concat]
      simpa using hd

end Dictionary

open Dictionary (commented)

namespace Text.StandsAsLine

variable {before line after comment : Text}

theorem lines_append (h : StandsAsLine before line after) (t : Text) :
    lines (before ++ t) = lines before ++ lines t := by
  rcases h.begins with rfl | ⟨s, rfl⟩
  · rfl
  · rw [List.append_assoc]
    exact linesAfter_append_newline s [] t

/-- The lines of a text with a comment are those without it, but for the one that has the comment.
Behind the last line feed the comment is a line of its own. -/
theorem exists_lines (h : StandsAsLine before line after) (hcomment : '\n' ∉ comment) :
    ∃ ls c ls', lines (before ++ commented line comment ++ after) = ls ++ commented line c :: ls' ∧
      (lines (before ++ line ++ after) = ls ++ line :: ls' ∨
        lines (before ++ line ++ after) = ls ∧ line = [] ∧ ls' = []) := by
  have hline := h.newline_not_mem
  have hnew := Dictionary.newline_not_mem_commented hline hcomment
  rw [List.append_assoc, List.append_assoc, h.lines_append, h.lines_append]
  rcases h.ends with rfl | ⟨t, rfl | ⟨rfl, hreturn⟩⟩
  · rw [List.append_nil, List.append_nil]
    refine ⟨lines before, comment, [], congrArg _ (lines_of_not_mem (by simp [commented]) hnew), ?_⟩
    rcases eq_or_ne line [] with rfl | hne
    · exact .inr ⟨List.append_nil _, rfl, rfl⟩
    · exact .inl (congrArg _ (lines_of_not_mem hne hline))
  · -- the carriage return is behind the comment as it was behind the line
    have hend (s : Text) (hs : '\n' ∉ s) : lines (s ++ '\r' :: '\n' :: t) = s :: lines t := by
      rw [List.append_cons, lines_append_newline (by simpa using hs), withoutReturn_concat]
    rw [hend _ hnew, hend _ hline]
    exact ⟨lines before, comment, lines t, rfl, .inl rfl⟩
  · obtain ⟨c, hc⟩ := Dictionary.exists_withoutReturn_commented line comment
    rw [lines_append_newline hnew, lines_append_newline hline, hc, withoutReturn_eq_self hreturn]
    exact ⟨lines before, c, lines t, rfl, .inl rfl⟩

end Text.StandsAsLine

namespace Dictionary

/-! ### Reading a line with a comment -/

namespace Reader

variable {line : Text} {quoted : Bool}

/-- Where no quote is open the sign of a comment ends the line. -/
theorem readChars_comment (number : Nat) (h : quoted = true ↔ Odd (line.count '"')) (r : Reader)
    (comment : Text) :
    readChars number quoted r (commented line comment) = readChars number quoted r line := by
  induction line generalizing quoted r with
  | nil =>
    have hclosed : quoted = false := by simpa using h
    rw [hclosed]
    rfl
  | cons c line ih =>
    show readChars number quoted r (c :: commented line comment) = _
    rw [readChars, readChars]
    by_cases hquote : c = '"'
    · have hrest : (!quoted) = true ↔ Odd (line.count '"') := by
        rw [hquote, List.count_cons_self, Nat.odd_add_one] at h
        rw [← not_iff_not, ← h]
        simp
      rw [if_pos hquote, if_pos hquote, ih hrest]
    · have hrest : quoted = true ↔ Odd (line.count '"') := by
        rwa [List.count_cons_of_ne hquote] at h
      rw [if_neg hquote, if_neg hquote, ih hrest, ih hrest]

/-- A comment does not make a line a directive, and does not keep it from being one. -/
theorem head?_skipBlanks_commented (line comment : Text) :
    (Text.skipBlanks (commented line comment)).head? = some '#' ↔
      (Text.skipBlanks line).head? = some '#' := by
  unfold Text.skipBlanks commented
  rw [List.dropWhile_append]
  split
  · next hblank =>
    have hsign : isBlank '%' = false := by decide
    rw [List.isEmpty_iff.1 hblank, List.dropWhile_cons_of_neg (by simp [hsign])]
    simp
  · next hne =>
    rw [List.head?_append_of_ne_nil _ (by simpa using hne)]

/-- Behind a line with a comment the reader is where it is behind the line. -/
theorem readLine_comment (h : Even (line.count '"')) (r : Reader) (number : Nat) (comment : Text) :
    r.readLine number (commented line comment) = r.readLine number line := by
  have hclosed : false = true ↔ Odd (line.count '"') := by simpa using h
  unfold readLine
  rw [readChars_comment number hclosed]
  simp only [head?_skipBlanks_commented]

/-- What is read of lines. -/
def ofLines (ls : List Text) : Reader :=
  (ls.zipIdx 1).foldl (fun r (line, number) => r.readLine number line) start

theorem ofLines_append_cons (ls : List Text) (line : Text) (ls' : List Text) :
    ofLines (ls ++ line :: ls')
      = (ls'.zipIdx (ls.length + 2)).foldl (fun r (line, number) => r.readLine number line)
          ((ofLines ls).readLine (ls.length + 1) line) := by
  unfold ofLines
  rw [List.zipIdx_append, List.foldl_append, List.zipIdx_cons, List.foldl_cons,
    Nat.add_comm 1 ls.length]

/-- A comment on one of the lines changes nothing. -/
theorem ofLines_comment (h : Even (line.count '"')) (ls ls' : List Text) (comment : Text) :
    ofLines (ls ++ commented line comment :: ls') = ofLines (ls ++ line :: ls') := by
  rw [ofLines_append_cons, ofLines_append_cons, readLine_comment h]

end Reader

theorem statements_eq_ofLines (t : Text) :
    statements t = (Reader.ofLines (Text.lines t)).finish.finished.reverse := rfl

/-! ### Statements that end with a blank -/

theorem splitColon?_concat_blank (quoted : Bool) (t : Text) :
    splitColon? quoted (t ++ [' '])
      = (splitColon? quoted t).map fun (left, right) => (left, right ++ [' ']) := by
  induction t generalizing quoted with
  | nil => rfl
  | cons c t ih =>
    rw [List.cons_append, splitColon?, splitColon?, ih]
    split
    · rfl
    · rw [Option.map_map, Option.map_map]
      rfl

/-- A blank at the end of a statement says nothing. -/
theorem Definitions.load_concat_blank (d : Definitions) (n : Nat) (t : Text) :
    d.load ⟨n, t ++ [' ']⟩ = d.load ⟨n, t⟩ := by
  have htrim (u : Text) : Text.trim (u ++ [' ']) = Text.trim u :=
    Text.trim_concat_of_isBlank (by decide) u
  unfold Definitions.load
  dsimp only
  rw [splitColon?_concat_blank]
  rcases splitColon? false t with - | ⟨left, right⟩
  · simp only [Option.map_none, htrim]
  · simp only [Option.map_some, htrim]

/-- An empty line at the end may put a blank behind the last statement. -/
theorem foldlM_load_concat_nil (ls : List Text) (d : Definitions) :
    (Reader.ofLines (ls ++ [[]])).finish.finished.reverse.foldlM Definitions.load d
      = (Reader.ofLines ls).finish.finished.reverse.foldlM Definitions.load d := by
  have hread (r : Reader) (n : Nat) : r.readLine n [] = { r with pending := ' ' :: r.pending } := by
    unfold Reader.readLine
    rw [if_neg (by simp [Text.skipBlanks])]
    rfl
  rw [Reader.ofLines_append_cons, hread]
  generalize Reader.ofLines ls = r
  show (Reader.mk r.finished (' ' :: r.pending) r.line).finish.finished.reverse.foldlM _ d = _
  have hidle : (Reader.mk r.finished (' ' :: r.pending) r.line).isIdle = r.isIdle := by
    have hspace : isBlank ' ' = true := by decide
    show (isBlank ' ' && r.pending.all isBlank) = _
    rw [hspace, Bool.true_and]
    rfl
  unfold Reader.finish
  rw [hidle]
  split
  · rfl
  · dsimp only
    rw [List.reverse_cons, List.reverse_cons, List.reverse_cons, List.foldlM_append,
      List.foldlM_append]
    simp only [List.foldlM_cons, Definitions.load_concat_blank]

end Dictionary

/-! ### Dictionaries with comments -/

open Dictionary in
/-- **A comment does not change a dictionary.**  If an even number of quotes stands on a line of
the text, a comment behind the line changes neither the lexicon nor the error, whatever the
comment says. -/
theorem Lexicon.ofDictionary_commented {before line after : Text}
    (h : Text.StandsAsLine before line after) (hquotes : Even (line.count '"')) {comment : Text}
    (hcomment : '\n' ∉ comment) :
    Lexicon.ofDictionary (before ++ (line ++ '%' :: comment) ++ after)
      = Lexicon.ofDictionary (before ++ line ++ after) := by
  unfold Lexicon.ofDictionary
  rw [statements_eq_ofLines, statements_eq_ofLines]
  obtain ⟨ls, c, ls', hnew, hold | ⟨hold, rfl, rfl⟩⟩ := h.exists_lines hcomment
  · rw [show Text.lines (before ++ (line ++ '%' :: comment) ++ after) = _ from hnew, hold,
      Reader.ofLines_comment hquotes]
  · rw [show Text.lines (before ++ ([] ++ '%' :: comment) ++ after) = _ from hnew, hold,
      Reader.ofLines_comment hquotes, foldlM_load_concat_nil]

/-- The comment has signs of every kind, and the statement goes on behind it. -/
theorem Lexicon.ofDictionary_commented_signs :
    let before : Text := "<det>: D-;\n".toList
    let line : Text := "\"%;\": <det>".toList
    let after : Text := "\r\n & Ss+;\n".toList
    let comment : Text := " a \"noun; cat: <noun>".toList
    (Text.StandsAsLine before line after ∧ Even (line.count '"') ∧ '\n' ∉ comment) ∧
      Lexicon.ofDictionary (before ++ (line ++ '%' :: comment) ++ after)
        = Lexicon.ofDictionary (before ++ line ++ after) := by
  intro before line after comment
  have hline : Text.StandsAsLine before line after :=
    ⟨.inr ⟨"<det>: D-;".toList, rfl⟩, .inr ⟨" & Ss+;\n".toList, .inl rfl⟩, by decide⟩
  have hquotes : Even (line.count '"') := by decide
  have hcomment : '\n' ∉ comment := by decide
  exact ⟨⟨hline, hquotes, hcomment⟩, Lexicon.ofDictionary_commented hline hquotes hcomment⟩

end LinkGrammar
