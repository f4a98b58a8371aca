/-
LinkGrammar/Proofs/Text/Pieces.lean

Texts that are put together and taken apart again.

Words joined with a space are the pieces between the spaces, and lines that each end with a
line feed are the lines of the whole.
-/
import Mathlib
import LinkGrammar.Text.Blank

namespace LinkGrammar.Text

/-! ### Pieces between separators -/

variable {sep : Char}

theorem splitAt_cons_of_ne {c : Char} (h : c ≠ sep) {t piece : Text} {pieces : List Text}
    (ht : splitAt sep t = piece :: pieces) : splitAt sep (c :: t) = (c :: piece) :: pieces := by
  rw [splitAt, if_neg h, ht]

theorem splitAt_of_not_mem {t : Text} (h : sep ∉ t) : splitAt sep t = [t] := by
  induction t with
  | nil => rfl
  | cons c t ih =>
    exact splitAt_cons_of_ne (List.ne_of_not_mem_cons h).symm
      (ih (List.not_mem_of_not_mem_cons h))

/-- A piece, and what follows its separator. -/
theorem splitAt_append {piece : Text} (h : sep ∉ piece) (t : Text) :
    splitAt sep (piece ++ sep :: t) = piece :: splitAt sep t := by
  induction piece with
  | nil => exact if_pos rfl
  | cons c piece ih =>
    exact splitAt_cons_of_ne (List.ne_of_not_mem_cons h).symm
      (ih (List.not_mem_of_not_mem_cons h))

/-- What stands before the first separator. -/
theorem takeWhile_ne_append {piece : Text} (h : sep ∉ piece) (t : Text) :
    (piece ++ sep :: t).takeWhile (· ≠ sep) = piece := by
  induction piece with
  | nil => exact List.takeWhile_cons_of_neg (by simp)
  | cons c piece ih =>
    rw [List.cons_append, List.takeWhile_cons_of_pos, ih (List.not_mem_of_not_mem_cons h)]
    exact decide_eq_true (List.ne_of_not_mem_cons h).symm

theorem dropWhile_ne_append {piece : Text} (h : sep ∉ piece) (t : Text) :
    (piece ++ sep :: t).dropWhile (· ≠ sep) = sep :: t := by
  have hall := List.takeWhile_append_dropWhile (p := (· ≠ sep)) (l := piece ++ sep :: t)
  rw [takeWhile_ne_append h] at hall
  exact List.append_cancel_left hall

theorem dropWhile_ne_of_not_mem {t : Text} (h : sep ∉ t) : t.dropWhile (· ≠ sep) = [] := by
  rw [List.dropWhile_eq_nil_iff]
  intro c hc
  exact decide_eq_true fun e : c = sep => h (e ▸ hc)

/-- A text is a single piece, or a piece with a separator stands in front of another text. -/
theorem pieces_cases {motive : Text → Prop} (last : ∀ piece, sep ∉ piece → motive piece)
    (more : ∀ piece t, sep ∉ piece → motive t → motive (piece ++ sep :: t)) (t : Text) :
    motive t := by
  suffices key : ∀ piece, sep ∉ piece → motive (piece ++ t) from key [] List.not_mem_nil
  induction t with
  | nil =>
    intro piece h
    rw [List.append_nil]
    exact last piece h
  | cons c t ih =>
    intro piece h
    by_cases hc : c = sep
    · rw [hc]
      exact more piece t h (ih [] List.not_mem_nil)
    · rw [List.append_cons]
      exact ih (piece ++ [c]) (by simp [h, Ne.symm hc])

/-- Texts that are joined with a separator are its pieces. -/
theorem splitAt_intercalate {pieces : List Text} (hne : pieces ≠ [])
    (h : ∀ piece ∈ pieces, sep ∉ piece) : splitAt sep ([sep].intercalate pieces) = pieces := by
  induction pieces with
  | nil => exact absurd rfl hne
  | cons piece pieces ih =>
    obtain ⟨hpiece, hpieces⟩ := List.forall_mem_cons.1 h
    rcases pieces with - | ⟨next, pieces⟩
    · rw [List.intercalate_singleton]
      exact splitAt_of_not_mem hpiece
    · rw [List.intercalate_cons_cons, List.append_assoc, List.singleton_append,
        splitAt_append hpiece, ih (List.cons_ne_nil _ _) hpieces]

/-- What follows joined texts goes to the last of them. -/
theorem intercalate_concat_append (sep : Text) (pieces : List Text) (last t : Text) :
    sep.intercalate (pieces ++ [last]) ++ t = sep.intercalate (pieces ++ [last ++ t]) := by
  induction pieces with
  | nil => rw [List.nil_append, List.nil_append, List.intercalate_singleton,
      List.intercalate_singleton]
  | cons piece pieces ih =>
    rcases pieces with - | ⟨next, pieces⟩
    · simp only [List.cons_append, List.nil_append, List.intercalate_cons_cons,
        List.intercalate_singleton, List.append_assoc]
    · rw [List.cons_append, List.cons_append, List.cons_append, List.cons_append,
        List.intercalate_cons_cons, List.intercalate_cons_cons, List.append_assoc]
      exact congrArg _ ih

/-! ### Lines -/

theorem linesAfter_cons_of_ne {c : Char} (h : c ≠ '\n') (current t : Text) :
    linesAfter current (c :: t) = linesAfter (c :: current) t := by
  conv_lhs => unfold linesAfter
  exact if_neg h

theorem linesAfter_append {line : Text} (h : '\n' ∉ line) (current t : Text) :
    linesAfter current (line ++ t) = linesAfter (line.reverse ++ current) t := by
  induction line generalizing current with
  | nil => rfl
  | cons c line ih =>
    rw [List.cons_append, linesAfter_cons_of_ne (List.ne_of_not_mem_cons h).symm,
      ih (List.not_mem_of_not_mem_cons h), List.reverse_cons, List.append_assoc]
    rfl

/-- The last line need not end with a line feed. -/
theorem lines_of_not_mem {line : Text} (hne : line ≠ []) (h : '\n' ∉ line) :
    lines line = [line] := by
  have hlines := linesAfter_append h [] []
  rw [List.append_nil, List.append_nil] at hlines
  unfold lines
  rw [hlines, linesAfter, if_neg (by simpa using hne), List.reverse_reverse]

/-- The line without a carriage return that belongs to its end. -/
def withoutReturn (line : Text) : Text := if line.getLast? = some '\r' then line.dropLast else line

theorem withoutReturn_concat (line : Text) : withoutReturn (line ++ ['\r']) = line := by
  rw [withoutReturn, List.getLast?_concat, if_pos rfl, List.dropLast_concat]

theorem withoutReturn_eq_self {line : Text} (h : line.getLast? ≠ some '\r') :
    withoutReturn line = line := if_neg h

/-- A line feed ends the line that was read. -/
theorem linesAfter_newline (current t : Text) :
    linesAfter current ('\n' :: t) = withoutReturn current.reverse :: linesAfter [] t := by
  conv_lhs => unfold linesAfter
  rw [if_pos rfl]
  congr 1
  split
  · rw [List.reverse_cons, withoutReturn_concat]
  · next hreturn =>
    rw [withoutReturn_eq_self]
    rw [List.getLast?_reverse]
    exact fun h => (List.head?_eq_some_iff.1 h).elim hreturn

/-- The lines up to a line feed, and those behind it. -/
theorem linesAfter_append_newline (s current t : Text) :
    linesAfter current (s ++ '\n' :: t) = linesAfter current (s ++ ['\n']) ++ lines t := by
  induction s generalizing current with
  | nil =>
    rw [List.nil_append, List.nil_append, linesAfter_newline, linesAfter_newline]
    rfl
  | cons c s ih =>
    rw [List.cons_append, List.cons_append]
    by_cases h : c = '\n'
    · rw [h, linesAfter_newline, linesAfter_newline, ih, List.cons_append]
    · rw [linesAfter_cons_of_ne h, linesAfter_cons_of_ne h, ih]

/-- A line up to its line feed, and what follows it. -/
theorem lines_append_newline {line : Text} (h : '\n' ∉ line) (t : Text) :
    lines (line ++ '\n' :: t) = withoutReturn line :: lines t := by
  unfold lines
  rw [linesAfter_append h, List.append_nil, linesAfter_newline, List.reverse_reverse]

/-- The same, if no carriage return stands before the line feed. -/
theorem lines_append {line : Text} (h : '\n' ∉ line) (hend : line.getLast? ≠ some '\r')
    (t : Text) : lines (line ++ '\n' :: t) = line :: lines t := by
  rw [lines_append_newline h, withoutReturn_eq_self hend]

end LinkGrammar.Text
