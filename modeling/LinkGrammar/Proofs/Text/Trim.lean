/-
LinkGrammar/Proofs/Text/Trim.lean

Texts that trimming leaves as they are: those without blanks at their ends.  Trimming makes such a
text of any other.
-/
import Mathlib
import LinkGrammar.Text.Blank

namespace LinkGrammar.Text

/-- The text neither opens nor closes with a blank. -/
def Trimmed (t : Text) : Prop :=
  (∀ c ∈ t.head?, isBlank c = false) ∧ ∀ c ∈ t.getLast?, isBlank c = false

instance (t : Text) : Decidable (Trimmed t) :=
  decidable_of_iff ((t.head?.all (!isBlank ·)) = true ∧ (t.getLast?.all (!isBlank ·)) = true)
    (by simp [Trimmed, Option.all_eq_true])

theorem dropWhile_eq_self {p : Char → Bool} {t : Text} (h : ∀ c ∈ t.head?, p c = false) :
    t.dropWhile p = t := by
  rcases t with - | ⟨c, t⟩
  · rfl
  · exact List.dropWhile_cons_of_neg (by simp [h c rfl])

theorem Trimmed.trim_eq {t : Text} (h : t.Trimmed) : trim t = t := by
  have hskip : skipBlanks t = t := dropWhile_eq_self h.1
  have hend : t.reverse.dropWhile isBlank = t.reverse := by
    apply dropWhile_eq_self
    intro c hc
    rw [List.head?_reverse] at hc
    exact h.2 c hc
  unfold trim trimEnd
  rw [hskip, hend, List.reverse_reverse]

theorem trimmed_of_forall {t : Text} (h : ∀ c ∈ t, isBlank c = false) : t.Trimmed :=
  ⟨fun c hc => h c (List.mem_of_mem_head? hc), fun c hc => h c (List.mem_of_mem_getLast? hc)⟩

/-- What is left after dropping begins with what is not dropped. -/
theorem of_mem_head?_dropWhile {p : Char → Bool} {t : Text} {c : Char}
    (h : c ∈ (t.dropWhile p).head?) : p c = false := by
  have hstop := List.head?_dropWhile_not p t
  rw [Option.mem_def.1 h] at hstop
  exact hstop

theorem trimmed_trim (t : Text) : (trim t).Trimmed := by
  constructor
  · -- what is cut off at the end leaves the first character, or no character
    intro c hc
    have hprefix : trim t <+: skipBlanks t :=
      List.reverse_suffix.1 (by simpa [trim, trimEnd] using List.dropWhile_suffix isBlank)
    obtain ⟨rest, hrest⟩ := hprefix
    obtain ⟨u, hu⟩ := List.head?_eq_some_iff.1 hc
    apply of_mem_head?_dropWhile (t := t)
    show c ∈ (skipBlanks t).head?
    rw [← hrest, hu]
    rfl
  · intro c hc
    unfold trim trimEnd at hc
    rw [List.getLast?_reverse] at hc
    exact of_mem_head?_dropWhile hc

/-- A blank in front does not count. -/
theorem trim_cons_of_isBlank {c : Char} (h : isBlank c = true) (t : Text) :
    trim (c :: t) = trim t := by
  unfold trim skipBlanks
  rw [List.dropWhile_cons_of_pos h]

/-- Neither does one at the end. -/
theorem trim_concat_of_isBlank {c : Char} (h : isBlank c = true) (t : Text) :
    trim (t ++ [c]) = trim t := by
  unfold trim skipBlanks trimEnd
  rw [List.dropWhile_append]
  split
  · next hnone =>
    rw [List.isEmpty_iff.1 hnone, List.dropWhile_cons_of_pos h]
    rfl
  · rw [List.reverse_concat, List.dropWhile_cons_of_pos h]

/-- Nothing is left of a text of blanks, and of no other. -/
theorem trim_eq_nil_iff {t : Text} : trim t = [] ↔ isBlankText t = true := by
  unfold trim trimEnd skipBlanks isBlankText
  rw [List.reverse_eq_nil_iff, List.dropWhile_eq_nil_iff, List.all_eq_true]
  constructor
  · intro h c hc
    rw [← List.takeWhile_append_dropWhile (p := isBlank) (l := t), List.mem_append] at hc
    rcases hc with hc | hc
    · exact List.mem_takeWhile_imp hc
    · exact h c (List.mem_reverse.2 hc)
  · intro h c hc
    exact h c ((List.dropWhile_suffix isBlank).subset (List.mem_reverse.1 hc))

end LinkGrammar.Text
