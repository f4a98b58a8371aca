/-
LinkGrammar/Proofs/Generation/Wording.lean

The words of a sentence that is written out.

A sentence is its words with spaces between, the first with a capital, and an end mark.  A
capital brings no space in, so words without spaces can be told apart in the sentence again: they
are the pieces between its spaces.
-/
import Mathlib
import LinkGrammar.Proofs.Generation.Splice
import LinkGrammar.Proofs.Text.Letters
import LinkGrammar.Proofs.Text.Pieces

namespace LinkGrammar

open Text (capitalize)

namespace Sentence

variable {m : Modifiers} {p : List Text}

/-! ### The written words -/

/-- The words as they are written: the first with a capital. -/
def capitalizeFirst : List Text → List Text
  | [] => []
  | w :: words => capitalize w :: words

/-- The words that are written in a sentence, without the end mark. -/
def writtenWords (s : Text) : List Text := Text.splitAt ' ' s.dropLast

theorem capitalize_intercalate (words : List Text) :
    capitalize ([' '].intercalate words) = [' '].intercalate (capitalizeFirst words) := by
  rcases words with - | ⟨w, - | ⟨next, words⟩⟩
  · rfl
  · simp only [capitalizeFirst, List.intercalate_singleton]
  · simp only [capitalizeFirst, List.intercalate_cons_cons]
    rcases w with - | ⟨c, w⟩
    · -- an empty word leaves its place to the space, which is its own upper case
      have hspace : upperChar ' ' = [' '] := upperChar_of_isAscii (by decide)
      show upperChar ' ' ++ _ = _
      rw [hspace]
      rfl
    · simp only [capitalize, List.cons_append, List.append_assoc]

theorem space_not_mem_of_mem_capitalizeFirst {words : List Text} (h : ∀ w ∈ words, ' ' ∉ w) :
    ∀ w ∈ capitalizeFirst words, ' ' ∉ w := by
  rcases words with - | ⟨w, words⟩
  · exact h
  · obtain ⟨hw, hwords⟩ := List.forall_mem_cons.1 h
    exact List.forall_mem_cons.2 ⟨Text.space_not_mem_capitalize hw, hwords⟩

/-- A sentence as its words with spaces between them, and a mark. -/
theorem render_eq (m : Modifiers) (p : List Text) :
    render m p = [' '].intercalate (capitalizeFirst (splice m p)) ++
      [if isQuestion p then '?' else '.'] := by
  unfold render
  rw [capitalize_intercalate]

/-- Words without spaces are told apart in their sentence. -/
theorem writtenWords_render (hne : splice m p ≠ []) (h : ∀ w ∈ splice m p, ' ' ∉ w) :
    writtenWords (render m p) = capitalizeFirst (splice m p) := by
  unfold writtenWords
  rw [render_eq, List.dropLast_concat]
  apply Text.splitAt_intercalate
  · rcases hsplice : splice m p with - | ⟨w, words⟩
    · exact absurd hsplice hne
    · exact List.cons_ne_nil _ _
  · exact space_not_mem_of_mem_capitalizeFirst h

end Sentence

/-- The sentence of an arrangement that is accepted has words. -/
theorem Generation.splice_ne_nil {g : Grammar} {idioms : Idioms} {o : Options}
    {tokens p : List Text} (hp : p.Perm (bagOf o tokens)) (h : g.accepts idioms p = .ok true) :
    Sentence.splice (modifiersOf o tokens) p ≠ [] := by
  intro hnil
  have hperm := (spliced_of_accepts hp h).perm
  rw [hnil] at hperm
  obtain ⟨-, rfl⟩ := List.append_eq_nil_iff.1 hperm.nil_eq.symm
  cases h

end LinkGrammar
