/-
LinkGrammar/Proofs/Generation/Sentence.lean

Sets of sentences: `sorted` keeps what it is given, in strictly ascending order, so
none twice.
-/
import Mathlib.Data.Char
import LinkGrammar.Generation.Sentence
import LinkGrammar.Proofs.Bag.Arrangement

namespace LinkGrammar

instance : IsStrictTotalOrder Text (· < ·) :=
  inferInstanceAs (IsStrictTotalOrder (List Char) (· < ·))

namespace Sentence

/-- No sentence is lost with its repetitions. -/
theorem mem_dropRepeats {s : Text} {l : List Text} : s ∈ dropRepeats l ↔ s ∈ l := by
  fun_induction dropRepeats l with
  | case1 t rest ih => rw [ih]; simp
  | case2 t u rest _ ih => rw [List.mem_cons, ih, ← List.mem_cons]
  | case3 => rfl

/-- In ascending order equal ones are neighbours, so none is left twice. -/
theorem pairwise_lt_dropRepeats {l : List Text} (h : Ascending l) :
    (dropRepeats l).Pairwise (· < ·) := by
  fun_induction dropRepeats l with
  | case1 t rest ih => exact ih (List.pairwise_cons.1 h).2
  | case2 t u rest hne ih =>
    obtain ⟨ht, hrest⟩ := List.pairwise_cons.1 h
    refine List.pairwise_cons.2 ⟨fun s hs => ?_, ih hrest⟩
    have htu : t < u := by
      rcases lt_or_eq_of_not_lt (ht u List.mem_cons_self) with htu | rfl
      · exact htu
      · exact absurd rfl hne
    -- `t` is below `u`, and `u` is not above `s`
    rcases List.mem_cons.1 (mem_dropRepeats.1 hs) with rfl | hs
    · exact htu
    · rcases lt_or_eq_of_not_lt ((List.pairwise_cons.1 hrest).1 s hs) with hus | rfl
      · exact trans_of (· < ·) htu hus
      · exact htu
  | case3 l hl =>
    rcases l with - | ⟨s, - | ⟨t, rest⟩⟩
    · exact List.Pairwise.nil
    · exact List.pairwise_singleton _ _
    · exact absurd rfl (hl s t rest)

/-- Sorting loses no sentence and adds none. -/
theorem mem_sorted {s : Text} {l : List Text} : s ∈ sorted l ↔ s ∈ l := by
  rw [sorted, mem_dropRepeats, List.mem_mergeSort]

/-- Sorted sentences ascend strictly. -/
theorem pairwise_lt_sorted (l : List Text) : (sorted l).Pairwise (· < ·) :=
  pairwise_lt_dropRepeats (ascending_ascending l)

end Sentence

end LinkGrammar
