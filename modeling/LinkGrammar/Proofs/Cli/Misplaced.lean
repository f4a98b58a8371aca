/-
LinkGrammar/Proofs/Cli/Misplaced.lean

Which words the report on a sentence calls misplaced.

A sentence is laid beside the reference line, word by word.  The words of the line are taken in
lower case and compared with those of the sentence as they are, but for the case of ASCII letters.
So a word is called misplaced where the line has none, and where it has a word that differs in
more than case; and further, wherever the word has a capital outside ASCII, even if the line has
the very same word in its place.

    line      École est là.
    sentence  École là est.     misplaced: École, là, est
-/
import Mathlib
import LinkGrammar.Cli.Report
import LinkGrammar.Proofs.Text.Lower

namespace LinkGrammar.Cli

open Text (fold lower)

/-- The words of a line as they are compared: what stands between spaces, without the marks that
end the line. -/
def comparedWords (line : Text) : List Text := Text.splitAt ' ' (Text.trimEndMarks endMarks line)

/-- The word is called misplaced: where it stands no word is expected, or one that differs even when
case is ignored, or else it has a capital outside ASCII. -/
def Misplaced (expected : Option Text) (word : Text) : Prop :=
  ∀ r ∈ expected, lower r ≠ lower word ∨ ∃ c ∈ word, IsOuterCapital c

instance (expected : Option Text) (word : Text) : Decidable (Misplaced expected word) :=
  inferInstanceAs (Decidable (∀ r ∈ expected, lower r ≠ lower word ∨ ∃ c ∈ word, IsOuterCapital c))

/-- A word in lower case is the fold of another word if the two differ in case only, and the other
has no capitals that the fold keeps. -/
theorem lower_eq_fold_iff_and {r word : Text} :
    lower r = fold word ↔ lower r = lower word ∧ ∀ c ∈ word, ¬IsOuterCapital c := by
  rw [← Text.lower_eq_fold_iff]
  constructor
  · intro h
    have hsame : lower r = lower word := by
      rw [← Text.lower_lower r, h, Text.lower_fold]
    exact ⟨hsame, hsame.symm.trans h⟩
  · rintro ⟨hsame, hfold⟩
    exact hsame.trans hfold

theorem misplaced_some_iff {r word : Text} :
    Misplaced (some r) word ↔ Text.sameIgnoringAsciiCase (lower r) word = false := by
  rw [← Bool.not_eq_true, Text.sameIgnoringAsciiCase_iff, Text.fold_lower, lower_eq_fold_iff_and,
    not_and_or]
  simp [Misplaced]

/-- **The words that are called misplaced.**  They are, in order, the words of the candidate for
which the reference has no word in the same place, or one that differs when case is ignored, and
those with a capital outside ASCII. -/
theorem misplacedWords_eq (reference candidate : Text) :
    misplacedWords reference candidate
      = ((comparedWords candidate).zipIdx.filter fun (word, i) =>
          Misplaced (comparedWords reference)[i]? word).map Prod.fst := by
  unfold misplacedWords comparedWords
  dsimp only
  rw [Text.splitAt_lower]
  refine congrArg _ (List.filter_congr fun ⟨word, i⟩ _ => ?_)
  dsimp only
  rw [List.getElem?_map]
  rcases (Text.splitAt ' ' (Text.trimEndMarks endMarks reference))[i]? with - | r
  · simp [Misplaced]
  · simp [misplaced_some_iff]

/-- The first word of the sentence is that of the line, and is called misplaced. -/
theorem misplacedWords_sameWord :
    let reference : Text := "École est là.".toList
    let candidate : Text := "École là est.".toList
    (comparedWords reference).head? = some "École".toList ∧
      (comparedWords candidate).head? = some "École".toList ∧
      misplacedWords reference candidate = ["École".toList, "là".toList, "est".toList] := by
  decide +kernel

end LinkGrammar.Cli
