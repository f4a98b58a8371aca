/-
LinkGrammar/Proofs/Generation/Spelling.lean

Arrangements that are spelled differently.

Two arrangements are judged alike when they differ in the case of `not` and `now` only
(`accepts_map_lowerModifier`), and arrangements that differ in case only are written out as
sentences that do so too (`fold_render_congr`).
-/
import Mathlib
import LinkGrammar.Generation.Basic
import LinkGrammar.Proofs.Text.Fold

namespace LinkGrammar

open Text (fold)

/-! ### Sentences -/

namespace Sentence

theorem isArticle_fold (w : Text) : isArticle (fold w) = isArticle w :=
  Text.sameIgnoringAsciiCase_fold w _

/-- The modifiers go to the same places, whatever the case of the words. -/
theorem splice_map_fold (m : Modifiers) (words : List Text) :
    splice m (words.map fold) = (splice m words).map fold := by
  have hnot : fold ['n', 'o', 't'] = ['n', 'o', 't'] := by decide
  have hnow : fold ['n', 'o', 'w'] = ['n', 'o', 'w'] := by decide
  have hstop : ((fun w => !isArticle w) ∘ fold) = fun w => !isArticle w :=
    funext fun w => congrArg (!·) (isArticle_fold w)
  unfold splice
  rw [List.takeWhile_map, List.dropWhile_map, hstop]
  rcases words.dropWhile fun w => !isArticle w with - | ⟨article, after⟩
  · rfl
  · simp only [List.map_cons, List.isEmpty_map]
    -- the modifiers are the same with and without case
    split
    · rcases m with ⟨- | -, - | -⟩ <;> simp [hnot, hnow]
    · rcases m with ⟨- | -, - | -⟩ <;> simp [hnot, hnow]

theorem isQuestion_map_fold (words : List Text) :
    isQuestion (words.map fold) = isQuestion words := by
  unfold isQuestion
  rcases words with - | ⟨w, words⟩
  · rfl
  · simp only [List.map_cons, List.head?_cons, Option.any_some, Text.sameIgnoringAsciiCase_fold]

/-- Arrangements that fold alike are written out alike, up to case. -/
theorem fold_render_congr {m : Modifiers} {p q : List Text} (h : p.map fold = q.map fold) :
    fold (render m p) = fold (render m q) := by
  have hsplice : (splice m p).map fold = (splice m q).map fold := by
    rw [← splice_map_fold, ← splice_map_fold, h]
  have hquestion : isQuestion p = isQuestion q := by
    rw [← isQuestion_map_fold, ← isQuestion_map_fold q, h]
  have htext : fold ([' '].intercalate (splice m p)) = fold ([' '].intercalate (splice m q)) := by
    rw [Text.fold_intercalate, Text.fold_intercalate, hsplice]
  unfold render
  rw [Text.fold_append, Text.fold_append, Text.fold_capitalize_congr htext, hquestion]

end Sentence

/-! ### Modifiers -/

namespace Generation

/-- The words that are taken out of a bag. -/
def modifierWords : List Text := [['n', 'o', 't'], ['n', 'o', 'w']]

theorem isAscii_of_mem_modifierWords {w : Text} (hw : w ∈ modifierWords) :
    ∀ c ∈ fold w, IsAscii c ∧ isBlank c = false := by
  have key : modifierWords.all fun w => (fold w).all fun c => c.toNat < 128 && !isBlank c := by
    decide
  simpa [IsAscii] using List.all_eq_true.1 (List.all_eq_true.1 key w hw)

theorem fold_of_mem_modifierWords {w : Text} (hw : w ∈ modifierWords) : fold w = w := by
  have key : ∀ w ∈ modifierWords, fold w = w := by decide
  exact key w hw

/-- The token, in lower case if it is a modifier. -/
def lowerModifier (t : Text) : Text :=
  (modifierWords.find? (Text.sameIgnoringAsciiCase t)).getD t

/-- A token is left as it is, unless it is a modifier up to its case. -/
theorem lowerModifier_cases (t : Text) :
    lowerModifier t = t ∨
      lowerModifier t ∈ modifierWords ∧ fold t = fold (lowerModifier t) := by
  unfold lowerModifier
  rcases h : modifierWords.find? (Text.sameIgnoringAsciiCase t) with - | w
  · exact .inl rfl
  · right
    have hsame : Text.sameIgnoringAsciiCase t w = true := List.find?_some h
    exact ⟨List.mem_of_find?_eq_some h, Text.sameIgnoringAsciiCase_iff.1 hsame⟩

/-- Every spelling of a modifier becomes the one in small letters. -/
theorem lowerModifier_of_fold_eq {t w : Text} (hw : w ∈ modifierWords) (h : fold t = fold w) :
    lowerModifier t = w := by
  -- `t` is compared with each modifier as `w` is
  have hsame : Text.sameIgnoringAsciiCase t = Text.sameIgnoringAsciiCase w := by
    funext v
    rw [Bool.eq_iff_iff, Text.sameIgnoringAsciiCase_iff, Text.sameIgnoringAsciiCase_iff, h]
  have key : ∀ w ∈ modifierWords, modifierWords.find? (Text.sameIgnoringAsciiCase w) = some w := by
    decide
  unfold lowerModifier
  rw [hsame, key w hw]
  rfl

theorem fold_lowerModifier (t : Text) : fold (lowerModifier t) = fold t := by
  rcases lowerModifier_cases t with h | ⟨-, h⟩
  · rw [h]
  · exact h.symm

/-- Tokens that differ in the spelling of modifiers only fold alike. -/
theorem map_fold_congr {p q : List Text} (h : p.map lowerModifier = q.map lowerModifier) :
    p.map fold = q.map fold := by
  have hfold : fold ∘ lowerModifier = fold := funext fold_lowerModifier
  rw [← hfold, ← List.map_map, ← List.map_map, h]

/-- A modifier is the same word in either case. -/
theorem lower_of_fold_eq {t w : Text} (hw : w ∈ modifierWords) (h : fold t = fold w) :
    Text.lower t = fold w := by
  apply lower_of_sameIgnoringAsciiCase _ (Text.sameIgnoringAsciiCase_iff.2 h)
  intro c hc
  exact (isAscii_of_mem_modifierWords hw _ (List.mem_map_of_mem hc)).1

/-- A modifier has no blanks at its ends, however it is spelled. -/
theorem trimmed_of_fold_eq {t w : Text} (hw : w ∈ modifierWords) (h : fold t = fold w) :
    t.Trimmed :=
  Text.trimmed_of_sameIgnoringAsciiCase (isAscii_of_mem_modifierWords hw)
    (Text.sameIgnoringAsciiCase_iff.2 h)

/-- The spelling of a modifier does not matter where words are looked up. -/
theorem lower_lowerModifier (t : Text) : Text.lower (lowerModifier t) = Text.lower t := by
  rcases lowerModifier_cases t with h | ⟨hw, h⟩
  · rw [h]
  · rw [lower_of_fold_eq hw rfl, lower_of_fold_eq hw h]

theorem lower_trim_lowerModifier (t : Text) :
    Text.lower (Text.trim (lowerModifier t)) = Text.lower (Text.trim t) := by
  rcases lowerModifier_cases t with h | ⟨hw, h⟩
  · rw [h]
  · rw [(trimmed_of_fold_eq hw rfl).trim_eq, (trimmed_of_fold_eq hw h).trim_eq,
      lower_lowerModifier]

/-- No modifier is taken for the placeholder. -/
theorem lowerModifier_eq_placeholder (t : Text) :
    lowerModifier t = placeholder ↔ t = placeholder := by
  constructor
  · intro h
    rcases lowerModifier_cases t with ht | ⟨hw, -⟩
    · rw [← ht, h]
    · exact absurd (h ▸ hw) (by decide)
  · rintro rfl
    decide

/-- Tokens are judged by the words they are looked up as, and by the places of the placeholder. -/
theorem accepts_congr_words (g : Grammar) (idioms : Idioms) {p q : List Text}
    (hwords : p.map (fun t => Text.lower (Text.trim t)) = q.map fun t => Text.lower (Text.trim t))
    (hplaceholder : p.tail.contains placeholder = q.tail.contains placeholder) :
    g.accepts idioms p = g.accepts idioms q := by
  unfold Grammar.accepts
  rw [hplaceholder, hwords]

/-- The case of modifiers does not change whether tokens are a sentence. -/
theorem accepts_map_lowerModifier (g : Grammar) (idioms : Idioms) (p : List Text) :
    g.accepts idioms (p.map lowerModifier) = g.accepts idioms p := by
  apply accepts_congr_words
  · rw [List.map_map]
    exact List.map_congr_left fun t _ => lower_trim_lowerModifier t
  · rw [← List.map_tail, Bool.eq_iff_iff, List.contains_iff_mem, List.contains_iff_mem,
      List.mem_map]
    simp only [lowerModifier_eq_placeholder, exists_eq_right]

end Generation

end LinkGrammar
