/-
LinkGrammar/Proofs/Text/Fold.lean

Texts without the case of their ASCII letters.

`fold` forgets this case.  Two texts are the same ignoring the case of ASCII letters when
they have the same fold, and what only puts texts together or capitalizes them does so with
their folds.
-/
import Mathlib
import LinkGrammar.Proofs.Text.Case
import LinkGrammar.Proofs.Text.Trim

namespace LinkGrammar

/-! ### Characters -/

theorem isAscii_of_isUpper {c : Char} (h : c.isUpper = true) : IsAscii c := by
  simp only [Char.isUpper, decide_eq_true_eq] at h
  have hle : c.toNat ≤ 90 := UInt32.le_iff_toNat_le.1 h.2
  unfold IsAscii
  omega

theorem toLower_of_not_isAscii {c : Char} (h : ¬IsAscii c) : c.toLower = c :=
  Char.toLower_eq_of_not_isUpper fun hupper => h (isAscii_of_isUpper hupper)

/-- The spans hold no letter of ASCII. -/
def AvoidsLetters (spans : List (Nat × Nat)) : Prop :=
  ∀ span ∈ spans, span.2 < 65 ∨ 122 < span.1 ∨ 90 < span.1 ∧ span.2 < 97

instance : DecidablePred AvoidsLetters := fun spans => inferInstanceAs (Decidable
  (∀ span ∈ spans, span.2 < 65 ∨ 122 < span.1 ∨ 90 < span.1 ∧ span.2 < 97))

theorem AvoidsLetters.inSpans {spans : List (Nat × Nat)} (h : AvoidsLetters spans) {n : Nat}
    (hn : 65 ≤ n ∧ n ≤ 90 ∨ 97 ≤ n ∧ n ≤ 122) : inSpans spans n = false := by
  refine List.any_eq_false.2 fun span hspan => ?_
  have := h span hspan
  simp only [Bool.and_eq_true, decide_eq_true_eq]
  omega

theorem AvoidsLetters.inSpans_toLower {spans : List (Nat × Nat)} (h : AvoidsLetters spans)
    (c : Char) : LinkGrammar.inSpans spans c.toLower.toNat = LinkGrammar.inSpans spans c.toNat := by
  rcases toLower_cases c with e | ⟨hfirst, hlast, e⟩
  · rw [e]
  · rw [h.inSpans (n := c.toNat) (by omega), h.inSpans (n := c.toLower.toNat) (by omega)]

theorem avoidsLetters_blankSpans : AvoidsLetters blankSpans := by
  decide

theorem isBlank_toLower (c : Char) : isBlank c.toLower = isBlank c :=
  avoidsLetters_blankSpans.inSpans_toLower c

/-- A letter whose upper case is several characters is outside ASCII, and none of them is a space. -/
theorem upperSequences_outside :
    ∀ sequence ∈ upperSequences, 128 ≤ sequence.1 ∧ ∀ n ∈ sequence.2, 32 < n := by
  decide +kernel

/-- Upper case in ASCII is what ASCII knows of. -/
theorem upperChar_of_isAscii {c : Char} (h : IsAscii c) : upperChar c = [c.toUpper] := by
  have hsequence : upperSequences.lookup c.toNat = none := by
    refine List.lookup_eq_none_iff.2 fun sequence hmem => ?_
    have hlt : c.toNat < sequence.1 :=
      Nat.lt_of_lt_of_le h (upperSequences_outside sequence hmem).1
    simpa using hlt.ne
  have himage : ((CaseRun.image? upperRuns c.toNat).map Char.ofNat).getD c = c.toUpper := by
    apply forall_of_isAscii (P := fun c =>
      ((CaseRun.image? upperRuns c.toNat).map Char.ofNat).getD c = c.toUpper) _ h
    decide +kernel
  unfold upperChar
  rw [hsequence, ← himage]
  rcases CaseRun.image? upperRuns c.toNat with - | n
  · rfl
  · rfl

theorem map_toLower_upperChar {c : Char} (h : IsAscii c) :
    (upperChar c).map Char.toLower = [c.toLower] := by
  rw [upperChar_of_isAscii h, List.map_singleton, Char.toLower_toUpper_eq_toLower]

/-- Characters that differ in case only have capitals that do so. -/
theorem map_toLower_upperChar_congr {c d : Char} (h : c.toLower = d.toLower) :
    (upperChar c).map Char.toLower = (upperChar d).map Char.toLower := by
  by_cases hc : IsAscii c.toLower
  · have hd : IsAscii d.toLower := h ▸ hc
    rw [map_toLower_upperChar (isAscii_of_toLower hc),
      map_toLower_upperChar (isAscii_of_toLower hd), h]
  · -- outside ASCII case is not forgotten, so they are the same
    have hd : ¬IsAscii d.toLower := h ▸ hc
    have hcd : c = d := by
      rw [← toLower_of_not_isAscii (fun e => hc (isAscii_toLower e)), h,
        toLower_of_not_isAscii (fun e => hd (isAscii_toLower e))]
    rw [hcd]

namespace Text

/-! ### Texts -/

/-- The text with its ASCII letters, and no others, in lower case. -/
def fold (t : Text) : Text := t.map Char.toLower

/-- Texts are the same ignoring the case of ASCII letters if they fold alike. -/
theorem sameIgnoringAsciiCase_iff {s t : Text} :
    sameIgnoringAsciiCase s t = true ↔ fold s = fold t := by
  unfold sameIgnoringAsciiCase
  exact beq_iff_eq

@[simp] theorem fold_fold (t : Text) : fold (fold t) = fold t := by
  unfold fold
  rw [List.map_map]
  exact List.map_congr_left fun c _ => Char.toLower_toLower_eq_toLower c

@[simp] theorem sameIgnoringAsciiCase_fold (s t : Text) :
    sameIgnoringAsciiCase (fold s) t = sameIgnoringAsciiCase s t := by
  rw [Bool.eq_iff_iff, sameIgnoringAsciiCase_iff, sameIgnoringAsciiCase_iff, fold_fold]

theorem fold_append (s t : Text) : fold (s ++ t) = fold s ++ fold t := List.map_append

/-- Texts that fold alike do so with a capital at the front too. -/
theorem fold_capitalize_congr {s t : Text} (h : fold s = fold t) :
    fold (capitalize s) = fold (capitalize t) := by
  rcases s with - | ⟨c, s⟩ <;> rcases t with - | ⟨d, t⟩
  · rfl
  · cases h
  · cases h
  · obtain ⟨hhead, htail⟩ := List.cons_eq_cons.1 h
    show fold (upperChar c ++ s) = fold (upperChar d ++ t)
    rw [fold_append, fold_append]
    unfold fold
    rw [map_toLower_upperChar_congr hhead, htail]

theorem fold_intercalate (sep : Text) (l : List Text) :
    fold (sep.intercalate l) = (fold sep).intercalate (l.map fold) := by
  induction l with
  | nil => rfl
  | cons s l ih =>
    rcases l with - | ⟨t, l⟩
    · rw [List.map_singleton, List.intercalate_singleton, List.intercalate_singleton]
    · rw [List.intercalate_cons_cons, fold_append, fold_append, ih, List.map_cons, List.map_cons,
        List.map_cons, List.intercalate_cons_cons]

/-- A text that differs from an ASCII word in case only has no blanks where it has none. -/
theorem trimmed_of_sameIgnoringAsciiCase {t w : Text}
    (hw : ∀ c ∈ fold w, IsAscii c ∧ isBlank c = false)
    (h : sameIgnoringAsciiCase t w = true) : t.Trimmed := by
  apply trimmed_of_forall
  intro c hc
  have hmem : c.toLower ∈ fold w := by
    rw [← sameIgnoringAsciiCase_iff.1 h]
    exact List.mem_map_of_mem hc
  obtain ⟨hascii, hblank⟩ := hw _ hmem
  rw [← isBlank_toLower c]
  exact hblank

end Text

end LinkGrammar
