/-
LinkGrammar/Proofs/Text/Letters.lean

Words of letters, and what a capital makes of them.

A capital brings no space into a text.  In a text of ASCII it is one letter and differs in case
only, and a second one changes nothing.  Words of ASCII letters are looked up as they are folded.
-/
import Mathlib
import LinkGrammar.Proofs.Text.Fold

namespace LinkGrammar

/-! ### Capitals -/

theorem eq_of_ofNat_eq_space {n : Nat} (h : Char.ofNat n = ' ') : n = 32 := by
  have hn : (Char.ofNat n).toNat = 32 := congrArg Char.toNat h
  rw [Char.toNat_ofNat] at hn
  split at hn
  · exact hn
  · cases hn

/-- A space is in no upper case but its own. -/
theorem space_not_mem_upperChar {c : Char} (h : c ≠ ' ') : ' ' ∉ upperChar c := by
  have hruns : ∀ run ∈ upperRuns, 32 < run.image := by decide +kernel
  unfold upperChar
  split
  · next ns hns =>
    obtain ⟨before, after, heq, -⟩ := List.lookup_eq_some_iff.1 hns
    have hmem : (c.toNat, ns) ∈ upperSequences := by
      rw [heq]
      exact List.mem_append_right _ List.mem_cons_self
    intro hspace
    obtain ⟨n, hn, hofNat⟩ := List.mem_map.1 hspace
    have hlt := (upperSequences_outside _ hmem).2 n hn
    rw [eq_of_ofNat_eq_space hofNat] at hlt
    exact absurd hlt (lt_irrefl 32)
  · split
    · next n hn =>
      obtain ⟨run, hrun, -, -, -, rfl⟩ := CaseRun.exists_of_image? hn
      have := hruns run hrun
      intro hspace
      have := eq_of_ofNat_eq_space (List.mem_singleton.1 hspace).symm
      omega
    · exact fun hspace => h (List.mem_singleton.1 hspace).symm

/-! ### Letters of ASCII -/

theorem toNat_of_isAlpha {c : Char} (h : c.isAlpha = true) :
    65 ≤ c.toNat ∧ c.toNat ≤ 90 ∨ 97 ≤ c.toNat ∧ c.toNat ≤ 122 := by
  simpa [Char.isAlpha, Char.isUpper, Char.isLower, UInt32.le_iff_toNat_le] using h

theorem isAscii_of_isAlpha {c : Char} (h : c.isAlpha = true) : IsAscii c := by
  have := toNat_of_isAlpha h
  unfold IsAscii
  omega

theorem isBlank_of_isAlpha {c : Char} (h : c.isAlpha = true) : isBlank c = false :=
  avoidsLetters_blankSpans.inSpans (toNat_of_isAlpha h)

theorem isAlpha_of_isLower {c : Char} (h : c.isLower = true) : c.isAlpha = true := by
  unfold Char.isAlpha
  rw [h, Bool.or_true]

namespace Text

theorem space_not_mem_capitalize {w : Text} (h : ' ' ∉ w) : ' ' ∉ capitalize w := by
  rcases w with - | ⟨c, w⟩
  · exact h
  · show ' ' ∉ upperChar c ++ w
    rw [List.mem_append, not_or]
    exact ⟨space_not_mem_upperChar (List.ne_of_not_mem_cons h).symm,
      List.not_mem_of_not_mem_cons h⟩

/-- In ASCII a capital letter takes the place of the first one. -/
theorem capitalize_cons_of_isAscii {c : Char} (h : IsAscii c) (t : Text) :
    capitalize (c :: t) = c.toUpper :: t := by
  show upperChar c ++ t = _
  rw [upperChar_of_isAscii h]
  rfl

/-- A capital differs in case only. -/
theorem fold_capitalize {t : Text} (h : ∀ c ∈ t, IsAscii c) : fold (capitalize t) = fold t := by
  rcases t with - | ⟨c, t⟩
  · rfl
  · show fold (upperChar c ++ t) = _
    rw [fold_append]
    unfold fold
    rw [map_toLower_upperChar (h c List.mem_cons_self)]
    rfl

/-! ### Words of letters -/

variable {t : Text}

/-- The text is a word of letters of ASCII. -/
def Alphabetic (t : Text) : Prop := t ≠ [] ∧ ∀ c ∈ t, c.isAlpha = true

/-- The text is a word of small letters of ASCII. -/
def Small (t : Text) : Prop := t ≠ [] ∧ ∀ c ∈ t, c.isLower = true

instance (t : Text) : Decidable t.Small :=
  decidable_of_iff (t ≠ [] ∧ t.all Char.isLower = true) (by simp [Small])

theorem Alphabetic.isAscii (h : t.Alphabetic) : ∀ c ∈ t, IsAscii c :=
  fun c hc => isAscii_of_isAlpha (h.2 c hc)

theorem Alphabetic.space_not_mem (h : t.Alphabetic) : ' ' ∉ t := fun hmem => by
  cases h.2 ' ' hmem

/-- A text of letters has the lower case that ASCII knows of. -/
theorem Alphabetic.lower_eq (h : t.Alphabetic) : lower t = fold t := lower_of_isAscii h.isAscii

theorem Alphabetic.trim_eq (h : t.Alphabetic) : trim t = t :=
  (trimmed_of_forall fun c hc => isBlank_of_isAlpha (h.2 c hc)).trim_eq

theorem Alphabetic.fold (h : t.Alphabetic) : (fold t).Alphabetic := by
  refine ⟨fun hnil => h.1 (List.map_eq_nil_iff.1 hnil), fun c hc => ?_⟩
  obtain ⟨d, hd, rfl⟩ := List.mem_map.1 hc
  exact (Char.isAlpha_toLower_eq_isAlpha d).trans (h.2 d hd)

theorem Alphabetic.capitalize (h : t.Alphabetic) : (capitalize t).Alphabetic := by
  rcases t with - | ⟨c, t⟩
  · exact absurd rfl h.1
  · obtain ⟨hc, ht⟩ := List.forall_mem_cons.1 h.2
    have hupper : c.toUpper.isAlpha = true := (Char.isAlpha_toUpper_eq_isAlpha c).trans hc
    rw [capitalize_cons_of_isAscii (isAscii_of_isAlpha hc)]
    exact ⟨List.cons_ne_nil _ _, List.forall_mem_cons.2 ⟨hupper, ht⟩⟩

theorem Alphabetic.capitalize_capitalize (h : t.Alphabetic) :
    Text.capitalize (Text.capitalize t) = Text.capitalize t := by
  have hcapital := h.capitalize.isAscii
  rcases t with - | ⟨c, t⟩
  · rfl
  · rw [capitalize_cons_of_isAscii (h.isAscii c List.mem_cons_self)] at hcapital ⊢
    rw [capitalize_cons_of_isAscii (hcapital _ List.mem_cons_self),
      Char.toUpper_toUpper_eq_toUpper]

theorem Small.alphabetic (h : t.Small) : t.Alphabetic :=
  ⟨h.1, fun c hc => isAlpha_of_isLower (h.2 c hc)⟩

theorem Small.fold_eq (h : t.Small) : fold t = t :=
  (List.map_congr_left fun c hc =>
    Char.toLower_eq_of_not_isUpper (Char.not_isUpper_of_isLower (h.2 c hc))).trans (List.map_id t)

end Text

end LinkGrammar
