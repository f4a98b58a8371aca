/-
LinkGrammar/Proofs/Text/Case.lean

Case mapping on ASCII texts: there the full lower case is the one letter by letter,
so a word that equals an ASCII word but for the case of ASCII letters has its lower
case.  Conversely a text with the lower case of such a word is one of its spellings,
unless the word has a `k`, which the Kelvin sign has for its lower case, too.
-/
import Mathlib
import LinkGrammar.Text.Case

namespace LinkGrammar

/-- An ASCII character. -/
def IsAscii (c : Char) : Prop := c.toNat < 128

instance : DecidablePred IsAscii := fun c => inferInstanceAs (Decidable (c.toNat < 128))

/-- A character that is no capital of ASCII is its own lower case letter. -/
theorem toLower_cases (c : Char) :
    c.toLower = c ∨ 65 ≤ c.toNat ∧ c.toNat ≤ 90 ∧ c.toLower.toNat = c.toNat + 32 := by
  unfold Char.toLower
  split
  · next hc =>
    have hfirst : 65 ≤ c.toNat := UInt32.le_iff_toNat_le.1 hc.1
    have hlast : c.toNat ≤ 90 := UInt32.le_iff_toNat_le.1 hc.2
    refine .inr ⟨hfirst, hlast, ?_⟩
    show (c.val + ('a'.val - 'A'.val)).toNat = c.toNat + 32
    rw [UInt32.toNat_add]
    exact Nat.mod_eq_of_lt (by show c.toNat + 32 < 2 ^ 32; omega)
  · exact .inl rfl

theorem isAscii_of_toLower {c : Char} (h : IsAscii c.toLower) : IsAscii c := by
  unfold IsAscii at *
  rcases toLower_cases c with e | ⟨-, hlast, -⟩
  · rwa [e] at h
  · omega

theorem isAscii_toLower {c : Char} (h : IsAscii c) : IsAscii c.toLower := by
  unfold IsAscii at *
  rcases toLower_cases c with e | ⟨-, hlast, e⟩
  · rwa [e]
  · omega

/-- There are few enough ASCII characters to try them all. -/
theorem forall_of_isAscii {P : Char → Prop} (h : ∀ n : Fin 128, P (Char.ofNat n)) {c : Char}
    (hc : IsAscii c) : P c := by
  rw [← Char.ofNat_toNat c]
  exact h ⟨c.toNat, hc⟩

theorem lowerChar_of_isAscii {c : Char} (h : IsAscii c) : lowerChar c = [c.toLower] := by
  apply forall_of_isAscii (P := fun c => lowerChar c = [c.toLower]) _ h
  decide +kernel

theorem lowerAfter_of_isAscii {t : Text} (before : Text) (h : ∀ c ∈ t, IsAscii c) :
    Text.lowerAfter before t = t.map Char.toLower := by
  induction t generalizing before with
  | nil => rfl
  | cons c t ih =>
    obtain ⟨hc, ht⟩ := List.forall_mem_cons.1 h
    have hsigma : c ≠ 'Σ' := by
      rintro rfl
      exact absurd hc (by decide)
    rw [Text.lowerAfter, if_neg hsigma, lowerChar_of_isAscii hc, ih _ ht]
    rfl

theorem lower_of_isAscii {t : Text} (h : ∀ c ∈ t, IsAscii c) :
    Text.lower t = t.map Char.toLower :=
  lowerAfter_of_isAscii [] h

theorem lower_of_sameIgnoringAsciiCase {t w : Text} (hw : ∀ c ∈ w, IsAscii c.toLower)
    (h : Text.sameIgnoringAsciiCase t w = true) : Text.lower t = w.map Char.toLower := by
  have hmap : t.map Char.toLower = w.map Char.toLower := by
    simpa [Text.sameIgnoringAsciiCase] using h
  rw [← hmap]
  refine lower_of_isAscii fun c hc => isAscii_of_toLower ?_
  have hmem : c.toLower ∈ w.map Char.toLower := hmap ▸ List.mem_map_of_mem hc
  obtain ⟨d, hd, e⟩ := List.mem_map.1 hmem
  rw [← e]
  exact hw d hd

/-! ### Texts with a lower case of ASCII -/

/-- An image stands where its letter does in a run. -/
theorem CaseRun.exists_of_image? {runs : List CaseRun} {n m : Nat} (h : image? runs n = some m) :
    ∃ run ∈ runs, run.first ≤ n ∧ n ≤ run.last ∧ (n - run.first) % run.step = 0 ∧
      m = run.image + (n - run.first) := by
  induction runs with
  | nil => cases h
  | cons run runs ih =>
    unfold image? at h
    split at h
    · cases h
    · next hfirst =>
      split at h
      · next hlast =>
        cases h
        simp only [Bool.and_eq_true, decide_eq_true_eq, beq_iff_eq] at hlast
        exact ⟨run, List.mem_cons_self, Nat.le_of_not_lt hfirst, hlast.1, hlast.2, rfl⟩
      · obtain ⟨run', hmem, hrun'⟩ := ih h
        exact ⟨run', List.mem_cons_of_mem _ hmem, hrun'⟩

/-- Beyond ASCII no letter but the Kelvin sign has a lower case of ASCII letters. -/
theorem isAscii_of_lowerChar {c : Char} (h : ∀ d ∈ lowerChar c, IsAscii d ∧ d ≠ 'k') :
    IsAscii c := by
  have key : ∀ run ∈ lowerRuns, run.last < 128 ∨ (run.first = run.last ∧ run.image = 'k'.toNat) ∨
      128 ≤ run.image ∧ (run.image + (run.last - run.first) < 0xd800 ∨
        0xdfff < run.image ∧ run.image + (run.last - run.first) < 0x110000) := by
    decide +kernel
  unfold lowerChar at h
  split at h
  · exact absurd (h '\u0307' (by simp)).1 (by decide)
  · split at h
    · next n hn =>
      obtain ⟨run, hrun, hfirst, hlast, -, rfl⟩ := CaseRun.exists_of_image? hn
      obtain ⟨hascii, hk⟩ := h _ List.mem_cons_self
      rcases key run hrun with hlow | ⟨hone, himage⟩ | ⟨himage, hvalid⟩
      · exact Nat.lt_of_le_of_lt hlast hlow
      · refine absurd ?_ hk
        have : c.toNat - run.first = 0 := by omega
        rw [this, himage]
        decide
      · exfalso
        have hn : (run.image + (c.toNat - run.first)).isValidChar := by
          unfold Nat.isValidChar
          omega
        unfold IsAscii at hascii
        rw [Char.toNat_ofNat, if_pos hn] at hascii
        omega
    · exact (h c List.mem_cons_self).1

/-- A text whose lower case has letters of ASCII only, and no `k`, is one of ASCII. -/
theorem lowerAfter_of_forall {t : Text} (before : Text)
    (h : ∀ d ∈ Text.lowerAfter before t, IsAscii d ∧ d ≠ 'k') :
    Text.lowerAfter before t = t.map Char.toLower := by
  refine lowerAfter_of_isAscii before ?_
  induction t generalizing before with
  | nil => simp
  | cons c t ih =>
    rw [Text.lowerAfter] at h
    refine List.forall_mem_cons.2 ⟨?_, ih (c :: before) fun d hd => h d (List.mem_append_right _ hd)⟩
    by_cases hsigma : c = 'Σ'
    · -- neither form of a sigma is a letter of ASCII
      rw [if_pos hsigma] at h
      exfalso
      split at h
      · exact absurd (h 'ς' (by simp)).1 (by decide)
      · exact absurd (h 'σ' (by simp)).1 (by decide)
    · rw [if_neg hsigma] at h
      exact isAscii_of_lowerChar fun d hd => h d (List.mem_append_left _ hd)

/-- A text is a spelling of a word of small ASCII letters without `k` if its lower case is that
word. -/
theorem sameIgnoringAsciiCase_iff_lower {t w : Text}
    (hw : ∀ d ∈ w, IsAscii d ∧ d ≠ 'k' ∧ d.toLower = d) :
    Text.sameIgnoringAsciiCase t w = true ↔ Text.lower t = w := by
  have hself : w.map Char.toLower = w :=
    (List.map_congr_left fun d hd => (hw d hd).2.2).trans (List.map_id w)
  constructor
  · intro h
    have hlower : Text.lower t = w.map Char.toLower := by
      apply lower_of_sameIgnoringAsciiCase _ h
      intro d hd
      rw [(hw d hd).2.2]
      exact (hw d hd).1
    rw [hlower, hself]
  · intro h
    have hmap : t.map Char.toLower = w := by
      rw [← h]
      refine (lowerAfter_of_forall [] fun d hd => ?_).symm
      obtain ⟨hascii, hk, -⟩ := hw d (h ▸ hd)
      exact ⟨hascii, hk⟩
    unfold Text.sameIgnoringAsciiCase
    rw [hmap, hself]
    exact beq_self_eq_true w

end LinkGrammar
