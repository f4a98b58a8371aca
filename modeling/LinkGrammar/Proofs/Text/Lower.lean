/-
LinkGrammar/Proofs/Text/Lower.lean

The full lower case of a text.

Lower case is taken once: nothing of what it gives is a capital again (`lowerChar_of_mem_lower`).
The table is long, so its letters and what they go to are told apart as the bits of two numbers
(`images_disjoint`).

The form of a small sigma hangs on its neighbours, but not across a space.  So the lower case of a
line is that of its words, one by one (`splitAt_lower`).

Only capitals outside ASCII tell the lower case of a text from its fold (`lower_eq_fold_iff`).
-/
import Mathlib
import LinkGrammar.Proofs.Text.Letters
import LinkGrammar.Proofs.Text.Pieces

namespace LinkGrammar

/-! ### Images of letters -/

namespace CaseRun

/-- The letters of the run. -/
def letters (run : CaseRun) : List Nat :=
  List.range' run.first ((run.last - run.first) / run.step + 1) run.step

/-- What they go to. -/
def images (run : CaseRun) : List Nat :=
  List.range' run.image ((run.last - run.first) / run.step + 1) run.step

/-- What runs map, and what they map it to, can be listed. -/
theorem mem_of_image? {runs : List CaseRun} {n m : Nat} (h : image? runs n = some m) :
    n ∈ runs.flatMap letters ∧ m ∈ runs.flatMap images := by
  obtain ⟨run, hrun, hfirst, hlast, hstep, rfl⟩ := exists_of_image? h
  have hn : n = run.first + run.step * ((n - run.first) / run.step) := by
    rw [Nat.mul_div_cancel' (Nat.dvd_of_mod_eq_zero hstep)]
    omega
  have himage : run.image + (n - run.first)
      = run.image + run.step * ((n - run.first) / run.step) := by
    rw [Nat.mul_div_cancel' (Nat.dvd_of_mod_eq_zero hstep)]
  have hlt : (n - run.first) / run.step < (run.last - run.first) / run.step + 1 :=
    Nat.lt_succ_of_le (Nat.div_le_div_right (by omega))
  exact ⟨List.mem_flatMap.2 ⟨run, hrun, List.mem_range'.2 ⟨_, hlt, hn⟩⟩,
    List.mem_flatMap.2 ⟨run, hrun, List.mem_range'.2 ⟨_, hlt, himage⟩⟩⟩

end CaseRun

/-- A set of numbers, as the bits of one. -/
def bitSet (ns : List Nat) : Nat := ns.foldr (fun n m => 1 <<< n ||| m) 0

/-- The bits of the number are the members of the list. -/
theorem testBit_bitSet (ns : List Nat) (n : Nat) : (bitSet ns).testBit n = decide (n ∈ ns) := by
  induction ns with
  | nil => simp [bitSet]
  | cons m ns ih =>
    have hcons : bitSet (m :: ns) = 1 <<< m ||| bitSet ns := rfl
    have hbit : (1 <<< m).testBit n = decide (n = m) := by
      rw [Nat.shiftLeft_eq, one_mul, Nat.testBit_two_pow]
      exact decide_eq_decide.2 eq_comm
    rw [hcons, Nat.testBit_or, hbit, ih]
    simp

/-- What a letter goes to is neither a letter, not even the one with a lower case of two
characters, nor a space. -/
theorem images_disjoint :
    bitSet (lowerRuns.flatMap CaseRun.images) &&&
      bitSet (32 :: 0x0130 :: lowerRuns.flatMap CaseRun.letters) = 0 := by
  decide +kernel

/-- A lower case has no lower case of its own. -/
theorem not_mem_letters_of_mem_images {m : Nat} (h : m ∈ lowerRuns.flatMap CaseRun.images) :
    m ∉ 32 :: 0x0130 :: lowerRuns.flatMap CaseRun.letters := by
  have hbit := congrArg (Nat.testBit · m) images_disjoint
  simpa only [Nat.testBit_and, testBit_bitSet, h, decide_true, Bool.true_and, Nat.zero_testBit,
    decide_eq_false_iff_not] using hbit

theorem lowerChar_eq_self {c : Char} (h : c.toNat ≠ 0x0130)
    (hnone : CaseRun.image? lowerRuns c.toNat = none) : lowerChar c = [c] := by
  have hdotted : c ≠ 'İ' := by
    rintro rfl
    exact h rfl
  rw [lowerChar, if_neg hdotted, hnone]

/-- The image of a letter is its own lower case. -/
theorem lowerChar_of_image? {n m : Nat} (h : CaseRun.image? lowerRuns n = some m) :
    lowerChar (Char.ofNat m) = [Char.ofNat m] := by
  have hletters := not_mem_letters_of_mem_images (CaseRun.mem_of_image? h).2
  rw [List.mem_cons, List.mem_cons, not_or, not_or] at hletters
  obtain ⟨-, hdotted, hletters⟩ := hletters
  have hnone : CaseRun.image? lowerRuns m = none := by
    rw [Option.eq_none_iff_forall_ne_some]
    exact fun m' h' => hletters (CaseRun.mem_of_image? h').1
  -- a number that is no character stands for the first one
  have htoNat := Char.toNat_ofNat m
  split at htoNat
  · exact lowerChar_eq_self (by rwa [htoNat]) (by rwa [htoNat])
  · exact lowerChar_eq_self (by omega) (by rw [htoNat]; decide)

theorem lowerChar_of_mem_lowerChar {c d : Char} (h : d ∈ lowerChar c) : lowerChar d = [d] := by
  unfold lowerChar at h
  split at h
  · have hd : d = 'i' ∨ d = '\u0307' := by simpa using h
    rcases hd with rfl | rfl <;> decide
  · next hc =>
    split at h
    · next m hm =>
      obtain rfl := List.mem_singleton.1 h
      exact lowerChar_of_image? hm
    · next hm =>
      obtain rfl := List.mem_singleton.1 h
      rw [lowerChar, if_neg hc, hm]

namespace Text

/-! ### Lower case twice -/

theorem lowerChar_of_mem_lowerAfter {d : Char} {before t : Text} (h : d ∈ lowerAfter before t) :
    lowerChar d = [d] := by
  induction t generalizing before with
  | nil => cases h
  | cons c t ih =>
    rw [lowerAfter, List.mem_append] at h
    rcases h with h | h
    · split at h
      · split at h
        · obtain rfl := List.mem_singleton.1 h
          decide
        · obtain rfl := List.mem_singleton.1 h
          decide
      · exact lowerChar_of_mem_lowerChar h
    · exact ih h

/-- Nothing in lower case has another lower case. -/
theorem lowerChar_of_mem_lower {d : Char} {t : Text} (h : d ∈ lower t) : lowerChar d = [d] :=
  lowerChar_of_mem_lowerAfter h

/-- A text whose characters are all in lower case already stays as it is. -/
theorem lowerAfter_eq_self {t : Text} (before : Text) (h : ∀ c ∈ t, lowerChar c = [c]) :
    lowerAfter before t = t := by
  induction t generalizing before with
  | nil => rfl
  | cons c t ih =>
    obtain ⟨hc, ht⟩ := List.forall_mem_cons.1 h
    have hsigma : c ≠ 'Σ' := by
      rintro rfl
      exact absurd hc (by decide)
    rw [lowerAfter, if_neg hsigma, hc, ih _ ht]
    rfl

/-- Lower case of lower case is the same. -/
@[simp] theorem lower_lower (t : Text) : lower (lower t) = lower t :=
  lowerAfter_eq_self [] fun _ => lowerChar_of_mem_lower

/-- In lower case there are no capital letters of ASCII. -/
theorem fold_lower (t : Text) : fold (lower t) = lower t := by
  refine (List.map_congr_left fun d hd => ?_).trans (List.map_id _)
  by_cases hascii : IsAscii d
  · exact List.singleton_inj.1 ((lowerChar_of_isAscii hascii).symm.trans (lowerChar_of_mem_lower hd))
  · exact toLower_of_not_isAscii hascii

/-! ### The case of ASCII letters -/

/-- Taking ASCII letters to lower case first changes nothing. -/
theorem lowerChar_toLower (c : Char) : lowerChar c.toLower = lowerChar c := by
  by_cases h : IsAscii c
  · rw [lowerChar_of_isAscii h, lowerChar_of_isAscii (isAscii_toLower h),
      Char.toLower_toLower_eq_toLower]
  · rw [toLower_of_not_isAscii h]

/-- Whether a letter is cased does not depend on its case. -/
theorem isCased_toLower (c : Char) : isCased c.toLower = isCased c := by
  have hcased (span : Nat × Nat) (hspan : span ∈ casedSpans) {d : Char} (hd : span.1 ≤ d.toNat)
      (hd' : d.toNat ≤ span.2) : isCased d = true :=
    List.any_eq_true.2 ⟨span, hspan, by simp [hd, hd']⟩
  rcases toLower_cases c with h | ⟨hfirst, hlast, h⟩
  · rw [h]
  · rw [hcased (0x0041, 0x005a) (by decide) hfirst hlast,
      hcased (0x0061, 0x007a) (by decide) (by rw [h]; omega) (by rw [h]; omega)]

/-- Neither letters of ASCII nor spaces are passed over. -/
theorem ignorableSpans_avoid :
    AvoidsLetters ignorableSpans ∧ inSpans ignorableSpans 32 = false := by
  decide +kernel

theorem isCaseIgnorable_toLower (c : Char) : isCaseIgnorable c.toLower = isCaseIgnorable c :=
  ignorableSpans_avoid.1.inSpans_toLower c

/-- The case of ASCII letters does not matter for their neighbours. -/
theorem leadsToCased_fold (t : Text) : leadsToCased (fold t) = leadsToCased t := by
  unfold leadsToCased fold
  rw [List.dropWhile_map, show isCaseIgnorable ∘ Char.toLower = isCaseIgnorable from
    funext isCaseIgnorable_toLower]
  rcases t.dropWhile isCaseIgnorable with - | ⟨c, u⟩
  · rfl
  · exact isCased_toLower c

theorem toLower_eq_sigma_iff {c : Char} : c.toLower = 'Σ' ↔ c = 'Σ' := by
  by_cases h : IsAscii c
  · have hsigma {d : Char} (hd : IsAscii d) : d ≠ 'Σ' := by
      rintro rfl
      exact absurd hd (by decide)
    exact iff_of_false (hsigma (isAscii_toLower h)) (hsigma h)
  · rw [toLower_of_not_isAscii h]

/-- Taking the ASCII letters of a text to lower case first changes nothing. -/
theorem lowerAfter_fold (before t : Text) :
    lowerAfter (fold before) (fold t) = lowerAfter before t := by
  induction t generalizing before with
  | nil => rfl
  | cons c t ih =>
    show lowerAfter (fold before) (c.toLower :: fold t) = _
    rw [lowerAfter, lowerAfter, leadsToCased_fold, leadsToCased_fold, lowerChar_toLower]
    simp only [toLower_eq_sigma_iff]
    exact congrArg _ (ih (c :: before))

/-- The lower case does not depend on the case of ASCII letters. -/
@[simp] theorem lower_fold (t : Text) : lower (fold t) = lower t := lowerAfter_fold [] t

/-! ### The words of a line -/

/-- What stands beyond a space does not count for a sigma. -/
theorem leadsToCased_append_space (s t : Text) :
    leadsToCased (s ++ ' ' :: t) = leadsToCased s := by
  have hspace : isCaseIgnorable ' ' = false := ignorableSpans_avoid.2
  unfold leadsToCased
  rw [List.dropWhile_append]
  rcases s.dropWhile isCaseIgnorable with - | ⟨c, u⟩
  · rw [List.isEmpty_nil, if_pos rfl, List.dropWhile_cons_of_neg (by simp [hspace])]
    rfl
  · rfl

/-- What stands before a space does not matter for what follows it. -/
theorem lowerAfter_append_space (before beyond t : Text) :
    lowerAfter (before ++ ' ' :: beyond) t = lowerAfter before t := by
  induction t generalizing before with
  | nil => rfl
  | cons c t ih =>
    rw [lowerAfter, lowerAfter, leadsToCased_append_space, ← List.cons_append, ih]

/-- Texts with a space between them are taken to lower case one by one. -/
theorem lower_append_space (s t : Text) : lower (s ++ ' ' :: t) = lower s ++ ' ' :: lower t := by
  suffices key : ∀ before, lowerAfter before (s ++ ' ' :: t)
      = lowerAfter before s ++ ' ' :: lowerAfter [] t from key []
  intro before
  induction s generalizing before with
  | nil => exact congrArg (' ' :: ·) (lowerAfter_append_space [] before t)
  | cons c s ih =>
    rw [List.cons_append, lowerAfter, lowerAfter, leadsToCased_append_space, ih,
      List.append_assoc]

theorem space_not_mem_lower {t : Text} (h : ' ' ∉ t) : ' ' ∉ lower t := by
  have hchar {c : Char} (hc : c ≠ ' ') : ' ' ∉ lowerChar c := by
    unfold lowerChar
    split
    · decide
    · split
      · next n hn =>
        intro hspace
        have hn' : n = 32 := eq_of_ofNat_eq_space (List.mem_singleton.1 hspace).symm
        exact not_mem_letters_of_mem_images (CaseRun.mem_of_image? hn).2
          (hn' ▸ List.mem_cons_self)
      · exact fun hspace => hc (List.mem_singleton.1 hspace).symm
  suffices key : ∀ before, ' ' ∉ lowerAfter before t from key []
  intro before
  induction t generalizing before with
  | nil => exact List.not_mem_nil
  | cons c t ih =>
    rw [lowerAfter, List.mem_append, not_or]
    refine ⟨?_, ih (List.not_mem_of_not_mem_cons h) _⟩
    split
    · split <;> decide
    · exact hchar (List.ne_of_not_mem_cons h).symm

/-- **The words of the lower case are the lower case of the words.** -/
theorem splitAt_lower (t : Text) : splitAt ' ' (lower t) = (splitAt ' ' t).map lower := by
  induction t using pieces_cases with
  | last piece h => rw [splitAt_of_not_mem h, splitAt_of_not_mem (space_not_mem_lower h)]; rfl
  | more piece t h ih =>
    rw [splitAt_append h, lower_append_space, splitAt_append (space_not_mem_lower h), ih]
    rfl

end Text

/-! ### Capitals outside ASCII -/

/-- A capital that is no letter of ASCII. -/
def IsOuterCapital (c : Char) : Prop := ¬IsAscii c ∧ lowerChar c ≠ [c]

instance : DecidablePred IsOuterCapital := fun c =>
  inferInstanceAs (Decidable (¬IsAscii c ∧ lowerChar c ≠ [c]))

/-- Which characters have the lower case that ASCII knows of. -/
theorem lowerChar_eq_toLower_iff {c : Char} : lowerChar c = [c.toLower] ↔ ¬IsOuterCapital c := by
  unfold IsOuterCapital
  by_cases h : IsAscii c
  · simp [h, lowerChar_of_isAscii h]
  · simp [h, toLower_of_not_isAscii h]

/-- The lower case of a character is one character, but for the dotted capital I. -/
theorem lowerChar_cases (c : Char) : c = 'İ' ∨ ∃ d, lowerChar c = [d] := by
  unfold lowerChar
  split
  · exact .inl ‹_›
  · right
    split
    · exact ⟨_, rfl⟩
    · exact ⟨_, rfl⟩

namespace Text

/-- When the lower case of a text is the one that ASCII knows of. -/
theorem lowerAfter_eq_fold_iff {before t : Text} :
    lowerAfter before t = fold t ↔ ∀ c ∈ t, ¬IsOuterCapital c := by
  induction t generalizing before with
  | nil => simp [lowerAfter, fold]
  | cons c t ih =>
    show _ = c.toLower :: fold t ↔ _
    rw [lowerAfter, List.forall_mem_cons]
    by_cases hsigma : c = 'Σ'
    · -- neither small sigma is the capital one
      have hcapital : IsOuterCapital 'Σ' := by decide
      rw [if_pos hsigma, hsigma]
      refine iff_of_false (fun h => ?_) fun h => h.1 hcapital
      split at h
      · exact absurd (List.cons.inj h).1 (by decide)
      · exact absurd (List.cons.inj h).1 (by decide)
    rw [if_neg hsigma, ← lowerChar_eq_toLower_iff]
    rcases lowerChar_cases c with rfl | ⟨d, hd⟩
    · refine iff_of_false (fun h => ?_) fun h => absurd h.1 (by decide)
      exact absurd (List.cons.inj h).1 (by decide)
    · rw [hd, List.singleton_append, List.cons.injEq, ih, List.singleton_inj]

/-- Without capitals outside ASCII the lower case is the fold. -/
theorem lower_eq_fold_iff {t : Text} : lower t = fold t ↔ ∀ c ∈ t, ¬IsOuterCapital c :=
  lowerAfter_eq_fold_iff

end Text

end LinkGrammar
