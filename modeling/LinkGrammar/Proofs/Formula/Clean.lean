/-
LinkGrammar/Proofs/Formula/Clean.lean

Texts that cleanup leaves as they are.

What a repair finds is an operator without an operand or an empty pair of brackets, and neither
is found where parts and operators alternate.  So cleanup does nothing to a text with orderly
tokens, if there are no blanks to be tidied up in it.

Main result: the text of a formula is such a text (`cleanup_render`), whatever the names in it
are, and however the text that it was read from was written (`clean_render_of_parse`).
-/
import LinkGrammar.Proofs.Formula.Dangling
import LinkGrammar.Proofs.Formula.Rendered

namespace LinkGrammar.Formula

/-! ### Nothing to repair -/

namespace Orderly

variable {ls : List Lexeme} (h : Orderly ls)
include h

/-- Orderly tokens have no empty pair of brackets. -/
theorem not_hasEmpty (b : Bracket) : ¬HasEmpty b ls := by
  rintro ⟨p, q, rfl⟩
  have hfits := List.isChain_iff_forall_rel_of_append_cons_cons.1 h.fits rfl
  exact absurd hfits (by simp [Fits, Lexeme.startsPart, Lexeme.endsPart])

theorem not_dangling (j : Joint) : ¬Dangling j ls := by
  rintro ⟨p, q, rfl, hleft | hright⟩
  · -- an operator does not begin a part
    rcases hleft.cases with rfl | ⟨p, b, rfl⟩ | ⟨p, rfl⟩
    · exact absurd (h.first j.lexeme rfl) (by simp)
    · have hfits := List.isChain_append.1 h.fits
      exact absurd (hfits.2.2 (.opening b) (by simp) j.lexeme rfl) (by simp [Fits, Lexeme.endsPart])
    · have hfits := List.isChain_append.1 h.fits
      exact absurd (hfits.2.2 j.lexeme (by simp) j.lexeme rfl) (by simp [Fits])
  · -- and does not end one
    rcases hright.cases with rfl | ⟨b, q, rfl⟩ | ⟨q, rfl⟩
    · exact absurd (h.last j.lexeme (by simp)) (by simp)
    · have hfits := List.isChain_iff_forall_rel_of_append_cons_cons.1 h.fits rfl
      exact absurd hfits (by simp [Fits, Lexeme.startsPart])
    · have hfits := List.isChain_iff_forall_rel_of_append_cons_cons.1 h.fits rfl
      exact absurd hfits (by simp [Fits])

end Orderly

theorem settled_of_orderly {t : Text} (h : Orderly (lexemes t)) : Settled t := by
  rintro r hr u w rfl -
  rw [Option.eq_none_iff_forall_ne_some]
  intro x hfire
  rcases Repair.findsDamage_of_mem_all r hr hfire with ⟨b, hempty⟩ | ⟨j, hdangling⟩
  · exact h.not_hasEmpty b hempty
  · exact h.not_dangling j hdangling

/-- A repair that fires nowhere leaves the text as it is. -/
theorem Repair.sweep_eq_self {r : Repair} {atStart : Bool} {t : Text}
    (h : ∀ u w, t = u ++ w → w ≠ [] → r.fire? (atStart && u.isEmpty) w = none) :
    r.sweep atStart t = t := by
  fun_induction Repair.sweep r atStart t with
  | case1 => rfl
  | case2 atStart c t out rest hfire =>
    have hnone := h [] (c :: t) rfl (List.cons_ne_nil c t)
    rw [List.isEmpty_nil, Bool.and_true, hfire] at hnone
    cases hnone
  | case3 atStart c t hfire ih =>
    refine congrArg (c :: ·) (ih fun u w huw hw => ?_)
    simpa using h (c :: u) w (congrArg (c :: ·) huw) hw

theorem foldl_sweep_eq_self {rs : List Repair} {t : Text} (h : ∀ r ∈ rs, r.sweep true t = t) :
    rs.foldl (fun t r => r.sweep true t) t = t := by
  induction rs with
  | nil => rfl
  | cons r rs ih =>
    obtain ⟨hr, hrs⟩ := List.forall_mem_cons.1 h
    rw [List.foldl_cons, hr]
    exact ih hrs

/-- **Cleanup leaves a text alone** in which there is nothing to repair and nothing to tidy up. -/
theorem cleanup_eq_self {t : Text} (ht : Tidied t) (hs : Settled t) : cleanup t = t := by
  have hround : cleanupRound t = t := by
    unfold cleanupRound
    rw [foldl_sweep_eq_self fun r hr => Repair.sweep_eq_self (by simpa using hs r hr), ht.tidy_eq]
  unfold cleanup
  rw [ht.tidy_eq, repeatCleanup_eq_self hround]

/-! ### Nothing to tidy up -/

theorem tidied_of_forall {t : Text} (h : ∀ c ∈ t, isBlank c = false) : Tidied t where
  trimmed := Text.trimmed_of_forall h
  single := by
    refine (List.pairwise_of_forall_mem_list fun c hc d _ hcd => ?_).isChain
    rw [h c hc] at hcd
    exact Bool.false_ne_true hcd.1
  space := by
    intro c hc hblank
    rw [h c hc] at hblank
    cases hblank

/-- Between texts that are tidied, blanks may stand at the ends. -/
theorem Tidied.append_append {s m t : Text} (hs : Tidied s) (ht : Tidied t) (hsne : s ≠ [])
    (htne : t ≠ []) (hsingle : m.IsChain fun c d => ¬(isBlank c = true ∧ isBlank d = true))
    (hspace : ∀ c ∈ m, isBlank c = true → c = ' ') : Tidied (s ++ m ++ t) where
  trimmed := by
    constructor
    · rw [List.append_assoc, List.head?_append_of_ne_nil _ hsne]
      exact hs.trimmed.1
    · rw [List.getLast?_append_of_ne_nil _ htne]
      exact ht.trimmed.2
  single := by
    refine List.isChain_append.2 ⟨List.isChain_append.2 ⟨hs.single, hsingle, ?_⟩, ht.single, ?_⟩
    · intro c hc d _ hcd
      rw [hs.trimmed.2 c hc] at hcd
      exact Bool.false_ne_true hcd.1
    · intro c _ d hd hcd
      rw [ht.trimmed.1 d hd] at hcd
      exact Bool.false_ne_true hcd.2
  space := List.forall_mem_append.2 ⟨List.forall_mem_append.2 ⟨hs.space, hspace⟩, ht.space⟩

/-- Tidied texts are put together to tidied texts. -/
theorem compositional_tidied : Compositional fun t => Tidied t ∧ t ≠ [] where
  name := fun n hn => ⟨tidied_of_forall fun c hc => (isNameChar_iff.1 (hn.2.1 c hc)).1, hn.1⟩
  join := by
    rintro j s t ⟨hs, hsne⟩ ⟨ht, htne⟩
    -- the blanks of the sign are spaces, one at each of its ends
    have hand : isBlank '&' = false := by decide
    have ho : isBlank 'o' = false := by decide
    have hr : isBlank 'r' = false := by decide
    refine ⟨hs.append_append ht hsne htne ?_ ?_, by simp [htne]⟩
    · cases j <;> simp [Joint.sign, andSign, orSign, hand, ho, hr]
    · cases j <;> simp [Joint.sign, andSign, orSign, hand, ho, hr]
  bracket := by
    rintro b s ⟨hs, -⟩
    have hopen : Tidied [b.opener] := tidied_of_forall (by simpa using not_isBlank_opener b)
    have hclose : Tidied [b.closer] := tidied_of_forall (by simpa using not_isBlank_closer b)
    exact ⟨hopen.append_append hclose (by simp) (by simp) hs.single hs.space, by simp⟩

/-! ### The text of a formula -/

theorem settled_render {f : Formula} (h : Canonical f) : Settled (render f) :=
  settled_of_orderly (orderly_render h)

theorem tidied_render {f : Formula} (h : Canonical f) : Tidied (render f) :=
  (compositional_tidied.render f h).1

/-- **Cleanup leaves the text of a formula as it is.** -/
theorem cleanup_render {f : Formula} (h : Canonical f) : cleanup (render f) = render f :=
  cleanup_eq_self (tidied_render h) (settled_render h)

/-- **The text of a formula that was read is clean.**  No repair finds anything at any place in
it, there are no blanks to be tidied up, and cleanup gives it back. -/
theorem clean_render_of_parse {t : Text} {f : Formula} (h : parse t = .ok (some f)) :
    Settled (render f) ∧ tidy (render f) = render f ∧ cleanup (render f) = render f := by
  have hf : Canonical f := canonical_of_parse h
  exact ⟨settled_render hf, (tidied_render hf).tidy_eq, cleanup_render hf⟩

/-- A formula with the names `orx+`, `for-`, `or2` and `žor`. -/
def likeOperators : Formula :=
  or [optional (and [leaf "orx+".toList, optional (leaf "for-".toList)]),
    and [cost (leaf "or2".toList), leaf "žor".toList]]

/-- Names that begin or end as an operator does are no operators. -/
theorem clean_render_of_parse_likeOperators :
    parse "{orx+&(() or for-)} or  [(or2)]0.5 & žor ".toList = .ok (some likeOperators) ∧
      render likeOperators = "{orx+ & {for-}} or ([or2] & žor)".toList ∧
      Settled (render likeOperators) ∧ tidy (render likeOperators) = render likeOperators ∧
      cleanup (render likeOperators) = render likeOperators := by
  have hread : parse "{orx+&(() or for-)} or  [(or2)]0.5 & žor ".toList
      = .ok (some likeOperators) := by decide +kernel
  exact ⟨hread, by decide +kernel, clean_render_of_parse hread⟩

end LinkGrammar.Formula
