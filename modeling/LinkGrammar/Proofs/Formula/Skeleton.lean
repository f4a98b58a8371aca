/-
LinkGrammar/Proofs/Formula/Skeleton.lean

The names and brackets of a text, without its operators.

Cleanup drops operators and empty brackets.  Where in every pair of brackets some name or
bracket stands (`Solid`), no pair of brackets ever gets empty, so names and brackets all
stay, and no pair of brackets is left with an `or` alone in it
(`Mendable.not_hasBareOr_cleanup`).
-/
import LinkGrammar.Proofs.Formula.Settled

namespace LinkGrammar.Formula

/-- The tokens without the operators. -/
def skeleton (ls : List Lexeme) : List Lexeme := ls.filter fun l => l.startsPart || l.endsPart

@[simp] theorem skeleton_append (p q : List Lexeme) :
    skeleton (p ++ q) = skeleton p ++ skeleton q := List.filter_append ..

/-- Operators are no part of the skeleton. -/
@[simp] theorem skeleton_cons_joint (j : Joint) (ls : List Lexeme) :
    skeleton (j.lexeme :: ls) = skeleton ls := List.filter_cons_of_neg (by simp)

theorem skeleton_cons_of_startsPart {l : Lexeme} (h : l.startsPart = true) (ls : List Lexeme) :
    skeleton (l :: ls) = l :: skeleton ls := List.filter_cons_of_pos (by simp [h])

theorem skeleton_cons_of_endsPart {l : Lexeme} (h : l.endsPart = true) (ls : List Lexeme) :
    skeleton (l :: ls) = l :: skeleton ls := List.filter_cons_of_pos (by simp [h])

/-- Not an opener and its closer. -/
def Filled (a b : Lexeme) : Prop := ∀ c, ¬(a = .opening c ∧ b = .closing c)

/-- No pair of brackets is empty but for operators. -/
structure Solid (ls : List Lexeme) : Prop where
  filled : (skeleton ls).IsChain Filled
  /-- so that the tokens can come behind others -/
  first : ∀ a ∈ (skeleton ls).head?, ∀ c, a ≠ .closing c

namespace Solid

variable {ls ls' : List Lexeme}

theorem nil : Solid [] := ⟨List.isChain_nil, by simp [skeleton]⟩

theorem append (h : Solid ls) (h' : Solid ls') : Solid (ls ++ ls') where
  filled := by
    rw [skeleton_append]
    refine List.isChain_append.2 ⟨h.filled, h'.filled, ?_⟩
    rintro a - b hb c ⟨-, rfl⟩
    exact h'.first _ hb c rfl
  first := by
    rw [skeleton_append]
    rcases e : skeleton ls with - | ⟨a, s⟩
    · exact h'.first
    · have hfirst := h.first
      rw [e] at hfirst
      exact hfirst

theorem cons_joint (j : Joint) (h : Solid ls) : Solid (j.lexeme :: ls) where
  filled := by rw [skeleton_cons_joint]; exact h.filled
  first := by rw [skeleton_cons_joint]; exact h.first

end Solid

/-- Behind an opener comes what begins a part, so orderly tokens are solid. -/
theorem Orderly.solid {ls : List Lexeme} (h : Orderly ls) : Solid ls where
  filled := by
    have hfits := h.fits
    clear h
    induction ls with
    | nil => exact List.isChain_nil
    | cons a ls ih =>
      obtain ⟨hnext, hls⟩ := List.isChain_cons.1 hfits
      unfold skeleton
      rw [List.filter_cons]
      split
      · refine List.isChain_cons.2 ⟨?_, ih hls⟩
        rintro b hb c ⟨rfl, rfl⟩
        rcases ls with - | ⟨d, ls⟩
        · cases hb
        · have hd : d.startsPart = true := hnext d rfl
          change _ ∈ (skeleton (d :: ls)).head? at hb
          rw [skeleton_cons_of_startsPart hd] at hb
          cases hb
          cases hd
      · exact ih hls
  first := by
    rcases ls with - | ⟨a, ls⟩
    · simp [skeleton]
    · have ha : a.startsPart = true := h.first a rfl
      rw [skeleton_cons_of_startsPart ha]
      rintro _ ⟨⟩ c rfl
      cases ha

/-- Nothing but operators can be dropped from solid tokens. -/
theorem Drops.skeleton_eq {ls ls' : List Lexeme} (h : Drops ls ls') (hls : Solid ls) :
    skeleton ls' = skeleton ls := by
  induction h with
  | refl => rfl
  | joint _ ih =>
    rw [skeleton_append, skeleton_cons_joint] at ih
    rw [skeleton_append, ih]
  | @empty p s b _ ih =>
    rw [skeleton_append, skeleton_cons_of_startsPart rfl, skeleton_cons_of_endsPart rfl] at ih
    have hfilled := hls.filled
    rw [← ih] at hfilled
    have hpair := List.isChain_iff_forall_rel_of_append_cons_cons.1 hfilled rfl
    exact absurd ⟨rfl, rfl⟩ (hpair b)

/-- **Cleanup leaves no bare `or` in a solid text.** -/
theorem Mendable.not_hasBareOr_cleanup {t : Text} {f : Option Formula} (h : Mendable t f)
    (hsolid : Solid (lexemes t)) : ¬HasBareOr (Formula.cleanup t) := by
  intro hbare
  obtain ⟨p, b, q, hls⟩ := hbare.exists_lexemes
  have hskeleton := h.mends_cleanup.drops.skeleton_eq hsolid
  have hfilled := hsolid.filled
  -- the `or` is no part of the skeleton, so the brackets meet there
  have hor : skeleton (Lexeme.or :: .closing b :: q) = .closing b :: skeleton q :=
    skeleton_cons_joint .or (.closing b :: q)
  rw [← hskeleton, hls, skeleton_append, skeleton_cons_of_startsPart rfl, hor] at hfilled
  have hpair := List.isChain_iff_forall_rel_of_append_cons_cons.1 hfilled rfl
  exact hpair b ⟨rfl, rfl⟩

end LinkGrammar.Formula
