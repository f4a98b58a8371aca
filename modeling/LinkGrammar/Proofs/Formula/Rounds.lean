/-
LinkGrammar/Proofs/Formula/Rounds.lean

The rounds of cleanup.

A repair that finds something makes the text shorter, and one that finds nothing leaves it as it
is; so a round of repairs leaves the text alone or makes it shorter, provided that there is
nothing to tidy up in it behind them (`Tidied`).  Every round starts from a tidied text, as the
one before it ends with one.

Main result: the rounds come to a text that no round changes, each round before it makes the text
shorter, and cleaning up again changes nothing (`cleanup_rounds`).
-/
import Mathlib
import LinkGrammar.Proofs.Formula.Settled
import LinkGrammar.Proofs.Text.Trim

namespace LinkGrammar.Formula

/-! ### Tidied texts -/

/-- No blank stands at either end of the text or next to another, and every blank is a space. -/
structure Tidied (t : Text) : Prop where
  trimmed : t.Trimmed
  single : t.IsChain fun c d => ¬(isBlank c = true ∧ isBlank d = true)
  space : ∀ c ∈ t, isBlank c = true → c = ' '

/-- Squeezing keeps a last character that is no blank. -/
theorem getLast?_squeezeAfter {t : Text} (h : ∀ c ∈ t.getLast?, isBlank c = false)
    (blank : Bool) : (Text.squeezeAfter blank t).getLast? = t.getLast? := by
  induction t generalizing blank with
  | nil => rfl
  | cons c t ih =>
    rcases List.eq_nil_or_concat' t with rfl | ⟨u, d, rfl⟩
    · have hc : isBlank c = false := h c rfl
      simp [Text.squeezeAfter, hc]
    · rw [List.getLast?_cons_of_ne_nil (by simp)] at h ⊢
      have hrest := ih h
      rw [List.getLast?_concat] at hrest ⊢
      rw [Text.squeezeAfter]
      -- what is squeezed behind `c` is not empty, for its last character is `d`
      have hcons : ∀ (e : Char) (b : Bool),
          (e :: Text.squeezeAfter b (u ++ [d])).getLast? = some d := by
        intro e b
        rw [List.getLast?_cons, hrest b]
        rfl
      split
      · split
        · exact hrest true
        · exact hcons _ true
      · exact hcons _ false

/-- Squeezing leaves no two blanks in a row. -/
theorem single_squeezeAfter (blank : Bool) (t : Text) :
    (Text.squeezeAfter blank t).IsChain (fun c d => ¬(isBlank c = true ∧ isBlank d = true)) ∧
      (blank = true → ∀ c ∈ (Text.squeezeAfter blank t).head?, isBlank c = false) := by
  induction t generalizing blank with
  | nil => exact ⟨List.isChain_nil, fun _ _ hc => nomatch hc⟩
  | cons c t ih =>
    rw [Text.squeezeAfter]
    split
    · split
      · next hblank => exact hblank ▸ ih true
      · next hblank =>
        refine ⟨List.isChain_cons.2 ⟨fun d hd hcd => ?_, (ih true).1⟩, fun h => absurd h hblank⟩
        simp [(ih true).2 rfl d hd] at hcd
    · next hc =>
      refine ⟨List.isChain_cons.2 ⟨fun d _ hcd => hc hcd.1, (ih false).1⟩, fun _ d hd => ?_⟩
      obtain rfl : c = d := Option.some.inj hd
      simpa using hc

/-- The only blank it leaves is the space. -/
theorem space_of_mem_squeezeAfter {blank : Bool} {t : Text} {c : Char}
    (hc : c ∈ Text.squeezeAfter blank t) (hblank : isBlank c = true) : c = ' ' := by
  induction t generalizing blank with
  | nil => cases hc
  | cons d t ih =>
    rw [Text.squeezeAfter] at hc
    split at hc
    · split at hc
      · exact ih hc
      · exact (List.mem_cons.1 hc).elim id ih
    · next hd =>
      rcases List.mem_cons.1 hc with rfl | hc
      · exact absurd hblank hd
      · exact ih hc

theorem tidied_tidy (t : Text) : Tidied (tidy t) where
  trimmed := by
    have htrim := Text.trimmed_trim t
    refine ⟨fun c hc => ?_, fun c hc => ?_⟩
    · unfold tidy Text.squeeze at hc
      rcases e : Text.trim t with - | ⟨d, u⟩
      · rw [e] at hc
        cases hc
      · have hd : isBlank d = false := htrim.1 d (by rw [e]; rfl)
        rw [e, Text.squeezeAfter, if_neg (by simp [hd])] at hc
        obtain rfl : d = c := Option.some.inj hc
        exact hd
    · unfold tidy Text.squeeze at hc
      rw [getLast?_squeezeAfter htrim.2] at hc
      exact htrim.2 c hc
  single := (single_squeezeAfter false _).1
  space := fun _ hc => space_of_mem_squeezeAfter hc

/-- A text without two blanks in a row, all of them spaces, stays as it is. -/
theorem squeezeAfter_eq_self {blank : Bool} {t : Text}
    (hsingle : t.IsChain fun c d => ¬(isBlank c = true ∧ isBlank d = true))
    (hspace : ∀ c ∈ t, isBlank c = true → c = ' ')
    (hfirst : blank = true → ∀ c ∈ t.head?, isBlank c = false) :
    Text.squeezeAfter blank t = t := by
  induction t generalizing blank with
  | nil => rfl
  | cons c t ih =>
    obtain ⟨hnext, hsingle⟩ := List.isChain_cons.1 hsingle
    obtain ⟨hc, hspace⟩ := List.forall_mem_cons.1 hspace
    rw [Text.squeezeAfter]
    split
    · next hblank =>
      -- the blank before `c` would be a second one
      have hsecond : ¬blank = true := fun h => by
        simp [hfirst h c rfl] at hblank
      have hrest : Text.squeezeAfter true t = t :=
        ih hsingle hspace fun _ d hd => by simpa [hblank] using hnext d hd
      rw [if_neg hsecond, hrest, hc hblank]
    · exact congrArg (c :: ·) (ih hsingle hspace fun h => absurd h Bool.false_ne_true)

theorem Tidied.tidy_eq {t : Text} (h : Tidied t) : tidy t = t := by
  unfold tidy Text.squeeze
  rw [h.trimmed.trim_eq]
  exact squeezeAfter_eq_self h.single h.space fun hfalse => absurd hfalse Bool.false_ne_true

/-! ### A round -/

/-- A repair that changes a text makes it shorter. -/
theorem Repair.length_sweep_lt {r : Repair} {atStart : Bool} {t : Text}
    (h : r.sweep atStart t ≠ t) : (r.sweep atStart t).length < t.length := by
  by_contra hle
  exact h (r.sweep_of_length_le (Nat.le_of_not_lt hle)).1

/-- A round that changes the text shortens it. -/
theorem length_foldl_sweep_lt {rs : List Repair} {t : Text}
    (h : rs.foldl (fun t r => r.sweep true t) t ≠ t) :
    (rs.foldl (fun t r => r.sweep true t) t).length < t.length := by
  induction rs generalizing t with
  | nil => exact absurd rfl h
  | cons r rs ih =>
    rw [List.foldl_cons] at h ⊢
    by_cases hr : r.sweep true t = t
    · rw [hr] at h ⊢
      exact ih h
    · exact Nat.lt_of_le_of_lt (length_foldl_sweep_le rs _) (Repair.length_sweep_lt hr)

/-- **A round that changes a tidied text makes it shorter.** -/
theorem length_cleanupRound_lt {t : Text} (ht : Tidied t) (h : cleanupRound t ≠ t) :
    (cleanupRound t).length < t.length := by
  unfold cleanupRound at h ⊢
  by_cases hrepairs : Repair.all.foldl (fun t r => r.sweep true t) t = t
  · rw [hrepairs, ht.tidy_eq] at h
    exact absurd rfl h
  · exact Nat.lt_of_le_of_lt (length_tidy_le _) (length_foldl_sweep_lt hrepairs)

theorem tidied_cleanupRound (t : Text) : Tidied (cleanupRound t) := tidied_tidy _

/-! ### All rounds -/

theorem tidied_iterate {t : Text} (ht : Tidied t) (m : Nat) : Tidied (cleanupRound^[m] t) := by
  cases m with
  | zero => exact ht
  | succ m =>
    rw [Function.iterate_succ_apply']
    exact tidied_cleanupRound _

/-- Rounds are repeated until one of them changes nothing. -/
theorem exists_rounds {t : Text} (ht : Tidied t) :
    ∃ n, n + (repeatCleanup t).length ≤ t.length ∧ repeatCleanup t = cleanupRound^[n] t ∧
      cleanupRound (repeatCleanup t) = repeatCleanup t ∧
      ∀ m < n, (cleanupRound^[m + 1] t).length < (cleanupRound^[m] t).length := by
  fun_induction repeatCleanup t with
  | case1 t next hlt ih =>
    obtain ⟨n, hlen, heq, hfix, hdrop⟩ := ih (tidied_cleanupRound t)
    refine ⟨n + 1, by omega, ?_, hfix, fun m hm => ?_⟩
    · rw [Function.iterate_succ_apply]
      exact heq
    · cases m with
      | zero => exact hlt
      | succ m =>
        rw [Function.iterate_succ_apply, Function.iterate_succ_apply (n := m)]
        exact hdrop m (Nat.lt_of_succ_lt_succ hm)
  | case2 t next hle =>
    refine ⟨0, by omega, rfl, ?_, fun m hm => absurd hm (Nat.not_lt_zero m)⟩
    by_contra hne
    exact hle (length_cleanupRound_lt ht hne)

/-- Where a round changes nothing, there is no other. -/
theorem repeatCleanup_eq_self {t : Text} (h : cleanupRound t = t) : repeatCleanup t = t := by
  rw [repeatCleanup]
  exact if_neg (by rw [h]; exact Nat.lt_irrefl _)

theorem tidied_cleanup (t : Text) : Tidied (cleanup t) := by
  obtain ⟨n, -, heq, -, -⟩ := exists_rounds (tidied_tidy t)
  unfold cleanup
  rw [heq]
  exact tidied_iterate (tidied_tidy t) n

/-- **Cleanup comes to an end.**  From the tidied text there are finitely many rounds, as many as
the characters that are lost at most, to a text that no round changes; every round that changes
the text makes it shorter, the result is not longer than the text, and cleaning it up again
changes nothing. -/
theorem cleanup_rounds (t : Text) :
    (∃ n, n + (cleanup t).length ≤ t.length ∧ cleanup t = cleanupRound^[n] (tidy t) ∧
      ∀ m, cleanupRound^[m + 1] (tidy t) = cleanupRound^[m] (tidy t) ↔ n ≤ m) ∧
      (∀ m, cleanupRound^[m + 1] (tidy t) ≠ cleanupRound^[m] (tidy t) →
        (cleanupRound^[m + 1] (tidy t)).length < (cleanupRound^[m] (tidy t)).length) ∧
      (cleanup t).length ≤ t.length ∧
      cleanup (cleanup t) = cleanup t := by
  obtain ⟨n, hlen, heq, hfix, hdrop⟩ := exists_rounds (tidied_tidy t)
  change n + (cleanup t).length ≤ _ at hlen
  change cleanup t = _ at heq
  change cleanupRound (cleanup t) = cleanup t at hfix
  refine ⟨⟨n, Nat.le_trans hlen (length_tidy_le t), heq, fun m => ⟨fun hm => ?_, fun hm => ?_⟩⟩,
    fun m hm => ?_, length_cleanup_le t, ?_⟩
  · -- before round `n` the text gets shorter
    by_contra hlt
    have hshorter := hdrop m (Nat.lt_of_not_le hlt)
    rw [hm] at hshorter
    exact Nat.lt_irrefl _ hshorter
  · obtain ⟨k, rfl⟩ := Nat.exists_eq_add_of_le' hm
    have hrest : ∀ k, cleanupRound^[k + n] (tidy t) = cleanup t := by
      intro k
      rw [Function.iterate_add_apply, ← heq]
      exact Function.iterate_fixed hfix k
    rw [hrest, Nat.add_right_comm, hrest]
  · rw [Function.iterate_succ_apply'] at hm ⊢
    exact length_cleanupRound_lt (tidied_iterate (tidied_tidy t) m) hm
  · show repeatCleanup (tidy (cleanup t)) = cleanup t
    rw [(tidied_cleanup t).tidy_eq, repeatCleanup_eq_self hfix]

end LinkGrammar.Formula
