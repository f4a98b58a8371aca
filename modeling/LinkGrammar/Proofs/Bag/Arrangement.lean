/-
LinkGrammar/Proofs/Bag/Arrangement.lean

`arrangements bag` lists every permutation of the bag, once.

A step goes to the least permutation above (`nextArrangement?_isNext`), and where
there is none the list is descending, so nothing is above.  Steps are repeated at most
`n!` times.  This bound is never felt: a run that it stops has met `n!` different
permutations, and there are no more.
-/
import Mathlib.Data.List.Lex
import Mathlib.Data.List.Permutation
import Mathlib.Data.Nat.Factorial.Basic
import Mathlib.Order.Defs.Unbundled
import LinkGrammar.Bag.Arrangement

namespace LinkGrammar

open scoped List

section Order

variable {α : Type} [LT α] [IsStrictTotalOrder α (· < ·)]

/-- No member is below an earlier one. -/
def Ascending (l : List α) : Prop := l.Pairwise fun a b => ¬b < a

/-- No member is above an earlier one. -/
def Descending (l : List α) : Prop := l.Pairwise fun a b => ¬a < b

omit [IsStrictTotalOrder α (· < ·)] in
/-- A descending list ascends from its end. -/
theorem Descending.reverse {l : List α} (h : Descending l) : Ascending l.reverse :=
  List.pairwise_reverse.2 h

theorem lt_or_eq_of_not_lt {a b : α} (h : ¬a < b) : b < a ∨ b = a :=
  (trichotomous_of (· < ·) a b).elim (absurd · h) fun hab => hab.symm.imp_right Eq.symm

/-- Nothing comes before the ascending permutation. -/
theorem Ascending.not_lt {l k : List α} (hl : Ascending l) (hk : k.Perm l) : ¬k < l := by
  induction l generalizing k with
  | nil => exact List.not_lt_nil k
  | cons a t ih =>
    obtain ⟨ha, ht⟩ := List.pairwise_cons.1 hl
    rcases k with - | ⟨b, k⟩
    · simp at hk
    rw [List.cons_lt_cons_iff]
    rintro (hba | ⟨rfl, hkt⟩)
    · rcases List.mem_cons.1 (hk.subset (List.mem_cons_self)) with rfl | hb
      · exact irrefl_of (· < ·) b hba
      · exact ha b hb hba
    · exact ih ht hk.cons_inv hkt

/-- Nothing comes after the descending permutation. -/
theorem Descending.not_lt {l k : List α} (hl : Descending l) (hk : k.Perm l) : ¬l < k := by
  induction l generalizing k with
  | nil => rw [hk.eq_nil]; exact List.not_lt_nil []
  | cons a t ih =>
    obtain ⟨ha, ht⟩ := List.pairwise_cons.1 hl
    rcases k with - | ⟨b, k⟩
    · simp at hk
    rw [List.cons_lt_cons_iff]
    rintro (hab | ⟨rfl, htk⟩)
    · rcases List.mem_cons.1 (hk.subset (List.mem_cons_self)) with rfl | hb
      · exact irrefl_of (· < ·) b hab
      · exact ha b hb hab
    · exact ih ht hk.cons_inv htk

end Order

section Successor

variable {α : Type} [LT α] [DecidableLT α] [IsStrictTotalOrder α (· < ·)]

/-! ### One step -/

omit [IsStrictTotalOrder α (· < ·)] in
/-- As long as the tail has a successor the first member stays. -/
theorem nextArrangement?_cons_of_some {a : α} {t u : List α} (h : nextArrangement? t = some u) :
    nextArrangement? (a :: t) = some (a :: u) := by
  rw [nextArrangement?, h]

omit [IsStrictTotalOrder α (· < ·)] in
/-- Where the tail has no next permutation, `front`, `b` and `rest` being its members
above `a`, the last of these, and the others. -/
theorem nextArrangement?_cons_of_none {a b : α} {front rest : List α}
    (h : nextArrangement? (front ++ b :: rest) = none) (hfront : ∀ x ∈ front, a < x)
    (hb : a < b) (hrest : ∀ x ∈ rest.head?, ¬a < x) :
    nextArrangement? (a :: (front ++ b :: rest))
      = some (b :: (rest.reverse ++ a :: front.reverse)) := by
  have hstop : rest.takeWhile (a < ·) = [] ∧ rest.dropWhile (a < ·) = rest := by
    rcases rest with - | ⟨c, rest⟩
    · exact ⟨rfl, rfl⟩
    · have hc : ¬a < c := hrest c rfl
      exact ⟨by simp [hc], by simp [hc]⟩
  have hall : ∀ x ∈ front ++ [b], decide (a < x) = true := by
    simpa [or_imp, forall_and] using ⟨hfront, hb⟩
  have htake : (front ++ b :: rest).takeWhile (a < ·) = front ++ [b] := by
    rw [List.append_cons, List.takeWhile_append_of_pos hall, hstop.1, List.append_nil]
  have hdrop : (front ++ b :: rest).dropWhile (a < ·) = rest := by
    rw [List.append_cons, List.dropWhile_append_of_pos hall, hstop.2]
  rw [nextArrangement?, h]
  simp only [htake, hdrop, List.getLast?_concat, List.dropLast_concat]

/-- A descending list that has a member above `a` splits at the last such member. -/
theorem Descending.split {a : α} {t : List α} (h : Descending t) :
    (∀ x ∈ t, ¬a < x) ∨
      ∃ front b rest, t = front ++ b :: rest ∧ (∀ x ∈ front, a < x) ∧ a < b ∧
        ∀ x ∈ rest, ¬a < x := by
  induction t with
  | nil => exact .inl (by simp)
  | cons c t ih =>
    obtain ⟨hc, ht⟩ := List.pairwise_cons.1 h
    by_cases hac : a < c
    · refine .inr ?_
      rcases ih ht with hnone | ⟨front, b, rest, rfl, hfront, hb, hrest⟩
      · exact ⟨[], c, t, rfl, by simp, hac, hnone⟩
      · exact ⟨c :: front, b, rest, rfl, List.forall_mem_cons.2 ⟨hac, hfront⟩, hb, hrest⟩
    · refine .inl (List.forall_mem_cons.2 ⟨hac, fun x hx hax => ?_⟩)
      -- a member above `a` would be above `c` too
      rcases lt_or_eq_of_not_lt hac with hca | rfl
      · exact hc x hx (trans_of (· < ·) hca hax)
      · exact hc x hx hax

/-- Only a descending list has no successor. -/
theorem descending_of_nextArrangement?_eq_none {l : List α} (h : nextArrangement? l = none) :
    Descending l := by
  induction l with
  | nil => exact List.Pairwise.nil
  | cons a t ih =>
    rcases ht : nextArrangement? t with - | u
    · have hdesc := ih ht
      rcases hdesc.split (a := a) with hnone | ⟨front, b, rest, rfl, hfront, hb, hrest⟩
      · exact List.pairwise_cons.2 ⟨hnone, hdesc⟩
      · rw [nextArrangement?_cons_of_none ht hfront hb
          fun x hx => hrest x (List.mem_of_mem_head? hx)] at h
        cases h
    · rw [nextArrangement?_cons_of_some ht] at h
      cases h

omit [LT α] [DecidableLT α] [IsStrictTotalOrder α (· < ·)] in
/-- The exchange and the reversal keep the members. -/
theorem perm_pivot (a b : α) (front rest : List α) :
    (b :: (rest.reverse ++ a :: front.reverse)).Perm (a :: (front ++ b :: rest)) := by
  have hback : (rest.reverse ++ front.reverse).Perm (front ++ rest) := by
    rw [← List.reverse_append]
    exact List.reverse_perm _
  calc b :: (rest.reverse ++ a :: front.reverse)
    _ ~ b :: a :: (rest.reverse ++ front.reverse) := .cons b List.perm_middle
    _ ~ a :: b :: (rest.reverse ++ front.reverse) := .swap a b _
    _ ~ a :: b :: (front ++ rest) := (hback.cons b).cons a
    _ ~ a :: (front ++ b :: rest) := .cons a List.perm_middle.symm

omit [DecidableLT α] in
/-- What replaces the descending tail: the others ascend behind its least member above
`a`. -/
theorem Descending.ascending_rest {a b : α} {front rest : List α}
    (h : Descending (front ++ b :: rest)) (hfront : ∀ x ∈ front, a < x)
    (hrest : ∀ x ∈ rest, ¬a < x) : Ascending (rest.reverse ++ a :: front.reverse) := by
  obtain ⟨hf, hbr, hcross⟩ := List.pairwise_append.1 h
  have hr := (List.pairwise_cons.1 hbr).2
  refine List.pairwise_append.2
    ⟨Descending.reverse hr, List.pairwise_cons.2 ⟨?_, Descending.reverse hf⟩, ?_⟩
  · intro x hx hxa
    exact asymm_of (· < ·) hxa (hfront x (List.mem_reverse.1 hx))
  · intro x hx y hy
    have hx := List.mem_reverse.1 hx
    rcases List.mem_cons.1 hy with rfl | hy
    · exact hrest x hx
    · exact hcross y (List.mem_reverse.1 hy) x (List.mem_cons_of_mem b hx)

/-- `m` is the least permutation of `l` above `l`. -/
structure IsNext (l m : List α) : Prop where
  perm : m.Perm l
  lt : l < m
  least : ∀ k, k.Perm l → l < k → ¬k < m

/-- What is found is the next larger arrangement. -/
theorem nextArrangement?_isNext {l m : List α} (h : nextArrangement? l = some m) :
    IsNext l m := by
  induction l generalizing m with
  | nil => cases h
  | cons a t ih =>
    rcases ht : nextArrangement? t with - | u
    · have hdesc := descending_of_nextArrangement?_eq_none ht
      rcases hdesc.split (a := a) with hnone | ⟨front, b, rest, rfl, hfront, hb, hrest⟩
      · have hnil : t.takeWhile (a < ·) = [] := by
          rcases t with - | ⟨c, t⟩
          · rfl
          · simp [hnone c (by simp)]
        rw [nextArrangement?, ht] at h
        simp [hnil] at h
      rw [nextArrangement?_cons_of_none ht hfront hb
        fun x hx => hrest x (List.mem_of_mem_head? hx)] at h
      cases h
      have hasc := hdesc.ascending_rest hfront hrest
      have hperm := perm_pivot a b front rest
      refine ⟨hperm, List.cons_lt_cons_iff.2 (.inl hb), ?_⟩
      intro k hk hlk hkm
      rcases k with - | ⟨c, k⟩
      · exact List.not_lt_nil _ hlk
      rcases List.cons_lt_cons_iff.1 hlk with hac | ⟨rfl, htk⟩
      · rcases List.cons_lt_cons_iff.1 hkm with hcb | ⟨rfl, hbehind⟩
        · -- a head between `a` and `b` would stand in the tail behind `b`
          have hc : c ∈ front ++ b :: rest := by
            rcases List.mem_cons.1 (hk.subset List.mem_cons_self) with rfl | hc
            · exact absurd hac (irrefl_of (· < ·) c)
            · exact hc
          rcases List.mem_append.1 hc with hcf | hcbr
          · exact (List.pairwise_append.1 hdesc).2.2 c hcf b (by simp) hcb
          · rcases List.mem_cons.1 hcbr with rfl | hcr
            · exact irrefl_of (· < ·) c hcb
            · exact hrest c hcr hac
        · exact hasc.not_lt (hk.trans hperm.symm).cons_inv hbehind
      · exact hdesc.not_lt hk.cons_inv htk
    · rw [nextArrangement?_cons_of_some ht] at h
      cases h
      obtain ⟨hperm, hlt, hleast⟩ := ih ht
      refine ⟨hperm.cons a, List.cons_lt_cons_iff.2 (.inr ⟨rfl, hlt⟩), ?_⟩
      intro k hk hlk hkm
      rcases k with - | ⟨c, k⟩
      · exact List.not_lt_nil _ hlk
      rcases List.cons_lt_cons_iff.1 hlk with hac | ⟨rfl, htk⟩
      · rcases List.cons_lt_cons_iff.1 hkm with hca | ⟨rfl, -⟩
        · exact asymm_of (· < ·) hac hca
        · exact irrefl_of (· < ·) c hac
      · rcases List.cons_lt_cons_iff.1 hkm with haa | ⟨-, hku⟩
        · exact irrefl_of (· < ·) a haa
        · exact hleast k hk.cons_inv htk hku

/-! ### Runs of steps -/

/-- All that follow have the same members. -/
theorem perm_of_mem_arrangementsFrom {bound : Nat} {l m : List α}
    (h : m ∈ arrangementsFrom bound l) : m.Perm l := by
  induction bound generalizing l with
  | zero => simp [arrangementsFrom] at h
  | succ bound ih =>
    rw [arrangementsFrom] at h
    rcases List.mem_cons.1 h with rfl | h
    · exact .refl m
    · rcases e : nextArrangement? l with - | l'
      · simp [e] at h
      · rw [e] at h
        exact (ih h).trans (nextArrangement?_isNext e).perm

theorem eq_or_lt_of_mem_arrangementsFrom {bound : Nat} {l m : List α}
    (h : m ∈ arrangementsFrom bound l) : m = l ∨ l < m := by
  induction bound generalizing l with
  | zero => simp [arrangementsFrom] at h
  | succ bound ih =>
    rw [arrangementsFrom] at h
    rcases List.mem_cons.1 h with rfl | h
    · exact .inl rfl
    · refine .inr ?_
      rcases e : nextArrangement? l with - | l'
      · simp [e] at h
      · rw [e] at h
        have hlt := (nextArrangement?_isNext e).lt
        rcases ih h with rfl | hm
        · exact hlt
        · exact List.lt_trans hlt hm

/-- A run goes strictly up. -/
theorem pairwise_lt_arrangementsFrom (bound : Nat) (l : List α) :
    (arrangementsFrom bound l).Pairwise (· < ·) := by
  induction bound generalizing l with
  | zero => exact List.Pairwise.nil
  | succ bound ih =>
    rw [arrangementsFrom]
    rcases e : nextArrangement? l with - | l'
    · exact List.pairwise_singleton _ _
    · refine List.pairwise_cons.2 ⟨fun m hm => ?_, ih l'⟩
      have hlt := (nextArrangement?_isNext e).lt
      rcases eq_or_lt_of_mem_arrangementsFrom hm with rfl | hm
      · exact hlt
      · exact List.lt_trans hlt hm

theorem nodup_arrangementsFrom (bound : Nat) (l : List α) :
    (arrangementsFrom bound l).Nodup := by
  refine (pairwise_lt_arrangementsFrom bound l).imp ?_
  rintro a _ h rfl
  exact List.lt_irrefl a h

/-- A run that the bound does not stop leaves nothing above its start out. -/
theorem mem_arrangementsFrom_of_length_lt {bound : Nat} {l k : List α}
    (hlen : (arrangementsFrom bound l).length < bound) (hk : k.Perm l) (hle : ¬k < l) :
    k ∈ arrangementsFrom bound l := by
  induction bound generalizing l with
  | zero => simp at hlen
  | succ bound ih =>
    rw [arrangementsFrom] at hlen ⊢
    rcases trichotomous_of (List.Lex (· < ·)) k l with hkl | rfl | hlk
    · exact absurd hkl hle
    · exact List.mem_cons_self
    · refine List.mem_cons_of_mem l ?_
      rcases e : nextArrangement? l with - | l'
      · exact absurd hlk ((descending_of_nextArrangement?_eq_none e).not_lt hk)
      · have hnext := nextArrangement?_isNext e
        rw [e] at hlen
        exact ih (Nat.lt_of_succ_lt_succ hlen) (hk.trans hnext.perm.symm)
          (hnext.least k hk hlk)

end Successor

theorem orderCount_eq_factorial (n : Nat) : orderCount n = n.factorial := by
  induction n with
  | zero => rfl
  | succ n ih => rw [orderCount, ih, Nat.factorial_succ]

section Bag

variable {α : Type} [LT α] [DecidableLT α] [IsStrictTotalOrder α (· < ·)]

/-- From the ascending permutation on, `n!` steps meet every permutation. -/
theorem mem_arrangementsFrom_iff {l k : List α} (hl : Ascending l) :
    k ∈ arrangementsFrom (orderCount l.length) l ↔ k.Perm l := by
  refine ⟨perm_of_mem_arrangementsFrom, fun hk => ?_⟩
  rcases Nat.lt_or_ge (arrangementsFrom (orderCount l.length) l).length (orderCount l.length)
    with hlt | hge
  · exact mem_arrangementsFrom_of_length_lt hlt hk (hl.not_lt hk)
  · -- as many different permutations as there can be
    have hsub : arrangementsFrom (orderCount l.length) l ⊆ l.permutations := fun m hm =>
      List.mem_permutations.2 (perm_of_mem_arrangementsFrom hm)
    have hperm := (List.subperm_of_subset (nodup_arrangementsFrom _ l) hsub).perm_of_length_le
      (by rw [List.length_permutations, ← orderCount_eq_factorial]; exact hge)
    exact hperm.mem_iff.2 (List.mem_permutations.2 hk)

/-! ### All arrangements of a bag -/

variable [DecidableEq α]

omit [IsStrictTotalOrder α (· < ·)] [DecidableEq α] in
theorem ascending_perm (bag : List α) : (ascending bag).Perm bag := List.mergeSort_perm _ _

omit [DecidableEq α] in
theorem ascending_ascending (bag : List α) : Ascending (ascending bag) := by
  have hsorted : (ascending bag).Pairwise fun a b => (!decide (b < a)) = true := by
    refine List.pairwise_mergeSort ?_ ?_ bag
    · intro a b c hab hbc
      have hab : ¬b < a := by simpa using hab
      have hbc : ¬c < b := by simpa using hbc
      suffices hca : ¬c < a by simpa using hca
      intro hca
      rcases lt_or_eq_of_not_lt hbc with h | rfl
      · exact hab (trans_of (· < ·) h hca)
      · exact hab hca
    · intro a b
      by_cases hba : b < a
      · simp [hba, asymm_of (· < ·) hba]
      · simp [hba]
  exact hsorted.imp fun h => by simpa using h

/-- A bag has every permutation among its arrangements, and nothing else. -/
theorem mem_arrangements {bag p : List α} : p ∈ arrangements bag ↔ p.Perm bag := by
  have hfrom : p ∈ arrangementsFrom (orderCount bag.length) (ascending bag) ↔ p.Perm bag := by
    rw [← (ascending_perm bag).length_eq, mem_arrangementsFrom_iff (ascending_ascending bag)]
    exact ⟨(·.trans (ascending_perm bag)), (·.trans (ascending_perm bag).symm)⟩
  by_cases h : p = bag
  · rw [h]; exact iff_of_true List.mem_cons_self (.refl bag)
  · rw [arrangements, List.mem_cons, List.mem_filter, hfrom]
    simp [h]

/-- No arrangement is met twice. -/
theorem nodup_arrangements (bag : List α) : (arrangements bag).Nodup := by
  refine List.nodup_cons.2 ⟨by simp, ?_⟩
  exact (nodup_arrangementsFrom _ _).filter _

end Bag

end LinkGrammar
