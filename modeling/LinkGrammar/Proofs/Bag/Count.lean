/-
LinkGrammar/Proofs/Bag/Count.lean

How many arrangements a bag has.

An order of a bag begins with one of its members and goes on with an order of the rest,
so the orders can be counted by their first members.  Main result: their number is `n!`,
divided by the factorials of the multiplicities (`card_orders_mul_prod_factorial`).
-/
import Mathlib.Algebra.BigOperators.Group.Finset.Basic
import Mathlib.Data.List.Permutation
import Mathlib.Data.Nat.Factorial.BigOperators
import LinkGrammar.Proofs.Bag.Arrangement

open scoped List Nat

namespace LinkGrammar

variable {α : Type} [DecidableEq α]

/-- The different orders of the members of a list. -/
def orders (bag : List α) : Finset (List α) := bag.permutations.toFinset

theorem mem_orders {bag p : List α} : p ∈ orders bag ↔ p.Perm bag := by
  simp [orders]

theorem orders_eq_biUnion {bag : List α} (hbag : bag ≠ []) :
    orders bag = bag.toFinset.biUnion fun a => (orders (bag.erase a)).image (a :: ·) := by
  ext p
  simp only [Finset.mem_biUnion, Finset.mem_image, List.mem_toFinset, mem_orders]
  constructor
  · intro hp
    rcases p with - | ⟨a, p⟩
    · exact absurd hp.nil_eq.symm hbag
    · have ha : a ∈ bag := hp.subset List.mem_cons_self
      exact ⟨a, ha, p, List.cons_perm_iff_perm_erase.1 hp |>.2, rfl⟩
  · rintro ⟨a, ha, p, hp, rfl⟩
    exact List.cons_perm_iff_perm_erase.2 ⟨ha, hp⟩

theorem card_orders {bag : List α} (hbag : bag ≠ []) :
    (orders bag).card = ∑ a ∈ bag.toFinset, (orders (bag.erase a)).card := by
  rw [orders_eq_biUnion hbag, Finset.card_biUnion]
  · refine Finset.sum_congr rfl fun a _ => ?_
    exact Finset.card_image_of_injective _ (List.cons_injective)
  · intro a _ b _ hab
    rw [Function.onFun, Finset.disjoint_left]
    intro p hpa hpb
    obtain ⟨q, -, rfl⟩ := Finset.mem_image.1 hpa
    obtain ⟨q', -, h⟩ := Finset.mem_image.1 hpb
    exact hab (List.cons.inj h).1.symm

/-- Taking one `a` out divides the factorials of the multiplicities by that of `a`. -/
theorem prod_factorial_count_erase {bag : List α} {a : α} (ha : a ∈ bag) :
    ∏ b ∈ bag.toFinset, (bag.count b)!
      = bag.count a * ∏ b ∈ (bag.erase a).toFinset, ((bag.erase a).count b)! := by
  have hsub : (bag.erase a).toFinset ⊆ bag.toFinset := fun b hb => by
    simpa using List.mem_of_mem_erase (List.mem_toFinset.1 hb)
  have hout : ∀ b ∈ bag.toFinset, b ∉ (bag.erase a).toFinset → ((bag.erase a).count b)! = 1 := by
    intro b _ hb
    rw [List.count_eq_zero.2 (by simpa using hb)]
    rfl
  rw [Finset.prod_subset hsub hout, ← Finset.mul_prod_erase _ _ (List.mem_toFinset.2 ha),
    ← Finset.mul_prod_erase _ (fun b => ((bag.erase a).count b)!) (List.mem_toFinset.2 ha),
    ← mul_assoc, List.count_erase_self,
    Nat.mul_factorial_pred (List.count_pos_iff.2 ha).ne']
  congr 1
  refine Finset.prod_congr rfl fun b hb => ?_
  rw [List.count_erase_of_ne (Finset.ne_of_mem_erase hb)]

/-- **The number of orders of a bag**: the orders of as many different things, divided by
those of equal members among themselves. -/
theorem card_orders_mul_prod_factorial (bag : List α) :
    (orders bag).card * ∏ a ∈ bag.toFinset, (bag.count a)! = bag.length ! := by
  induction h : bag.length generalizing bag with
  | zero =>
    obtain rfl := List.length_eq_zero_iff.1 h
    simp [orders]
  | succ n ih =>
    have hbag : bag ≠ [] := by
      rintro rfl
      simp at h
    calc (orders bag).card * ∏ b ∈ bag.toFinset, (bag.count b)!
        = ∑ a ∈ bag.toFinset, (orders (bag.erase a)).card * ∏ b ∈ bag.toFinset, (bag.count b)! := by
          rw [card_orders hbag, Finset.sum_mul]
      _ = ∑ a ∈ bag.toFinset, bag.count a * n ! := by
          refine Finset.sum_congr rfl fun a ha => ?_
          have ha := List.mem_toFinset.1 ha
          have hlen : (bag.erase a).length = n := by rw [List.length_erase_of_mem ha, h]; rfl
          rw [prod_factorial_count_erase ha, Nat.mul_left_comm, ih _ hlen]
      _ = (n + 1) ! := by
          rw [← Finset.sum_mul, List.sum_toFinset_count_eq_length, h, Nat.factorial_succ]

/-- A bag has as many arrangements as orders. -/
theorem length_arrangements [LT α] [DecidableLT α] [IsStrictTotalOrder α (· < ·)] (bag : List α) :
    (arrangements bag).length = (orders bag).card := by
  have horders : orders bag = (arrangements bag).toFinset := by
    ext p
    rw [mem_orders, List.mem_toFinset, mem_arrangements]
  rw [horders, List.toFinset_card_of_nodup (nodup_arrangements bag)]

end LinkGrammar
