/-
LinkGrammar/Proofs/Formula/Expansion.lean

Keeping the first disjuncts at every node keeps the first disjuncts of the whole
formula: `(expand f).disjuncts` is a `take` of `disjuncts f`.

A cut inside a product could drop what the whole product still needs.  It does not:
the first `n` entries of a product are made of the first `n` choices of each side
(`take_product_take_left`, `take_product_take_right`).  For `&` the induction carries
what was chosen so far, no longer than the limit; for `or` it carries how many
disjuncts were found.
-/
import Mathlib.Data.List.TakeDrop
import LinkGrammar.Formula.Expansion

namespace LinkGrammar.Formula

/-! ### Products -/

@[simp] theorem product_nil_left (back : List Disjunct) : product [] back = [] := rfl

@[simp] theorem product_cons_left (a : Disjunct) (front back : List Disjunct) :
    product (a :: front) back = back.map (a ++ ·) ++ product front back := rfl

@[simp] theorem product_nil_right (front : List Disjunct) : product front [] = [] := by
  induction front with
  | nil => rfl
  | cons a front ih => rw [product_cons_left, ih]; rfl

theorem product_unit_left (back : List Disjunct) : product [[]] back = back := by
  simp

theorem product_unit_right (front : List Disjunct) : product front [[]] = front := by
  induction front with
  | nil => rfl
  | cons a front ih => rw [product_cons_left, ih]; simp

/-- Choices on the left are taken one after the other. -/
theorem product_append_left (front front' back : List Disjunct) :
    product (front ++ front') back = product front back ++ product front' back :=
  List.flatMap_append

/-- What stands before all choices on the left stands before all entries. -/
theorem product_map_left (a : Disjunct) (front back : List Disjunct) :
    product (front.map (a ++ ·)) back = (product front back).map (a ++ ·) := by
  induction front with
  | nil => rfl
  | cons b front ih => simp [ih]

/-- Three choices can be grouped either way. -/
theorem product_assoc (a b c : List Disjunct) :
    product (product a b) c = product a (product b c) := by
  induction a with
  | nil => rfl
  | cons x a ih => rw [product_cons_left, product_append_left, ih, product_map_left,
      product_cons_left]

theorem length_product (front back : List Disjunct) :
    (product front back).length = front.length * back.length := by
  induction front with
  | nil => simp
  | cons a front ih => simp [ih, Nat.succ_mul, Nat.add_comm]

/-! ### The first entries of a product -/

/-- The first entries of a product come from the first choices of its right side. -/
theorem take_product_take_right (n : Nat) (front back : List Disjunct) :
    (product front (back.take n)).take n = (product front back).take n := by
  induction front with
  | nil => rfl
  | cons a front ih =>
    rw [product_cons_left, product_cons_left, List.take_append, List.take_append]
    rcases Nat.le_total n back.length with h | h
    · -- the first choice alone fills the room
      simp [h]
    · rw [List.take_of_length_le h]

/-- They come from the first choices of its left side too. -/
theorem take_product_take_left (n : Nat) (front back : List Disjunct) :
    (product (front.take n) back).take n = (product front back).take n := by
  rcases Nat.le_total front.length n with h | h
  · rw [List.take_of_length_le h]
  rcases back with - | ⟨b, back⟩
  · simp
  · conv_rhs => rw [← List.take_append_drop n front, product_append_left]
    -- each choice of the front makes at least one entry
    have hlen : n ≤ (product (front.take n) (b :: back)).length := by
      rw [length_product, List.length_take, Nat.min_eq_left h]
      exact Nat.le_mul_of_pos_right n (by simp)
    rw [List.take_append_of_le_length hlen]

/-- The product that stops early gives the first entries. -/
theorem productUpTo_eq_take (n : Nat) (front back : List Disjunct) :
    productUpTo n front back = (product front back).take n := by
  induction front generalizing n with
  | nil => simp [productUpTo]
  | cons a front ih =>
    unfold productUpTo
    split
    · next h => simp [h]
    · show (back.take n).map (a ++ ·) ++ productUpTo _ front back = _
      rw [product_cons_left, List.take_append, ih, List.map_take]
      rcases Nat.le_total n back.length with h | h
      · simp [h]
      · simp [List.take_of_length_le, h]

/-! ### The first disjuncts of a formula -/

mutual

/-- What is kept of a formula are its first disjuncts. -/
theorem disjuncts_expand : (f : Formula) →
    (expand f).disjuncts = (disjuncts f).take maxDisjuncts
  | leaf name => by
    rw [expand, disjuncts]; rfl
  | and fs => by
    rw [expand, disjuncts, disjuncts_expandAll fs (by simp [maxDisjuncts]), product_unit_left]
  | or fs => by
    rw [expand, disjuncts, Expansion.cap]
    have := take_expandAny 0 fs
    simpa using this
  | optional f => by
    rw [expand, disjuncts, Expansion.cap, disjuncts_expand f]
    show ([] :: (disjuncts f).take maxDisjuncts).take maxDisjuncts = _
    rw [maxDisjuncts, List.take_succ_cons, List.take_succ_cons, List.take_take]
    rfl
  | cost f => by
    rw [expand, disjuncts]; exact disjuncts_expand f

/-- Under `&`, what was chosen before is at most the limit, and so is what is kept. -/
theorem disjuncts_expandAll : (fs : List Formula) → {chosen : Expansion} →
    chosen.disjuncts.length ≤ maxDisjuncts →
    (expandAll chosen fs).disjuncts
      = (product chosen.disjuncts (disjunctsOfAll fs)).take maxDisjuncts
  | [], chosen, h => by
    rw [expandAll, disjunctsOfAll, product_unit_right, List.take_of_length_le h]
  | f :: fs, chosen, h => by
    rw [expandAll, disjunctsOfAll]
    have hlen : (productUpTo maxDisjuncts chosen.disjuncts (expand f).disjuncts).length
        ≤ maxDisjuncts := by
      rw [productUpTo_eq_take, List.length_take]; exact Nat.min_le_left _ _
    rw [disjuncts_expandAll fs hlen]
    show (product (productUpTo _ _ _) _).take _ = _
    rw [productUpTo_eq_take, disjuncts_expand f, take_product_take_right,
      take_product_take_left, product_assoc]

/-- Under `or`, leaving operands out once enough was found loses nothing that is kept. -/
theorem take_expandAny : (found : Nat) → (fs : List Formula) →
    (expandAny found fs).disjuncts.take (maxDisjuncts - found)
      = (disjunctsOfAny fs).take (maxDisjuncts - found)
  | _, [] => by
    rw [expandAny, disjunctsOfAny]
  | found, f :: fs => by
    have hf := disjuncts_expand f
    have hlen : (expand f).disjuncts.length = min maxDisjuncts (disjuncts f).length := by
      rw [hf, List.length_take]
    have hroom : ((disjuncts f).take maxDisjuncts).take (maxDisjuncts - found)
        = (disjuncts f).take (maxDisjuncts - found) := by
      rw [List.take_take, Nat.min_eq_left (Nat.sub_le _ _)]
    rw [expandAny, disjunctsOfAny]
    split
    · next h =>
      -- the operand fills the room by itself
      rw [hf, hroom, List.take_append_of_le_length (by omega)]
    · next h =>
      have hall : (disjuncts f).take maxDisjuncts = disjuncts f :=
        List.take_of_length_le (by omega)
      have ih := take_expandAny (found + (expand f).disjuncts.length) fs
      show ((expand f).disjuncts ++ _).take _ = _
      rw [hf, hall] at ih ⊢
      rw [List.take_append, List.take_append, Nat.sub_sub, ih]

end

/-- **Capping commutes with expansion**: the kept disjuncts are the first ones of all
disjuncts, in order, and as many as there are up to the limit. -/
theorem expand_keeps_first (f : Formula) :
    (expand f).disjuncts = (disjuncts f).take (min maxDisjuncts (disjuncts f).length) := by
  rw [disjuncts_expand]
  rcases Nat.le_total maxDisjuncts (disjuncts f).length with h | h
  · rw [Nat.min_eq_left h]
  · rw [Nat.min_eq_right h, List.take_of_length_le h, List.take_length]

end LinkGrammar.Formula
