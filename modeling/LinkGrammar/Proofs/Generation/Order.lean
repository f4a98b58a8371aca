/-
LinkGrammar/Proofs/Generation/Order.lean

Which arrangements a run judges, and in which order.

A filter is asked about every arrangement before it is judged, so a filter that
remembers what it was shown knows the order of the run.  It changes nothing of the run,
which is `runWith` for a filter without a memory (`runWith_remembering`).

Main result: the filter is shown the bag as it is given, and then every other order of it
once, from the least to the greatest.
-/
import Mathlib
import LinkGrammar.Proofs.Bag.Count
import LinkGrammar.Proofs.Generation.Search

namespace LinkGrammar.Generation

open scoped Nat

/-! ### Remembering what is shown -/

/-- The filter that answers as `keep` does and remembers what it was shown. -/
def remembering (keep : List Text → Bool) (shown : List (List Text)) (words : List Text) :
    Bool × List (List Text) :=
  (keep words, shown ++ [words])

variable {g : Grammar} {keep : List Text → Bool}

/-- What is remembered in the end is what was shown, in order. -/
theorem foldl_remembering (shown ps : List (List Text)) :
    ps.foldl (fun shown words => (remembering keep shown words).2) shown = shown ++ ps := by
  show ps.foldl (fun shown words => shown ++ [words]) shown = shown ++ ps
  rw [List.foldl_append_eq_append, ← List.flatMap_def, List.flatMap_singleton']

/-- A filter that remembers does not change the run, and is shown all arrangements of the
bag. -/
theorem runWith_remembering (shown : List (List Text)) {o : Options} {tokens : List Text}
    (hbag : bagOf o tokens ≠ []) :
    runWith g (remembering keep) shown o tokens
      = (run g keep o tokens).map (·, shown ++ LinkGrammar.arrangements (bagOf o tokens)) := by
  have hfilter : ∀ shown words, (remembering keep shown words).1 = keep words := fun _ _ => rfl
  rw [runWith_eq_run hfilter hbag, foldl_remembering]

/-! ### The order of a run -/

/-- What comes behind the bag among its arrangements. -/
theorem exists_arrangements_eq_cons (bag : List Text) :
    ∃ others, LinkGrammar.arrangements bag = bag :: others ∧ others.Pairwise (· < ·) ∧
      ∀ p, p ∈ others ↔ p.Perm bag ∧ p ≠ bag := by
  refine ⟨_, rfl, (pairwise_lt_arrangementsFrom _ _).filter _, fun p => ?_⟩
  have hmem : p ∈ LinkGrammar.arrangements bag ↔ p.Perm bag := mem_arrangements
  have hnodup := (List.nodup_cons.1 (nodup_arrangements bag)).1
  rw [← hmem, LinkGrammar.arrangements, List.mem_cons]
  constructor
  · intro hp
    refine ⟨.inr hp, ?_⟩
    rintro rfl
    exact hnodup hp
  · rintro ⟨rfl | hp, hne⟩
    · exact absurd rfl hne
    · exact hp

/-- **The order of a run.**  The filter is shown the bag itself, and behind it all its other
orders, each once, in strictly ascending order.  They are counted as arrangements, and their
number is that of the orders of `n` things, divided by the numbers of orders of equal ones. -/
theorem run_order {o : Options} {tokens : List Text} {r : Generation}
    (h : run g keep o tokens = .ok r) (hbag : bagOf o tokens ≠ []) :
    let bag := bagOf o tokens
    ∃ others,
      runWith g (remembering keep) [] o tokens = .ok (r, bag :: others) ∧
      others.Pairwise (· < ·) ∧
      (∀ p, p ∈ others ↔ p.Perm bag ∧ p ≠ bag) ∧
      r.arrangements = (bag :: others).length ∧
      r.arrangements * ∏ w ∈ bag.toFinset, (bag.count w)! = bag.length ! := by
  intro bag
  obtain ⟨others, hall, hasc, hmem⟩ := exists_arrangements_eq_cons bag
  obtain ⟨s, hs, hr⟩ := exists_records_of_run h hbag
  have hcount : r.arrangements = (LinkGrammar.arrangements bag).length := by
    rw [hr]
    exact hs.arrangements
  refine ⟨others, ?_, hasc, hmem, by rw [hcount, hall], ?_⟩
  · rw [runWith_remembering [] hbag, h, List.nil_append, hall]
    rfl
  · rw [hcount, length_arrangements]
    -- texts are compared by two instances, which agree
    convert card_orders_mul_prod_factorial bag

/-- Two words `cat` and one `a` have three orders. -/
theorem run_order_catCat :
    let bag : List Text := [['c', 'a', 't'], ['a'], ['c', 'a', 't']]
    ∃ r others,
      run catGrammar notSatFirst .default bag = .ok r ∧
      runWith catGrammar (remembering notSatFirst) [] .default bag = .ok (r, bag :: others) ∧
      others.Pairwise (· < ·) ∧
      r.arrangements = (bag :: others).length ∧
      r.arrangements * ∏ w ∈ bag.toFinset, (bag.count w)! = 6 := by
  intro bag
  have h : run catGrammar notSatFirst .default bag = .ok ⟨[], .none, 3, 0, 0, []⟩ := by cbv
  have hbag : bagOf .default bag ≠ [] := by decide
  obtain ⟨others, hshown, hasc, -, hlength, hcount⟩ := run_order h hbag
  exact ⟨_, others, h, hshown, hasc, hlength, hcount⟩

end LinkGrammar.Generation
