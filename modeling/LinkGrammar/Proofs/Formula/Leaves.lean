/-
LinkGrammar/Proofs/Formula/Leaves.lean

The connectors of a formula.

A formula mentions connectors, and its disjuncts are made of them.  Of a formula that can be read
no connector is in vain: wherever it stands, the choices around it can be made so that it is used,
since each part offers at least one disjunct.  So a connector is mentioned exactly when it occurs
in a disjunct (`mem_leaves_iff`).

Deleting groups and taking out optional ones brings in no connector.  So what the parts of a
normal form offer is mentioned in the formula, too.
-/
import LinkGrammar.Proofs.Formula.Expansion
import LinkGrammar.Proofs.Formula.Rendered

namespace LinkGrammar.Formula

mutual

/-- The connectors of a formula, from left to right. -/
def leaves : Formula → List Connector
  | leaf name => [name]
  | and fs => leavesAll fs
  | or fs => leavesAll fs
  | optional f => leaves f
  | cost f => leaves f

/-- The leaves of one operand after the other. -/
def leavesAll : List Formula → List Connector
  | [] => []
  | f :: fs => leaves f ++ leavesAll fs

end

theorem leavesAll_append (fs gs : List Formula) :
    leavesAll (fs ++ gs) = leavesAll fs ++ leavesAll gs := by
  induction fs with
  | nil => rfl
  | cons f fs ih =>
    show leaves f ++ leavesAll (fs ++ gs) = (leaves f ++ leavesAll fs) ++ leavesAll gs
    rw [ih, List.append_assoc]

theorem leavesAll_toList (part : Option Formula) :
    leavesAll part.toList = (part.map leaves).getD [] := by
  cases part with
  | none => rfl
  | some f => exact List.append_nil (leaves f)

/-- The leaves of a node are those of its operands. -/
theorem leaves_node (j : Joint) (fs : List Formula) : leaves (j.node fs) = leavesAll fs := by
  cases j <;> rfl

theorem leaves_of_mem_joined {j : Joint} {fs : List Formula} {f : Formula}
    (h : f ∈ joined j.node fs) : leaves f = leavesAll fs := by
  rcases fs with - | ⟨g, - | ⟨g', fs⟩⟩
  · cases h
  · obtain rfl : g = f := Option.some.inj h
    exact (List.append_nil (leaves g)).symm
  · obtain rfl : j.node (g :: g' :: fs) = f := Option.some.inj h
    exact leaves_node j (g :: g' :: fs)

/-- Making a tree optional keeps its leaves. -/
theorem leaves_orAbsent (f : Formula) : leaves f.orAbsent = leaves f := by
  rcases orAbsent_cases f with ⟨g, rfl, h⟩ | ⟨g, rfl, h⟩ | h
  · rw [h]
  · rw [h]
    rfl
  · rw [h]
    rfl

/-! ### Connectors in disjuncts -/

/-- An entry of a product is a choice from either side. -/
theorem mem_product {front back : List Disjunct} {d : Disjunct} :
    d ∈ product front back ↔ ∃ a ∈ front, ∃ b ∈ back, a ++ b = d := by
  rw [product, List.mem_flatMap]
  exact exists_congr fun a => and_congr_right fun _ => List.mem_map

mutual

/-- The disjuncts of a formula are made of its connectors. -/
theorem mem_leaves_of_mem_disjuncts {c : Connector} {d : Disjunct} (hc : c ∈ d) :
    (f : Formula) → d ∈ disjuncts f → c ∈ leaves f
  | leaf name, hd => by
    obtain rfl : d = [name] := List.mem_singleton.1 hd
    exact hc
  | and fs, hd => mem_leavesAll_of_mem_disjunctsOfAll hc fs hd
  | or fs, hd => mem_leavesAll_of_mem_disjunctsOfAny hc fs hd
  | optional f, hd => by
    rcases List.mem_cons.1 hd with rfl | hd
    · cases hc
    · exact mem_leaves_of_mem_disjuncts hc f hd
  | cost f, hd => mem_leaves_of_mem_disjuncts hc f hd

theorem mem_leavesAll_of_mem_disjunctsOfAll {c : Connector} {d : Disjunct} (hc : c ∈ d) :
    (fs : List Formula) → d ∈ disjunctsOfAll fs → c ∈ leavesAll fs
  | [], hd => by
    obtain rfl : d = [] := List.mem_singleton.1 hd
    cases hc
  | f :: fs, hd => by
    -- a disjunct of the first operand, followed by one of the others
    obtain ⟨a, ha, b, hb, rfl⟩ := mem_product.1 hd
    rcases List.mem_append.1 hc with hc | hc
    · exact List.mem_append_left _ (mem_leaves_of_mem_disjuncts hc f ha)
    · exact List.mem_append_right _ (mem_leavesAll_of_mem_disjunctsOfAll hc fs hb)

theorem mem_leavesAll_of_mem_disjunctsOfAny {c : Connector} {d : Disjunct} (hc : c ∈ d) :
    (fs : List Formula) → d ∈ disjunctsOfAny fs → c ∈ leavesAll fs
  | [], hd => by cases hd
  | f :: fs, hd => by
    rcases List.mem_append.1 hd with hd | hd
    · exact List.mem_append_left _ (mem_leaves_of_mem_disjuncts hc f hd)
    · exact List.mem_append_right _ (mem_leavesAll_of_mem_disjunctsOfAny hc fs hd)

end

mutual

/-- A formula that can be read offers something. -/
theorem exists_disjunct : (f : Formula) → Canonical f → ∃ d, d ∈ disjuncts f
  | leaf name, _ => ⟨[name], List.mem_singleton_self _⟩
  | and fs, h => exists_disjunctOfAll fs h.2
  | or [], h => absurd h.1 (by decide)
  | or (f :: fs), h => by
    obtain ⟨d, hd⟩ := exists_disjunct f h.2.1
    exact ⟨d, List.mem_append_left _ hd⟩
  | optional f, _ => ⟨[], List.mem_cons_self⟩
  | cost f, h => exists_disjunct f h

theorem exists_disjunctOfAll : (fs : List Formula) → AllCanonical fs → ∃ d, d ∈ disjunctsOfAll fs
  | [], _ => ⟨[], List.mem_singleton_self _⟩
  | f :: fs, h => by
    obtain ⟨a, ha⟩ := exists_disjunct f h.1
    obtain ⟨b, hb⟩ := exists_disjunctOfAll fs h.2
    exact ⟨a ++ b, mem_product.2 ⟨a, ha, b, hb, rfl⟩⟩

end

mutual

/-- Every connector of a formula that can be read is used in some disjunct. -/
theorem exists_disjunct_of_mem_leaves {c : Connector} :
    (f : Formula) → Canonical f → c ∈ leaves f → ∃ d ∈ disjuncts f, c ∈ d
  | leaf name, _, hc => ⟨[name], List.mem_singleton_self _, hc⟩
  | and fs, h, hc => exists_disjunctOfAll_of_mem_leavesAll fs h.2 hc
  | or fs, h, hc => exists_disjunctOfAny_of_mem_leavesAll fs h.2 hc
  | optional f, h, hc => by
    obtain ⟨d, hd, hc⟩ := exists_disjunct_of_mem_leaves f h.1 hc
    exact ⟨d, List.mem_cons_of_mem _ hd, hc⟩
  | cost f, h, hc => exists_disjunct_of_mem_leaves f h hc

theorem exists_disjunctOfAll_of_mem_leavesAll {c : Connector} :
    (fs : List Formula) → AllCanonical fs → c ∈ leavesAll fs → ∃ d ∈ disjunctsOfAll fs, c ∈ d
  | [], _, hc => by cases hc
  | f :: fs, h, hc => by
    -- what the other operands offer besides does not matter
    rcases List.mem_append.1 hc with hc | hc
    · obtain ⟨a, ha, hc⟩ := exists_disjunct_of_mem_leaves f h.1 hc
      obtain ⟨b, hb⟩ := exists_disjunctOfAll fs h.2
      exact ⟨a ++ b, mem_product.2 ⟨a, ha, b, hb, rfl⟩, List.mem_append_left _ hc⟩
    · obtain ⟨a, ha⟩ := exists_disjunct f h.1
      obtain ⟨b, hb, hc⟩ := exists_disjunctOfAll_of_mem_leavesAll fs h.2 hc
      exact ⟨a ++ b, mem_product.2 ⟨a, ha, b, hb, rfl⟩, List.mem_append_right _ hc⟩

theorem exists_disjunctOfAny_of_mem_leavesAll {c : Connector} :
    (fs : List Formula) → AllCanonical fs → c ∈ leavesAll fs → ∃ d ∈ disjunctsOfAny fs, c ∈ d
  | [], _, hc => by cases hc
  | f :: fs, h, hc => by
    rcases List.mem_append.1 hc with hc | hc
    · obtain ⟨d, hd, hc⟩ := exists_disjunct_of_mem_leaves f h.1 hc
      exact ⟨d, List.mem_append_left _ hd, hc⟩
    · obtain ⟨d, hd, hc⟩ := exists_disjunctOfAny_of_mem_leavesAll fs h.2 hc
      exact ⟨d, List.mem_append_right _ hd, hc⟩

end

/-- A connector is mentioned exactly when some disjunct uses it. -/
theorem mem_leaves_iff {f : Formula} (h : Canonical f) {c : Connector} :
    c ∈ leaves f ↔ ∃ d ∈ disjuncts f, c ∈ d := by
  constructor
  · exact exists_disjunct_of_mem_leaves f h
  · rintro ⟨d, hd, hc⟩
    exact mem_leaves_of_mem_disjuncts hc f hd

mutual

/-- The connectors of a formula that can be read are names. -/
theorem isName_of_mem_leaves {c : Connector} : (f : Formula) → Canonical f → c ∈ leaves f → IsName c
  | leaf name, h, hc => by
    obtain rfl : c = name := List.mem_singleton.1 hc
    exact h
  | and fs, h, hc => isName_of_mem_leavesAll fs h.2 hc
  | or fs, h, hc => isName_of_mem_leavesAll fs h.2 hc
  | optional f, h, hc => isName_of_mem_leaves f h.1 hc
  | cost f, h, hc => isName_of_mem_leaves f h hc

theorem isName_of_mem_leavesAll {c : Connector} :
    (fs : List Formula) → AllCanonical fs → c ∈ leavesAll fs → IsName c
  | [], _, hc => by cases hc
  | f :: fs, h, hc => by
    rcases List.mem_append.1 hc with hc | hc
    · exact isName_of_mem_leaves f h.1 hc
    · exact isName_of_mem_leavesAll fs h.2 hc

end

/-! ### Connectors of parts -/

variable {b : Bracket}

mutual

/-- Deleting groups brings in no connector. -/
theorem leaves_without_subset : (f : Formula) → ∀ g ∈ without b f, leaves g ⊆ leaves f
  | leaf name, g, hg => by
    obtain rfl : leaf name = g := Option.some.inj hg
    exact List.Subset.refl _
  | and fs, g, hg => by
    rw [leaves_of_mem_joined (j := .and) hg]
    exact leavesAll_withoutAll_subset fs
  | or fs, g, hg => by
    rw [leaves_of_mem_joined (j := .or) hg]
    exact leavesAll_withoutAll_subset fs
  | optional f, g, hg => by
    rw [without] at hg
    split at hg
    · cases hg
    · obtain ⟨g, hbody, rfl⟩ := Option.map_eq_some_iff.1 hg
      rw [leaves_orAbsent]
      exact leaves_without_subset f g hbody
  | cost f, g, hg => by
    rw [without] at hg
    split at hg
    · cases hg
    · obtain ⟨g, hbody, rfl⟩ := Option.map_eq_some_iff.1 hg
      exact leaves_without_subset f g hbody

theorem leavesAll_withoutAll_subset : (fs : List Formula) →
    leavesAll (withoutAll b fs) ⊆ leavesAll fs
  | [] => List.Subset.refl _
  | f :: fs => by
    show leavesAll ((without b f).toList ++ withoutAll b fs) ⊆ leaves f ++ leavesAll fs
    rw [leavesAll_append, leavesAll_toList]
    intro c hc
    rcases List.mem_append.1 hc with hc | hc
    · apply List.mem_append_left
      rcases h : without b f with - | g <;> rw [h] at hc
      · cases hc
      · exact leaves_without_subset f g h hc
    · exact List.mem_append_right _ (leavesAll_withoutAll_subset fs hc)

end

mutual

/-- An optional group of a formula mentions what the formula mentions. -/
theorem leaves_outerOptionals_subset : (f : Formula) → ∀ g ∈ outerOptionals f, leaves g ⊆ leaves f
  | leaf name, g, hg => by cases hg
  | and fs, g, hg => leaves_outerOptionalsAll_subset fs g hg
  | or fs, g, hg => leaves_outerOptionalsAll_subset fs g hg
  | optional f, g, hg => by
    obtain rfl : g = f := List.mem_singleton.1 hg
    exact List.Subset.refl _
  | cost f, g, hg => leaves_outerOptionals_subset f g hg

/-- The leaves of optional parts are leaves of the operands. -/
theorem leaves_outerOptionalsAll_subset :
    (fs : List Formula) → ∀ g ∈ outerOptionalsAll fs, leaves g ⊆ leavesAll fs
  | [], g, hg => by cases hg
  | f :: fs, g, hg => by
    rcases List.mem_append.1 hg with hg | hg
    · exact List.subset_append_of_subset_left _ (leaves_outerOptionals_subset f g hg)
    · exact List.subset_append_of_subset_right _ (leaves_outerOptionalsAll_subset fs g hg)

end

end LinkGrammar.Formula
