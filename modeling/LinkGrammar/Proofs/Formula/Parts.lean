/-
LinkGrammar/Proofs/Formula/Parts.lean

What the normal form of a formula consists of.

The parts of a normal form are found in text: groups are cut out, and the rest is mended
and read.  They can be told from the tree alone.  The required part is the tree without
its optional groups; the groups are those that stand in no other, without the groups in
them, and once more without what costs.
-/
import LinkGrammar.Proofs.Formula.NormalForm

namespace LinkGrammar.Formula

/-- A formula that has a normal form is read, and its normal form is that of the tree. -/
theorem exists_ofFormula_of_normalize {t : Text} {n : NormalForm} (h : normalize t = .ok n) :
    ∃ f, parse t = .ok f ∧ n = .ofFormula f := by
  obtain ⟨f, hparse, hbare⟩ := (normalize_isOk_iff_rereadTexts t).1 ⟨n, h⟩
  exact ⟨f, hparse, Except.ok.inj (h.symm.trans (normalize_eq_ok hparse hbare))⟩

/-- **The parts of a normal form.**  If a text has a normal form, it is read as a formula
`f`; the required part is `f` without its optional groups, and the groups are, from left to
right, the outermost optional groups of `f` of which anything is left without the groups in
them, each with what is left of it without its cost groups. -/
theorem normalize_parts {t : Text} {n : NormalForm} (h : normalize t = .ok n) :
    ∃ f, parse t = .ok f ∧
      n.required = f.bind (without .curly) ∧
      n.optionals = ((f.map outerOptionals).getD []).filterMap fun inner =>
        (without .curly inner).map fun body => ⟨body, without .square body⟩ := by
  obtain ⟨f, hparse, rfl⟩ := exists_ofFormula_of_normalize h
  exact ⟨f, hparse, rfl, rfl⟩

/-- A choice of what costs and what has something optional in it, all of it optional. -/
def nestedChoice : Formula :=
  and [leaf ['S'], optional (or [cost (leaf ['M']), and [leaf ['O'], optional (leaf ['C'])]])]

/-- Its normal form: what is optional inside the group is gone, and what costs goes too where
that is asked for. -/
def nestedChoiceForm : NormalForm where
  required := some (leaf ['S'])
  optionals := [⟨or [cost (leaf ['M']), leaf ['O']], some (leaf ['O'])⟩]

theorem normalize_nestedChoice : normalize (render nestedChoice) = .ok nestedChoiceForm := by
  cbv

theorem normalize_parts_nestedChoice :
    normalize (render nestedChoice) = .ok nestedChoiceForm ∧
      ∃ f, parse (render nestedChoice) = .ok f ∧
        nestedChoiceForm.required = f.bind (without .curly) ∧
        nestedChoiceForm.optionals = ((f.map outerOptionals).getD []).filterMap fun inner =>
          (without .curly inner).map fun body => ⟨body, without .square body⟩ :=
  ⟨normalize_nestedChoice, normalize_parts normalize_nestedChoice⟩

end LinkGrammar.Formula
