/-
LinkGrammar/Proofs/Formula/Idempotence.lean

Normalizing the text of a normal form.

A normal form can be said as a formula: its required part and its groups, all joined by
`&` (`NormalForm.toFormula`).  Its text is the text of this formula (`render_eq`), and the
tree of this formula has the same normal form (`ofFormula_toFormula`).  So normalizing the
text can give nothing else.  It fails where reading a group without what costs fails, and
nowhere else: all other texts that are read again are solid.
-/
import LinkGrammar.Proofs.Formula.Parts
import LinkGrammar.Proofs.Formula.Skeleton

namespace LinkGrammar.Formula

/-! ### Operands of a conjunction -/

/-- The operands of a conjunction; of another formula, the formula itself. -/
def conjuncts : Formula → List Formula
  | and fs => fs
  | f => [f]

/-- A canonical tree is the conjunction of its conjuncts. -/
theorem joined_conjuncts {f : Formula} (h : Canonical f) : joined and f.conjuncts = some f := by
  cases f with
  | and fs => exact joined_of_two_le h.1
  | _ => rfl

theorem Rest.of_mem_conjuncts {b : Bracket} {f : Formula} (h : Rest b f) :
    ∀ g ∈ f.conjuncts, Rest b g := by
  obtain ⟨hcanonical, hlacks⟩ := h
  cases f with
  | and fs =>
    exact fun g hg => ⟨allCanonical_iff.1 hcanonical.2 g hg, allLack_iff.1 hlacks g hg⟩
  | _ => exact List.forall_mem_singleton.2 ⟨hcanonical, hlacks⟩

/-! ### The text of a conjunction -/

/-- Joined texts that are joined once more. -/
theorem intercalate_intercalate_cons {α : Type} {sep : List α} {us vs : List (List α)}
    (hus : us ≠ []) :
    sep.intercalate (sep.intercalate us :: vs) = sep.intercalate (us ++ vs) := by
  induction us with
  | nil => exact absurd rfl hus
  | cons u us ih =>
    rcases us with - | ⟨u', us⟩
    · rw [List.intercalate_singleton, List.singleton_append]
    · have ih := ih (by simp)
      rcases vs with - | ⟨v, vs⟩
      · rw [List.intercalate_singleton, List.append_nil]
      · rw [List.intercalate_cons_cons] at ih
        rw [List.cons_append, List.cons_append, List.intercalate_cons_cons,
          List.intercalate_cons_cons, List.intercalate_cons_cons, ← List.cons_append, ← ih]
        simp only [List.append_assoc]

theorem operandText_of_not_isCompound {f : Formula} (h : f.isCompound = false) :
    operandText f = render f :=
  if_neg (by simp [h])

/-- A single operand needs no parentheses if it is no compound. -/
theorem render_joined (fs : List Formula) (h : ∀ f, fs = [f] → f.isCompound = false) :
    ((joined and fs).map render).getD [] = andSign.intercalate (fs.map operandText) := by
  rcases fs with - | ⟨f, - | ⟨g, fs⟩⟩
  · rfl
  · rw [List.map_singleton, List.intercalate_singleton, operandText_of_not_isCompound (h f rfl)]
    rfl
  · exact render_node .and (f :: g :: fs)

/-- The operands of a conjunction need no parentheses among others. -/
theorem render_joined_append {fs gs : List Formula} (h : 2 ≤ fs.length) :
    ((joined and (fs ++ gs)).map render).getD []
      = andSign.intercalate (render (and fs) :: gs.map operandText) := by
  have hfs : fs.map operandText ≠ [] := by
    rw [Ne, List.map_eq_nil_iff]
    rintro rfl
    cases h
  have hand : render (and fs) = andSign.intercalate (fs.map operandText) := render_node .and fs
  rw [hand, intercalate_intercalate_cons hfs, ← List.map_append]
  refine render_joined _ fun f hf => ?_
  have hone := congrArg List.length hf
  rw [List.length_append, List.length_singleton] at hone
  omega

theorem map_operandText_groups (gs : List OptionalGroup) :
    (gs.map fun g => optional g.body).map operandText
      = gs.map fun g => '{' :: render g.body ++ ['}'] := by
  rw [List.map_map]
  refine List.map_congr_left fun g _ => ?_
  show operandText (optional g.body) = _
  rw [operandText_of_not_isCompound rfl, render]

/-! ### Normal forms as formulas -/

namespace NormalForm

/-- The operands of the required part, and the groups. -/
def operands (n : NormalForm) : List Formula :=
  (n.required.map conjuncts).getD [] ++ n.optionals.map fun g => optional g.body

/-- The normal form as a formula. -/
def toFormula (n : NormalForm) : Option Formula := joined and n.operands

/-- A normal form whose parts have no optional groups, with the second views that belong to
its groups. -/
structure Proper (n : NormalForm) : Prop where
  required : ∀ f ∈ n.required, Rest .curly f
  body : ∀ g ∈ n.optionals, Rest .curly g.body
  uncosted : ∀ g ∈ n.optionals, g.uncosted = without .square g.body

/-- The normal form of a canonical part is proper. -/
theorem proper_ofFormula {f : Option Formula} (h : CanonicalPart f) : (ofFormula f).Proper := by
  rcases f with - | f
  · exact ⟨by simp [ofFormula], by simp [ofFormula], by simp [ofFormula]⟩
  have hf : Canonical f := h f rfl
  have hgroup : ∀ g ∈ (ofFormula (some f)).optionals,
      Rest .curly g.body ∧ g.uncosted = without .square g.body := by
    intro g hg
    obtain ⟨inner, hinner, hg⟩ := List.mem_filterMap.1 hg
    obtain ⟨body, hbody, rfl⟩ := Option.map_eq_some_iff.1 hg
    have hcanonical := canonical_of_mem_outerOptionals f hf inner hinner
    exact ⟨rest_of_mem_without .curly inner hcanonical body hbody, rfl⟩
  exact ⟨rest_of_mem_without .curly f hf, fun g hg => (hgroup g hg).1, fun g hg => (hgroup g hg).2⟩

/-- The text of a normal form is the text of its formula. -/
theorem render_eq {n : NormalForm} (h : n.Proper) :
    n.render = (n.toFormula.map Formula.render).getD [] := by
  obtain ⟨required, optionals⟩ := n
  have hrequired := h.required
  unfold NormalForm.render toFormula operands renderRequired
  dsimp only at hrequired ⊢
  rw [← map_operandText_groups]
  rcases required with - | f
  · -- all operands are groups
    refine (render_joined _ fun f hf => ?_).symm
    obtain ⟨g, -, rfl⟩ := List.map_eq_singleton_iff.1 hf
    rfl
  have hf : Canonical f := (hrequired f rfl).canonical
  cases f with
  | and fs => exact (render_joined_append hf.1).symm
  | or fs =>
    rcases optionals with - | ⟨g, gs⟩
    · exact List.intercalate_singleton
    · -- next to a group the choice stands in parentheses
      exact (render_joined (or fs :: optional g.body :: _) (by simp)).symm
  | leaf n => exact (render_joined (leaf n :: _) (by simp [isCompound])).symm
  | optional f => exact (render_joined (optional f :: _) (by simp [isCompound])).symm
  | cost f => exact (render_joined (cost f :: _) (by simp [isCompound])).symm

/-! ### The normal form of the formula -/

variable {n : NormalForm} (h : n.Proper)
include h

theorem Proper.canonical_of_mem_operands : ∀ f ∈ n.operands, Canonical f := by
  refine List.forall_mem_append.2 ⟨?_, ?_⟩
  · rcases e : n.required with - | f
    · simp
    · exact fun g hg => ((h.required f e).of_mem_conjuncts g hg).canonical
  · rw [List.forall_mem_map]
    exact fun g hg => (h.body g hg).canonical_optional

theorem Proper.canonicalPart_toFormula : CanonicalPart n.toFormula :=
  .joined (fun hlen hall => ⟨hlen, hall⟩) h.canonical_of_mem_operands

/-- The text of a normal form is read as its formula. -/
theorem parse_render : parse n.render = .ok n.toFormula := by
  rw [render_eq h]
  rcases e : n.toFormula with - | f
  · cbv
  · exact Formula.parse_render (h.canonicalPart_toFormula f e)

/-- Without what is optional, the required part is left. -/
theorem toFormula_bind_without : n.toFormula.bind (without .curly) = n.required := by
  have hgroups : (n.optionals.map fun g => optional g.body).filterMap (without .curly) = [] := by
    rw [List.filterMap_eq_nil_iff, List.forall_mem_map]
    intro g _
    rw [without, if_pos rfl]
  unfold toFormula operands
  rw [show Formula.and = Joint.and.node from rfl, joined_bind_without, List.filterMap_append,
    hgroups, List.append_nil]
  rcases e : n.required with - | f
  · rfl
  · have hf := h.required f e
    show joined Formula.and (f.conjuncts.filterMap (without .curly)) = _
    rw [filterMap_without_of_rest hf.of_mem_conjuncts, joined_conjuncts hf.canonical]

/-- The outermost optional parts are the bodies of the groups. -/
theorem outerOptionals_toFormula :
    (n.toFormula.map outerOptionals).getD [] = n.optionals.map OptionalGroup.body := by
  have hrequired : ((n.required.map conjuncts).getD []).flatMap outerOptionals = [] := by
    rw [List.flatMap_eq_nil_iff]
    rcases e : n.required with - | f
    · simp
    · exact fun g hg => outerOptionals_eq_nil g ((h.required f e).of_mem_conjuncts g hg).lacks
  unfold toFormula operands
  rw [show Formula.and = Joint.and.node from rfl, outerOptionals_joined, List.flatMap_append,
    hrequired, List.nil_append, List.flatMap_map]
  simp only [outerOptionals]
  exact List.map_eq_flatMap.symm

/-- **A normal form is the normal form of its formula.** -/
theorem ofFormula_toFormula : ofFormula n.toFormula = n := by
  have hgroup : ∀ g ∈ n.optionals, (OptionalGroup.ofFormula? ∘ OptionalGroup.body) g = some g := by
    intro g hg
    show OptionalGroup.ofFormula? g.body = _
    have hbody := h.body g hg
    unfold OptionalGroup.ofFormula?
    rw [without_eq_some g.body hbody.canonical hbody.lacks, Option.map_some, ← h.uncosted g hg]
  unfold ofFormula
  rw [toFormula_bind_without h, outerOptionals_toFormula h, List.filterMap_map,
    List.filterMap_congr hgroup, List.filterMap_some]

end NormalForm

/-! ### What is read again -/

/-- What stands outside the braces of the text is solid, whatever stands behind the text. -/
def SolidOutside (u : Text) : Prop :=
  ∃ v, Solid (lexemes v) ∧ ∀ t, outside .curly (u ++ t) = v ++ outside .curly t

namespace SolidOutside

theorem of_not_mem {u : Text} (h : Orderly (lexemes u)) (hcurly : '{' ∉ u) : SolidOutside u :=
  ⟨u, h.solid, fun t => outside_append_of_not_mem (b := .curly) hcurly t⟩

theorem nil : SolidOutside [] := ⟨[], by rw [lexemes_nil]; exact .nil, fun _ => rfl⟩

/-- A balanced text in braces, of which nothing stands outside. -/
theorem group {u : Text} (h : Balanced .curly u) : SolidOutside ('{' :: u ++ ['}']) :=
  ⟨[], by rw [lexemes_nil]; exact .nil, outside_region_append h⟩

/-- Two texts that are solid outside, with `&` between them. -/
theorem join {s t : Text} (hs : SolidOutside s) (ht : SolidOutside t) :
    SolidOutside (s ++ andSign ++ t) := by
  obtain ⟨v, hv, hs⟩ := hs
  obtain ⟨w, hw, ht⟩ := ht
  have hsign : Bracket.curly.opener ∉ andSign := by decide
  refine ⟨v ++ Joint.and.sign ++ w, ?_, fun x => ?_⟩
  · rw [lexemes_sign]
    exact hv.append (hw.cons_joint .and)
  · rw [List.append_assoc, List.append_assoc, hs, outside_append_of_not_mem hsign, ht]
    simp only [List.append_assoc]
    rfl

theorem intercalate {us : List Text} (h : ∀ u ∈ us, SolidOutside u) :
    SolidOutside (andSign.intercalate us) := by
  induction us with
  | nil => exact nil
  | cons u us ih =>
    obtain ⟨hu, hus⟩ := List.forall_mem_cons.1 h
    rcases us with - | ⟨u', us⟩
    · rw [List.intercalate_singleton]
      exact hu
    · rw [List.intercalate_cons_cons]
      exact hu.join (ih hus)

theorem solid {u : Text} (h : SolidOutside u) : Solid (lexemes (outside .curly u)) := by
  obtain ⟨v, hv, hu⟩ := h
  have houtside : outside .curly u = v := by simpa [outside, outsideFrom] using hu []
  rw [houtside]
  exact hv

theorem render {f : Formula} (h : Rest .curly f) : SolidOutside (render f) :=
  of_not_mem (orderly_render h.canonical) (curly_not_mem_render h)

theorem operandText {f : Formula} (h : Rest .curly f) : SolidOutside (operandText f) := by
  refine of_not_mem (compositional_orderly.operandText ?_).1 ?_
  · exact compositional_orderly.render f h.canonical
  · unfold Formula.operandText
    split
    · simpa using curly_not_mem_render h
    · exact curly_not_mem_render h

end SolidOutside

namespace NormalForm

variable {n : NormalForm} (h : n.Proper)
include h

/-- The rendering of a proper normal form is solid outside its groups. -/
theorem solidOutside_render : SolidOutside n.render := by
  refine .intercalate (List.forall_mem_append.2 ⟨?_, ?_⟩)
  · unfold renderRequired
    split
    · simp
    · next fs e =>
      have hor : Rest .curly (or fs) := h.required _ e
      rw [List.forall_mem_singleton]
      split
      · exact .render hor
      · exact .operandText hor
    · next f _ e => exact List.forall_mem_singleton.2 (.render (h.required _ e))
  · rw [List.forall_mem_map]
    intro g hg
    exact .group ((compositional_balanced .curly).render g.body (h.body g hg).canonical)

/-- The only text of those read again that may keep an `or` is a body without what costs. -/
theorem rereadTexts_toFormula_iff :
    (∀ s ∈ rereadTexts n.toFormula, ¬HasBareOr s) ↔
      ∀ g ∈ n.optionals,
        ¬HasBareOr (cleanup (outside .square (cleanup (Formula.render g.body)))) := by
  have hgroup : ∀ g ∈ n.optionals, (∀ s ∈ rereadGroup (Formula.render g.body), ¬HasBareOr s) ↔
      ¬HasBareOr (cleanup (outside .square (cleanup (Formula.render g.body)))) := by
    intro g hg
    have hbody := h.body g hg
    have hsolid := (orderly_render hbody.canonical).solid
    have hbare := (mendable_render hbody.canonical).not_hasBareOr_cleanup hsolid
    unfold rereadGroup
    rw [outside_of_not_mem (b := .curly) (curly_not_mem_render hbody)]
    simp [hbare]
  have hbodies := outerOptionals_toFormula h
  rcases e : n.toFormula with - | f
  · rw [e] at hbodies
    have hnone : n.optionals = [] := List.map_eq_nil_iff.1 hbodies.symm
    simp [rereadTexts, hnone]
  have hf : Canonical f := h.canonicalPart_toFormula f e
  have hrequired : ¬HasBareOr (cleanup (outside .curly (Formula.render f))) := by
    have hsolid := (solidOutside_render h).solid
    rw [render_eq h, e] at hsolid
    exact (mendable_render hf).outside_curly.2.not_hasBareOr_cleanup hsolid
  rw [e] at hbodies
  unfold rereadTexts
  rw [List.forall_mem_cons, List.forall_mem_flatMap, show outerOptionals f = _ from hbodies,
    List.forall_mem_map]
  rw [and_iff_right hrequired]
  exact forall₂_congr hgroup

end NormalForm

/-- **Normalizing again.**  The text of a normal form has the same normal form or none.  It
has none exactly when, in some group, cleanup leaves an `or` alone between brackets once the
cost groups are cut out of the text of the body. -/
theorem normalize_render_iff {t : Text} {n : NormalForm} (h : normalize t = .ok n) :
    (normalize n.render = .ok n ↔ ∀ g ∈ n.optionals,
        ¬HasBareOr (cleanup (outside .square (cleanup (render g.body))))) ∧
      ∀ n', normalize n.render = .ok n' → n' = n := by
  obtain ⟨f, hparse, rfl⟩ := exists_ofFormula_of_normalize h
  have hn : (NormalForm.ofFormula f).Proper :=
    NormalForm.proper_ofFormula fun g hg => canonical_of_parse (hparse.trans (congrArg _ hg))
  generalize NormalForm.ofFormula f = n at hn
  -- the second run reads the formula of the normal form, so this is all it can give
  have hreread : parse n.render = .ok n.toFormula := NormalForm.parse_render hn
  have hsame : ∀ n', normalize n.render = .ok n' → n' = n := by
    intro n' hn'
    obtain ⟨f', hf', rfl⟩ := exists_ofFormula_of_normalize hn'
    obtain rfl : n.toFormula = f' := Except.ok.inj (hreread.symm.trans hf')
    exact NormalForm.ofFormula_toFormula hn
  refine ⟨?_, hsame⟩
  rw [← NormalForm.rereadTexts_toFormula_iff hn]
  constructor
  · intro hok
    obtain ⟨f', hf', hbare⟩ := (normalize_isOk_iff_rereadTexts n.render).1 ⟨n, hok⟩
    obtain rfl : n.toFormula = f' := Except.ok.inj (hreread.symm.trans hf')
    exact hbare
  · intro hbare
    have hok := normalize_eq_ok hreread hbare
    rwa [NormalForm.ofFormula_toFormula hn] at hok

theorem normalize_render_nestedChoice :
    normalize (render nestedChoice) = .ok nestedChoiceForm ∧
      normalize nestedChoiceForm.render = .ok nestedChoiceForm := by
  refine ⟨normalize_nestedChoice, (normalize_render_iff normalize_nestedChoice).1.2 ?_⟩
  have htext : cleanup (outside .square (cleanup (render (or [cost (leaf ['M']), leaf ['O']]))))
      = ['O'] := by
    cbv
  intro g hg
  obtain rfl := List.mem_singleton.1 hg
  rw [htext]
  rintro ⟨b, hb⟩
  exact absurd hb.length_le (by simp)

/-- Four choices that cost; the last stands in parentheses, for the groups behind it. -/
def costlyChoice : Formula :=
  optional (and [or [cost (leaf ['A']), cost (leaf ['B']), cost (leaf ['C']),
    and [and [cost (leaf ['D']), optional (leaf ['X'])], optional (leaf ['Y'])]], leaf ['E']])

/-- In the first run the last `or` has empty parentheses behind it, and goes in a later
round.  The text of the normal form is without them, and in the second run a bare `or` is
left. -/
theorem normalize_costlyChoice :
    let n : NormalForm := ⟨none, [⟨and [or [cost (leaf ['A']), cost (leaf ['B']),
      cost (leaf ['C']), cost (leaf ['D'])], leaf ['E']], some (leaf ['E'])⟩]⟩
    normalize (render costlyChoice) = .ok n ∧
      normalize n.render = .error (.unexpected "(or) & E".toList (some ['o', 'r'])) := by
  intro n
  refine ⟨?_, ?_⟩
  · cbv
  · cbv

end LinkGrammar.Formula
