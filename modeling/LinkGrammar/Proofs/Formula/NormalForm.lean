/-
LinkGrammar/Proofs/Formula/NormalForm.lean

When a formula has a normal form.

Normalizing reads text again that it has cut groups out of: the text of the formula
without its optional groups, and for each outermost optional group its body without the
groups in it, once with and once without what costs (`rereadTexts`).  All of these are
mendable, so cleanup leaves text that can be read, but for one kind of damage: in a pair
of brackets where four choices or more are gone, an `or` can stay behind.

Main result: a formula that can be read has a normal form, and states a rule, exactly when
no text that is read again keeps such an `or`; a formula that cannot be read gives the
error of reading it.  Where there is a normal form, it is the one that deleting groups from
the tree gives (`normalize_eq_ok`).
-/
import Mathlib
import LinkGrammar.Lexicon.Rule
import LinkGrammar.Proofs.Formula.Rendered
import LinkGrammar.Proofs.Formula.Settled

namespace LinkGrammar.Formula

/-- What is read again of the contents of a group: the body, and the body without what
costs. -/
def rereadGroup (inner : Text) : List Text :=
  let body := cleanup (outside .curly inner)
  [body, cleanup (outside .square body)]

/-- What is read again of a formula: the required part, and each outermost group. -/
def rereadTexts : Option Formula → List Text
  | none => []
  | some f =>
    cleanup (outside .curly (render f)) ::
      (outerOptionals f).flatMap fun body => rereadGroup (render body)

/-! ### Reading again -/

/-- What can be read after cleanup. -/
theorem Mendable.parse_cleanup_isOk_iff {t : Text} {f : Option Formula} (h : Mendable t f)
    (hcurly : '{' ∉ t) :
    (∃ g, parse (Formula.cleanup t) = .ok g) ↔ ¬HasBareOr (Formula.cleanup t) := by
  constructor
  · rintro ⟨g, hg⟩ hbare
    obtain ⟨e, he⟩ := parse_of_hasBareOr hbare
    cases hg.symm.trans he
  · exact fun hbare => ⟨f, (h.parse_cleanup hcurly hbare).1⟩

theorem Mendable.withoutGroups {b : Bracket} (hb : b ≠ .round) {t : Text} {f : Option Formula}
    (h : Mendable t f) :
    Formula.withoutGroups b.opener b.closer t = .ok (Formula.cleanup (outside b t)) := by
  unfold Formula.withoutGroups
  rw [(h.withoutRegions hb).1]
  rfl

theorem not_hasBareOr_of_blanks {t : Text} (h : Blanks t) : ¬HasBareOr t := by
  rintro ⟨b, hb⟩
  have ho : isBlank 'o' = true := h 'o' (hb.subset (by simp))
  exact absurd ho (by decide)

theorem Blanks.cleanup_outside {t : Text} (h : Blanks t) (b : Bracket) :
    Blanks (cleanup (outside b t)) := by
  intro c hc
  rcases mem_of_mem_cleanup hc with hc | rfl
  · exact h c (outsideFrom_subset _ _ _ _ hc)
  · decide

/-- The group with the given contents, if anything is left without the optional groups in
it. -/
def OptionalGroup.ofFormula? (inner : Formula) : Option OptionalGroup :=
  (without .curly inner).map fun body => ⟨body, without .square body⟩

section Group

variable {t : Text} {inner : Formula} (h : Mendable t (some inner))
include h

/-- What is left of the contents of a group. -/
theorem Mendable.outside_curly :
    '{' ∉ outside .curly t ∧ Mendable (outside .curly t) (without .curly inner) :=
  (h.withoutRegions (b := .curly) (by decide)).2

/-- A group is made by two readings. -/
theorem ofText?_eq : OptionalGroup.ofText? t = do
    let body := Formula.cleanup (outside .curly t)
    match ← parse body with
    | none => return none
    | some f => return some ⟨f, ← parse (Formula.cleanup (outside .square body))⟩ := by
  have hbody : withoutGroups '{' '}' t = .ok (cleanup (outside .curly t)) :=
    h.withoutGroups (b := .curly) (by decide)
  have hrest := h.outside_curly.2.cleanup.withoutGroups (b := .square) (by decide)
  unfold OptionalGroup.ofText?
  rw [hbody]
  dsimp only [bind, Except.bind]
  generalize cleanup (outside .curly t) = body at *
  rcases parse body with e | (- | f)
  · rfl
  · rfl
  · show (withoutGroups Bracket.square.opener Bracket.square.closer body).bind _ = _
    rw [hrest]
    rfl

/-- What is left without what costs, too. -/
theorem Mendable.outside_square :
    '{' ∉ outside .square (Formula.cleanup (outside .curly t)) ∧
      Mendable (outside .square (Formula.cleanup (outside .curly t)))
        ((without .curly inner).bind (without .square)) := by
  obtain ⟨hcurly, hout⟩ := h.outside_curly
  refine ⟨fun hmem => ?_, (hout.cleanup.withoutRegions (b := .square) (by decide)).2.2⟩
  exact (mem_of_mem_cleanup (outsideFrom_subset _ _ _ _ hmem)).elim hcurly (by decide)

/-- Where no `or` is left in what is read again, the group is that of the tree. -/
theorem ofText?_eq_ok (hbare : ∀ s ∈ rereadGroup t, ¬HasBareOr s) :
    OptionalGroup.ofText? t = .ok (OptionalGroup.ofFormula? inner) := by
  obtain ⟨hbody, hrest⟩ := List.forall_mem_cons.1 hbare
  obtain ⟨hcurly, hout⟩ := h.outside_curly
  obtain ⟨hcurly', hout'⟩ := h.outside_square
  have hparse := (hout.parse_cleanup hcurly hbody).1
  have hparse' := (hout'.parse_cleanup hcurly' (hrest _ (by simp))).1
  rw [ofText?_eq h]
  unfold OptionalGroup.ofFormula?
  dsimp only
  rw [hparse, hparse']
  cases without .curly inner <;> rfl

/-- A group can be made of contents exactly when no `or` is left in what is read again. -/
theorem ofText?_isOk_iff :
    (∃ g, OptionalGroup.ofText? t = .ok g) ↔ ∀ s ∈ rereadGroup t, ¬HasBareOr s := by
  refine ⟨?_, fun hbare => ⟨_, ofText?_eq_ok h hbare⟩⟩
  rintro ⟨g, hg⟩
  rw [ofText?_eq h] at hg
  obtain ⟨hcurly, hout⟩ := h.outside_curly
  unfold rereadGroup
  dsimp only at hg ⊢
  rw [List.forall_mem_cons, List.forall_mem_singleton]
  have hbody : ¬HasBareOr (cleanup (outside .curly t)) := by
    intro hbare
    obtain ⟨e, he⟩ := parse_of_hasBareOr hbare
    rw [he] at hg
    cases hg
  refine ⟨hbody, fun hbare => ?_⟩
  obtain ⟨hparse, hblanks⟩ := hout.parse_cleanup hcurly hbody
  obtain ⟨e, he⟩ := parse_of_hasBareOr hbare
  rcases hleft : without .curly inner with - | body
  · -- nothing is left, so there is nothing to be read a second time
    exact not_hasBareOr_of_blanks ((hblanks hleft).cleanup_outside .square) hbare
  · rw [hparse, hleft, he] at hg
    cases hg

end Group

/-! ### Splitting -/

/-- Splitting a mendable text makes a group of what stands in each of its regions, and
leaves what stands outside. -/
theorem splitGroups_eq {t : Text} {f : Option Formula} (h : Mendable t f) :
    splitGroups t = ((insides .curly t).mapM OptionalGroup.ofText?).map fun groups =>
      (groups.filterMap id, outside .curly t) := by
  have hcurly : Bracket.curly ≠ .round := by decide
  fun_induction splitGroups t generalizing f with
  | case1 t e he =>
    rcases h.cutRegion hcurly with ⟨-, hcut⟩ | ⟨cut, hcut, -⟩ <;> cases he.symm.trans hcut
  | case2 t he =>
    rcases h.cutRegion hcurly with ⟨ht, -⟩ | ⟨cut, hcut, -⟩
    · rw [insides_of_not_mem ht, outside_of_not_mem ht]
      rfl
    · cases he.symm.trans hcut
  | case3 t cut he hlt ih =>
    rcases h.cutRegion hcurly with ⟨-, hcut⟩ | ⟨cut', hcut, hout, -, g, hrest, -⟩
    · cases he.symm.trans hcut
    obtain rfl : cut = cut' := Option.some.inj (Except.ok.inj (he.symm.trans hcut))
    rw [insides_of_cutRegion hcut, hout, List.mapM_cons, ih hrest]
    rcases OptionalGroup.ofText? cut.inner with e | group?
    · rfl
    rcases (insides .curly cut.rest).mapM OptionalGroup.ofText? with e | groups
    · rfl
    · cases group? <;> rfl

/-- All of a list can be made exactly when each of its members can. -/
theorem mapM_isOk_iff {α β ε : Type} {make : α → Except ε β} {l : List α} :
    (∃ r, l.mapM make = .ok r) ↔ ∀ a ∈ l, ∃ b, make a = .ok b := by
  induction l with
  | nil => exact ⟨fun _ => by simp, fun _ => ⟨[], rfl⟩⟩
  | cons a l ih =>
    rw [List.mapM_cons, List.forall_mem_cons, ← ih]
    rcases make a with e | b
    · simp [bind, Except.bind]
    rcases l.mapM make with e | bs
    · simp [bind, Except.bind]
    · simp [bind, Except.bind, pure, Except.pure]

theorem mapM_eq_ok {α β ε : Type} {make : α → Except ε β} {g : α → β} {l : List α}
    (h : ∀ a ∈ l, make a = .ok (g a)) : l.mapM make = .ok (l.map g) := by
  induction l with
  | nil => rfl
  | cons a l ih =>
    obtain ⟨ha, hl⟩ := List.forall_mem_cons.1 h
    rw [List.mapM_cons, ha, ih hl]
    rfl

theorem splitGroups_render {f : Formula} (h : Canonical f) :
    splitGroups (render f) = ((outerOptionals f).mapM fun body =>
      OptionalGroup.ofText? (render body)).map fun groups =>
        (groups.filterMap id, outside .curly (render f)) := by
  rw [splitGroups_eq (mendable_render h), insides_render h, List.mapM_map]
  rfl

/-! ### Normal forms -/

mutual

theorem canonical_of_mem_outerOptionals : (f : Formula) → Canonical f →
    ∀ g ∈ outerOptionals f, Canonical g
  | leaf n, _ => by simp [outerOptionals]
  | and fs, h => by
    rw [outerOptionals]
    exact canonical_of_mem_outerOptionalsAll fs h.2
  | or fs, h => by
    rw [outerOptionals]
    exact canonical_of_mem_outerOptionalsAll fs h.2
  | optional f, h => by
    rw [outerOptionals]
    simpa using h.1
  | cost f, h => by
    rw [outerOptionals]
    exact canonical_of_mem_outerOptionals f h

theorem canonical_of_mem_outerOptionalsAll : (fs : List Formula) → AllCanonical fs →
    ∀ g ∈ outerOptionalsAll fs, Canonical g
  | [], _ => by simp [outerOptionalsAll]
  | f :: fs, h => by
    rw [outerOptionalsAll]
    exact List.forall_mem_append.2
      ⟨canonical_of_mem_outerOptionals f h.1, canonical_of_mem_outerOptionalsAll fs h.2⟩

end

theorem normalize_of_parse_eq_error {t : Text} {e : FormulaError} (h : parse t = .error e) :
    normalize t = .error e := by
  unfold normalize canonicalText
  rw [h]
  rfl

/-- A formula that says nothing has the empty normal form. -/
theorem normalize_of_parse_eq_none {t : Text} (h : parse t = .ok none) :
    normalize t = .ok ⟨none, []⟩ := by
  unfold normalize canonicalText
  rw [h]
  cbv

/-- The normal form that a tree has, by deleting groups from it. -/
def NormalForm.ofFormula (f : Option Formula) : NormalForm where
  required := f.bind (without .curly)
  optionals := ((f.map outerOptionals).getD []).filterMap OptionalGroup.ofFormula?

/-- The normal form is made by reading each outermost group, and what stands outside. -/
theorem normalize_eq_of_parse {t : Text} {f : Formula} (h : parse t = .ok (some f)) :
    normalize t = do
      let groups ← (outerOptionals f).mapM fun body => OptionalGroup.ofText? (render body)
      return ⟨← parse (cleanup (outside .curly (render f))), groups.filterMap id⟩ := by
  have hcanonical : canonicalText t = .ok (render f) := by
    unfold canonicalText
    rw [h]
    rfl
  unfold normalize
  rw [hcanonical]
  show (splitGroups (render f)).bind _ = _
  rw [splitGroups_render (canonical_of_parse h)]
  rcases (outerOptionals f).mapM fun body => OptionalGroup.ofText? (render body) with e | gs <;>
    rfl

theorem normalize_isOk_of_parse {t : Text} {f : Formula} (h : parse t = .ok (some f)) :
    (∃ n, normalize t = .ok n) ↔ ∀ s ∈ rereadTexts (some f), ¬HasBareOr s := by
  have hf : Canonical f := canonical_of_parse h
  obtain ⟨hcurly, hout⟩ := (mendable_render hf).outside_curly
  have hrequired := hout.parse_cleanup_isOk_iff hcurly
  have hgroups : (∃ gs, ((outerOptionals f).mapM fun body =>
      OptionalGroup.ofText? (render body)) = .ok gs) ↔
        ∀ body ∈ outerOptionals f, ∀ s ∈ rereadGroup (render body), ¬HasBareOr s := by
    rw [mapM_isOk_iff]
    refine forall₂_congr fun body hbody => ?_
    exact ofText?_isOk_iff (mendable_render (canonical_of_mem_outerOptionals f hf body hbody))
  unfold rereadTexts
  rw [List.forall_mem_cons, List.forall_mem_flatMap, ← hgroups, ← hrequired,
    normalize_eq_of_parse h]
  -- both sides ask whether the same two readings succeed
  rcases (outerOptionals f).mapM fun body => OptionalGroup.ofText? (render body) with e | gs
  · simp [bind, Except.bind]
  rcases e : parse (cleanup (outside .curly (render f))) with e' | required
  · simp [bind, Except.bind]
  · simp [bind, Except.bind, pure, Except.pure]

/-- Where no `or` is left in what is read again, the normal form is that of the tree. -/
theorem normalize_eq_ok {t : Text} {f : Option Formula} (h : parse t = .ok f)
    (hbare : ∀ s ∈ rereadTexts f, ¬HasBareOr s) : normalize t = .ok (.ofFormula f) := by
  rcases f with - | f
  · exact normalize_of_parse_eq_none h
  have hf : Canonical f := canonical_of_parse h
  obtain ⟨hrequired, hgroups⟩ := List.forall_mem_cons.1 hbare
  rw [List.forall_mem_flatMap] at hgroups
  obtain ⟨hcurly, hout⟩ := (mendable_render hf).outside_curly
  have hparse := (hout.parse_cleanup hcurly hrequired).1
  have hmapM : ((outerOptionals f).mapM fun body => OptionalGroup.ofText? (render body))
      = .ok ((outerOptionals f).map OptionalGroup.ofFormula?) := by
    refine mapM_eq_ok fun body hbody => ?_
    have hcanonical := canonical_of_mem_outerOptionals f hf body hbody
    exact ofText?_eq_ok (mendable_render hcanonical) (hgroups body hbody)
  rw [normalize_eq_of_parse h, hmapM, hparse]
  show Except.ok (NormalForm.mk _ (((outerOptionals f).map _).filterMap id)) = _
  rw [List.filterMap_map]
  rfl

theorem normalize_isOk_iff_rereadTexts (t : Text) :
    (∃ n, normalize t = .ok n) ↔ ∃ f, parse t = .ok f ∧ ∀ s ∈ rereadTexts f, ¬HasBareOr s := by
  rcases h : parse t with e | (- | f)
  · rw [normalize_of_parse_eq_error h]
    simp
  · rw [normalize_of_parse_eq_none h]
    simp [rereadTexts]
  · rw [normalize_isOk_of_parse h]
    simp

theorem ofText_isOk_iff_normalize (t : Text) :
    (∃ r, Rule.ofText t = .ok r) ↔ ∃ n, normalize t = .ok n := by
  unfold Rule.ofText
  rcases h : normalize t with e | n
  · simp [bind, Except.bind]
  obtain ⟨f, hf, -⟩ := (normalize_isOk_iff_rereadTexts t).1 ⟨n, h⟩
  simp [bind, Except.bind, pure, Except.pure, hf]

/-- **When a formula has a normal form.**  A formula that cannot be read gives the error of
reading it.  One that can be read has a normal form, and states a rule, exactly when
cleanup leaves no `or` alone between brackets in any of the texts that are read again. -/
theorem normalize_isOk_iff (t : Text) :
    (∀ e, parse t = .error e → normalize t = .error e ∧ Rule.ofText t = .error e) ∧
      ((∃ n, normalize t = .ok n) ↔
        ∃ f, parse t = .ok f ∧ ∀ s ∈ rereadTexts f, ¬HasBareOr s) ∧
      ((∃ r, Rule.ofText t = .ok r) ↔
        ∃ f, parse t = .ok f ∧ ∀ s ∈ rereadTexts f, ¬HasBareOr s) := by
  refine ⟨fun e he => ?_, normalize_isOk_iff_rereadTexts t, ?_⟩
  · have herror := normalize_of_parse_eq_error he
    refine ⟨herror, ?_⟩
    unfold Rule.ofText
    rw [herror]
    rfl
  · rw [ofText_isOk_iff_normalize]
    exact normalize_isOk_iff_rereadTexts t

/-- Four choices, all of which are optional. -/
def fourChoices : Formula :=
  and [or [optional (leaf ['A']), optional (leaf ['B']), optional (leaf ['C']),
    optional (leaf ['D'])], leaf ['E']]

/-- Without its groups the choice is a bare `or`, so a formula that can be read has no
normal form. -/
theorem normalize_fourChoices :
    parse (render fourChoices) = .ok (some fourChoices) ∧
      normalize (render fourChoices)
        = .error (.unexpected "(or) & E".toList (some ['o', 'r'])) := by
  refine ⟨parse_render (by decide), ?_⟩
  cbv

end LinkGrammar.Formula
