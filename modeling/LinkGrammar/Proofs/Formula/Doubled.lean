/-
LinkGrammar/Proofs/Formula/Doubled.lean

Optional groups that are optional already.

What is optional twice is made optional once when it is read, and cost brackets may stand in
between.  Reading looks through one of them only.  Behind two or more the inner group stays where
it is, as a group inside another, and the normal form leaves it out.

Main result: braces inside `k` cost brackets inside braces are no different from the outer braces
alone exactly if `k` is at most one; from two on all that the braces hold is lost
(`normalize_doubled_iff`).
-/
import LinkGrammar.Proofs.Formula.Clean
import LinkGrammar.Proofs.Formula.Idempotence
import LinkGrammar.Proofs.Formula.Phrase

namespace LinkGrammar.Formula

/-! ### Reading brackets around a text -/

/-- The text between brackets. -/
def Bracket.around (b : Bracket) (t : Text) : Text := b.opener :: t ++ [b.closer]

/-- The text in `k` cost brackets, all of it optional. -/
def costlyOption (k : Nat) (t : Text) : Text := Bracket.curly.around (Bracket.square.around^[k] t)

section Reading

variable {t : Text} {p : Option Formula} (h : parse t = .ok p)
include h

/-- Brackets around a text are read as brackets around its formula. -/
theorem parse_around (b : Bracket) : parse (b.around t) = .ok (b.wrap p) := by
  obtain ⟨body, hlexemes, rfl⟩ := parse_eq_ok_iff_phrase.1 h
  refine parse_eq_ok_iff_phrase.2 ⟨.choice (.one (.one (.group b body))), ?_, ?_⟩
  · show Lexeme.opening b :: (body.lexemes ++ [.closing b]) = lexemes (b.opener :: t ++ [b.closer])
    rw [lexemes_bracketed, hlexemes]
    rfl
  · show disjunction [conjunction [b.wrap body.formula?]] = b.wrap body.formula?
    cases b.wrap body.formula? <;> rfl

theorem parse_iterate_around (k : Nat) :
    parse (Bracket.square.around^[k] t) = .ok (p.map cost^[k]) := by
  induction k with
  | zero =>
    show parse t = .ok (p.map id)
    rw [Option.map_id]
    exact h
  | succ k ih =>
    rw [Function.iterate_succ_apply', parse_around ih]
    show Except.ok ((p.map cost^[k]).map cost) = _
    rw [Option.map_map, Function.iterate_succ']

theorem parse_costlyOption (k : Nat) :
    parse (costlyOption k t) = .ok (p.map fun f => (cost^[k] f).orAbsent) := by
  unfold costlyOption
  rw [parse_around (parse_iterate_around h k)]
  show Except.ok ((p.map cost^[k]).map orAbsent) = _
  rw [Option.map_map]
  rfl

/-- The normal form of a text is that of the formula that it is read as. -/
theorem normalize_congr {t' : Text} (h' : parse t' = .ok p) : normalize t = normalize t' := by
  unfold normalize canonicalText
  rw [h, h']

end Reading

/-! ### Formulas in cost brackets -/

theorem render_iterate_cost (k : Nat) (f : Formula) :
    render (cost^[k] f) = Bracket.square.around^[k] (render f) := by
  have hone : Function.Semiconj render cost Bracket.square.around := by
    intro f
    rw [render]
    rfl
  exact hone.iterate_right k f

theorem Rest.cost {f : Formula} (h : Rest .curly f) : Rest .curly (cost f) :=
  ⟨h.canonical, by decide, h.lacks⟩

theorem Rest.iterate_cost {f : Formula} (h : Rest .curly f) (k : Nat) :
    Rest .curly (Formula.cost^[k] f) :=
  Function.Iterate.rec (Rest .curly) h (fun _ => Rest.cost) k

/-- Two cost brackets hide what they hold. -/
theorem orAbsent_iterate_cost (k : Nat) (f : Formula) :
    (cost^[k + 2] f).orAbsent = optional (cost^[k + 2] f) := by
  rw [Function.iterate_succ_apply', Function.iterate_succ_apply']
  rfl

/-- What is optional goes, whatever it costs. -/
theorem without_iterate_cost_optional (k : Nat) (f : Formula) :
    without .curly (cost^[k] (optional f)) = none := by
  refine Function.Iterate.rec (fun g => without .curly g = none) ?_ (fun g hg => ?_) k
  · rw [without, if_pos rfl]
  · rw [without, if_neg (by decide), hg]
    rfl

/-! ### What stands outside -/

theorem outside_around {b : Bracket} {u : Text} (h : Balanced b u) :
    outside b (b.around u) = [] := by
  have hnil := outside_region_append h []
  rwa [List.append_nil] at hnil

/-- Brackets of another kind stay. -/
theorem outside_iterate_around_append {u : Text} (h : ∀ t, outside .curly (u ++ t) = outside .curly t)
    (k : Nat) (t : Text) :
    outside .curly (Bracket.square.around^[k] u ++ t)
      = Bracket.square.around^[k] [] ++ outside .curly t := by
  induction k generalizing t with
  | zero => exact h t
  | succ k ih =>
    have hopen : Bracket.curly.opener ∉ [Bracket.square.opener] := by decide
    have hclose : Bracket.curly.opener ∉ [Bracket.square.closer] := by decide
    have htext : ∀ v : Text, Bracket.square.around v ++ t
        = [Bracket.square.opener] ++ (v ++ ([Bracket.square.closer] ++ t)) := by
      intro v
      unfold Bracket.around
      simp
    rw [Function.iterate_succ_apply', Function.iterate_succ_apply', htext,
      outside_append_of_not_mem hopen, ih, outside_append_of_not_mem hclose]
    unfold Bracket.around
    simp

/-- Of a group in cost brackets only these are left outside. -/
theorem outside_render_iterate_cost {f : Formula} (h : Canonical f) (k : Nat) :
    outside .curly (render (cost^[k] (optional f))) = Bracket.square.around^[k] [] := by
  have hbalanced : Balanced .curly (render f) := (compositional_balanced .curly).render f h
  have hgroup : ∀ t, outside .curly (render (optional f) ++ t) = outside .curly t := by
    intro t
    rw [render]
    exact outside_region_append hbalanced t
  have houtside := outside_iterate_around_append hgroup k []
  rw [List.append_nil, ← render_iterate_cost] at houtside
  rw [houtside]
  exact List.append_nil _

/-! ### What is read again -/

theorem not_hasBareOr_of_not_mem {t : Text} (h : 'o' ∉ t) : ¬HasBareOr t := by
  rintro ⟨b, hb⟩
  exact h (hb.subset (by simp))

theorem not_mem_cleanup {t : Text} (h : 'o' ∉ t) : 'o' ∉ cleanup t := by
  intro hmem
  rcases mem_of_mem_cleanup hmem with hmem | hspace
  · exact h hmem
  · exact absurd hspace (by decide)

theorem not_mem_iterate_around (k : Nat) : 'o' ∉ Bracket.square.around^[k] [] := by
  refine Function.Iterate.rec (fun t : Text => 'o' ∉ t) List.not_mem_nil (fun t ht => ?_) k
  unfold Bracket.around
  simpa [Bracket.opener, Bracket.closer] using ht

/-- Where an optional group is doubled, nothing but brackets is read again. -/
theorem not_hasBareOr_of_mem_rereadGroup_doubled {f : Formula} (h : Canonical f) (k : Nat) :
    ∀ s ∈ rereadGroup (render (cost^[k] (optional f))), ¬HasBareOr s := by
  have hbody : 'o' ∉ cleanup (Bracket.square.around^[k] []) :=
    not_mem_cleanup (not_mem_iterate_around k)
  unfold rereadGroup
  rw [outside_render_iterate_cost h, List.forall_mem_cons, List.forall_mem_singleton]
  refine ⟨not_hasBareOr_of_not_mem hbody, not_hasBareOr_of_not_mem (not_mem_cleanup ?_)⟩
  exact fun hmem => hbody (outsideFrom_subset _ _ _ _ hmem)

/-- A body in cost brackets is read again as it is, and nothing is left outside the brackets. -/
theorem not_hasBareOr_of_mem_rereadGroup_cost {f : Formula} (h : Rest .curly f) :
    ∀ s ∈ rereadGroup (render (cost f)), ¬HasBareOr s := by
  have hcost : Rest .curly (cost f) := h.cost
  have hsolid := (orderly_render hcost.canonical).solid
  have hbare := (mendable_render hcost.canonical).not_hasBareOr_cleanup hsolid
  -- the first text read again is the body itself, the second what the cost bracket leaves of it
  have houtside : outside .square (render (cost f)) = [] := by
    rw [render]
    exact outside_around ((compositional_balanced .square).render f h.canonical)
  unfold rereadGroup
  rw [outside_of_not_mem (b := .curly) (curly_not_mem_render hcost), List.forall_mem_cons,
    List.forall_mem_singleton]
  refine ⟨hbare, ?_⟩
  rw [cleanup_render hcost.canonical, houtside]
  exact not_hasBareOr_of_blanks (Blanks.cleanup_outside blanks_nil .curly)

/-- The normal form of an optional formula. -/
theorem normalize_of_parse_optional {t : Text} {g : Formula} (h : parse t = .ok (some (optional g)))
    (hbare : ∀ s ∈ rereadGroup (render g), ¬HasBareOr s) :
    normalize t = .ok ⟨none, (OptionalGroup.ofFormula? g).toList⟩ := by
  have hg : Canonical g := (canonical_of_parse h).1
  -- the braces hold the whole text, so nothing is required
  have hrequired : ¬HasBareOr (cleanup (outside .curly (render (optional g)))) := by
    have houtside : outside .curly (render (optional g)) = [] := by
      rw [render]
      exact outside_around ((compositional_balanced .curly).render g hg)
    rw [houtside]
    exact not_hasBareOr_of_blanks (Blanks.cleanup_outside blanks_nil .curly)
  have hgroups : outerOptionals (optional g) = [g] := by rw [outerOptionals]
  have hreread : ∀ s ∈ rereadTexts (some (optional g)), ¬HasBareOr s := by
    refine List.forall_mem_cons.2 ⟨hrequired, ?_⟩
    rw [hgroups, List.flatMap_singleton]
    exact hbare
  rw [normalize_eq_ok h hreread]
  have hwithout : without .curly (optional g) = none := by rw [without, if_pos rfl]
  unfold NormalForm.ofFormula
  rw [Option.bind_some, hwithout, Option.map_some, Option.getD_some, hgroups]
  rcases e : OptionalGroup.ofFormula? g with - | group
  · rw [List.filterMap_cons_none e]
    rfl
  · rw [List.filterMap_cons_some e]
    rfl

/-! ### Doubled groups -/

/-- Under one cost bracket at most, braces twice are braces once. -/
theorem normalize_doubled_of_le_one {f : Text} {t : Formula} (hf : parse f = .ok (some t))
    (ht : Lacks .curly t) {k : Nat} (hk : k ≤ 1) :
    normalize (costlyOption k (Bracket.curly.around f)) = normalize (costlyOption k f) := by
  have hrest : Rest .curly t := ⟨canonical_of_parse hf, ht⟩
  have hone := orAbsent_eq_optional hrest.canonical_optional.2
  have hdoubled := parse_costlyOption (parse_around hf .curly) k
  refine normalize_congr (hdoubled.trans (congrArg Except.ok ?_)) (parse_costlyOption hf k)
  show some (cost^[k] t.orAbsent).orAbsent = some (cost^[k] t).orAbsent
  rw [hone]
  rcases Nat.le_one_iff_eq_zero_or_eq_one.1 hk with rfl | rfl
  · exact congrArg some hone.symm
  · have hcost := orAbsent_eq_optional hrest.cost.canonical_optional.2
    exact congrArg some hcost.symm

/-- Under two or more, braces twice leave nothing. -/
theorem normalize_doubled_of_two_le {f : Text} {t : Formula} (hf : parse f = .ok (some t))
    (ht : Lacks .curly t) (k : Nat) :
    normalize (costlyOption (k + 2) (Bracket.curly.around f)) = .ok ⟨none, []⟩ ∧
      normalize (costlyOption (k + 2) f) = .ok ⟨none, [⟨cost^[k + 2] t, none⟩]⟩ := by
  have hrest : Rest .curly t := ⟨canonical_of_parse hf, ht⟩
  constructor
  · have hread := parse_costlyOption (parse_around hf .curly) (k + 2)
    change parse _ = .ok (some (cost^[k + 2] t.orAbsent).orAbsent) at hread
    rw [orAbsent_iterate_cost, orAbsent_eq_optional hrest.canonical_optional.2] at hread
    rw [normalize_of_parse_optional hread
      (not_hasBareOr_of_mem_rereadGroup_doubled hrest.canonical (k + 2))]
    unfold OptionalGroup.ofFormula?
    rw [without_iterate_cost_optional]
    rfl
  · have hread := parse_costlyOption hf (k + 2)
    change parse _ = .ok (some (cost^[k + 2] t).orAbsent) at hread
    rw [orAbsent_iterate_cost] at hread
    have hbody := hrest.iterate_cost (k + 2)
    rw [Function.iterate_succ_apply'] at hread hbody ⊢
    rw [normalize_of_parse_optional hread
      (not_hasBareOr_of_mem_rereadGroup_cost (hrest.iterate_cost (k + 1)))]
    unfold OptionalGroup.ofFormula?
    rw [without_eq_some _ hbody.canonical hbody.lacks, Option.map_some, without, if_pos rfl]
    rfl

/-- **Optional groups inside cost brackets inside an optional group.**  Let a text be read as a
formula without optional groups.  In braces, `k` cost brackets and braces it has the same normal
form as in the cost brackets and one pair of braces exactly if there is at most one cost bracket,
or nothing in the text.  With more of them the normal form is empty, though it has the whole group
where the inner braces are left out. -/
theorem normalize_doubled_iff {f : Text} {p : Option Formula} (hf : parse f = .ok p)
    (hp : ∀ t ∈ p, Lacks .curly t) (k : Nat) :
    (normalize (costlyOption k (Bracket.curly.around f)) = normalize (costlyOption k f) ↔
        k ≤ 1 ∨ p = none) ∧
      (2 ≤ k → normalize (costlyOption k (Bracket.curly.around f)) = .ok ⟨none, []⟩ ∧
        normalize (costlyOption k f) = .ok ⟨none, (p.map fun t => ⟨cost^[k] t, none⟩).toList⟩) := by
  rcases p with - | t
  · have hnone := normalize_of_parse_eq_none (parse_costlyOption hf k)
    have hnone' := normalize_of_parse_eq_none (parse_costlyOption (parse_around hf .curly) k)
    exact ⟨iff_of_true (hnone'.trans hnone.symm) (.inr rfl), fun _ => ⟨hnone', hnone⟩⟩
  have ht : Lacks .curly t := hp t rfl
  rcases Nat.lt_or_ge k 2 with hk | hk
  · have hle : k ≤ 1 := Nat.le_of_lt_succ hk
    exact ⟨iff_of_true (normalize_doubled_of_le_one hf ht hle) (.inl hle),
      fun htwo => absurd hk (Nat.not_lt_of_le htwo)⟩
  · obtain ⟨m, rfl⟩ := Nat.exists_eq_add_of_le' hk
    have hforms := normalize_doubled_of_two_le hf ht m
    refine ⟨iff_of_false (fun hsame => ?_) ?_, fun _ => hforms⟩
    · rw [hforms.1, hforms.2] at hsame
      cases hsame
    · rintro (hle | hnone)
      · omega
      · cases hnone

theorem normalize_doubled_iff_two :
    parse ['A'] = .ok (some (leaf ['A'])) ∧ (∀ t ∈ some (leaf ['A']), Lacks .curly t) ∧
      (normalize (costlyOption 2 (Bracket.curly.around ['A'])) = normalize (costlyOption 2 ['A']) ↔
        2 ≤ 1 ∨ some (leaf ['A']) = none) ∧
      (2 ≤ 2 → normalize (costlyOption 2 (Bracket.curly.around ['A'])) = .ok ⟨none, []⟩ ∧
        normalize (costlyOption 2 ['A']) = .ok ⟨none, [⟨cost (cost (leaf ['A'])), none⟩]⟩) := by
  have hread : parse ['A'] = .ok (some (leaf ['A'])) := by decide +kernel
  have hlacks : ∀ t ∈ some (leaf ['A']), Lacks .curly t := by
    rintro _ ⟨⟩
    trivial
  exact ⟨hread, hlacks, normalize_doubled_iff hread hlacks 2⟩

/-- With two cost brackets in between, the connector is lost. -/
theorem normalize_twoBrackets :
    ¬∀ (k : Nat) (f : Text) (t : Formula), parse f = .ok (some t) → Lacks .curly t →
      normalize (costlyOption k (Bracket.curly.around f)) = normalize (costlyOption k f) := by
  intro h
  have hsame := h 2 ['A'] (leaf ['A']) (by decide +kernel) trivial
  have hdoubled : normalize (costlyOption 2 (Bracket.curly.around ['A'])) = .ok ⟨none, []⟩ := by
    cbv
  have hplain : normalize (costlyOption 2 ['A'])
      = .ok ⟨none, [⟨cost (cost (leaf ['A'])), none⟩]⟩ := by
    cbv
  rw [hdoubled, hplain] at hsame
  cases hsame

end LinkGrammar.Formula
