/-
LinkGrammar/Proofs/Link/Minimal.lean

What links can be seen in single connectors.

There are two ways to ask whether two words link.  The full check takes the parts of the normal
forms and compares lists of connectors, the minimal check takes the disjuncts of the formulas as
they are written and compares single connectors.  The two read different things off a rule: the
normal form is made of text that was cut, mended and read again.

What both have in common are the connectors that the formula mentions.  A part of the normal form
offers no others (`Rule.MadeOf.mentioned_of_mem_parts`), and unless disjuncts are dropped for their
number each of them occurs in some disjunct (`Rule.MadeOf.exists_disjunct_of_mentioned`).  Lists
that fit have first connectors that fit, so what the full check finds the minimal check finds too.
It asks for less: words need not agree, and the rest of a disjunct is not looked at.
-/
import Mathlib
import LinkGrammar.Proofs.Link.Attempt

namespace LinkGrammar

/-! ### Connectors in parts and in disjuncts -/

/-- How many disjuncts the formula of a rule has, when none is dropped. -/
def Rule.disjunctCount (rule : Rule) : Nat :=
  match Formula.parse rule.formula with
  | .ok (some f) => f.disjuncts.length
  | _ => 0

/-- All parts in which links are looked for, each with its alternatives. -/
def Shape.parts (s : Shape) : List (List Disjunct) :=
  s.required.map (fun a => [a]) ++ s.groups ++ s.uncosted

namespace Pass

variable {p : Pass} {s : Shape}

theorem leftParts_subset : p.leftParts s ⊆ s.parts := by
  intro as has
  cases p with
  | required | requiredToGroup =>
    exact List.mem_append_left _ (List.mem_append_left _ has)
  | groups => exact List.mem_append_left _ (List.mem_append_right _ has)
  | groupToRequired => exact List.mem_append_right _ has

theorem rightParts_subset : p.rightParts s ⊆ s.parts := by
  intro as has
  cases p with
  | required | groupToRequired =>
    exact List.mem_append_left _ (List.mem_append_left _ has)
  | groups => exact List.mem_append_left _ (List.mem_append_right _ has)
  | requiredToGroup => exact List.mem_append_right _ has

end Pass

/-- The connectors of an optional group, with and without what costs, are connectors of the
formula. -/
theorem Formula.leaves_group_subset {f : Option Formula} {group : OptionalGroup}
    (h : group ∈ (NormalForm.ofFormula f).optionals) :
    ∃ g ∈ f, leaves group.body ⊆ leaves g ∧ ∀ u ∈ group.uncosted, leaves u ⊆ leaves g := by
  obtain ⟨inner, hinner, hgroup⟩ := List.mem_filterMap.1 h
  obtain ⟨body, hbody, rfl⟩ := Option.map_eq_some_iff.1 hgroup
  rcases f with - | f
  · cases hinner
  · have hsubset : leaves body ⊆ leaves f :=
      List.Subset.trans (leaves_without_subset inner body hbody)
        (leaves_outerOptionals_subset f inner hinner)
    refine ⟨f, rfl, hsubset, fun u hu => ?_⟩
    exact List.Subset.trans (leaves_without_subset body u hu) hsubset

namespace Rule.MadeOf

variable {rule : Rule} {f : Option Formula} {c : Connector}

/-- A part offers connectors that the formula mentions. -/
theorem mentioned_of_mem_parts (h : rule.MadeOf f) {as : List Disjunct}
    (has : as ∈ rule.shape.parts) {a : Disjunct} (ha : a ∈ as) (hc : c ∈ a) :
    ∃ g ∈ f, c ∈ g.leaves := by
  rw [h.shape] at has
  rcases List.mem_append.1 has with has | has
  · rcases List.mem_append.1 has with has | has
    · obtain ⟨a', ha', rfl⟩ := List.mem_map.1 has
      obtain rfl := List.mem_singleton.1 ha
      obtain ⟨rest, hrest, hleaf⟩ := mem_leaves_of_mem_alternatives ha' hc
      obtain ⟨g, hg, hwithout⟩ := Option.bind_eq_some_iff.1 hrest
      exact ⟨g, hg, Formula.leaves_without_subset g rest hwithout hleaf⟩
    · obtain ⟨group, hgroup, rfl⟩ := List.mem_map.1 has
      obtain ⟨g, hg, hbody, -⟩ := Formula.leaves_group_subset hgroup
      obtain ⟨body, heq, hleaf⟩ := mem_leaves_of_mem_alternatives ha hc
      obtain rfl : group.body = body := Option.some.inj heq
      exact ⟨g, hg, hbody hleaf⟩
  · obtain ⟨group, hgroup, rfl⟩ := List.mem_map.1 has
    obtain ⟨g, hg, -, huncosted⟩ := Formula.leaves_group_subset hgroup
    obtain ⟨u, hu, hleaf⟩ := mem_leaves_of_mem_alternatives ha hc
    exact ⟨g, hg, huncosted u hu hleaf⟩

/-- What the formula mentions some disjunct uses, if none is dropped. -/
theorem exists_disjunct_of_mentioned (h : rule.MadeOf f)
    (hcount : rule.disjunctCount ≤ Formula.maxDisjuncts) (hc : ∃ g ∈ f, c ∈ g.leaves) :
    ∃ d ∈ rule.disjuncts, c ∈ d := by
  obtain ⟨g, rfl, hleaf⟩ := hc
  have hlen : g.disjuncts.length ≤ Formula.maxDisjuncts := by
    unfold Rule.disjunctCount at hcount
    rwa [h.parse] at hcount
  obtain ⟨d, hd, hmem⟩ := (Formula.mem_leaves_iff (Formula.canonical_of_parse h.parse)).1 hleaf
  refine ⟨d, ?_, hmem⟩
  rw [h.disjuncts, List.mem_filter]
  constructor
  · show d ∈ g.expand.disjuncts
    rw [Formula.disjuncts_expand, List.take_of_length_le hlen]
    exact hd
  · exact decide_eq_true (List.ne_nil_of_mem hmem)

end Rule.MadeOf

/-! ### First connectors -/

theorem Disjunct.mem_pointing {p : Polarity} {d : Disjunct} {c : Connector} :
    c ∈ pointing p d ↔ c ∈ d ∧ Connector.polarity? c = some p := by
  rw [pointing, List.mem_filter, decide_eq_true_eq]

/-- Alternatives that link have connectors that fit. -/
theorem Disjunct.LinksTo.exists_fits {a b : Disjunct} (h : a.LinksTo b) :
    ∃ c ∈ a.rightward, ∃ d ∈ b.leftward, Connector.fits (Connector.flip c) d = true := by
  have hincoming : ∀ d ∈ b.leftward, d ≠ [] := fun d hd =>
    Connector.ne_nil_of_polarity? (mem_pointing.1 hd).2
  obtain ⟨_, hflip, d, hd, hfits⟩ := h.compatible.exists_fits hincoming
  obtain ⟨c, hc, rfl⟩ := List.mem_map.1 hflip
  exact ⟨c, hc, d, hd, hfits⟩

namespace Grammar

variable {g : Grammar} {left right : Text}

/-- When the minimal check finds a link. -/
theorem connectsMin_eq_true_iff : g.connectsMin left right = .ok true ↔
    g.rules left ≠ [] ∧ g.rules right ≠ [] ∧
      ∃ l ∈ g.rules left, ∃ a ∈ l.disjuncts, ∃ r ∈ g.rules right, ∃ b ∈ r.disjuncts,
        ∃ c ∈ a.rightward, ∃ d ∈ b.leftward, Connector.fits (Connector.flip c) d = true := by
  constructor
  · intro h
    obtain ⟨leftRules, hleft, h⟩ := bind_eq_ok.1 h
    obtain ⟨rightRules, hright, h⟩ := bind_eq_ok.1 h
    obtain ⟨rfl, hleftNe⟩ := knownRules_eq_ok_iff.1 hleft
    obtain ⟨rfl, hrightNe⟩ := knownRules_eq_ok_iff.1 hright
    have hany := Except.ok.inj h
    simp only [List.any_eq_true, List.mem_flatMap] at hany
    obtain ⟨a, ⟨l, hl, ha⟩, b, ⟨r, hr, hb⟩, hfits⟩ := hany
    exact ⟨hleftNe, hrightNe, l, hl, a, ha, r, hr, b, hb, hfits⟩
  · rintro ⟨hleft, hright, l, hl, a, ha, r, hr, b, hb, hfits⟩
    refine bind_eq_ok.2 ⟨_, knownRules_eq_ok_iff.2 ⟨rfl, hleft⟩, ?_⟩
    refine bind_eq_ok.2 ⟨_, knownRules_eq_ok_iff.2 ⟨rfl, hright⟩, ?_⟩
    apply congrArg Except.ok
    simp only [List.any_eq_true, List.mem_flatMap]
    exact ⟨a, ⟨l, hl, ha⟩, b, ⟨r, hr, hb⟩, hfits⟩

/-- A link is one between known words, and between parts of their rules. -/
theorem linkable_of_connects (h : g.connects left right = .ok true) :
    g.rules left ≠ [] ∧ g.rules right ≠ [] ∧
      ∃ l ∈ g.rules left, ∃ r ∈ g.rules right, Linkable l.shape r.shape := by
  obtain ⟨found, hlink, hsome⟩ := map_eq_ok.1 h
  obtain ⟨_, hleft, hrest⟩ := bind_eq_ok.1 hlink
  obtain ⟨_, hright, -⟩ := bind_eq_ok.1 hrest
  obtain ⟨-, hleftNe⟩ := knownRules_eq_ok_iff.1 hleft
  obtain ⟨-, hrightNe⟩ := knownRules_eq_ok_iff.1 hright
  refine ⟨hleftNe, hrightNe, exists_succeeds_iff.1 ?_⟩
  rcases firstLink?_cases hleftNe hrightNe with ⟨-, t, hfirst, -⟩ | ⟨-, hnone⟩
  · exact ⟨t, hfirst.succeeds⟩
  · obtain rfl : found = none := Except.ok.inj (hlink.symm.trans hnone)
    cases hsome

/-- **The full check implies the minimal one.**  Where formulas state all rules, and those of two
words have no more disjuncts than are kept, words that link are also found to link by their single
connectors. -/
theorem connectsMin_of_connects (hg : g.Stated)
    (hleft : ∀ rule ∈ g.rules left, rule.disjunctCount ≤ Formula.maxDisjuncts)
    (hright : ∀ rule ∈ g.rules right, rule.disjunctCount ≤ Formula.maxDisjuncts)
    (h : g.connects left right = .ok true) : g.connectsMin left right = .ok true := by
  obtain ⟨hleftNe, hrightNe, l, hl, r, hr, p, as, has, bs, hbs, a, ha, b, hb, hlinks⟩ :=
    linkable_of_connects h
  obtain ⟨c, hc, d, hd, hfits⟩ := hlinks.exists_fits
  obtain ⟨hca, hcRight⟩ := Disjunct.mem_pointing.1 hc
  obtain ⟨hdb, hdLeft⟩ := Disjunct.mem_pointing.1 hd
  -- both connectors are mentioned, so each stands in a disjunct of its rule
  obtain ⟨_, hstated⟩ := hg left l hl
  obtain ⟨_, hlMade⟩ := exists_madeOf_of_ofText hstated
  obtain ⟨a', ha', hca'⟩ := hlMade.exists_disjunct_of_mentioned (hleft l hl)
    (hlMade.mentioned_of_mem_parts (Pass.leftParts_subset has) ha hca)
  obtain ⟨_, hstated'⟩ := hg right r hr
  obtain ⟨_, hrMade⟩ := exists_madeOf_of_ofText hstated'
  obtain ⟨b', hb', hdb'⟩ := hrMade.exists_disjunct_of_mentioned (hright r hr)
    (hrMade.mentioned_of_mem_parts (Pass.rightParts_subset hbs) hb hdb)
  exact connectsMin_eq_true_iff.2 ⟨hleftNe, hrightNe, l, hl, a', ha', r, hr, b', hb',
    c, Disjunct.mem_pointing.2 ⟨hca', hcRight⟩, d, Disjunct.mem_pointing.2 ⟨hdb', hdLeft⟩, hfits⟩

/-- The object of `takes` is optional, and one choice of it costs. -/
def takesText : Text := "takes: S- & {[Q+] or O+}; lunch: O-;".toList

/-- The lexicon of `takesText`. -/
def takesLexicon : Lexicon := (Lexicon.ofDictionary takesText).toOption.getD .empty

theorem disjunctCount_takes : ∀ w ∈ ["takes".toList, "lunch".toList],
    ∀ rule ∈ takesLexicon.grammar.rules w, rule.disjunctCount ≤ Formula.maxDisjuncts := by
  have hall : (["takes".toList, "lunch".toList].all fun w =>
      (takesLexicon.grammar.rules w).all fun rule =>
        decide (rule.disjunctCount ≤ Formula.maxDisjuncts)) = true := by
    cbv
  simpa only [List.all_eq_true, decide_eq_true_eq] using hall

/-- The link is one of a group without what costs. -/
theorem connectsMin_of_connects_takes :
    (takesLexicon.grammar.Stated ∧
      (∀ w ∈ ["takes".toList, "lunch".toList], ∀ rule ∈ takesLexicon.grammar.rules w,
        rule.disjunctCount ≤ Formula.maxDisjuncts) ∧
      takesLexicon.grammar.connects "takes".toList "lunch".toList = .ok true) ∧
      takesLexicon.grammar.connectsMin "takes".toList "lunch".toList = .ok true := by
  have hstated : takesLexicon.grammar.Stated :=
    Lexicon.stated_getD fun _ => Lexicon.stated_ofDictionary
  have hconnects : takesLexicon.grammar.connects "takes".toList "lunch".toList = .ok true := by
    cbv
  exact ⟨⟨hstated, disjunctCount_takes, hconnects⟩,
    connectsMin_of_connects hstated (disjunctCount_takes _ (by simp))
      (disjunctCount_takes _ (by simp)) hconnects⟩

end Grammar

end LinkGrammar
