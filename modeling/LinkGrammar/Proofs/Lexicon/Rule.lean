/-
LinkGrammar/Proofs/Lexicon/Rule.lean

Connectors of rules.

A rule that a formula states is made of one tree (`Rule.MadeOf`), and offers only connectors that
the tree mentions.  They are names (`isName_of_mem_rule`), and a name by itself states a rule
(`exists_ofText_of_isName`).  So each connector of a rule can be
laid over a grammar as a word of its own.  The grammars for which this holds are those whose
rules are all stated by formulas, and all lexicons built from formulas are of this kind.
-/
import Mathlib
import LinkGrammar.Dictionary.Load
import LinkGrammar.Lexicon.Grammar
import LinkGrammar.Proofs.Formula.Leaves
import LinkGrammar.Proofs.Formula.Parts
import LinkGrammar.Proofs.Formula.Phrase
import LinkGrammar.Proofs.Formula.Skeleton
import LinkGrammar.Proofs.Link.Answer

namespace LinkGrammar

namespace Formula

/-! ### A name as a formula -/

theorem curly_not_mem_of_isName {c : Text} (h : IsName c) : '{' ∉ c :=
  curly_not_mem_render (f := leaf c) ⟨h, trivial⟩

/-- A name by itself has a normal form. -/
theorem exists_normalize_of_isName {c : Text} (h : IsName c) : ∃ n, normalize c = .ok n := by
  have hleaf : Canonical (leaf c) := h
  apply (normalize_isOk_iff_rereadTexts c).2
  refine ⟨some (leaf c), parse_render hleaf, ?_⟩
  -- a name has no group, so all that is read again is the name
  have houtside : outside .curly (render (leaf c)) = render (leaf c) :=
    outside_of_not_mem (curly_not_mem_of_isName h)
  intro s hs
  obtain rfl : s = cleanup (render (leaf c)) := by
    rw [rereadTexts, houtside] at hs
    exact List.mem_singleton.1 hs
  exact (mendable_render hleaf).not_hasBareOr_cleanup (orderly_render hleaf).solid

end Formula

open Formula (IsName)

/-- A name by itself states a rule. -/
theorem exists_ofText_of_isName {c : Text} (h : IsName c) : ∃ rule, Rule.ofText c = .ok rule :=
  (Formula.ofText_isOk_iff_normalize c).2 (Formula.exists_normalize_of_isName h)

/-! ### Rules made of a tree -/

/-- Blanks around a formula do not matter. -/
theorem Formula.parse_trim {t : Text} {f : Option Formula} :
    parse (Text.trim t) = .ok f ↔ parse t = .ok f := by
  rw [parse_eq_ok_iff_phrase, parse_eq_ok_iff_phrase, lexemes_trim]

/-- The formula of the rule reads as `f`, and all parts of the rule are worked out from `f`. -/
structure Rule.MadeOf (rule : Rule) (f : Option Formula) : Prop where
  parse : Formula.parse rule.formula = .ok f
  shape : rule.shape = .ofNormalForm (.ofFormula f)
  disjuncts : rule.disjuncts = (alternatives f).filter (· ≠ [])

theorem exists_madeOf_of_ofText {t : Text} {rule : Rule} (h : Rule.ofText t = .ok rule) :
    ∃ f, rule.MadeOf f := by
  obtain ⟨normal, hnormal, h⟩ := bind_eq_ok.1 h
  obtain ⟨tree, htree, h⟩ := bind_eq_ok.1 h
  cases h
  obtain ⟨f, hf, rfl⟩ := Formula.exists_ofFormula_of_normalize hnormal
  obtain rfl : tree = f := Except.ok.inj (htree.symm.trans hf)
  exact ⟨tree, Formula.parse_trim.2 htree, rfl, rfl⟩

/-- What is offered is mentioned. -/
theorem mem_leaves_of_mem_alternatives {f : Option Formula} {d : Disjunct}
    (hd : d ∈ alternatives f) {c : Connector} (hc : c ∈ d) : ∃ g ∈ f, c ∈ g.leaves := by
  rcases f with - | f
  · cases hd
  · have htake : d ∈ f.disjuncts.take Formula.maxDisjuncts := Formula.disjuncts_expand f ▸ hd
    exact ⟨f, rfl, Formula.mem_leaves_of_mem_disjuncts hc f (List.mem_of_mem_take htake)⟩

/-- The connectors of a rule that a formula states are names. -/
theorem isName_of_mem_rule {t : Text} {rule : Rule} (h : Rule.ofText t = .ok rule) {d : Disjunct}
    (hd : d ∈ rule.disjuncts) {c : Connector} (hc : c ∈ d) : IsName c := by
  obtain ⟨f, hrule⟩ := exists_madeOf_of_ofText h
  rw [hrule.disjuncts] at hd
  obtain ⟨g, rfl, hleaf⟩ := mem_leaves_of_mem_alternatives (List.mem_of_mem_filter hd) hc
  exact Formula.isName_of_mem_leaves g (Formula.canonical_of_parse hrule.parse) hleaf

/-! ### Grammars of stated rules -/

/-- Every rule of the grammar is one that a formula states. -/
def Grammar.Stated (g : Grammar) : Prop :=
  ∀ w, ∀ rule ∈ g.rules w, ∃ t, Rule.ofText t = .ok rule

/-- The connectors of a grammar of stated rules are names. -/
theorem Grammar.Stated.isName {g : Grammar} (hg : g.Stated) {w : Text} {rule : Rule}
    (hrule : rule ∈ g.rules w) {d : Disjunct} (hd : d ∈ rule.disjuncts) {c : Connector}
    (hc : c ∈ d) : IsName c := by
  obtain ⟨t, ht⟩ := hg w rule hrule
  exact isName_of_mem_rule ht hd hc

/-- Stated rules for a few words, laid over a grammar of stated rules. -/
theorem Grammar.Stated.overlay {g : Grammar} (hg : g.Stated) {added : List (Text × Rule)}
    (hadded : ∀ p ∈ added, ∃ t, Rule.ofText t = .ok p.2) : (g.overlay added).Stated := by
  intro w rule hrule
  unfold Grammar.overlay at hrule
  dsimp only at hrule
  split at hrule
  · exact hg w rule hrule
  · obtain ⟨p, hp, rfl⟩ := List.mem_map.1 hrule
    exact hadded p (List.mem_of_mem_filter hp)

/-! ### Lexicons -/

namespace Lexicon

variable {l : Lexicon} {word : Text}

theorem stated_empty : Lexicon.empty.grammar.Stated := by
  intro w rule hrule
  cases hrule

/-- A tag changes nothing of the rules. -/
theorem rules_addTag (e : Entry) (tag : Text) : (e.addTag tag).rules = e.rules := by
  unfold Entry.addTag
  split
  · rfl
  · rfl

/-- A rule of a word, after a rule was added to one. -/
theorem mem_rules_insert {w : Text} {added rule : Rule}
    (h : rule ∈ (l.insert word added).grammar.rules w) :
    rule = added ∨ rule ∈ l.grammar.rules w := by
  have hw : rule ∈ ((l.insert word added).entry w).rules := h
  unfold insert at hw
  dsimp only at hw
  by_cases hkey : w = Text.lower (splitSubscript word).1
  · rw [hkey, entry_update_self] at hw
    have hadded : rule ∈ ((l.entry w).addRule added).rules := by
      rw [hkey]
      split at hw
      · exact hw
      · rw [rules_addTag] at hw
        exact hw
    rcases List.mem_append.1 hadded with hold | hnew
    · exact .inr hold
    · exact .inl (List.mem_singleton.1 hnew)
  · rw [entry_update_of_ne hkey] at hw
    exact .inr hw

/-- Adding a stated rule to a lexicon of stated rules. -/
theorem stated_insert {t : Text} {rule : Rule} (hl : l.grammar.Stated)
    (h : Rule.ofText t = .ok rule) : (l.insert word rule).grammar.Stated := by
  intro w r hr
  rcases mem_rules_insert hr with rfl | hr
  · exact ⟨t, h⟩
  · exact hl w r hr

theorem stated_insertFormula {l' : Lexicon} {formula : Text} (hl : l.grammar.Stated)
    (h : l.insertFormula word formula = .ok l') : l'.grammar.Stated := by
  unfold insertFormula at h
  obtain ⟨rule, hrule, rfl⟩ := map_eq_ok.1 h
  exact stated_insert hl hrule

/-- Adding a tag adds no rule. -/
theorem stated_addTag {tag : Text} (hl : l.grammar.Stated) :
    (l.addTag word tag).grammar.Stated := by
  intro w rule hrule
  have hw : rule ∈ ((l.addTag word tag).entry w).rules := hrule
  apply hl w rule
  unfold addTag at hw
  by_cases hkey : w = Text.lower word
  · rw [hkey, entry_update_self, rules_addTag] at hw
    rw [hkey]
    exact hw
  · rw [entry_update_of_ne hkey] at hw
    exact hw

end Lexicon

/-! ### Dictionaries -/

namespace Dictionary.Definitions

variable {d d' : Definitions}

theorem stated_define {line : Nat} {formula : Text} {name : Name}
    (hd : d.lexicon.grammar.Stated)
    (h : d.define line formula (Rule.ofText formula) name = .ok d') :
    d'.lexicon.grammar.Stated := by
  unfold define at h
  split at h
  · cases h
    exact hd
  · cases h
    exact hd
  · cases h
  · split at h
    · next rule hrule =>
      cases h
      exact Lexicon.stated_insert hd hrule
    · cases h

theorem stated_load {s : Statement} (hd : d.lexicon.grammar.Stated) (h : d.load s = .ok d') :
    d'.lexicon.grammar.Stated := by
  unfold load at h
  split at h
  · cases h
  · obtain ⟨formula, -, h⟩ := bind_eq_ok.1 h
    exact foldlM_keeps (fun d => d.lexicon.grammar.Stated) (fun _ _ _ => stated_define) hd h

end Dictionary.Definitions

/-- Where no lexicon comes out, the empty one can stand for it. -/
theorem Lexicon.stated_getD {ε : Type} {x : Except ε Lexicon}
    (h : ∀ l, x = .ok l → l.grammar.Stated) : (x.toOption.getD .empty).grammar.Stated := by
  rcases x with e | l
  · exact stated_empty
  · exact h l rfl

/-- The rules of a lexicon that was read from a dictionary are stated. -/
theorem Lexicon.stated_ofDictionary {t : Text} {l : Lexicon} (h : ofDictionary t = .ok l) :
    l.grammar.Stated := by
  unfold ofDictionary at h
  obtain ⟨d, hd, rfl⟩ := map_eq_ok.1 h
  exact foldlM_keeps (fun d => d.lexicon.grammar.Stated)
    (fun _ _ _ => Dictionary.Definitions.stated_load) stated_empty hd

end LinkGrammar
