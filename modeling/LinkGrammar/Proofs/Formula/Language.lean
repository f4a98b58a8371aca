/-
LinkGrammar/Proofs/Formula/Language.lean

The language of a formula: the connector lists that it admits.

A connector list is a word over connectors, so a set of them is a language.  For languages `&` is
concatenation, `or` is union, and what stands for nothing is the language of the empty word.  A
phrase of the grammar has a language in which everything written down counts; the formula that is
read from it leaves out what stands for nothing, and does not make optional what is optional
already.

Main result: this does not change the language.
-/
import Mathlib.Computability.Language
import LinkGrammar.Formula.Expansion
import LinkGrammar.Proofs.Formula.Phrase

namespace LinkGrammar.Formula

open Phrase

/-- The disjuncts of a formula, as a language over connectors. -/
def language (f : Formula) : Language Connector := {d | d ∈ f.disjuncts}

/-- What stands for nothing admits the empty list only. -/
def language? : Option Formula → Language Connector
  | none => 1
  | some f => f.language

theorem mem_language {f : Formula} {d : Disjunct} : d ∈ f.language ↔ d ∈ f.disjuncts := Iff.rfl

/-! ### The languages of formulas -/

theorem language_leaf (n : Connector) : (leaf n).language = {[n]} := by
  ext d
  rw [mem_language, disjuncts]
  exact List.mem_singleton

theorem language_cost (f : Formula) : (cost f).language = f.language := by
  ext d
  rw [mem_language, disjuncts, mem_language]

/-- What is optional adds the choice of nothing. -/
theorem language_optional (f : Formula) : (optional f).language = 1 + f.language := by
  ext d
  rw [mem_language, disjuncts, List.mem_cons, Language.mem_add, Language.mem_one, mem_language]

theorem language_and_nil : (and []).language = 1 := by
  ext d
  rw [mem_language, disjuncts, disjunctsOfAll, Language.mem_one, List.mem_singleton]

/-- One word of the first operand, and behind it one of each other. -/
theorem language_and_cons (f : Formula) (fs : List Formula) :
    (and (f :: fs)).language = f.language * (and fs).language := by
  ext d
  rw [mem_language, disjuncts, disjunctsOfAll, Language.mem_mul, product, List.mem_flatMap]
  simp only [List.mem_map, mem_language, disjuncts]

theorem language_or_nil : (or []).language = 0 := by
  ext d
  rw [mem_language, disjuncts, disjunctsOfAny]
  exact iff_of_false List.not_mem_nil (Language.notMem_zero d)

/-- A word of the first operand, or of one of the others. -/
theorem language_or_cons (f : Formula) (fs : List Formula) :
    (or (f :: fs)).language = f.language + (or fs).language := by
  ext d
  rw [mem_language, disjuncts, disjunctsOfAny, List.mem_append, Language.mem_add, mem_language,
    mem_language, disjuncts]

/-- What is optional already, at once or inside a cost group, is so only once. -/
theorem language_orAbsent (f : Formula) : f.orAbsent.language = 1 + f.language := by
  unfold orAbsent
  split
  · next f => rw [language_optional, ← add_assoc, add_idem]
  · next f =>
    rw [language_optional, language_cost, language_cost, language_optional, ← add_assoc, add_idem]
  · exact language_optional _

/-! ### The languages of parts put together -/

/-- What a bracket makes of the language of its contents. -/
def Bracket.meaning : Bracket → Language Connector → Language Connector
  | round, l => l
  | square, l => l
  | curly, l => 1 + l

/-- Brackets mean for the language what they make of the tree. -/
theorem language?_wrap (b : Bracket) (inner : Option Formula) :
    language? (b.wrap inner) = b.meaning (language? inner) := by
  rcases inner with - | f
  · cases b with
    | round => rfl
    | square => rfl
    | curly => exact (add_idem 1).symm
  · cases b with
    | round => rfl
    | square => exact language_cost f
    | curly => exact language_orAbsent f

/-- A part that stands for nothing is neutral among parts that are all taken. -/
theorem language?_conjunction (parts : List (Option Formula)) :
    language? (conjunction parts) = (parts.map language?).prod := by
  -- no operand, one, and more of them are joined in different ways
  have hjoined : ∀ fs : List Formula, language? (joined and fs) = (and fs).language := by
    rintro (- | ⟨f, - | ⟨g, fs⟩⟩)
    · exact language_and_nil.symm
    · rw [language_and_cons, language_and_nil, mul_one]
      rfl
    · rfl
  rw [conjunction_eq, hjoined]
  induction parts with
  | nil => exact language_and_nil
  | cons part parts ih =>
    rw [List.map_cons, List.prod_cons, ← ih]
    rcases part with - | f
    · exact (one_mul _).symm
    · exact language_and_cons f _

/-- What stands for nothing among parts, and the parts that do not. -/
theorem sum_map_language? (parts : List (Option Formula)) :
    (parts.map language?).sum
      = (if parts.any Option.isNone then 1 else 0) + (or (parts.filterMap id)).language := by
  induction parts with
  | nil =>
    rw [List.filterMap_nil, language_or_nil]
    exact (add_zero _).symm
  | cons part parts ih =>
    rw [List.map_cons, List.sum_cons, ih]
    rcases part with - | f
    · -- one more that stands for nothing does not add to the others
      show 1 + ((if parts.any Option.isNone then 1 else 0) + _) = 1 + _
      split
      · rw [← add_assoc, add_idem]
        rfl
      · rw [zero_add]
        rfl
    · show f.language + _ = (if parts.any Option.isNone then 1 else 0)
        + (or (f :: parts.filterMap id)).language
      rw [language_or_cons, add_left_comm]

/-- Among parts of which one is taken, those that stand for nothing make the whole optional. -/
theorem language?_disjunction {parts : List (Option Formula)} (hne : parts ≠ []) :
    language? (disjunction parts) = (parts.map language?).sum := by
  have hjoined : ∀ fs : List Formula, fs ≠ [] →
      language? (joined or fs) = (or fs).language := by
    rintro (- | ⟨f, - | ⟨g, fs⟩⟩) hfs
    · exact absurd rfl hfs
    · rw [language_or_cons, language_or_nil, add_zero]
      rfl
    · rfl
  rw [disjunction_eq, sum_map_language?]
  by_cases hnil : parts.filterMap id = []
  · -- nothing but parts that stand for nothing
    have hany : parts.any Option.isNone = true := by
      rcases parts with - | ⟨- | f, parts⟩
      · exact absurd rfl hne
      · rfl
      · cases hnil
    rw [if_pos hany, if_pos hany, hnil, language_or_nil, add_zero]
    rfl
  · split
    · exact (language?_wrap .curly _).trans (congrArg (1 + ·) (hjoined _ hnil))
    · rw [zero_add]
      exact hjoined _ hnil

/-! ### The languages of phrases -/

namespace Phrase

mutual

/-- What a part admits: a name itself, a group what its brackets make of the body. -/
def Part.language : Part → Language Connector
  | .name text => {[text]}
  | .group b body => b.meaning body.language
  | .weighted body _ _ => Bracket.square.meaning body.language

/-- Brackets with nothing in them stand for nothing. -/
def Body.language : Body → Language Connector
  | .empty => 1
  | .choice c => c.language

/-- What a sequence admits: one word of each part, one behind the other. -/
def Sequence.language : Sequence → Language Connector
  | .one p => p.language
  | .and s p => s.language * p.language

/-- What a choice admits: a word of any of its sequences. -/
def Choice.language : Choice → Language Connector
  | .one s => s.language
  | .or c s => c.language + s.language

end

theorem Choice.operands_ne_nil (c : Choice) : c.operands ≠ [] := by
  cases c <;> simp [Choice.operands]

mutual

/-- The formula of a part has the language of the part. -/
theorem Part.language?_formula? : (p : Part) → language? p.formula? = p.language
  | .name text => language_leaf text
  | .group b body => by
    rw [Part.formula?, language?_wrap, body.language?_formula?, Part.language]
  | .weighted body _ _ => by
    rw [Part.formula?, language?_wrap, body.language?_formula?, Part.language]

/-- The tree of a body has the language of the body. -/
theorem Body.language?_formula? : (body : Body) → language? body.formula? = body.language
  | .empty => rfl
  | .choice c => by
    rw [Body.formula?, language?_disjunction c.operands_ne_nil, c.sum_language?, Body.language]

/-- The operands of a sequence have its language when they are all taken. -/
theorem Sequence.prod_language? : (s : Sequence) → (s.operands.map language?).prod = s.language
  | .one p => by
    rw [Sequence.operands, List.map_singleton, List.prod_singleton, p.language?_formula?,
      Sequence.language]
  | .and s p => by
    rw [Sequence.operands, List.map_append, List.prod_append, s.prod_language?,
      List.map_singleton, List.prod_singleton, p.language?_formula?, Sequence.language]

/-- The operands of a choice have its language when one of them is taken. -/
theorem Choice.sum_language? : (c : Choice) → (c.operands.map language?).sum = c.language
  | .one s => by
    rw [Choice.operands, List.map_singleton, List.sum_singleton, language?_conjunction,
      s.prod_language?, Choice.language]
  | .or c s => by
    rw [Choice.operands, List.map_append, List.sum_append, c.sum_language?,
      List.map_singleton, List.sum_singleton, language?_conjunction, s.prod_language?,
      Choice.language]

end

end Phrase

/-! ### What is read -/

/-- **Leaving out what stands for nothing keeps the meaning.**  A text that is read has a phrase,
and its formula admits the connector lists of the phrase, in which all that stands for nothing is
written down. -/
theorem language?_of_parse {t : Text} {f : Option Formula} (h : parse t = .ok f) :
    (∃ body : Body, SplitsInto t body.lexemes) ∧
      ∀ body : Body, SplitsInto t body.lexemes → language? f = body.language := by
  constructor
  · obtain ⟨body, hlexemes, -⟩ := parse_eq_ok_iff_phrase.1 h
    exact ⟨body, splitsInto_iff.2 hlexemes.symm⟩
  · intro body hbody
    have hread : parse t = .ok body.formula? :=
      parse_eq_ok_iff_phrase.2 ⟨body, (splitsInto_iff.1 hbody).symm, rfl⟩
    obtain rfl : f = body.formula? := Except.ok.inj (h.symm.trans hread)
    exact body.language?_formula?

/-- A choice with nothing in it, in a cost group with a weight, next to nothing, all optional. -/
theorem language?_of_parse_nested :
    let t : Text := "{[{A} or ()]2 & ()}".toList
    let f : Formula := optional (cost (leaf ['A']))
    parse t = .ok (some f) ∧ f.language = 1 + ((1 + {[['A']]}) + 1) * 1 := by
  intro t f
  have hparse : parse t = .ok (some f) := by decide +kernel
  let choice : Choice :=
    .or (.one (.one (.group .curly (.choice (.one (.one (.name ['A'])))))))
      (.one (.group .round .empty))
  let body : Body := .choice <| .one <| .one <| .group .curly <| .choice <| .one <|
    .and (.one (.weighted (.choice choice) ['2'] (isWeight_iff.1 (by decide))))
      (.group .round .empty)
  have hsplit : SplitsInto t body.lexemes := splitsInto_iff.2 (by decide +kernel)
  exact ⟨hparse, (language?_of_parse hparse).2 body hsplit⟩

end LinkGrammar.Formula
