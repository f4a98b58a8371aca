/-
LinkGrammar/Proofs/Formula/Substitution.lean

Phrases put in the place of names.

A phrase in parentheses is a part, as a name is.  So in a phrase any name can give way to a phrase
in parentheses, and the operators and brackets around it go on joining the same parts.  On tokens
this is a replacement of each name by itself (`Body.lexemes_subst`); only the weights, which are
names too, have to stay.

Main result: the language of the new phrase is that of the old one, with every connector replaced
by the lists of what is put in its place (`Body.language_subst`).
-/
import LinkGrammar.Proofs.Formula.Language

namespace LinkGrammar.Formula

/-! ### Substitution in languages -/

/-- The lists that come from those of `l` when each connector gives way to one of the lists that
it stands for, at every place on its own. -/
def substitute (stands : Connector → Language Connector) (l : Language Connector) :
    Language Connector := {d | ∃ e ∈ l, d ∈ (e.map stands).prod}

section

variable (stands : Connector → Language Connector)

/-- A word of the substituted language is a word of the language, connector by connector. -/
theorem mem_substitute {l : Language Connector} {d : Disjunct} :
    d ∈ substitute stands l ↔ ∃ e ∈ l, d ∈ (e.map stands).prod := Iff.rfl

theorem substitute_one : substitute stands 1 = 1 := by
  ext d
  rw [mem_substitute]
  constructor
  · rintro ⟨e, he, hd⟩
    obtain rfl := (Language.mem_one e).1 he
    exact hd
  · exact fun hd => ⟨[], (Language.mem_one []).2 rfl, hd⟩

/-- For a connector stands its language. -/
theorem substitute_singleton (c : Connector) : substitute stands {[c]} = stands c := by
  ext d
  rw [mem_substitute]
  constructor
  · rintro ⟨e, rfl, hd⟩
    rwa [List.map_singleton, List.prod_singleton] at hd
  · intro hd
    refine ⟨[c], rfl, ?_⟩
    rwa [List.map_singleton, List.prod_singleton]

/-- A choice is substituted in each alternative. -/
theorem substitute_add (l m : Language Connector) :
    substitute stands (l + m) = substitute stands l + substitute stands m := by
  ext d
  simp only [mem_substitute, Language.mem_add, or_and_right, exists_or]

/-- The lists for a list that is put together are put together from those for its two halves. -/
theorem substitute_mul (l m : Language Connector) :
    substitute stands (l * m) = substitute stands l * substitute stands m := by
  ext d
  rw [mem_substitute, Language.mem_mul]
  constructor
  · rintro ⟨_, ⟨a, ha, b, hb, rfl⟩, hd⟩
    rw [List.map_append, List.prod_append] at hd
    obtain ⟨x, hx, y, hy, rfl⟩ := Language.mem_mul.1 hd
    exact ⟨x, ⟨a, ha, hx⟩, y, ⟨b, hb, hy⟩, rfl⟩
  · rintro ⟨x, ⟨a, ha, hx⟩, y, ⟨b, hb, hy⟩, rfl⟩
    refine ⟨a ++ b, Language.mem_mul.2 ⟨a, ha, b, hb, rfl⟩, ?_⟩
    rw [List.map_append, List.prod_append]
    exact Language.mem_mul.2 ⟨x, hx, y, hy, rfl⟩

/-- What a bracket means does not depend on the connectors. -/
theorem substitute_meaning (b : Bracket) (l : Language Connector) :
    substitute stands (b.meaning l) = b.meaning (substitute stands l) := by
  cases b with
  | round => rfl
  | square => rfl
  | curly =>
    show substitute stands (1 + l) = 1 + substitute stands l
    rw [substitute_add, substitute_one]

end

/-! ### Substitution in phrases -/

namespace Phrase

variable (σ : Text → Option Body)

/-- What takes the place of a name: the phrase for it, in parentheses, or the name itself. -/
def Part.inPlaceOf (n : Text) : Part :=
  match σ n with
  | none => .name n
  | some body => .group .round body

mutual

/-- A part with every name replaced by what stands in its place. -/
def Part.subst : Part → Part
  | .name n => .inPlaceOf σ n
  | .group b body => .group b body.subst
  | .weighted body weight isNumber => .weighted body.subst weight isNumber

/-- The same between two brackets. -/
def Body.subst : Body → Body
  | .empty => .empty
  | .choice c => .choice c.subst

/-- The same in each part of a sequence. -/
def Sequence.subst : Sequence → Sequence
  | .one p => .one p.subst
  | .and s p => .and s.subst p.subst

/-- The same in each sequence of a choice. -/
def Choice.subst : Choice → Choice
  | .one s => .one s.subst
  | .or c s => .or c.subst s.subst

end

/-- What takes the place of a token. -/
def replace : Lexeme → List Lexeme
  | .name n => (Part.inPlaceOf σ n).lexemes
  | l => [l]

variable {σ}

mutual

/-- Numbers keep their places, for one that is a weight is no part. -/
theorem Part.lexemes_subst (hσ : ∀ n, IsNumber n → σ n = none) : (p : Part) →
    (p.subst σ).lexemes = p.lexemes.flatMap (replace σ)
  | .name n => (List.flatMap_singleton (replace σ) (.name n)).symm
  | .group b body => by
    rw [Part.subst, Part.lexemes, Part.lexemes, body.lexemes_subst hσ, List.flatMap_cons,
      List.flatMap_append]
    rfl
  | .weighted body weight isNumber => by
    have hplace : Part.inPlaceOf σ weight = .name weight := by
      unfold Part.inPlaceOf
      rw [hσ weight isNumber]
    have hweight : replace σ (.name weight) = [.name weight] := congrArg Part.lexemes hplace
    rw [Part.subst, Part.lexemes, Part.lexemes, body.lexemes_subst hσ, List.flatMap_cons,
      List.flatMap_append, List.flatMap_cons, List.flatMap_singleton, hweight]
    rfl

theorem Body.lexemes_subst (hσ : ∀ n, IsNumber n → σ n = none) : (body : Body) →
    (body.subst σ).lexemes = body.lexemes.flatMap (replace σ)
  | .empty => rfl
  | .choice c => c.lexemes_subst hσ

theorem Sequence.lexemes_subst (hσ : ∀ n, IsNumber n → σ n = none) : (s : Sequence) →
    (s.subst σ).lexemes = s.lexemes.flatMap (replace σ)
  | .one p => p.lexemes_subst hσ
  | .and s p => by
    rw [Sequence.subst, Sequence.lexemes, Sequence.lexemes, s.lexemes_subst hσ,
      p.lexemes_subst hσ, List.flatMap_append, List.flatMap_cons]
    rfl

theorem Choice.lexemes_subst (hσ : ∀ n, IsNumber n → σ n = none) : (c : Choice) →
    (c.subst σ).lexemes = c.lexemes.flatMap (replace σ)
  | .one s => s.lexemes_subst hσ
  | .or c s => by
    rw [Choice.subst, Choice.lexemes, Choice.lexemes, c.lexemes_subst hσ, s.lexemes_subst hσ,
      List.flatMap_append, List.flatMap_cons]
    rfl

end

variable {stands : Connector → Language Connector}

mutual

/-- **Putting phrases in the place of names puts their languages in the place of connectors.** -/
theorem Part.language_subst : (p : Part) →
    (∀ n, .name n ∈ p.lexemes → (Part.inPlaceOf σ n).language = stands n) →
      (p.subst σ).language = substitute stands p.language
  | .name n, h => by
    rw [Part.subst, h n (List.mem_singleton.2 rfl), Part.language, substitute_singleton]
  | .group b body, h => by
    have hbody := body.language_subst fun n hn => h n (by simp [Part.lexemes, hn])
    rw [Part.subst, Part.language, Part.language, hbody, substitute_meaning]
  | .weighted body weight isNumber, h => by
    have hbody := body.language_subst fun n hn => h n (by simp [Part.lexemes, hn])
    rw [Part.subst, Part.language, Part.language, hbody, substitute_meaning]

/-- The language of a body is substituted. -/
theorem Body.language_subst : (body : Body) →
    (∀ n, .name n ∈ body.lexemes → (Part.inPlaceOf σ n).language = stands n) →
      (body.subst σ).language = substitute stands body.language
  | .empty, _ => (substitute_one stands).symm
  | .choice c, h => c.language_subst h

theorem Sequence.language_subst : (s : Sequence) →
    (∀ n, .name n ∈ s.lexemes → (Part.inPlaceOf σ n).language = stands n) →
      (s.subst σ).language = substitute stands s.language
  | .one p, h => p.language_subst h
  | .and s p, h => by
    have hs := s.language_subst fun n hn => h n (by simp [Sequence.lexemes, hn])
    have hp := p.language_subst fun n hn => h n (by simp [Sequence.lexemes, hn])
    rw [Sequence.subst, Sequence.language, Sequence.language, hs, hp, substitute_mul]

theorem Choice.language_subst : (c : Choice) →
    (∀ n, .name n ∈ c.lexemes → (Part.inPlaceOf σ n).language = stands n) →
      (c.subst σ).language = substitute stands c.language
  | .one s, h => s.language_subst h
  | .or c s, h => by
    have hc := c.language_subst fun n hn => h n (by simp [Choice.lexemes, hn])
    have hs := s.language_subst fun n hn => h n (by simp [Choice.lexemes, hn])
    rw [Choice.subst, Choice.language, Choice.language, hc, hs, substitute_add]

end

end Phrase

end LinkGrammar.Formula
