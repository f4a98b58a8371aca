/-
LinkGrammar/Proofs/Formula/Phrase.lean

The grammar of formula text, and that the reader follows it.

    choice   := sequence ("or" sequence)*
    sequence := part ("&" part)*
    part     := "(" choice? ")" | "{" choice? "}" | "[" choice? "]" number? | name

A derivation is a tree of phrases: it has the tokens that it derives, and a formula, in which
what stands for nothing is left out.  `parse_eq_ok_iff_phrase` says that reading gives exactly
the formulas of the derivations of a text.

Design.  A starred phrase is taken from the left, a sequence being a part, or a sequence with
`&` and one part more.  The reader meets the parts in this order, so each token that ends a part
makes one phrase out of those before it.
-/
import LinkGrammar.Proofs.Formula.Canonical

namespace LinkGrammar.Formula

/-! ### Tokens of a text -/

/-- How a text comes apart into tokens: blanks stand between them, a bracket or `&` is a token by
itself, and all else comes in runs that are as long as they can be. -/
inductive SplitsInto : Text → List Lexeme → Prop
  | nil : SplitsInto [] []
  | blank {c : Char} {t : Text} {ls : List Lexeme} :
    isBlank c = true → SplitsInto t ls → SplitsInto (c :: t) ls
  | mark {c : Char} {l : Lexeme} {t : Text} {ls : List Lexeme} :
    isBlank c = false → Lexeme.ofChar? c = some l → SplitsInto t ls → SplitsInto (c :: t) (l :: ls)
  | run {r t : Text} {ls : List Lexeme} :
    r ≠ [] → (∀ c ∈ r, isNameChar c = true) → Seam r t → SplitsInto t ls →
      SplitsInto (r ++ t) (.ofRun r :: ls)

/-- A text comes apart in one way only. -/
theorem splitsInto_iff {t : Text} {ls : List Lexeme} : SplitsInto t ls ↔ lexemes t = ls := by
  constructor
  · intro h
    induction h with
    | nil => exact lexemes_nil
    | blank hb _ ih => rw [lexemes_cons_blank hb, ih]
    | mark hb hc _ ih => rw [lexemes_cons_mark hb hc, ih]
    | run hne hr hseam _ ih => rw [lexemes_run_append hne hr hseam, ih]
  · rintro rfl
    induction t using front_cases with
    | nil =>
      rw [lexemes_nil]
      exact .nil
    | blank c t hb ih =>
      rw [lexemes_cons_blank hb]
      exact .blank hb ih
    | mark c l t hb hc ih =>
      rw [lexemes_cons_mark hb hc]
      exact .mark hb hc ih
    | run r t hne hr hseam ih =>
      rw [lexemes_run_append hne hr hseam]
      exact .run hne hr hseam ih

/-! ### Numbers -/

/-- Decimal digits, at least one. -/
def IsDigits (t : Text) : Prop := t ≠ [] ∧ ∀ c ∈ t, isDigit c = true

/-- Digits, and maybe a point with digits behind it. -/
def IsUnsigned (t : Text) : Prop :=
  ∃ whole fraction, t = whole ++ fraction ∧ IsDigits whole ∧
    (fraction = [] ∨ ∃ decimals, fraction = '.' :: decimals ∧ IsDigits decimals)

/-- A number, maybe with a sign. -/
def IsNumber (t : Text) : Prop := IsUnsigned t ∨ ∃ u, t = '-' :: u ∧ IsUnsigned u

theorem not_isUnsigned_minus (t : Text) : ¬IsUnsigned ('-' :: t) := by
  rintro ⟨whole, fraction, h, ⟨hne, hdigits⟩, -⟩
  obtain ⟨c, whole, rfl⟩ := List.exists_cons_of_ne_nil hne
  obtain rfl : '-' = c := (List.cons.inj h).1
  exact absurd (hdigits '-' List.mem_cons_self) (by decide)

/-- Digits end where a point stands. -/
theorem takeWhile_isDigit_append {whole fraction : Text} (hwhole : IsDigits whole)
    (hfraction : ∀ c ∈ fraction.head?, c = '.') :
    (whole ++ fraction).takeWhile isDigit = whole ∧
      (whole ++ fraction).dropWhile isDigit = fraction := by
  have hpoint : isDigit '.' = false := by decide
  rw [List.takeWhile_append_of_pos hwhole.2, List.dropWhile_append_of_pos hwhole.2]
  rcases fraction with - | ⟨c, decimals⟩
  · simp
  · obtain rfl := hfraction c rfl
    simp [hpoint]

/-- A number without its sign: digits, and perhaps a dot and more digits. -/
theorem isUnsigned_iff {t : Text} :
    IsUnsigned t ↔ t.takeWhile isDigit ≠ [] ∧
      (t.dropWhile isDigit = [] ∨
        ∃ decimals, t.dropWhile isDigit = '.' :: decimals ∧ IsDigits decimals) := by
  constructor
  · rintro ⟨whole, fraction, rfl, hwhole, hfraction⟩
    have hhead : ∀ c ∈ fraction.head?, c = '.' := by
      rcases hfraction with rfl | ⟨decimals, rfl, -⟩ <;> simp
    obtain ⟨htake, hdrop⟩ := takeWhile_isDigit_append hwhole hhead
    rw [htake, hdrop]
    exact ⟨hwhole.1, hfraction⟩
  · rintro ⟨hne, hfraction⟩
    exact ⟨t.takeWhile isDigit, t.dropWhile isDigit, List.takeWhile_append_dropWhile.symm,
      ⟨hne, fun c hc => List.mem_takeWhile_imp hc⟩, hfraction⟩

/-- Behind a minus stands a number without a sign. -/
theorem isWeight_minus {u : Text} : isWeight ('-' :: u) = true ↔ IsUnsigned u := by
  simp only [isWeight]
  rw [isUnsigned_iff, Bool.and_eq_true, decide_eq_true_iff]
  apply and_congr_right
  intro _
  split
  · next h => simp [h]
  · next decimals h => simp [h, IsDigits]
  · next hnil hpoint =>
    -- something else than a point stands behind the digits
    apply iff_of_false Bool.false_ne_true
    rintro (h | ⟨decimals, h, -⟩)
    · exact hnil h
    · exact hpoint decimals h

/-- The reader takes numbers for weights. -/
theorem isWeight_iff {t : Text} : isWeight t = true ↔ IsNumber t := by
  by_cases hsign : ∃ u, t = '-' :: u
  · obtain ⟨u, rfl⟩ := hsign
    rw [isWeight_minus]
    constructor
    · exact fun h => .inr ⟨u, rfl, h⟩
    · rintro (h | ⟨v, heq, h⟩)
      · exact absurd h (not_isUnsigned_minus u)
      · obtain rfl : u = v := (List.cons.inj heq).2
        exact h
  · -- without a sign a text is a weight if it is one with a sign
    have hplain : isWeight t = isWeight ('-' :: t) := by
      unfold isWeight
      dsimp only
      split
      · next u => exact absurd ⟨u, rfl⟩ hsign
      · rfl
    rw [hplain, isWeight_minus]
    constructor
    · exact .inl
    · rintro (h | ⟨u, rfl, -⟩)
      · exact h
      · exact absurd ⟨u, rfl⟩ hsign

/-! ### Phrases -/

namespace Phrase

mutual

/-- What `&` joins. -/
inductive Part where
  | name (text : Text)
  | group (bracket : Bracket) (body : Body)
  /-- a cost group with its weight -/
  | weighted (body : Body) (weight : Text) (isNumber : IsNumber weight)

/-- What brackets hold: a choice or nothing. -/
inductive Body where
  | empty
  | choice (c : Choice)

/-- Parts with `&` between them. -/
inductive Sequence where
  | one (p : Part)
  | and (s : Sequence) (p : Part)

/-- Sequences with `or` between them. -/
inductive Choice where
  | one (s : Sequence)
  | or (c : Choice) (s : Sequence)

end

/-! ### The tokens of a phrase -/

mutual

/-- The tokens of a part. -/
def Part.lexemes : Part → List Lexeme
  | .name text => [.name text]
  | .group b body => .opening b :: (body.lexemes ++ [.closing b])
  | .weighted body weight _ =>
    .opening .square :: (body.lexemes ++ [.closing .square, .name weight])

/-- The tokens between two brackets. -/
def Body.lexemes : Body → List Lexeme
  | .empty => []
  | .choice c => c.lexemes

/-- The tokens of a sequence. -/
def Sequence.lexemes : Sequence → List Lexeme
  | .one p => p.lexemes
  | .and s p => s.lexemes ++ .and :: p.lexemes

/-- The tokens of a choice. -/
def Choice.lexemes : Choice → List Lexeme
  | .one s => s.lexemes
  | .or c s => c.lexemes ++ .or :: s.lexemes

end

/-! ### The formula of a phrase -/

mutual

/-- The formula of a part, if it does not stand for nothing. -/
def Part.formula? : Part → Option Formula
  | .name text => some (leaf text)
  | .group b body => b.wrap body.formula?
  | .weighted body _ _ => Bracket.square.wrap body.formula?

/-- What stands between two brackets, as a tree. -/
def Body.formula? : Body → Option Formula
  | .empty => none
  | .choice c => disjunction c.operands

/-- The formulas of the parts. -/
def Sequence.operands : Sequence → List (Option Formula)
  | .one p => [p.formula?]
  | .and s p => s.operands ++ [p.formula?]

/-- The formulas of the sequences. -/
def Choice.operands : Choice → List (Option Formula)
  | .one s => [conjunction s.operands]
  | .or c s => c.operands ++ [conjunction s.operands]

end

end Phrase

open Phrase

/-! ### Reading a phrase -/

namespace Reader

/-- Any tokens that are these lexemes, wherever they stand, take the reader from `r` to `r'`. -/
def Reads (r : Reader) (ls : List Lexeme) (r' : Reader) : Prop :=
  ∀ ts : List Token, ts.map Token.lexeme = ls → ts.foldlM read r = .ok r'

variable {r m r' : Reader} {l : Lexeme} {ls ls' : List Lexeme}

namespace Reads

theorem append (h : r.Reads ls m) (h' : m.Reads ls' r') : r.Reads (ls ++ ls') r' := by
  intro ts hts
  obtain ⟨front, back, rfl, hfront, hback⟩ := List.map_eq_append_iff.1 hts
  rw [List.foldlM_append, h front hfront]
  exact h' back hback

theorem cons (h : ∀ t : Token, t.lexeme = l → ∃ m, r.read t = .ok m ∧ m.Reads ls r') :
    r.Reads (l :: ls) r' := by
  intro ts hts
  obtain ⟨t, ts, rfl, ht, hts⟩ := List.map_eq_cons_iff.1 hts
  obtain ⟨m, hread, hm⟩ := h t ht
  rw [List.foldlM_cons, hread]
  exact hm ts hts

theorem single (h : ∀ t : Token, t.lexeme = l → r.read t = .ok r') : r.Reads [l] r' := by
  refine cons fun t ht => ⟨r', h t ht, ?_⟩
  intro ts hts
  obtain rfl := List.map_eq_nil_iff.1 hts
  rfl

end Reads

end Reader

/-- A level with nothing but the operands of a choice has the value of the choice. -/
theorem Level.value_eq_of_operands {c : Choice} (l : Level)
    (h : l.sequence :: l.sequences = c.operands.reverse ++ []) :
    l.value = (Body.choice c).formula? := by
  unfold Level.value
  rw [h, List.append_nil, List.reverse_reverse]
  rfl

/-- Where a part is expected, the lexemes take the level from `l` to `l'`, and a part is complete
behind them. -/
def Level.FilledBy (l : Level) (ls : List Lexeme) (l' : Level) : Prop :=
  ∀ (e : Expectation) (es : List Enclosure), e.IsPart →
    ∃ e' : Expectation, e'.IsComplete ∧ Reader.Reads ⟨e, l, es⟩ ls ⟨e', l', es⟩

namespace Phrase

open Reader

mutual

/-- Reading a part pushes its formula. -/
theorem Part.fills : (p : Part) → (l : Level) → l.FilledBy p.lexemes (l.push p.formula?)
  | .name text, l, e, es, he =>
    ⟨.operator, .inl rfl, .single fun t ht => read_name he ht⟩
  | .group b body, l, e, es, he =>
    ⟨b.behind, b.behind_isComplete, .cons fun t ht =>
      ⟨_, read_opening he ht, body.reads b t.offset l es⟩⟩
  | .weighted body weight hweight, l, e, es, he => by
    -- behind the closer a weight is expected too, and changes nothing but this
    refine ⟨.operator, .inl rfl, .cons fun t ht => ⟨_, read_opening he ht, ?_⟩⟩
    have hbody := body.reads .square t.offset l es
    have hnumber : Reads ⟨.operatorOrWeight, l.push (Bracket.square.wrap body.formula?), es⟩
        [.name weight] ⟨.operator, l.push (Bracket.square.wrap body.formula?), es⟩ :=
      .single fun t ht => read_weight rfl ht (isWeight_iff.2 hweight)
    simpa [Part.formula?] using hbody.append hnumber

/-- What brackets hold is read up to the closer. -/
theorem Body.reads : (body : Body) → (b : Bracket) → (offset : Nat) → (outer : Level) →
    (es : List Enclosure) →
    Reads ⟨.partOrCloser, .empty, ⟨b, offset, outer⟩ :: es⟩ (body.lexemes ++ [.closing b])
      ⟨b.behind, outer.push (b.wrap body.formula?), es⟩
  | .empty, b, offset, outer, es => .single fun t ht => read_closing_at_once rfl rfl ht
  | .choice c, b, offset, outer, es => by
    obtain ⟨l, hfilled, hoperands⟩ := c.fills []
    obtain ⟨e, he, hc⟩ := hfilled .partOrCloser (⟨b, offset, outer⟩ :: es) (.inr rfl)
    refine hc.append (.single fun t ht => ?_)
    rw [read_closing he rfl ht, l.value_eq_of_operands hoperands]

/-- Reading a sequence pushes the formulas of its parts. -/
theorem Sequence.fills : (s : Sequence) → (l : Level) →
    l.FilledBy s.lexemes ⟨l.sequences, s.operands.reverse ++ l.parts⟩
  | .one p, l => p.fills l
  | .and s p, l => by
    intro e es he
    obtain ⟨e₁, he₁, hs⟩ := s.fills l e es he
    obtain ⟨e₂, he₂, hp⟩ := p.fills ⟨l.sequences, s.operands.reverse ++ l.parts⟩ .part es (.inl rfl)
    refine ⟨e₂, he₂, ?_⟩
    have hrest := hs.append (.cons fun t ht => ⟨_, read_and he₁ ht, hp⟩)
    simpa [Sequence.operands, Sequence.lexemes, Level.push] using hrest

/-- A choice fills a level without parts with its operands. -/
theorem Choice.fills : (c : Choice) → (sequences : List (Option Formula)) →
    ∃ l : Level, Level.FilledBy ⟨sequences, []⟩ c.lexemes l ∧
      l.sequence :: l.sequences = c.operands.reverse ++ sequences
  | .one s, sequences => by
    refine ⟨_, s.fills ⟨sequences, []⟩, ?_⟩
    simp [Level.sequence, Choice.operands]
  | .or c s, sequences => by
    -- reading the `or` finishes the last sequence of `c`, and `s` begins with no parts
    obtain ⟨l, hc, hoperands⟩ := c.fills sequences
    refine ⟨⟨l.next.sequences, s.operands.reverse ++ l.next.parts⟩, fun e es he => ?_, ?_⟩
    · obtain ⟨e₁, he₁, hc⟩ := hc e es he
      obtain ⟨e₂, he₂, hs⟩ := s.fills l.next .part es (.inl rfl)
      exact ⟨e₂, he₂, hc.append (.cons fun t ht => ⟨_, read_or he₁ ht, hs⟩)⟩
    · simp [Level.sequence, Level.next, Choice.operands, ← hoperands]

end

/-- What derives the tokens gives their formula. -/
theorem Body.ofTokens (body : Body) {ts : List Token} (h : ts.map Token.lexeme = body.lexemes) :
    Formula.ofTokens ts = .ok body.formula? := by
  cases body with
  | empty =>
    obtain rfl := List.map_eq_nil_iff.1 h
    rfl
  | choice c =>
    obtain ⟨l, hfilled, hoperands⟩ := c.fills []
    obtain ⟨e, he, hreads⟩ := hfilled .part [] (.inl rfl)
    have hread : ts.foldlM read start = .ok ⟨e, l, []⟩ := hreads ts h
    have hne : ts ≠ [] := by
      -- without a token the reader would still expect a part
      rintro rfl
      cases hread
      rcases he with he | he <;> cases he
    unfold Formula.ofTokens
    rw [if_neg (by simpa using hne), hread]
    show Reader.finish ⟨e, l, []⟩ = _
    rcases he with rfl | rfl
    · exact congrArg Except.ok (l.value_eq_of_operands hoperands)
    · exact congrArg Except.ok (l.value_eq_of_operands hoperands)

end Phrase

/-! ### The phrases of what was read -/

/-- The finished sequences of a level, with the `or` behind the last. -/
inductive Level.Chosen : List (Option Formula) → List Lexeme → Prop
  | nil : Chosen [] []
  | or (c : Choice) : Chosen c.operands.reverse (c.lexemes ++ [.or])

/-- The parts of the sequence under way, with the `&` behind the last. -/
inductive Level.Joined : List (Option Formula) → List Lexeme → Prop
  | nil : Joined [] []
  | and (s : Sequence) : Joined s.operands.reverse (s.lexemes ++ [.and])

/-- A level on which the lexemes were read, and where a part comes next. -/
def Level.BeforePart (l : Level) (ls : List Lexeme) : Prop :=
  ∃ front back, Chosen l.sequences front ∧ Joined l.parts back ∧ ls = front ++ back

/-- A level on which the lexemes were read, the last of which end a part. -/
def Level.BehindPart (l : Level) (ls : List Lexeme) : Prop :=
  ∃ front, ∃ s : Sequence, Chosen l.sequences front ∧ l.parts = s.operands.reverse ∧
    ls = front ++ s.lexemes

namespace Level

variable {l : Level} {ls : List Lexeme}

theorem beforePart_empty : Level.empty.BeforePart [] := ⟨[], [], .nil, .nil, rfl⟩

theorem BeforePart.push (h : l.BeforePart ls) (p : Part) :
    (l.push p.formula?).BehindPart (ls ++ p.lexemes) := by
  obtain ⟨sequences, parts⟩ := l
  obtain ⟨front, back, hchosen, hjoined, rfl⟩ := h
  dsimp only at hchosen hjoined
  -- the part begins a sequence, or continues the one before the `&`
  cases hjoined with
  | nil => exact ⟨front, .one p, hchosen, rfl, by simp [Sequence.lexemes]⟩
  | and s =>
    refine ⟨front, .and s p, hchosen, ?_, by simp [Sequence.lexemes]⟩
    simp [Level.push, Sequence.operands]

/-- The operator `&`, behind which the sequence goes on. -/
theorem BehindPart.and (h : l.BehindPart ls) : l.BeforePart (ls ++ [.and]) := by
  obtain ⟨sequences, parts⟩ := l
  obtain ⟨front, s, hchosen, rfl, rfl⟩ := h
  exact ⟨front, s.lexemes ++ [.and], hchosen, .and s, List.append_assoc _ _ _⟩

/-- All that was read on the level makes one choice. -/
theorem BehindPart.exists_choice (h : l.BehindPart ls) :
    ∃ c : Choice, c.lexemes = ls ∧ l.sequence :: l.sequences = c.operands.reverse ++ [] := by
  obtain ⟨sequences, parts⟩ := l
  obtain ⟨front, s, hchosen, rfl, rfl⟩ := h
  have hsequence : Level.sequence ⟨sequences, s.operands.reverse⟩ = conjunction s.operands := by
    unfold Level.sequence
    rw [List.reverse_reverse]
  dsimp only at hchosen
  -- the sequence is the whole choice, or continues the one before the `or`
  cases hchosen with
  | nil => exact ⟨.one s, rfl, by simp [Choice.operands, hsequence]⟩
  | or c => exact ⟨.or c s, by simp [Choice.lexemes], by simp [Choice.operands, hsequence]⟩

/-- The operator `or`, behind which another begins. -/
theorem BehindPart.or (h : l.BehindPart ls) : l.next.BeforePart (ls ++ [.or]) := by
  obtain ⟨c, rfl, hoperands⟩ := h.exists_choice
  refine ⟨c.lexemes ++ [.or], [], ?_, .nil, by simp⟩
  unfold Level.next
  rw [hoperands, List.append_nil]
  exact .or c

theorem BehindPart.exists_body (h : l.BehindPart ls) :
    ∃ body : Body, body.lexemes = ls ∧ body.formula? = l.value := by
  obtain ⟨c, hlexemes, hoperands⟩ := h.exists_choice
  exact ⟨.choice c, hlexemes, (l.value_eq_of_operands hoperands).symm⟩

end Level

/-- The lexemes up to the innermost bracket that is open. -/
inductive Around : List Enclosure → List Lexeme → Prop
  | nil : Around [] []
  | cons {e : Enclosure} {es : List Enclosure} {outer ls : List Lexeme} :
    Around es outer → e.outer.BeforePart ls → Around (e :: es) (outer ++ ls ++ [.opening e.bracket])

namespace Reader

/-- The lexemes were read since the innermost bracket was opened. -/
def Inside (r : Reader) (ls : List Lexeme) : Prop :=
  match r.expectation with
  | .part => r.level.BeforePart ls
  | .partOrCloser => r.level = .empty ∧ ls = []
  | .operator => r.level.BehindPart ls
  -- the cost group that was just closed, which a weight would still belong to
  | .operatorOrWeight => ∃ (l : Level) (front : List Lexeme) (body : Body), l.BeforePart front ∧
    r.level = l.push (Part.group .square body).formula? ∧
      ls = front ++ (Part.group .square body).lexemes

/-- The reader after it has read the lexemes. -/
def After (r : Reader) (ls : List Lexeme) : Prop :=
  ∃ outer inner, Around r.enclosures outer ∧ r.Inside inner ∧ ls = outer ++ inner

variable {r r' : Reader} {t : Token} {ls : List Lexeme}

theorem Inside.beforePart (h : r.Inside ls) (hr : r.expectation.IsPart) :
    r.level.BeforePart ls := by
  unfold Inside at h
  rcases hr with hr | hr <;> rw [hr] at h
  · exact h
  · obtain ⟨hlevel, rfl⟩ := h
    rw [hlevel]
    exact Level.beforePart_empty

theorem Inside.behindPart (h : r.Inside ls) (hr : r.expectation.IsComplete) :
    r.level.BehindPart ls := by
  unfold Inside at h
  rcases hr with hr | hr <;> rw [hr] at h
  · exact h
  · obtain ⟨l, front, body, hl, hlevel, rfl⟩ := h
    rw [hlevel]
    exact hl.push _

/-- What is between brackets, when they are closed. -/
theorem Inside.exists_body (h : r.Inside ls)
    (hr : r.expectation.IsComplete ∨ r.expectation = .partOrCloser) :
    ∃ body : Body, body.lexemes = ls ∧ body.formula? = r.level.value := by
  rcases hr with hr | hr
  · exact (h.behindPart hr).exists_body
  · unfold Inside at h
    rw [hr] at h
    obtain ⟨hlevel, rfl⟩ := h
    refine ⟨.empty, rfl, ?_⟩
    rw [hlevel]
    rfl

/-- Brackets and what is in them are one part more. -/
theorem inside_group {l : Level} (h : l.BeforePart ls) (b : Bracket) (body : Body)
    (es : List Enclosure) :
    Inside ⟨b.behind, l.push (b.wrap body.formula?), es⟩ (ls ++ (Part.group b body).lexemes) := by
  cases b with
  | round => exact h.push (.group .round body)
  | square => exact ⟨l, ls, body, h, rfl, rfl⟩
  | curly => exact h.push (.group .curly body)

/-- One more token. -/
theorem After.takes (h : r.After ls) (ht : r.Takes t r') : r'.After (ls ++ [t.lexeme]) := by
  obtain ⟨outer, inner, houter, hinner, rfl⟩ := h
  cases ht with
  | @name n hr ht =>
    have hlevel := (hinner.beforePart hr).push (.name n)
    exact ⟨outer, inner ++ [Lexeme.name n], houter, hlevel, by rw [ht, List.append_assoc]⟩
  | @opening b hr ht =>
    refine ⟨_, [], houter.cons (e := ⟨b, t.offset, r.level⟩) (hinner.beforePart hr), ⟨rfl, rfl⟩, ?_⟩
    rw [ht, List.append_nil]
  | @closing e es hr he ht =>
    rw [he] at houter
    obtain ⟨body, rfl, hvalue⟩ := hinner.exists_body hr
    cases houter with
    | @cons _ _ before front hbefore hfront =>
      have hgroup := inside_group hfront e.bracket body es
      rw [hvalue] at hgroup
      refine ⟨before, _, hbefore, hgroup, ?_⟩
      rw [ht]
      simp [Part.lexemes]
  | @weight n hr ht hn =>
    unfold Inside at hinner
    rw [hr] at hinner
    obtain ⟨l, front, body, hfront, hlevel, rfl⟩ := hinner
    -- the weight makes the cost group another part with the same formula
    have hweighted := hfront.push (.weighted body n (isWeight_iff.1 hn))
    have hlevel : r.level = l.push (Part.weighted body n (isWeight_iff.1 hn)).formula? := hlevel
    refine ⟨outer, _, houter, hlevel ▸ hweighted, ?_⟩
    rw [ht]
    simp [Part.lexemes]
  | and hr ht =>
    exact ⟨outer, inner ++ [Lexeme.and], houter, (hinner.behindPart hr).and,
      by rw [ht, List.append_assoc]⟩
  | or hr ht =>
    exact ⟨outer, inner ++ [Lexeme.or], houter, (hinner.behindPart hr).or,
      by rw [ht, List.append_assoc]⟩

/-- All tokens of a list. -/
theorem After.foldlM {ts : List Token} (h : r.After ls) (hts : ts.foldlM read r = .ok r') :
    r'.After (ls ++ ts.map Token.lexeme) := by
  induction ts generalizing r ls with
  | nil =>
    cases hts
    simpa using h
  | cons t ts ih =>
    rw [List.foldlM_cons] at hts
    rcases ht : r.read t with fault | m <;> rw [ht] at hts
    · cases hts
    · simpa using ih (h.takes (read_eq_ok_iff.1 ht)) hts

theorem after_start : Reader.start.After [] := ⟨[], [], .nil, Level.beforePart_empty, rfl⟩

/-- At the end no bracket is open, and all that was read is one phrase. -/
theorem After.exists_body (h : r.After ls) {f : Option Formula} (hf : r.finish = .ok f) :
    ∃ body : Body, body.lexemes = ls ∧ body.formula? = f := by
  obtain ⟨outer, inner, houter, hinner, rfl⟩ := h
  obtain ⟨e, l, es⟩ := r
  unfold finish at hf
  rcases e with - | - | - | -
  · cases hf
  · cases hf
  -- behind a complete part the text may end, unless a bracket is still open
  all_goals
    rcases es with - | ⟨e, es⟩
    · cases hf
      cases houter
      exact hinner.exists_body (.inl (by simp [Expectation.IsComplete]))
    · cases hf

end Reader

/-! ### What is read -/

/-- **The reader follows the grammar.**  A text reads as `f` exactly when its tokens are those of
a phrase, and `f` is the formula of this phrase. -/
theorem parse_eq_ok_iff_phrase {t : Text} {f : Option Formula} :
    parse t = .ok f ↔ ∃ body : Body, body.lexemes = lexemes t ∧ body.formula? = f := by
  rw [parse_eq_ok_iff]
  constructor
  · intro h
    unfold ofTokens at h
    split at h
    · next hempty =>
      cases h
      refine ⟨.empty, ?_, rfl⟩
      rw [lexemes, List.isEmpty_iff.1 hempty]
      rfl
    · rcases hread : (tokens t).foldlM Reader.read Reader.start with fault | r <;> rw [hread] at h
      · cases h
      · exact (Reader.after_start.foldlM hread).exists_body h
  · rintro ⟨body, hlexemes, rfl⟩
    exact body.ofTokens hlexemes.symm

/-- **Reading succeeds exactly on the grammar**: on texts without tokens, and on those whose tokens
a choice derives. -/
theorem parse_isOk_iff_derivable (t : Text) :
    (∃ f, parse t = .ok f) ↔
      ∃ ls, SplitsInto t ls ∧ (ls = [] ∨ ∃ c : Choice, c.lexemes = ls) := by
  simp only [splitsInto_iff, exists_eq_left', parse_eq_ok_iff_phrase]
  constructor
  · rintro ⟨-, body, hlexemes, -⟩
    cases body with
    | empty => exact .inl hlexemes.symm
    | choice c => exact .inr ⟨c, hlexemes⟩
  · rintro (hnil | ⟨c, hlexemes⟩)
    · exact ⟨_, .empty, hnil.symm, rfl⟩
    · exact ⟨_, .choice c, hlexemes, rfl⟩

end LinkGrammar.Formula
