/-
LinkGrammar/Proofs/Formula/Partner.lean

Brackets with and without a partner.

`Nested` says of a list of tokens that every bracket has its partner, of the same kind and on
the same level; of a text it is asked for its `marks`, the characters that are tokens by
themselves.  `Leaves ts os` says of tokens that are not at their end yet which brackets wait for
a partner: those that `os` opened, the innermost first, with nested tokens behind each.

Both are facts about how tokens come apart.  `openAfter?` reads off the open brackets one token
after the other, and is what shows that brackets which wait, or a closer that finds none of its
kind, cannot be part of nested tokens.
-/
import LinkGrammar.Proofs.Formula.Token

namespace LinkGrammar.Formula

/-- Whether a token is a bracket. -/
def Lexeme.isBracket : Lexeme → Bool
  | opening _ | closing _ => true
  | _ => false

/-- The brackets of a text and its `&` signs. -/
def marks (t : Text) : List Lexeme := t.filterMap Lexeme.ofChar?

/-- Every bracket has a partner of its own kind, and pairs do not cross. -/
inductive Nested : List Lexeme → Prop
  | nil : Nested []
  | other {l : Lexeme} {ls : List Lexeme} : l.isBracket = false → Nested ls → Nested (l :: ls)
  | group (b : Bracket) {ls ls' : List Lexeme} :
    Nested ls → Nested ls' → Nested (.opening b :: ls ++ .closing b :: ls')

theorem Nested.append {p q : List Lexeme} (hp : Nested p) (hq : Nested q) : Nested (p ++ q) := by
  induction hp with
  | nil => exact hq
  | other hl _ ih => exact .other hl ih
  | group b hin _ _ ih =>
    rw [List.append_assoc]
    exact .group b hin ih

/-! ### Open brackets -/

/-- Behind the tokens the brackets that `os` opened are open, the innermost first. -/
inductive Leaves : List Token → List Token → Prop
  | nested {ts : List Token} : Nested (ts.map Token.lexeme) → Leaves ts []
  | opening {outer inner os : List Token} {o : Token} {b : Bracket} :
    Leaves outer os → o.lexeme = .opening b → Nested (inner.map Token.lexeme) →
      Leaves (outer ++ o :: inner) (o :: os)

namespace Leaves

variable {ts os : List Token} {t o : Token}

theorem nil : Leaves [] [] := .nested .nil

/-- Nested tokens leave open what was open. -/
theorem append (h : Leaves ts os) {s : List Token} (hs : Nested (s.map Token.lexeme)) :
    Leaves (ts ++ s) os := by
  cases h with
  | nested hts =>
    apply Leaves.nested
    rw [List.map_append]
    exact hts.append hs
  | opening houter ho hinner =>
    rw [List.append_assoc, List.cons_append]
    apply Leaves.opening houter ho
    rw [List.map_append]
    exact hinner.append hs

/-- A token that is no bracket leaves the same brackets open. -/
theorem concat (h : Leaves ts os) (ht : t.lexeme.isBracket = false) : Leaves (ts ++ [t]) os :=
  h.append (s := [t]) (.other ht .nil)

theorem concat_opening (h : Leaves ts os) {b : Bracket} (ht : t.lexeme = .opening b) :
    Leaves (ts ++ [t]) (t :: os) :=
  .opening h ht .nil

/-- A closer closes the last that was opened. -/
theorem concat_closing (h : Leaves ts (o :: os)) {b : Bracket} (ho : o.lexeme = .opening b)
    (ht : t.lexeme = .closing b) : Leaves (ts ++ [t]) os := by
  cases h with
  | @opening outer inner _ _ _ houter _ hinner =>
    -- the bracket, what stands in it and its closer are nested by themselves
    have hgroup : Nested ((o :: (inner ++ [t])).map Token.lexeme) := by
      rw [List.map_cons, List.map_append, ho, List.map_singleton, ht]
      exact .group b hinner .nil
    have := houter.append hgroup
    simpa using this

theorem mem (h : Leaves ts (o :: os)) : o ∈ ts := by
  cases h with
  | opening => simp

end Leaves

/-! ### Reading off the open brackets -/

/-- The brackets that are open behind the tokens, the innermost first, when `bs` are open before
them; `none` if a closer comes that is not that of the innermost. -/
def openAfter? : List Bracket → List Lexeme → Option (List Bracket)
  | bs, [] => some bs
  | bs, .opening b :: ls => openAfter? (b :: bs) ls
  | b' :: bs, .closing b :: ls => if b' = b then openAfter? bs ls else none
  | [], .closing _ :: _ => none
  | bs, _ :: ls => openAfter? bs ls

theorem openAfter?_cons {l : Lexeme} (hl : l.isBracket = false) (bs : List Bracket)
    (ls : List Lexeme) : openAfter? bs (l :: ls) = openAfter? bs ls := by
  cases l with
  | opening | closing => cases hl
  | and | or | name => rw [openAfter?.eq_def]

theorem openAfter?_opening (bs : List Bracket) (b : Bracket) (ls : List Lexeme) :
    openAfter? bs (.opening b :: ls) = openAfter? (b :: bs) ls := by
  rw [openAfter?.eq_def]

theorem openAfter?_closing (bs : List Bracket) (b : Bracket) (ls : List Lexeme) :
    openAfter? (b :: bs) (.closing b :: ls) = openAfter? bs ls := by
  rw [openAfter?, if_pos rfl]

/-- Nested tokens are passed over. -/
theorem Nested.openAfter?_append {p : List Lexeme} (h : Nested p) (bs : List Bracket)
    (q : List Lexeme) : openAfter? bs (p ++ q) = openAfter? bs q := by
  induction h generalizing bs q with
  | nil => rfl
  | other hl _ ih => rw [List.cons_append, openAfter?_cons hl, ih]
  | group b _ _ ihin ihout =>
    rw [List.append_assoc, List.cons_append, openAfter?_opening, ihin, List.cons_append,
      openAfter?_closing, ihout]

/-- Nested tokens open and close the same brackets. -/
theorem Nested.openAfter? {ls : List Lexeme} (h : Nested ls) (bs : List Bracket) :
    Formula.openAfter? bs ls = some bs := by
  have := h.openAfter?_append bs []
  rw [List.append_nil] at this
  rw [this, Formula.openAfter?]

/-- What comes later matters by the brackets that it leaves open. -/
theorem openAfter?_cons_congr {ls ls' : List Lexeme}
    (h : ∀ bs, openAfter? bs ls = openAfter? bs ls') (bs : List Bracket) (l : Lexeme) :
    openAfter? bs (l :: ls) = openAfter? bs (l :: ls') := by
  cases l with
  | opening b => rw [openAfter?_opening, openAfter?_opening, h]
  | closing b =>
    rcases bs with - | ⟨b', bs⟩
    · rfl
    · rw [openAfter?, openAfter?, h]
  | and | or | name => rw [openAfter?_cons rfl, openAfter?_cons rfl, h]

theorem isBlank_of_ofChar? {c : Char} {l : Lexeme} (h : Lexeme.ofChar? c = some l) :
    isBlank c = false := by
  unfold Lexeme.ofChar? at h
  repeat' split at h
  all_goals cases h
  all_goals
    subst c
    decide

theorem ofChar?_of_isBlank {c : Char} (h : isBlank c = true) : Lexeme.ofChar? c = none := by
  rcases hc : Lexeme.ofChar? c with - | l
  · rfl
  · cases h.symm.trans (isBlank_of_ofChar? hc)

/-- Blanks and names do not open or close anything. -/
theorem openAfter?_lexemes (bs : List Bracket) (t : Text) :
    openAfter? bs (lexemes t) = openAfter? bs (marks t) := by
  induction t using front_cases generalizing bs with
  | nil =>
    rw [lexemes_nil]
    rfl
  | blank c t hb ih =>
    have hmarks : marks (c :: t) = marks t := List.filterMap_cons_none (ofChar?_of_isBlank hb)
    rw [lexemes_cons_blank hb, hmarks, ih]
  | mark c l t hb hc ih =>
    have hmarks : marks (c :: t) = l :: marks t := List.filterMap_cons_some hc
    rw [lexemes_cons_mark hb hc, hmarks]
    exact openAfter?_cons_congr ih bs l
  | run r t hne hr hseam ih =>
    have hmarks : marks (r ++ t) = marks t := by
      have hnone : r.filterMap Lexeme.ofChar? = [] :=
        List.filterMap_eq_nil_iff.2 fun c hc => (isNameChar_iff.1 (hr c hc)).2
      unfold marks
      rw [List.filterMap_append, hnone, List.nil_append]
    have hrun : (Lexeme.ofRun r).isBracket = false := by
      unfold Lexeme.ofRun
      split
      · rfl
      · rfl
    rw [lexemes_run_append hne hr hseam, openAfter?_cons hrun, hmarks, ih]

/-- If the brackets of a text are nested, none is open in the end. -/
theorem openAfter?_of_nested_marks {t : Text} (h : Nested (marks t)) :
    openAfter? [] (lexemes t) = some [] := by
  rw [openAfter?_lexemes, h.openAfter?]

/-! ### Brackets without a partner -/

/-- Tokens go on with the brackets open that those before them left open. -/
theorem Leaves.openAfter?_append {ts os : List Token} (h : Leaves ts os) :
    ∃ bs, os.map Token.lexeme = bs.map Lexeme.opening ∧
      ∀ ls, openAfter? [] (ts.map Token.lexeme ++ ls) = openAfter? bs ls := by
  induction h with
  | nested hts => exact ⟨[], rfl, fun ls => hts.openAfter?_append [] ls⟩
  | @opening outer inner os o b _ ho hinner ih =>
    obtain ⟨bs, hbs, hopen⟩ := ih
    refine ⟨b :: bs, by rw [List.map_cons, List.map_cons, ho, hbs], fun ls => ?_⟩
    rw [List.map_append, List.map_cons, ho, List.append_assoc, hopen, List.cons_append,
      openAfter?_opening, hinner.openAfter?_append]

/-- A closer that finds no opener of its kind is part of no nested text. -/
theorem Leaves.not_nested_of_closing {t : Text} {front back os : List Token} {x : Token}
    {b : Bracket} (h : Leaves front os) (ht : tokens t = front ++ x :: back)
    (hx : x.lexeme = .closing b) (hos : ∀ o ∈ os.head?, o.lexeme ≠ .opening b) :
    ¬Nested (marks t) := by
  intro hnested
  have hopen := openAfter?_of_nested_marks hnested
  obtain ⟨bs, hbs, happend⟩ := h.openAfter?_append
  rw [lexemes, ht, List.map_append, List.map_cons, hx, happend] at hopen
  rcases bs with - | ⟨b', bs⟩
  · cases hopen
  · obtain ⟨o, os, rfl, ho, -⟩ := List.map_eq_cons_iff.1 hbs
    have hne : b' ≠ b := fun he => hos o rfl (he ▸ ho)
    rw [openAfter?, if_neg hne] at hopen
    cases hopen

/-- An opener that is never closed is part of no nested text. -/
theorem Leaves.not_nested_of_cons {t : Text} {o : Token} {os : List Token}
    (h : Leaves (tokens t) (o :: os)) : ¬Nested (marks t) := by
  intro hnested
  have hopen := openAfter?_of_nested_marks hnested
  obtain ⟨bs, hbs, happend⟩ := h.openAfter?_append
  have hend := happend []
  rw [List.append_nil, ← lexemes, hopen, openAfter?] at hend
  obtain rfl : bs = [] := (Option.some.inj hend).symm
  cases hbs

end LinkGrammar.Formula
