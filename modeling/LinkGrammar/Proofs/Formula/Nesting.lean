/-
LinkGrammar/Proofs/Formula/Nesting.lean

What tokens stand for when operators may be missing or to spare.

A `Walker` goes over tokens and collects the parts on each level of brackets.  It takes
an operator for a sign that this level is joined by it, and for nothing else, so an
operator more or less does not change what it collects; nor does a pair of brackets with
nothing in it.  Which operator joins a level is guessed when the level is entered, so
that a level whose operators are all gone needs no case of its own.

Main definitions: `Evaluates ls f`, the walk over `ls` has all brackets closed at the end
and gives `f`; and `Drops ls ls'`, which says that only operators and empty pairs of
brackets are lost between `ls` and `ls'`.
-/
import LinkGrammar.Proofs.Formula.Canonical

namespace LinkGrammar.Formula

/-- What joins the parts of a level. -/
inductive Joint where
  | and
  | or
  deriving DecidableEq

namespace Joint

/-- The token between the operands. -/
def lexeme : Joint → Lexeme
  | and => .and
  | or => .or

/-- The tree over the operands. -/
def node : Joint → List Formula → Formula
  | and => .and
  | or => .or

/-! ### Operators in a text -/

theorem seam_left {j : Joint} {s : Text} (h : j = .or → Seam s ['o', 'r']) :
    Seam s j.lexeme.text := by
  cases j
  · exact Seam.of_head (by decide) []
  · exact h rfl

theorem seam_right {j : Joint} {t : Text} (h : j = .or → Seam ['o', 'r'] t) :
    Seam j.lexeme.text t := by
  cases j
  · exact Seam.of_last (by decide) [] t
  · exact h rfl

/-- An operator before a seam is a token. -/
theorem lexemes_text_append {j : Joint} {t : Text} (h : Seam j.lexeme.text t) :
    lexemes (j.lexeme.text ++ t) = j.lexeme :: lexemes t := by
  cases j
  · exact lexemes_cons_and t
  · exact lexemes_or_append h

theorem lexemes_text (j : Joint) : lexemes j.lexeme.text = [j.lexeme] := by
  simpa using lexemes_text_append (j := j) (Seam.nil_right _)

end Joint

/-! ### Walking -/

/-- The parts on a level, the last one first. -/
structure Row where
  joint : Joint
  parts : List Formula

namespace Row

/-- What a row stands for; its parts are kept in reverse. -/
def value (r : Row) : Option Formula := joined r.joint.node r.parts.reverse

/-- One part more, unless it is absent. -/
def add (r : Row) (part : Option Formula) : Row := { r with parts := part.toList ++ r.parts }

end Row

/-- The level the walker is on, and those around it. -/
structure Walker where
  row : Row
  outer : List (Bracket × Row)

namespace Walker

/-- Before the first token, on a row that is joined by `j`. -/
def start (j : Joint) : Walker := ⟨⟨j, []⟩, []⟩

/-- One token. -/
def Step (w : Walker) : Lexeme → Walker → Prop
  | .name n, w' => w' = ⟨w.row.add (some (leaf n)), w.outer⟩
  | .and, w' => w.row.joint = .and ∧ w' = w
  | .or, w' => w.row.joint = .or ∧ w' = w
  | .opening b, w' => ∃ j, w' = ⟨⟨j, []⟩, (b, w.row) :: w.outer⟩
  | .closing b, w' => ∃ r o, w.outer = (b, r) :: o ∧ w' = ⟨r.add (b.wrap w.row.value), o⟩

/-- A run of tokens. -/
def Walk : Walker → List Lexeme → Walker → Prop
  | w, [], w' => w' = w
  | w, l :: ls, w' => ∃ m, w.Step l m ∧ m.Walk ls w'

/-- An operator stays on its row, and must be the one that joins it. -/
theorem step_lexeme_iff {w w' : Walker} {j : Joint} :
    w.Step j.lexeme w' ↔ w.row.joint = j ∧ w' = w := by
  cases j <;> exact Iff.rfl

/-- A walk over two runs of tokens stops between them. -/
theorem walk_append_iff {w w' : Walker} {p q : List Lexeme} :
    w.Walk (p ++ q) w' ↔ ∃ m, w.Walk p m ∧ m.Walk q w' := by
  induction p generalizing w with
  | nil =>
    refine ⟨fun h => ⟨w, rfl, h⟩, ?_⟩
    rintro ⟨_, rfl, h⟩
    exact h
  | cons l p ih =>
    constructor
    · rintro ⟨m, hl, h⟩
      obtain ⟨m', hp, hq⟩ := ih.1 h
      exact ⟨m', ⟨m, hl, hp⟩, hq⟩
    · rintro ⟨m', ⟨m, hl, hp⟩, hq⟩
      exact ⟨m, hl, ih.2 ⟨m', hp, hq⟩⟩

theorem Walk.append {w m w' : Walker} {p q : List Lexeme} (hp : w.Walk p m) (hq : m.Walk q w') :
    w.Walk (p ++ q) w' :=
  walk_append_iff.2 ⟨m, hp, hq⟩

/-! ### What does not change the walk -/

/-- An operator may be dropped. -/
theorem Walk.drop_joint {w w' : Walker} {p s : List Lexeme} {j : Joint}
    (h : w.Walk (p ++ j.lexeme :: s) w') : w.Walk (p ++ s) w' := by
  obtain ⟨m, hp, m', hj, hs⟩ := walk_append_iff.1 h
  obtain ⟨-, rfl⟩ := step_lexeme_iff.1 hj
  exact hp.append hs

/-- A pair of brackets with nothing in it may be dropped. -/
theorem Walk.drop_empty {w w' : Walker} {p s : List Lexeme} {b : Bracket}
    (h : w.Walk (p ++ .opening b :: .closing b :: s) w') : w.Walk (p ++ s) w' := by
  obtain ⟨m, hp, m₁, ⟨j, rfl⟩, m₂, ⟨r, o, ho, rfl⟩, hs⟩ := walk_append_iff.1 h
  obtain ⟨hr, rfl⟩ := List.cons.inj ho
  obtain ⟨-, rfl⟩ := Prod.mk.inj hr
  -- a level without parts has no value, so its closer adds nothing
  have hnone : b.wrap (Row.value ⟨j, []⟩) = none := by cases b <;> rfl
  rw [hnone] at hs
  exact hp.append hs

end Walker

open Walker

/-- The walk over all of the tokens ends with every bracket closed and gives `f`. -/
def Evaluates (ls : List Lexeme) (f : Option Formula) : Prop :=
  ∃ j r, (start j).Walk ls ⟨r, []⟩ ∧ r.value = f

namespace Evaluates

/-- An operator can go. -/
theorem drop_joint {p s : List Lexeme} {j : Joint} {f : Option Formula}
    (h : Evaluates (p ++ j.lexeme :: s) f) : Evaluates (p ++ s) f := by
  obtain ⟨j', r, hwalk, hr⟩ := h
  exact ⟨j', r, hwalk.drop_joint, hr⟩

/-- So can an empty pair of brackets. -/
theorem drop_empty {p s : List Lexeme} {b : Bracket} {f : Option Formula}
    (h : Evaluates (p ++ .opening b :: .closing b :: s) f) : Evaluates (p ++ s) f := by
  obtain ⟨j', r, hwalk, hr⟩ := h
  exact ⟨j', r, hwalk.drop_empty, hr⟩

/-- Every bracket is closed in the end. -/
theorem not_opening_last {p : List Lexeme} {b : Bracket} {f : Option Formula} :
    ¬Evaluates (p ++ [.opening b]) f := by
  rintro ⟨j, r, hwalk, -⟩
  obtain ⟨m, -, m', ⟨j', rfl⟩, hend⟩ := walk_append_iff.1 hwalk
  cases congrArg Walker.outer hend

/-- No bracket is closed that was not opened. -/
theorem not_closing_first {s : List Lexeme} {b : Bracket} {f : Option Formula} :
    ¬Evaluates (.closing b :: s) f := by
  rintro ⟨j, r, ⟨m, ⟨r', o, ho, -⟩, -⟩, -⟩
  cases ho

/-- A bracket is closed by its like. -/
theorem closing_eq {p s : List Lexeme} {b b' : Bracket} {f : Option Formula}
    (h : Evaluates (p ++ .opening b :: .closing b' :: s) f) : b = b' := by
  obtain ⟨j, r, hwalk, -⟩ := h
  obtain ⟨m, -, m₁, ⟨j', rfl⟩, m₂, ⟨r', o, ho, -⟩, -⟩ := walk_append_iff.1 hwalk
  exact (Prod.mk.inj (List.cons.inj ho).1).1

/-- There is one kind of operator on a level. -/
theorem joint_eq {p s : List Lexeme} {j j' : Joint} {f : Option Formula}
    (h : Evaluates (p ++ j.lexeme :: j'.lexeme :: s) f) : j = j' := by
  obtain ⟨j₀, r, hwalk, -⟩ := h
  obtain ⟨m, -, m₁, hj, m₂, hj', -⟩ := walk_append_iff.1 hwalk
  obtain ⟨rfl, rfl⟩ := step_lexeme_iff.1 hj
  exact (step_lexeme_iff.1 hj').1

end Evaluates

/-! ### Dropping -/

/-- Operators and empty pairs of brackets are dropped, one after the other. -/
inductive Drops (ls : List Lexeme) : List Lexeme → Prop
  | refl : Drops ls ls
  | joint {p s : List Lexeme} {j : Joint} : Drops ls (p ++ j.lexeme :: s) → Drops ls (p ++ s)
  | empty {p s : List Lexeme} {b : Bracket} :
    Drops ls (p ++ .opening b :: .closing b :: s) → Drops ls (p ++ s)

namespace Drops

variable {ls ls' ls'' : List Lexeme}

/-- What goes at once and what goes then. -/
theorem trans (h : Drops ls ls') (h' : Drops ls' ls'') : Drops ls ls'' := by
  induction h' with
  | refl => exact h
  | joint _ ih => exact ih.joint
  | empty _ ih => exact ih.empty

/-- Dropping does not change what the tokens stand for. -/
theorem evaluates (h : Drops ls ls') {f : Option Formula} (hf : Evaluates ls f) :
    Evaluates ls' f := by
  induction h with
  | refl => exact hf
  | joint _ ih => exact ih.drop_joint
  | empty _ ih => exact ih.drop_empty

end Drops

end LinkGrammar.Formula
