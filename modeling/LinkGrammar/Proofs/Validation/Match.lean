/-
LinkGrammar/Proofs/Validation/Match.lean

What a matched pattern says about its place.

`Place.Checked` lists, for each pattern, the words around the place that the pattern
asks for and the checks that it makes of them.  A pattern that is matched has all of this
(`checked_of_pattern?`), so what follows from a match is read off `Checked`, and the
windows need not be opened again.  Likewise, whether tokens are a sentence is either settled
before the scan, or it is what the scan of their words answers.
-/
import Mathlib
import LinkGrammar.Validation.Basic

namespace LinkGrammar

namespace Place

/-- The words that a pattern finds at its place, and the checks that they pass. -/
def Checked (g : Grammar) (p : Place) : Pattern → Prop
  | .instrumentNear =>
    ∃ rest, p.after = Keyword.withWord :: rest ∧
      g.connectsLeft p.left p.right Keyword.withWord = .ok true
  | .instrumentFar =>
    ∃ between rest, p.after = between :: Keyword.withWord :: rest ∧
      between ≠ Keyword.withWord ∧
      (p.right = Keyword.toWord ∧ g.connects p.right between = .ok true ∨
        p.right = Keyword.the ∧
          g.connectsAll p.left p.right between Keyword.withWord = .ok true)
  | .article =>
    ∃ x rest, p.after = x :: rest ∧ (p.right = Keyword.a ∨ p.right = Keyword.the) ∧
      g.connectsThrough p.left p.right x = .ok true
  | .particle => p.right = Keyword.onWord
  | .infinitive =>
    ∃ x rest, p.after = x :: rest ∧ p.left = Keyword.wants ∧ p.right = Keyword.toWord ∧
      g.connectsLeft p.left p.right x = .ok true
  | .infinitiveOverOne =>
    ∃ x rest, p.after = Keyword.toWord :: x :: rest ∧ p.left = Keyword.wants ∧
      p.right ≠ Keyword.toWord ∧ g.connectsFour p.left p.right Keyword.toWord x = .ok true
  | .infinitiveOverTwo =>
    ∃ y x rest, p.after = y :: Keyword.toWord :: x :: rest ∧ p.left = Keyword.wants ∧
      y ≠ Keyword.toWord ∧ g.connectsFour p.left y Keyword.toWord x = .ok true
  | .link => g.connects p.left p.right = .ok true
  | .detachedWith =>
    p.right = Keyword.withWord ∧ g.connectsLeft p.left p.right Keyword.onWord = .ok true

variable {g : Grammar} {idioms : Idioms} {p : Place} {pattern : Pattern}

/-- A guarded pattern is matched when its check answers yes. -/
theorem guarded_eq_ok_some {q : Pattern} {check : Except GenerateError Bool}
    (h : guarded q check = .ok (some pattern)) : pattern = q ∧ check = .ok true := by
  unfold guarded at h
  rcases check with e | - | -
  · cases h
  · cases h
  · cases h
    exact ⟨rfl, rfl⟩

/-! ### The windows -/

/-- Where the `with` stands that was found. -/
theorem withPosition?_cases {position : WithPosition} (h : p.withPosition? = some position) :
    (position = .near ∧ ∃ rest, p.after = Keyword.withWord :: rest) ∨
      ∃ between rest, position = .far between ∧
        p.after = between :: Keyword.withWord :: rest ∧ between ≠ Keyword.withWord := by
  unfold withPosition? at h
  split at h
  · cases h
  · split at h
    · cases h
    · next x rest hafter =>
      split at h
      · next hx =>
        cases h
        exact .inl ⟨rfl, rest, hx ▸ hafter⟩
      · next hx =>
        split at h
        · next hrest =>
          cases h
          obtain ⟨rest, rfl⟩ := List.head?_eq_some_iff.1 hrest
          exact .inr ⟨x, rest, rfl, hafter, hx⟩
        · cases h

/-- The window of an instrument verb checks what its pattern says. -/
theorem checked_of_instrument? (h : p.instrument? g = some (.ok (some pattern))) :
    p.Checked g pattern := by
  unfold instrument? at h
  split at h
  · obtain ⟨position, hposition, hcheck⟩ := Option.map_eq_some_iff.1 h
    rcases withPosition?_cases hposition with ⟨rfl, rest, hafter⟩ |
      ⟨between, rest, rfl, hafter, hne⟩
    · obtain ⟨rfl, hleft⟩ := guarded_eq_ok_some hcheck
      exact ⟨rest, hafter, hleft⟩
    · obtain ⟨rfl, hfar⟩ := guarded_eq_ok_some hcheck
      refine ⟨between, rest, hafter, hne, ?_⟩
      split at hfar
      · next hto =>
        left
        rcases hleft : g.connectsLeft p.left p.right Keyword.withWord with e | - | - <;>
          rw [hleft] at hfar
        · cases hfar
        · cases hfar
        · exact ⟨hto, hfar⟩
      · split at hfar
        · next hthe => exact .inr ⟨hthe, hfar⟩
        · cases hfar
  · cases h

theorem checked_of_article? (h : p.article? g = some (.ok (some pattern))) :
    p.Checked g pattern := by
  unfold article? at h
  split at h
  · next hright =>
    obtain ⟨x, hx, hcheck⟩ := Option.map_eq_some_iff.1 h
    obtain ⟨rfl, hthrough⟩ := guarded_eq_ok_some hcheck
    obtain ⟨rest, hafter⟩ := List.head?_eq_some_iff.1 hx
    exact ⟨x, rest, hafter, by simpa using hright, hthrough⟩
  · cases h

theorem checked_of_particle? (h : p.particle? g = some (.ok (some pattern))) :
    p.Checked g pattern := by
  unfold particle? at h
  split at h
  · next hright =>
    split at h
    · split at h
      · obtain ⟨rfl, -⟩ := guarded_eq_ok_some (Option.some.inj h)
        exact hright
      · cases h
    · cases h
  · cases h

theorem checked_of_infinitive? (h : p.infinitive? g = some (.ok (some pattern))) :
    p.Checked g pattern := by
  unfold infinitive? at h
  split at h
  · next hleft =>
    split at h
    · cases h
    · next x rest hafter =>
      replace h := Option.some.inj h
      split at h
      · next hright =>
        obtain ⟨rfl, hcheck⟩ := guarded_eq_ok_some h
        exact ⟨x, rest, hafter, hleft, hright, hcheck⟩
      · next hright =>
        split at h
        · next hx =>
          subst hx
          split at h
          · next y rest =>
            obtain ⟨rfl, hcheck⟩ := guarded_eq_ok_some h
            exact ⟨y, rest, hafter, hleft, hright, hcheck⟩
          · cases h
        · next hx =>
          split at h
          · next y z rest =>
            split at h
            · next hy =>
              subst hy
              obtain ⟨rfl, hcheck⟩ := guarded_eq_ok_some h
              exact ⟨x, z, rest, hafter, hleft, hx, hcheck⟩
            · cases h
          · cases h
  · cases h

theorem checked_of_neighbours (h : p.neighbours g = .ok (some pattern)) :
    p.Checked g pattern := by
  unfold neighbours at h
  rcases hlink : g.connects p.left p.right with e | - | - <;> rw [hlink] at h
  · cases h
  · simp only [bind, Except.bind, Bool.false_eq_true, if_false] at h
    split at h
    · next hwith =>
      obtain ⟨rfl, hleft⟩ := guarded_eq_ok_some h
      simp only [Bool.and_eq_true, decide_eq_true_eq] at hwith
      exact ⟨hwith.1.1, hleft⟩
    · cases h
  · cases h
    exact hlink

/-! ### The pattern -/

/-- The window that applies is one of the four. -/
theorem window?_cases {r : Except GenerateError (Option Pattern)}
    (h : p.window? g idioms = some r) :
    p.instrument? g = some r ∨ p.article? g = some r ∨ p.particle? g = some r ∨
      p.infinitive? g = some r := by
  unfold window? at h
  simp only [Option.orElse_eq_orElse, Option.orElse_eq_or, Option.or_eq_some_iff,
    Option.ite_none_right_eq_some] at h
  rcases h with ⟨-, h⟩ | ⟨-, ⟨-, h⟩ | ⟨-, ⟨-, h⟩ | ⟨-, -, h⟩⟩⟩
  · exact .inl h
  · exact .inr (.inl h)
  · exact .inr (.inr (.inl h))
  · exact .inr (.inr (.inr h))

/-- A pattern that is matched has passed its checks. -/
theorem checked_of_pattern? (h : p.pattern? g idioms = .ok (some pattern)) :
    p.Checked g pattern := by
  unfold pattern? at h
  rcases hw : p.window? g idioms with - | r <;> rw [hw] at h
  · exact checked_of_neighbours h
  · obtain rfl : r = .ok (some pattern) := h
    rcases window?_cases hw with h | h | h | h
    · exact checked_of_instrument? h
    · exact checked_of_article? h
    · exact checked_of_particle? h
    · exact checked_of_infinitive? h

theorem drop_of_at? {words : List Text} {i : Nat} (h : at? words i = some p) :
    words.drop i = p.left :: p.right :: p.after := by
  unfold at? at h
  split at h
  · next hdrop =>
    cases h
    exact hdrop
  · cases h

end Place

/-! ### The scan -/

namespace Grammar

variable {g : Grammar} {idioms : Idioms} {words : List Text} {i : Nat}

/-- With no two words left the sentence is accepted. -/
theorem scanFrom_of_none (hp : Place.at? words i = none) :
    g.scanFrom idioms words i = .ok true := by
  rw [scanFrom]
  split
  · rfl
  · next p hp' => cases hp.symm.trans hp'

/-- The scan at a place with two neighbours. -/
theorem scanFrom_of_some {p : Place} (hp : Place.at? words i = some p) :
    g.scanFrom idioms words i =
      if p.left = p.right then .ok false
      else
        match p.pattern? g idioms with
        | .error e => .error e
        | .ok none => .ok false
        | .ok (some pattern) => g.scanFrom idioms words (i + pattern.advance) := by
  rw [scanFrom]
  split
  · next hnone => cases hp.symm.trans hnone
  · next q hq =>
    obtain rfl : p = q := Option.some.inj (hp.symm.trans hq)
    rfl

/-- Tokens are no sentence whatever the idioms, or the scan of their words decides. -/
theorem accepts_eq_false_or_scanFrom (g : Grammar) (tokens : List Text) :
    (∀ idioms, g.accepts idioms tokens = .ok false) ∨
      ∀ idioms, g.accepts idioms tokens
        = g.scanFrom idioms (tokens.map fun t => Text.lower (Text.trim t)) 0 := by
  by_cases hplaceholder : tokens.tail.contains placeholder = true
  · left
    intro idioms
    rw [accepts, if_pos hplaceholder]
  · rcases hfirst : (tokens.map fun t => Text.lower (Text.trim t)).head? with - | first
    · left
      intro idioms
      rw [accepts, if_neg hplaceholder]
      simp only [hfirst]
    rcases hlast : (tokens.map fun t => Text.lower (Text.trim t)).getLast? with - | last
    · left
      intro idioms
      rw [accepts, if_neg hplaceholder]
      simp only [hfirst, hlast]
    by_cases hends : (g.cannotOpen first || g.cannotClose last) = true
    · left
      intro idioms
      rw [accepts, if_neg hplaceholder]
      simp only [hfirst, hlast, hends, if_true]
    · right
      intro idioms
      rw [accepts, if_neg hplaceholder]
      simp only [hfirst, hlast]
      rw [if_neg hends]

end Grammar

end LinkGrammar
