/-
LinkGrammar/Proofs/Validation/Coverage.lean

Which neighbours the scan of a sentence checks.

`matchedFrom` lists the patterns that the scan matches, each with its place.  A pattern
covers the words from its place up to the last word of its window, and the scan goes on
at that last word, so that the next pattern checks it against what follows.  Only behind
a window of `wants` it goes on one word later.

Main result: in an accepted sentence every pair of neighbours is covered, except the pair
of the last word of a window of `wants` and the word behind it, which never is.
-/
import Mathlib
import LinkGrammar.Proofs.Validation.Match

namespace LinkGrammar

/-! ### What a pattern needs -/

/-- Whether the pattern is a window of `wants`. -/
def Pattern.isInfinitive : Pattern → Bool
  | infinitive | infinitiveOverOne | infinitiveOverTwo => true
  | _ => false

theorem Pattern.advance_eq (p : Pattern) :
    p.advance = p.reach + if p.isInfinitive then 1 else 0 := by
  cases p <;> rfl

/-- The words around a place that a pattern needs there. -/
def Place.Shows (p : Place) : Pattern → Prop
  | .instrumentNear => p.after[0]? = some Keyword.withWord
  | .instrumentFar => p.after[1]? = some Keyword.withWord
  | .article => (p.right = Keyword.a ∨ p.right = Keyword.the) ∧ 1 ≤ p.after.length
  | .particle => p.right = Keyword.onWord
  | .infinitive => p.left = Keyword.wants ∧ p.right = Keyword.toWord ∧ 1 ≤ p.after.length
  | .infinitiveOverOne =>
    p.left = Keyword.wants ∧ p.after[0]? = some Keyword.toWord ∧ 2 ≤ p.after.length
  | .infinitiveOverTwo =>
    p.left = Keyword.wants ∧ p.after[1]? = some Keyword.toWord ∧ 3 ≤ p.after.length
  | .link => True
  | .detachedWith => p.right = Keyword.withWord

namespace Place

variable {g : Grammar} {idioms : Idioms} {p : Place} {pattern : Pattern}

/-- A pattern that has passed its checks finds the words that it needs. -/
theorem Checked.shows (h : p.Checked g pattern) : p.Shows pattern := by
  cases pattern with
  | instrumentNear =>
    obtain ⟨rest, hafter, -⟩ := h
    simp [Shows, hafter]
  | instrumentFar =>
    obtain ⟨between, rest, hafter, -⟩ := h
    simp [Shows, hafter]
  | article =>
    obtain ⟨x, rest, hafter, hright, -⟩ := h
    exact ⟨hright, by simp [hafter]⟩
  | particle => exact h
  | infinitive =>
    obtain ⟨x, rest, hafter, hleft, hright, -⟩ := h
    exact ⟨hleft, hright, by simp [hafter]⟩
  | infinitiveOverOne =>
    obtain ⟨x, rest, hafter, hleft, -⟩ := h
    exact ⟨hleft, by simp [hafter], by simp [hafter]⟩
  | infinitiveOverTwo =>
    obtain ⟨y, x, rest, hafter, hleft, -⟩ := h
    exact ⟨hleft, by simp [hafter], by simp [hafter]⟩
  | link => trivial
  | detachedWith => exact h.1

/-- A pattern that is matched finds the words that it needs. -/
theorem shows_of_pattern? (h : p.pattern? g idioms = .ok (some pattern)) : p.Shows pattern :=
  (checked_of_pattern? h).shows

/-- The window of a pattern ends among the words behind its place. -/
theorem Shows.reach_le (h : p.Shows pattern) : pattern.reach ≤ p.after.length + 1 := by
  cases pattern with
  | instrumentNear =>
    have hlt := (List.getElem?_eq_some_iff.1 h).1
    simp only [Pattern.reach]; omega
  | instrumentFar =>
    have hlt := (List.getElem?_eq_some_iff.1 h).1
    simp only [Pattern.reach]; omega
  | article => exact Nat.succ_le_succ h.2
  | infinitive | infinitiveOverOne | infinitiveOverTwo => exact Nat.succ_le_succ h.2.2
  | particle | link | detachedWith => exact Nat.succ_le_succ (Nat.zero_le _)

theorem length_of_at? {words : List Text} {i : Nat} (h : at? words i = some p) :
    words.length = i + 2 + p.after.length := by
  unfold at? at h
  split at h
  · next left right after e =>
    cases h
    have hlen := congrArg List.length e
    simp only [List.length_drop, List.length_cons] at hlen ⊢
    omega
  · cases h

theorem length_le_of_at?_eq_none {words : List Text} {i : Nat} (h : at? words i = none) :
    words.length ≤ i + 1 := by
  unfold at? at h
  split at h
  · cases h
  · next hne =>
    rcases e : words.drop i with - | ⟨left, - | ⟨right, after⟩⟩
    · have hlen := congrArg List.length e
      simp at hlen; omega
    · have hlen := congrArg List.length e
      simp at hlen; omega
    · exact absurd e (hne left right after)

end Place

/-! ### The patterns of a scan -/

namespace Grammar

variable {g : Grammar} {idioms : Idioms} {words : List Text}

/-- The patterns that the scan matches from the `i`-th word on, each with its place. -/
def matchedFrom (g : Grammar) (idioms : Idioms) (words : List Text) (i : Nat) :
    List (Nat × Pattern) :=
  match h : Place.at? words i with
  | none => []
  | some p =>
    if p.left = p.right then []
    else
      match p.pattern? g idioms with
      | .ok (some pattern) =>
        have := Place.lt_length_of_at? h
        have := pattern.advance_pos
        (i, pattern) :: g.matchedFrom idioms words (i + pattern.advance)
      | _ => []
termination_by words.length - i

/-- The pattern is met at the `i`-th word. -/
def Meets (g : Grammar) (idioms : Idioms) (words : List Text) (i : Nat) (pattern : Pattern) :
    Prop :=
  ∃ p, Place.at? words i = some p ∧ p.left ≠ p.right ∧
    p.pattern? g idioms = .ok (some pattern)

theorem matchedFrom_of_meets {i : Nat} {pattern : Pattern} (h : g.Meets idioms words i pattern) :
    g.matchedFrom idioms words i
      = (i, pattern) :: g.matchedFrom idioms words (i + pattern.advance) := by
  obtain ⟨p, hp, hne, hpattern⟩ := h
  rw [matchedFrom]
  split
  · next hnone => cases hnone.symm.trans hp
  · next q hq =>
    obtain rfl : q = p := Option.some.inj (hq.symm.trans hp)
    rw [if_neg hne, hpattern]

/-- A scan that accepts is at the last word, or meets a pattern and accepts from where this
leads. -/
theorem scanFrom_eq_true {i : Nat} (h : g.scanFrom idioms words i = .ok true) :
    words.length ≤ i + 1 ∨ ∃ pattern, g.Meets idioms words i pattern ∧
      g.scanFrom idioms words (i + pattern.advance) = .ok true := by
  rw [scanFrom] at h
  split at h
  · next hnone => exact .inl (Place.length_le_of_at?_eq_none hnone)
  · next p hp =>
    split at h
    · cases h
    · next hne =>
      split at h
      · cases h
      · cases h
      · next pattern hpattern => exact .inr ⟨pattern, ⟨p, hp, hne, hpattern⟩, h⟩

/-- What the scan matches it meets, at the place where it started or behind it. -/
theorem of_mem_matchedFrom {i : Nat} {m : Nat × Pattern}
    (h : m ∈ g.matchedFrom idioms words i) : i ≤ m.1 ∧ g.Meets idioms words m.1 m.2 := by
  fun_induction matchedFrom g idioms words i with
  | case1 | case2 | case4 => cases h
  | case3 i p hp hne pattern hpattern _ _ ih =>
    rcases List.mem_cons.1 h with rfl | h
    · exact ⟨Nat.le_refl _, p, hp, hne, hpattern⟩
    · obtain ⟨hle, hmeets⟩ := ih h
      exact ⟨Nat.le_trans (Nat.le_add_right _ _) hle, hmeets⟩

/-! ### Covered pairs -/

/-- A pattern, with its place, covers the `j`-th word and the one behind it. -/
def Covers (m : Nat × Pattern) (j : Nat) : Prop := m.1 ≤ j ∧ j + 1 ≤ m.1 + m.2.reach

/-- A pattern, with its place, is a window of `wants` whose last word is the `j`-th. -/
def EndsInfinitive (m : Nat × Pattern) (j : Nat) : Prop :=
  m.2.isInfinitive = true ∧ j = m.1 + m.2.reach

instance (m : Nat × Pattern) (j : Nat) : Decidable (Covers m j) :=
  inferInstanceAs (Decidable (m.1 ≤ j ∧ j + 1 ≤ m.1 + m.2.reach))

instance (m : Nat × Pattern) (j : Nat) : Decidable (EndsInfinitive m j) :=
  inferInstanceAs (Decidable (m.2.isInfinitive = true ∧ j = m.1 + m.2.reach))

/-- One step: of the pairs that the scan passes over, the pattern covers all, but for the
last one behind a window of `wants`. -/
theorem covers_iff_of_lt_advance {i j : Nat} {pattern : Pattern} (hij : i ≤ j)
    (hj : j < i + pattern.advance) :
    Covers (i, pattern) j ↔ ¬EndsInfinitive (i, pattern) j := by
  have hadvance := pattern.advance_eq
  unfold Covers EndsInfinitive
  dsimp only
  cases hinf : pattern.isInfinitive <;> rw [hinf] at hadvance <;> simp at hadvance ⊢ <;> omega

/-- A pattern says nothing about the pairs at which the scan has not arrived yet. -/
theorem not_covers_of_advance_le {i j : Nat} {pattern : Pattern} (hj : i + pattern.advance ≤ j) :
    ¬Covers (i, pattern) j ∧ ¬EndsInfinitive (i, pattern) j := by
  have hadvance := pattern.advance_eq
  unfold Covers EndsInfinitive
  dsimp only
  cases hinf : pattern.isInfinitive <;> rw [hinf] at hadvance <;> simp at hadvance ⊢ <;> omega

theorem not_covers_of_lt {m : Nat × Pattern} {j : Nat} (h : j < m.1) :
    ¬Covers m j ∧ ¬EndsInfinitive m j := by
  unfold Covers EndsInfinitive
  omega

/-- The whole scan. -/
theorem covers_iff_of_scanFrom {i j : Nat} (h : g.scanFrom idioms words i = .ok true)
    (hij : i ≤ j) (hj : j + 1 < words.length) :
    (∃ m ∈ g.matchedFrom idioms words i, Covers m j) ↔
      ¬∃ m ∈ g.matchedFrom idioms words i, EndsInfinitive m j := by
  rcases scanFrom_eq_true h with hend | ⟨pattern, hmeets, hrest⟩
  · omega
  rw [matchedFrom_of_meets hmeets]
  simp only [List.mem_cons, exists_eq_or_imp]
  have hpos := pattern.advance_pos
  rcases Nat.lt_or_ge j (i + pattern.advance) with hlt | hge
  · -- the patterns matched later begin behind `j`
    have hlater : ∀ m ∈ g.matchedFrom idioms words (i + pattern.advance),
        ¬Covers m j ∧ ¬EndsInfinitive m j := fun m hm =>
      not_covers_of_lt (Nat.lt_of_lt_of_le hlt (of_mem_matchedFrom hm).1)
    have hstep := covers_iff_of_lt_advance hij hlt
    constructor
    · rintro (hcovers | ⟨m, hm, hcovers⟩)
      · rintro (hends | ⟨m, hm, hends⟩)
        · exact hstep.1 hcovers hends
        · exact (hlater m hm).2 hends
      · exact absurd hcovers (hlater m hm).1
    · exact fun hends => .inl (hstep.2 fun h => hends (.inl h))
  · obtain ⟨hcovers, hends⟩ := not_covers_of_advance_le hge
    have ih := covers_iff_of_scanFrom hrest hge hj
    simpa only [hcovers, hends, false_or] using ih
termination_by words.length - i

/-- **Which neighbours an accepted sentence has unchecked.**  Every pattern that the scan
matched finds its words in the sentence, and a pair of neighbours lies between the first and
the last word of such a pattern unless its left word is the last one of a window of `wants`;
then it lies in none. -/
theorem covered_iff_of_accepts {tokens : List Text} (h : g.accepts idioms tokens = .ok true) :
    let words := tokens.map fun t => Text.lower (Text.trim t)
    let matched := g.matchedFrom idioms words 0
    (∀ m ∈ matched, m.1 + m.2.reach < words.length ∧
      ∃ p, Place.at? words m.1 = some p ∧ p.Shows m.2 ∧
        p.pattern? g idioms = .ok (some m.2)) ∧
    ∀ j, j + 1 < words.length →
      ((∃ m ∈ matched, Covers m j) ↔ ¬∃ m ∈ matched, EndsInfinitive m j) := by
  intro words matched
  have hscan : g.scanFrom idioms words 0 = .ok true := by
    unfold accepts at h
    split at h
    · cases h
    · dsimp only at h
      split at h
      · split at h
        · cases h
        · exact h
      · cases h
  refine ⟨fun m hm => ?_, fun j hj => covers_iff_of_scanFrom hscan (Nat.zero_le j) hj⟩
  obtain ⟨-, p, hp, -, hpattern⟩ := of_mem_matchedFrom hm
  have hshows := Place.shows_of_pattern? hpattern
  have hreach := hshows.reach_le
  have hlen := Place.length_of_at? hp
  exact ⟨by omega, p, hp, hshows, hpattern⟩

/-- `he`, `wants`, `to`, `eat` and `it`, each with one rule. -/
def wantsGrammar : Grammar where
  rules w :=
    let rule (formula : Text) := (Rule.ofText formula).toOption.toList
    if w = ['h', 'e'] then rule ['S', '+']
    else if w = Keyword.wants then rule "S- & (T+ or I+)".toList
    else if w = Keyword.toWord then rule ['T', '-']
    else if w = ['e', 'a', 't'] then rule ['I', '-']
    else if w = ['i', 't'] then rule ['O', '-']
    else []
  tags _ := []

/-- The words `he wants to eat it`. -/
def wantsTokens : List Text :=
  [['h', 'e'], Keyword.wants, Keyword.toWord, ['e', 'a', 't'], ['i', 't']]

theorem matchedFrom_wantsTokens :
    wantsGrammar.matchedFrom .all (wantsTokens.map fun t => Text.lower (Text.trim t)) 0
      = [(0, .link), (1, .infinitive)] := by
  cbv

theorem accepts_wantsTokens : wantsGrammar.accepts .all wantsTokens = .ok true := by
  cbv

/-- The window of `wants` covers `to` and `eat`. -/
theorem covered_wantsTokens :
    wantsGrammar.accepts .all wantsTokens = .ok true ∧
      ∃ m ∈ wantsGrammar.matchedFrom .all
        (wantsTokens.map fun t => Text.lower (Text.trim t)) 0, Covers m 2 := by
  refine ⟨accepts_wantsTokens, ((covered_iff_of_accepts accepts_wantsTokens).2 2 (by decide)).2 ?_⟩
  rw [matchedFrom_wantsTokens]
  decide

/-- Behind the window `eat` does not link to `it`, and yet the sentence is accepted. -/
theorem accepts_unlinked_neighbours :
    wantsGrammar.accepts .all wantsTokens = .ok true ∧
      (¬∃ m ∈ wantsGrammar.matchedFrom .all
        (wantsTokens.map fun t => Text.lower (Text.trim t)) 0, Covers m 3) ∧
      wantsGrammar.connects ['e', 'a', 't'] ['i', 't'] = .ok false := by
  refine ⟨accepts_wantsTokens, ?_, by cbv⟩
  rw [matchedFrom_wantsTokens]
  decide

end Grammar

end LinkGrammar
