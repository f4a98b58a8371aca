/-
LinkGrammar/Proofs/Validation/Repeats.lean

Equal neighbours in an accepted sentence.

The scan compares the two words at each place it comes to, and jumps over the other pairs
of a window, so these must be told apart by the checks of the window.  Every check that
compares places of links refuses equal words, and so does `connects`; `connectsFour`
compares no words at all.

Main result: in an accepted sentence neighbours are equal only at the pairs that a window
of `wants` leaves open (`Pattern.unchecked`): the pair behind the window, the pair of `to`
and the verb where a word stands between `wants` and `to`, and, where two words stand
there, the pair of these two.
-/
import Mathlib
import LinkGrammar.Proofs.Link.Answer
import LinkGrammar.Proofs.Validation.Coverage

namespace LinkGrammar

/-! ### Checks that tell words apart -/

namespace Grammar

variable {g : Grammar} {left mid right next : Text}

theorem ne_of_connects (h : g.connects left right = .ok true) : left ≠ right := by
  rintro rfl
  obtain ⟨link?, hlink, hsome⟩ := map_eq_ok.1 h
  obtain ⟨leftRules, -, hlink⟩ := bind_eq_ok.1 hlink
  obtain ⟨rightRules, -, hlink⟩ := bind_eq_ok.1 hlink
  -- equal words do not agree, so no link is looked for
  rw [if_neg (by simp [agree])] at hlink
  cases hlink
  cases hsome

theorem ne_of_connectsLeft (h : g.connectsLeft left mid right = .ok true) :
    left ≠ mid ∧ mid ≠ right := by
  unfold connectsLeft at h
  split at h
  · cases h
  · next hne =>
    simp only [Bool.or_eq_true, decide_eq_true_eq, not_or] at hne
    exact ⟨hne.1.1, hne.2⟩

/-- No word links through itself. -/
theorem connectsThrough_self (g : Grammar) (left mid : Text) :
    g.connectsThrough left mid mid = .ok false := by
  unfold connectsThrough
  rw [if_pos (by simp)]
  rfl

theorem ne_of_connectsThrough (h : g.connectsThrough left mid right = .ok true) :
    mid ≠ right := by
  rintro rfl
  rw [connectsThrough_self] at h
  cases h

/-- No connector links through a word to the same word. -/
theorem through_of_reachFrom {found found' : Reach} {c : Connector}
    (h : g.reachFrom mid mid next found c = .ok found') : found'.through = found.through := by
  obtain ⟨extended, -, h⟩ := bind_eq_ok.1 h
  obtain ⟨through, hthrough, h⟩ := bind_eq_ok.1 h
  obtain ⟨onward, -, h⟩ := bind_eq_ok.1 h
  rw [connectsThrough_self] at hthrough
  cases hthrough
  cases h
  exact Bool.or_false _

/-- If the second and the third word are the same, the one is never reached through the other. -/
theorem through_of_foldlM_reachFrom {found found' : Reach} {cs : List Connector}
    (h : cs.foldlM (g.reachFrom mid mid next) found = .ok found') :
    found'.through = found.through := by
  refine foldlM_keeps (fun reach => reach.through = found.through) ?_ rfl h
  intro c reach reach' hreach hc
  exact (through_of_reachFrom hc).trans hreach

/-- No rule leads to a word and then to the same word. -/
theorem reachAll_self {found : Reach} {rules : List Rule} (hfound : found.through = false) :
    g.reachAll mid mid next found rules ≠ .ok true := by
  induction rules generalizing found with
  | nil => simp [reachAll]
  | cons rule rules ih =>
    intro h
    rw [reachAll] at h
    obtain ⟨found', hfold, h⟩ := bind_eq_ok.1 h
    have hthrough : found'.through = false := (through_of_foldlM_reachFrom hfold).trans hfound
    rw [if_neg (by simp [hthrough])] at h
    exact ih hthrough h

/-- Words that are checked for a branching differ. -/
theorem ne_of_connectsAll (h : g.connectsAll left mid right next = .ok true) : mid ≠ right := by
  rintro rfl
  obtain ⟨leftRules, -, h⟩ := bind_eq_ok.1 h
  obtain ⟨_, -, h⟩ := bind_eq_ok.1 h
  exact reachAll_self rfl h

end Grammar

/-! ### The pairs of a window -/

/-- How far behind its first word the pairs of neighbours begin that a window passes over
without comparing them. -/
def Pattern.unchecked : Pattern → List Nat
  | infinitive => [2]
  | infinitiveOverOne => [2, 3]
  | infinitiveOverTwo => [1, 3, 4]
  | _ => []

namespace Place

variable {g : Grammar} {idioms : Idioms} {p : Place} {pattern : Pattern}

/-- The words from a place on. -/
def words (p : Place) : List Text := p.left :: p.right :: p.after

/-- The pairs that a matched pattern passes over are told apart, but for the unchecked
ones. -/
theorem Checked.ne_of_lt_advance (h : p.Checked g pattern) (hne : p.left ≠ p.right) {k : Nat}
    (hk : k < pattern.advance) (hopen : k ∉ pattern.unchecked) {a b : Text}
    (ha : p.words[k]? = some a) (hb : p.words[k + 1]? = some b) : a ≠ b := by
  unfold words at ha hb
  rcases k with - | k
  · -- the pair at the place itself
    cases ha
    cases hb
    exact hne
  have hadvance := pattern.advance_pos
  cases pattern with
  | instrumentNear =>
    obtain ⟨rest, hafter, hleft⟩ := h
    obtain rfl : k = 0 := by simp only [Pattern.advance] at hk; omega
    rw [hafter] at hb
    cases ha
    cases hb
    exact (Grammar.ne_of_connectsLeft hleft).2
  | instrumentFar =>
    obtain ⟨between, rest, hafter, hbetween, hcheck⟩ := h
    rw [hafter] at ha hb
    obtain rfl | rfl : k = 0 ∨ k = 1 := by simp only [Pattern.advance] at hk; omega
    · cases ha
      cases hb
      rcases hcheck with ⟨-, hlink⟩ | ⟨-, hall⟩
      · exact Grammar.ne_of_connects hlink
      · exact Grammar.ne_of_connectsAll hall
    · cases ha
      cases hb
      exact hbetween
  | article =>
    obtain ⟨x, rest, hafter, -, hthrough⟩ := h
    obtain rfl : k = 0 := by simp only [Pattern.advance] at hk; omega
    rw [hafter] at hb
    cases ha
    cases hb
    exact Grammar.ne_of_connectsThrough hthrough
  | infinitive =>
    obtain ⟨x, rest, hafter, -, -, hleft⟩ := h
    obtain rfl : k = 0 := by
      simp only [Pattern.advance, Pattern.unchecked, List.mem_singleton] at hk hopen; omega
    rw [hafter] at hb
    cases ha
    cases hb
    exact (Grammar.ne_of_connectsLeft hleft).2
  | infinitiveOverOne =>
    obtain ⟨x, rest, hafter, -, hright, -⟩ := h
    obtain rfl : k = 0 := by
      simp only [Pattern.advance, Pattern.unchecked, List.mem_cons, List.not_mem_nil] at hk hopen
      omega
    rw [hafter] at hb
    cases ha
    cases hb
    exact hright
  | infinitiveOverTwo =>
    obtain ⟨y, x, rest, hafter, -, hy, -⟩ := h
    obtain rfl : k = 1 := by
      simp only [Pattern.advance, Pattern.unchecked, List.mem_cons, List.not_mem_nil] at hk hopen
      omega
    rw [hafter] at ha hb
    cases ha
    cases hb
    exact hy
  | particle | link | detachedWith =>
    simp only [Pattern.advance] at hk
    omega

end Place

/-! ### The pairs of a sentence -/

namespace Grammar

variable {g : Grammar} {idioms : Idioms} {words : List Text}

/-- One step: equal neighbours that the pattern passes over are left open by it. -/
theorem Meets.unchecked_of_eq {i j : Nat} {pattern : Pattern}
    (h : g.Meets idioms words i pattern) (hij : i ≤ j) (hj : j < i + pattern.advance)
    (hlen : j + 1 < words.length) (heq : words[j]? = words[j + 1]?) :
    ∃ k ∈ pattern.unchecked, j = i + k := by
  obtain ⟨p, hp, hne, hpattern⟩ := h
  have hdrop : words.drop i = p.words := Place.drop_of_at? hp
  obtain ⟨k, rfl⟩ := Nat.exists_eq_add_of_le hij
  -- both words are the same `a`
  obtain ⟨a, ha⟩ : ∃ a, words[i + k + 1]? = some a := ⟨_, List.getElem?_eq_getElem hlen⟩
  have hk : p.words[k]? = some a := by rw [← hdrop, List.getElem?_drop, heq, ha]
  have hk' : p.words[k + 1]? = some a := by
    rw [← hdrop, List.getElem?_drop]
    exact ha
  refine ⟨k, ?_, rfl⟩
  by_contra hopen
  have hchecked := Place.checked_of_pattern? hpattern
  exact hchecked.ne_of_lt_advance hne (by omega) hopen hk hk' rfl

/-- The whole scan. -/
theorem exists_unchecked_of_scanFrom {i j : Nat} (h : g.scanFrom idioms words i = .ok true)
    (hij : i ≤ j) (hlen : j + 1 < words.length) (heq : words[j]? = words[j + 1]?) :
    ∃ m ∈ g.matchedFrom idioms words i, ∃ k ∈ m.2.unchecked, j = m.1 + k := by
  rcases scanFrom_eq_true h with hend | ⟨pattern, hmeets, hrest⟩
  · omega
  rw [matchedFrom_of_meets hmeets]
  have hpos := pattern.advance_pos
  rcases Nat.lt_or_ge j (i + pattern.advance) with hlt | hge
  · exact ⟨(i, pattern), List.mem_cons_self, hmeets.unchecked_of_eq hij hlt hlen heq⟩
  · obtain ⟨m, hm, hopen⟩ := exists_unchecked_of_scanFrom hrest hge hlen heq
    exact ⟨m, List.mem_cons_of_mem _ hm, hopen⟩
termination_by words.length - i

/-- **Which neighbours of an accepted sentence can be equal.**  Only those that a matched
window of `wants` leaves open. -/
theorem unchecked_of_repeat {tokens : List Text} (h : g.accepts idioms tokens = .ok true) :
    let words := tokens.map fun t => Text.lower (Text.trim t)
    ∀ j, j + 1 < words.length → words[j]? = words[j + 1]? →
      ∃ m ∈ g.matchedFrom idioms words 0, ∃ k ∈ m.2.unchecked, j = m.1 + k := by
  intro words j hlen heq
  have hscan : g.scanFrom idioms words 0 = .ok true := by
    rcases g.accepts_eq_false_or_scanFrom tokens with hfalse | hscan
    · rw [hfalse] at h
      cases h
    · rw [← hscan, h]
  exact exists_unchecked_of_scanFrom hscan (Nat.zero_le j) hlen heq

/-- `he`, `wants`, `to`, `it` and `eat`, each with one rule. -/
def repeatsGrammar : Grammar where
  rules w :=
    let rule (formula : Text) := (Rule.ofText formula).toOption.toList
    if w = ['h', 'e'] then rule ['S', '+']
    else if w = Keyword.wants then
      rule "S- & (T+ or I+ or (O+ & Q+ & A+ & I+) or (Q+ & T+))".toList
    else if w = Keyword.toWord then rule "T- or (A- & B-)".toList
    else if w = ['i', 't'] then rule ['O', '-']
    else if w = ['e', 'a', 't'] then rule ['I', '-']
    else []
  tags _ := []

/-- `he wants to eat eat` -/
def eatEat : List Text :=
  [['h', 'e'], Keyword.wants, Keyword.toWord, ['e', 'a', 't'], ['e', 'a', 't']]

/-- `he wants it it to eat` -/
def itIt : List Text :=
  [['h', 'e'], Keyword.wants, ['i', 't'], ['i', 't'], Keyword.toWord, ['e', 'a', 't']]

/-- `he wants it to to` -/
def toTo : List Text :=
  [['h', 'e'], Keyword.wants, ['i', 't'], Keyword.toWord, Keyword.toWord]

theorem accepts_eatEat : repeatsGrammar.accepts .all eatEat = .ok true := by
  cbv

/-- The pair behind a window of `wants` is left open. -/
theorem unchecked_of_repeat_eatEat :
    repeatsGrammar.accepts .all eatEat = .ok true ∧
      let words := eatEat.map fun t => Text.lower (Text.trim t)
      words[3]? = words[4]? ∧
        ∃ m ∈ repeatsGrammar.matchedFrom .all words 0, ∃ k ∈ m.2.unchecked, 3 = m.1 + k :=
  have heq : (eatEat.map fun t => Text.lower (Text.trim t))[3]?
      = (eatEat.map fun t => Text.lower (Text.trim t))[4]? := by decide
  ⟨accepts_eatEat, heq, unchecked_of_repeat accepts_eatEat 3 (by decide) heq⟩

/-- Equal neighbours are accepted behind a window of `wants`, between `wants` and `to`, and
in the place of `to` and the verb. -/
theorem accepts_repeats :
    repeatsGrammar.accepts .all eatEat = .ok true ∧ eatEat[3]? = eatEat[4]? ∧
      repeatsGrammar.accepts .all itIt = .ok true ∧ itIt[2]? = itIt[3]? ∧
      repeatsGrammar.accepts .all toTo = .ok true ∧ toTo[3]? = toTo[4]? := by
  refine ⟨accepts_eatEat, rfl, ?_, rfl, ?_, rfl⟩
  · cbv
  · cbv

end Grammar

end LinkGrammar
