/-
LinkGrammar/Proofs/Generation/Outcome.lean

How a run ends.

Before the search, a bag is refused that is too large or has a word without rules.  The
search itself judges arrangements, and these can miss a rule only for one of the words of
the bag.  The two look words up differently: the first in lower case, the second without
the blanks at their ends too.  So a run over a bag that was not refused ends well, unless a
token has blanks at its ends and its word without them has no rules.
-/
import Mathlib
import LinkGrammar.Proofs.Generation.Search
import LinkGrammar.Proofs.Text.Trim
import LinkGrammar.Proofs.Validation.Unknown

namespace LinkGrammar.Generation

variable {g : Grammar} {idioms : Idioms} {m : Modifiers} {keep : List Text → Bool}
  {o : Options} {tokens : List Text}

/-! ### What is refused -/

/-- A bag that is larger than the limit is refused for its size. -/
theorem obstacle?_of_lt {bag : List Text} {limit : Nat} (hlimit : limit ∈ o.maxBag)
    (h : limit < bag.length) : obstacle? g o bag = some (.bagTooLarge bag.length limit) := by
  have hfilter : o.maxBag.filter (· < bag.length) = some limit := by
    rw [Option.mem_def.1 hlimit]
    simp [h]
  unfold obstacle?
  rw [hfilter]

/-- A bag within the limit is refused for the first word without rules only. -/
theorem obstacle?_of_le {bag : List Text} (h : ∀ limit ∈ o.maxBag, bag.length ≤ limit) :
    obstacle? g o bag
      = (bag.find? fun w => (g.rules (Text.lower w)).isEmpty).map .unknownWord := by
  have hfilter : o.maxBag.filter (· < bag.length) = none := by
    rw [Option.filter_eq_none_iff]
    intro limit hlimit
    simpa using h limit hlimit
  unfold obstacle?
  rw [hfilter]

/-- What is not refused. -/
theorem obstacle?_eq_none_iff {bag : List Text} :
    obstacle? g o bag = none ↔
      (∀ limit ∈ o.maxBag, bag.length ≤ limit) ∧ ∀ w ∈ bag, g.rules (Text.lower w) ≠ [] := by
  by_cases hlimit : ∀ limit ∈ o.maxBag, bag.length ≤ limit
  · rw [obstacle?_of_le hlimit, Option.map_eq_none_iff, List.find?_eq_none]
    simp only [List.isEmpty_iff]
    exact ⟨fun hknown => ⟨hlimit, hknown⟩, And.right⟩
  · refine ⟨fun h => ?_, fun h => absurd h.1 hlimit⟩
    push Not at hlimit
    obtain ⟨limit, hmem, hlt⟩ := hlimit
    rw [obstacle?_of_lt hmem hlt] at h
    cases h

/-- A bag above the limit is refused. -/
theorem run_of_lt {limit : Nat} (hlimit : limit ∈ o.maxBag)
    (hlt : limit < (bagOf o tokens).length) :
    run g keep o tokens = .error (.bagTooLarge (bagOf o tokens).length limit) := by
  apply run_of_obstacle
  · intro hnil
    rw [hnil] at hlt
    exact absurd hlt (Nat.not_lt_zero _)
  · exact obstacle?_of_lt hlimit hlt

/-- A bag within the limit is refused for its first word without rules, which is named. -/
theorem run_of_unknown {front back : List Text} {w : Text}
    (hlimit : ∀ limit ∈ o.maxBag, (bagOf o tokens).length ≤ limit)
    (hbag : bagOf o tokens = front ++ w :: back)
    (hfront : ∀ v ∈ front, g.rules (Text.lower v) ≠ []) (hw : g.rules (Text.lower w) = []) :
    run g keep o tokens = .error (.unknownWord w) := by
  have hfind : ((bagOf o tokens).find? fun w => (g.rules (Text.lower w)).isEmpty) = some w := by
    rw [List.find?_eq_some_iff_append]
    exact ⟨by simp [hw], front, back, hbag, fun v hv => by simp [hfront v hv]⟩
  apply run_of_obstacle
  · simp [hbag]
  · rw [obstacle?_of_le hlimit, hfind]
    rfl

/-! ### What ends well -/

/-- An arrangement is judged unless the filter lets pass what cannot be. -/
theorem exists_consider_eq_ok (s : Search) (p : List Text) :
    (∃ s', s.consider g idioms m keep p = .ok s') ↔
      (keep p = true → ∃ ok, g.accepts idioms p = .ok ok) := by
  unfold Search.consider
  rcases hkeep : keep p with - | -
  · simp
  · simp only [Bool.not_true, Bool.false_eq_true, if_false, forall_const]
    exact exists_map_eq_ok

/-- When a run ends well. -/
theorem exists_run_eq_ok : (∃ r, run g keep o tokens = .ok r) ↔
    bagOf o tokens = [] ∨ obstacle? g o (bagOf o tokens) = none ∧
      ∀ p, p.Perm (bagOf o tokens) → keep p = true →
        ∃ ok, g.accepts (Trigger.scan tokens).idioms p = .ok ok := by
  by_cases hbag : bagOf o tokens = []
  · exact ⟨fun _ => .inl hbag, fun _ => ⟨_, run_of_bag_eq_nil hbag⟩⟩
  rcases hobstacle : obstacle? g o (bagOf o tokens) with - | e
  · rw [run_of_unobstructed hbag hobstacle, exists_map_eq_ok,
      exists_foldlM_eq_ok exists_consider_eq_ok]
    simp only [mem_arrangements, hbag, false_or, true_and]
  · rw [run_of_obstacle hbag hobstacle]
    simp [hbag]

/-! ### What the search can miss -/

/-- Judging an arrangement asks about its words. -/
theorem missesOnly_consider (hg : g.Stated) (s : Search) (words : List Text) :
    g.MissesOnly (words.map fun t => Text.lower (Text.trim t))
      (s.consider g idioms m keep words) :=
  .ite (fun _ => .ok _) fun _ => (Grammar.missesOnly_accepts hg words).map

/-- A run over a bag that is not refused misses a rule for one of its words only. -/
theorem missesOnly_run (hg : g.Stated) (h : obstacle? g o (bagOf o tokens) = none) :
    g.MissesOnly ((bagOf o tokens).map fun t => Text.lower (Text.trim t))
      (run g keep o tokens) := by
  by_cases hbag : bagOf o tokens = []
  · rw [run_of_bag_eq_nil hbag]
    exact .ok _
  rw [run_of_unobstructed hbag h]
  apply Grammar.MissesOnly.map
  apply Grammar.MissesOnly.foldlM
  intro s p hp
  -- an arrangement has the words of the bag
  have hsub : p ⊆ bagOf o tokens := (mem_arrangements.1 hp).subset
  exact (missesOnly_consider hg s p).mono (List.map_subset _ hsub)

/-- The search ends well unless a token has no rules without the blanks at its ends. -/
theorem exists_run_or_missed (hg : g.Stated) (h : obstacle? g o (bagOf o tokens) = none) :
    (∃ r, run g keep o tokens = .ok r) ∨
      ∃ w ∈ bagOf o tokens, ¬w.Trimmed ∧ g.rules (Text.lower (Text.trim w)) = [] ∧
        run g keep o tokens = .error (.unknownWord (Text.lower (Text.trim w))) := by
  rcases hrun : run g keep o tokens with e | r
  · right
    obtain ⟨v, hv, hrules, rfl⟩ := missesOnly_run hg h e hrun
    obtain ⟨w, hw, rfl⟩ := List.mem_map.1 hv
    refine ⟨w, hw, ?_, hrules, rfl⟩
    -- a token without blanks at its ends would have been refused before the search
    intro htrimmed
    rw [htrimmed.trim_eq] at hrules
    exact (obstacle?_eq_none_iff.1 h).2 w hw hrules
  · exact .inl ⟨r, rfl⟩

/-- **How a run ends.**  A bag above the limit is an error that gives its size and the
limit; otherwise the first word without rules is an error that names it as it was given.
In every other case the run ends well, but for tokens with blanks at their ends: then it may
miss a rule for such a token without its blanks, and names that. -/
theorem run_outcome (hg : g.Stated) (keep : List Text → Bool) (o : Options)
    (tokens : List Text) :
    let bag := bagOf o tokens
    (∀ limit ∈ o.maxBag, limit < bag.length →
      run g keep o tokens = .error (.bagTooLarge bag.length limit)) ∧
    ((∀ limit ∈ o.maxBag, bag.length ≤ limit) →
      (∀ front w back, bag = front ++ w :: back → (∀ v ∈ front, g.rules (Text.lower v) ≠ []) →
        g.rules (Text.lower w) = [] → run g keep o tokens = .error (.unknownWord w)) ∧
      ((∀ w ∈ bag, g.rules (Text.lower w) ≠ []) →
        (∃ r, run g keep o tokens = .ok r) ∨
        ∃ w ∈ bag, ¬w.Trimmed ∧ g.rules (Text.lower (Text.trim w)) = [] ∧
          run g keep o tokens = .error (.unknownWord (Text.lower (Text.trim w))))) := by
  intro bag
  refine ⟨fun limit hlimit hlt => run_of_lt hlimit hlt, fun hlimit => ⟨?_, fun hknown => ?_⟩⟩
  · intro front w back hbag hfront hw
    exact run_of_unknown hlimit hbag hfront hw
  · exact exists_run_or_missed hg (obstacle?_eq_none_iff.2 ⟨hlimit, hknown⟩)

/-- The word `cat` behind a blank, and `sat`. -/
def paddedLexicon? : Except FormulaError Lexicon := do
  let l ← Lexicon.empty.insertFormula [' ', 'c', 'a', 't'] ['X', '+']
  l.insertFormula ['s', 'a', 't'] ['S', '-']

/-- The lexicon that `paddedLexicon?` gives. -/
def paddedLexicon : Lexicon := paddedLexicon?.toOption.getD .empty

theorem stated_paddedLexicon : paddedLexicon.grammar.Stated := by
  apply Lexicon.stated_getD
  intro l h
  obtain ⟨l₁, h₁, h₂⟩ := bind_eq_ok.1 h
  exact Lexicon.stated_insertFormula (Lexicon.stated_insertFormula Lexicon.stated_empty h₁) h₂

/-- Two words are too many for a limit of one, `dog` has no rules, and `sat` by itself can be
arranged. -/
theorem run_outcome_sat :
    let g := paddedLexicon.grammar
    let sat : Text := ['s', 'a', 't']
    let dog : Text := ['d', 'o', 'g']
    run g (fun _ => true) ⟨some 1, true⟩ [sat, sat] = .error (.bagTooLarge 2 1) ∧
    run g (fun _ => true) ⟨some 2, true⟩ [sat, dog] = .error (.unknownWord dog) ∧
    ∃ r, run g (fun _ => true) .default [sat] = .ok r := by
  intro g sat dog
  have hsat : g.rules (Text.lower sat) ≠ [] := by cbv; simp
  have hdog : g.rules (Text.lower dog) = [] := by cbv
  have hknown : ∀ w ∈ [sat], g.rules (Text.lower w) ≠ [] := by simpa using hsat
  refine ⟨?_, ?_, ?_⟩
  · apply (run_outcome stated_paddedLexicon _ ⟨some 1, true⟩ [sat, sat]).1 1 rfl
    decide
  · apply ((run_outcome stated_paddedLexicon _ ⟨some 2, true⟩ [sat, dog]).2 _).1 [sat] dog []
    · decide
    · exact hknown
    · exact hdog
    · decide
  · have hbag : bagOf .default [sat] = [sat] := by decide
    have houtcome :=
      ((run_outcome stated_paddedLexicon (fun _ => true) .default [sat]).2 (by decide)).2
    rw [hbag] at houtcome
    obtain hok | ⟨w, hw, hblank, -⟩ := houtcome hknown
    · exact hok
    · obtain rfl : w = sat := List.mem_singleton.1 hw
      exact absurd (by decide) hblank

/-- All tokens have rules, but a rule is missed for the first without its blank. -/
theorem run_misses_padded :
    let tokens : List Text := [[' ', 'c', 'a', 't'], ['s', 'a', 't']]
    bagOf .default tokens = tokens ∧
    (∀ w ∈ tokens, paddedLexicon.grammar.rules (Text.lower w) ≠ []) ∧
    run paddedLexicon.grammar (fun _ => true) .default tokens
      = .error (.unknownWord ['c', 'a', 't']) := by
  refine ⟨by decide, ?_, by cbv⟩
  simp only [List.forall_mem_cons]
  refine ⟨by cbv; simp, by cbv; simp, by simp⟩

end LinkGrammar.Generation
