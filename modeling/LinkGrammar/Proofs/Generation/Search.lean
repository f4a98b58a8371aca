/-
LinkGrammar/Proofs/Generation/Search.lean

What a finished search has found: the sentences of exactly those permutations of the
bag that pass, each permutation judged once.

The state of the search records the permutations judged so far (`Records`).  Judging
one more keeps this true, so it is true at the end, when all of `arrangements` were
judged.  A run has three exits, each with its equation; only these open `runWith`.
-/
import Mathlib
import LinkGrammar.Generation.Basic
import LinkGrammar.Proofs.Generation.Sentence
import LinkGrammar.Proofs.Link.Answer
import LinkGrammar.Proofs.Text.Case

namespace LinkGrammar.Generation

/-- The filter lets the words pass, and they are a sentence. -/
def Passes (g : Grammar) (idioms : Idioms) (keep : List Text → Bool) (words : List Text) : Prop :=
  keep words = true ∧ g.accepts idioms words = .ok true

instance (g : Grammar) (idioms : Idioms) (keep : List Text → Bool) :
    DecidablePred (Passes g idioms keep) := fun words => by
  unfold Passes; infer_instance

variable {g : Grammar} {idioms : Idioms} {m : Modifiers} {keep : List Text → Bool}

/-! ### The state of the search -/

/-- The state after judging the permutations `ps`. -/
structure Records (g : Grammar) (idioms : Idioms) (m : Modifiers) (keep : List Text → Bool)
    (ps : List (List Text)) (s : Search) : Prop where
  arrangements : s.arrangements = ps.length
  accepted : s.accepted = (ps.filter (Passes g idioms keep ·)).length
  filtered : s.filtered = (ps.filter (keep · = false)).length
  found : s.found = ((ps.filter (Passes g idioms keep ·)).map (Sentence.render m)).reverse

theorem Records.start : Records g idioms m keep [] Search.start := ⟨rfl, rfl, rfl, rfl⟩

/-- Judging one more. -/
theorem Records.consider {ps : List (List Text)} {p : List Text} {s s' : Search}
    (h : Records g idioms m keep ps s) (hs : s.consider g idioms m keep p = .ok s') :
    Records g idioms m keep (ps ++ [p]) s' := by
  unfold Search.consider at hs
  split at hs
  · next hkeep =>
    cases hs
    have hkeep : keep p = false := by simpa using hkeep
    have hfail : ¬Passes g idioms keep p := fun hp => by simp [hp.1] at hkeep
    exact ⟨by simp [h.arrangements], by simp [h.accepted, hfail],
      by simp [h.filtered, hkeep], by simp [h.found, hfail]⟩
  · next hkeep =>
    have hkeep : keep p = true := by simpa using hkeep
    rcases e : g.accepts idioms p with fault | ok
    · rw [e] at hs; cases hs
    rw [e] at hs
    cases hs
    rcases ok with - | -
    · have hfail : ¬Passes g idioms keep p := fun hp => by simp [hp.2] at e
      exact ⟨by simp [h.arrangements], by simp [h.accepted, hfail],
        by simp [h.filtered, hkeep], by simp [h.found, hfail]⟩
    · have hpass : Passes g idioms keep p := ⟨hkeep, e⟩
      exact ⟨by simp [h.arrangements], by simp [h.accepted, hpass],
        by simp [h.filtered, hkeep], by simp [h.found, hpass]⟩

/-- Judging all of a list. -/
theorem Records.foldlM {ps qs : List (List Text)} {s s' : Search}
    (h : Records g idioms m keep ps s)
    (hs : qs.foldlM (Search.consider g idioms m keep) s = .ok s') :
    Records g idioms m keep (ps ++ qs) s' := by
  induction qs generalizing ps s with
  | nil => cases hs; simpa using h
  | cons q qs ih =>
    rw [List.foldlM_cons] at hs
    rcases e : s.consider g idioms m keep q with fault | s₁
    · rw [e] at hs; cases hs
    · rw [e] at hs
      simpa using ih (h.consider e) hs

/-! ### Counting permutations -/

/-- Among the permutations of a bag, those with a property are as many as the search
meets. -/
theorem length_filter_arrangements (bag : List Text) (P : List Text → Prop) [DecidablePred P] :
    ((LinkGrammar.arrangements bag).filter (P ·)).length = {p | p.Perm bag ∧ P p}.ncard := by
  have hset : {p | p.Perm bag ∧ P p}
      = (((LinkGrammar.arrangements bag).filter (P ·)).toFinset : Set (List Text)) := by
    ext p
    simp [mem_arrangements]
  rw [hset, Set.ncard_coe_finset, List.toFinset_card_of_nodup ((nodup_arrangements bag).filter _)]

/-! ### Modifiers set off no idiom -/

/-- Taking out a word leaves the others, whatever the case. -/
theorem mem_map_lower_eraseP {w : Text} (word : Text)
    (hword : word.all (·.toLower.toNat < 128) = true)
    (hne : word.map Char.toLower ≠ w) (l : List Text) :
    w ∈ (l.eraseP (Text.sameIgnoringAsciiCase · word)).map Text.lower ↔ w ∈ l.map Text.lower := by
  simp only [List.mem_map]
  refine exists_congr fun t => and_congr_left fun ht => ?_
  refine List.mem_eraseP_of_neg fun hsame => hne ?_
  have hascii : ∀ c ∈ word, IsAscii c.toLower := by
    simpa [IsAscii] using hword
  rw [← ht, lower_of_sameIgnoringAsciiCase hascii hsame]

/-- Without the modifiers all other words are left. -/
theorem mem_map_lower_withoutModifiers {w : Text} (hnot : ['n', 'o', 't'] ≠ w)
    (hnow : ['n', 'o', 'w'] ≠ w) (m : Modifiers) (tokens : List Text) :
    w ∈ (withoutModifiers m tokens).map Text.lower ↔ w ∈ tokens.map Text.lower := by
  have hn := mem_map_lower_eraseP ['n', 'o', 't'] (by decide) hnot
  have hw := mem_map_lower_eraseP ['n', 'o', 'w'] (by decide) hnow
  unfold withoutModifiers
  dsimp only
  split <;> split <;> simp only [hn, hw]

/-- The words that are left set off the same idioms. -/
theorem idioms_scan_bagOf (o : Options) (tokens : List Text) :
    (Trigger.scan (bagOf o tokens)).idioms = (Trigger.scan tokens).idioms := by
  have key : ∀ w : Text, ['n', 'o', 't'] ≠ w → ['n', 'o', 'w'] ≠ w →
      ((bagOf o tokens).map Text.lower).contains w = (tokens.map Text.lower).contains w := by
    intro w hnot hnow
    rw [Bool.eq_iff_iff, List.contains_iff_mem, List.contains_iff_mem]
    exact mem_map_lower_withoutModifiers hnot hnow _ _
  simp only [Trigger.scan]
  rw [key ['w', 'i', 't', 'h'] (by decide) (by decide), key ['o', 'n'] (by decide) (by decide),
    key ['w', 'a', 'n', 't', 's'] (by decide) (by decide), key ['a'] (by decide) (by decide),
    key ['t', 'h', 'e'] (by decide) (by decide)]

/-! ### Filters with a memory -/

section Memory

variable {μ : Type} {filter : μ → List Text → Bool × μ}

/-- A filter that answers as `keep` does, whatever it remembers, judges as `keep` does. -/
theorem considerWith_eq (hfilter : ∀ memory words, (filter memory words).1 = keep words)
    (s : Search) (memory : μ) (words : List Text) :
    Search.considerWith g idioms m filter (s, memory) words
      = (s.consider g idioms m keep words).map (·, (filter memory words).2) := by
  simp only [Search.considerWith, Search.consider, hfilter]

/-- What it remembers does not change what the search finds. -/
theorem foldlM_considerWith (hfilter : ∀ memory words, (filter memory words).1 = keep words)
    (s : Search) (memory : μ) (ps : List (List Text)) :
    ps.foldlM (Search.considerWith g idioms m filter) (s, memory)
      = (ps.foldlM (Search.consider g idioms m keep) s).map
          (·, ps.foldl (fun memory words => (filter memory words).2) memory) := by
  induction ps generalizing s memory with
  | nil => rfl
  | cons p ps ih =>
    rw [List.foldlM_cons, List.foldlM_cons, considerWith_eq hfilter]
    rcases s.consider g idioms m keep p with fault | s'
    · rfl
    · exact ih s' (filter memory p).2

end Memory

/-! ### Runs by their exits -/

section Exits

variable {μ : Type} {filter : μ → List Text → Bool × μ} {memory : μ} {o : Options}
  {tokens : List Text}

/-- Without words there is nothing to arrange. -/
theorem runWith_of_bag_eq_nil (h : bagOf o tokens = []) :
    runWith g filter memory o tokens
      = .ok (⟨[], modifiersOf o tokens, 0, 0, 0, []⟩, memory) := by
  unfold runWith
  simp [h]

/-- An obstacle ends the run before anything is arranged. -/
theorem runWith_of_obstacle {e : GenerateError} (hbag : bagOf o tokens ≠ [])
    (h : obstacle? g o (bagOf o tokens) = some e) :
    runWith g filter memory o tokens = .error e := by
  unfold runWith
  dsimp only
  rw [if_neg (by simpa using hbag), h]

/-- Where nothing stands against it, all arrangements are judged. -/
theorem runWith_of_unobstructed (hbag : bagOf o tokens ≠ [])
    (h : obstacle? g o (bagOf o tokens) = none) :
    runWith g filter memory o tokens
      = ((LinkGrammar.arrangements (bagOf o tokens)).foldlM
          (Search.considerWith g (Trigger.scan tokens).idioms (modifiersOf o tokens) filter)
          (Search.start, memory)).map
        fun (s, memory) => (ofSearch (modifiersOf o tokens) (bagOf o tokens) s, memory) := by
  unfold runWith
  dsimp only
  rw [if_neg (by simpa using hbag), h, visitArrangements_eq]

theorem run_of_bag_eq_nil (h : bagOf o tokens = []) :
    run g keep o tokens = .ok ⟨[], modifiersOf o tokens, 0, 0, 0, []⟩ := by
  unfold run
  rw [runWith_of_bag_eq_nil h]
  rfl

theorem run_of_obstacle {e : GenerateError} (hbag : bagOf o tokens ≠ [])
    (h : obstacle? g o (bagOf o tokens) = some e) : run g keep o tokens = .error e := by
  unfold run
  rw [runWith_of_obstacle hbag h]
  rfl

/-- The filter without a memory sees and judges them all too. -/
theorem run_of_unobstructed (hbag : bagOf o tokens ≠ [])
    (h : obstacle? g o (bagOf o tokens) = none) :
    run g keep o tokens
      = ((LinkGrammar.arrangements (bagOf o tokens)).foldlM
          (Search.consider g (Trigger.scan tokens).idioms (modifiersOf o tokens) keep)
          Search.start).map (ofSearch (modifiersOf o tokens) (bagOf o tokens)) := by
  have hfilter : ∀ memory words, (memoryless keep memory words).1 = keep words := fun _ _ => rfl
  unfold run
  rw [runWith_of_unobstructed hbag h, foldlM_considerWith hfilter]
  rcases (LinkGrammar.arrangements (bagOf o tokens)).foldlM _ Search.start with e | s <;> rfl

/-- A filter that answers as `keep` does makes the run that `keep` makes, and remembers what
it remembers of all arrangements of the bag. -/
theorem runWith_eq_run (hfilter : ∀ memory words, (filter memory words).1 = keep words)
    (hbag : bagOf o tokens ≠ []) :
    runWith g filter memory o tokens
      = (run g keep o tokens).map (·, (LinkGrammar.arrangements (bagOf o tokens)).foldl
          (fun memory words => (filter memory words).2) memory) := by
  rcases hobstacle : obstacle? g o (bagOf o tokens) with - | e
  · rw [runWith_of_unobstructed hbag hobstacle, run_of_unobstructed hbag hobstacle,
      foldlM_considerWith hfilter]
    rcases (LinkGrammar.arrangements (bagOf o tokens)).foldlM _ Search.start with e | s <;> rfl
  · rw [runWith_of_obstacle hbag hobstacle, run_of_obstacle hbag hobstacle]
    rfl

end Exits

/-! ### Finished runs -/

/-- What a run that finished over a bag with words has recorded. -/
theorem exists_records_of_run {o : Options} {tokens : List Text} {r : Generation}
    (h : run g keep o tokens = .ok r) (hbag : bagOf o tokens ≠ []) :
    ∃ s, Records g (Trigger.scan tokens).idioms (modifiersOf o tokens) keep
        (LinkGrammar.arrangements (bagOf o tokens)) s ∧
      r = ofSearch (modifiersOf o tokens) (bagOf o tokens) s := by
  rcases hobstacle : obstacle? g o (bagOf o tokens) with - | e
  · rw [run_of_unobstructed hbag hobstacle] at h
    obtain ⟨s, hs, rfl⟩ := map_eq_ok.1 h
    exact ⟨s, by simpa using Records.start.foldlM hs, rfl⟩
  · rw [run_of_obstacle hbag hobstacle] at h
    cases h

/-- A run reports the modifiers that count. -/
theorem modifiers_of_run {r : Generation} (h : run g keep o tokens = .ok r) :
    r.modifiers = modifiersOf o tokens := by
  by_cases hnil : bagOf o tokens = []
  · rw [run_of_bag_eq_nil hnil] at h
    cases h
    rfl
  · obtain ⟨s, -, rfl⟩ := exists_records_of_run h hnil
    rfl

/-- The sentences of a run that finished. -/
theorem mem_sentences_of_run {r : Generation} (h : run g keep o tokens = .ok r)
    (hbag : bagOf o tokens ≠ []) {s : Text} :
    s ∈ r.sentences ↔ ∃ p, p.Perm (bagOf o tokens) ∧
      Passes g (Trigger.scan tokens).idioms keep p ∧
        Sentence.render (modifiersOf o tokens) p = s := by
  obtain ⟨found, hfound, rfl⟩ := exists_records_of_run h hbag
  rw [ofSearch, Sentence.mem_sorted, hfound.found]
  simp [mem_arrangements, and_assoc]

/-- The same without a look at the bag: no words are no sentence. -/
theorem mem_sentences_iff_of_run {r : Generation} (h : run g keep o tokens = .ok r) {s : Text} :
    s ∈ r.sentences ↔ ∃ p, p.Perm (bagOf o tokens) ∧
      Passes g (Trigger.scan tokens).idioms keep p ∧
        Sentence.render (modifiersOf o tokens) p = s := by
  by_cases hbag : bagOf o tokens = []
  · rw [run_of_bag_eq_nil hbag] at h
    cases h
    refine ⟨fun hs => absurd hs List.not_mem_nil, ?_⟩
    rintro ⟨p, hp, ⟨-, haccepts⟩, -⟩
    rw [hbag, List.perm_nil] at hp
    subst hp
    cases haccepts
  · exact mem_sentences_of_run h hbag

/-- **A run finds exactly the sentences of its bag.**  They are the texts of the
permutations that pass, the counters count these permutations and those refused by the
filter, and the set of sentences is given in ascending order. -/
theorem run_exact {o : Options} {tokens : List Text} {r : Generation}
    (h : run g keep o tokens = .ok r) :
    let bag := bagOf o tokens
    let idioms := (Trigger.scan bag).idioms
    (bag = [] → r.sentences = [] ∧ r.arrangements = 0 ∧ r.accepted = 0 ∧ r.filtered = 0) ∧
    (bag ≠ [] →
      (∀ s, s ∈ r.sentences ↔
        ∃ p, p.Perm bag ∧ Passes g idioms keep p ∧ Sentence.render r.modifiers p = s) ∧
      r.sentences.Pairwise (· < ·) ∧
      r.accepted = {p | p.Perm bag ∧ Passes g idioms keep p}.ncard ∧
      r.filtered = {p | p.Perm bag ∧ keep p = false}.ncard) := by
  intro bag idioms
  refine ⟨fun hbag => ?_, fun hbag => ?_⟩
  · rw [run_of_bag_eq_nil hbag] at h
    cases h
    exact ⟨rfl, rfl, rfl, rfl⟩
  · -- the search looks for idioms in all of the tokens, modifiers included
    have hidioms : (Trigger.scan tokens).idioms = idioms := (idioms_scan_bagOf o tokens).symm
    obtain ⟨s, hs, rfl⟩ := exists_records_of_run h hbag
    rw [hidioms] at hs
    refine ⟨fun t => ?_, ?_, ?_, ?_⟩
    · rw [ofSearch, Sentence.mem_sorted, hs.found]
      simp [mem_arrangements, and_assoc, bag]
    · exact Sentence.pairwise_lt_sorted _
    · rw [ofSearch, hs.accepted]
      exact length_filter_arrangements bag _
    · rw [ofSearch, hs.filtered]
      exact length_filter_arrangements bag _

/-- `a`, `cat` and `sat`, each with one rule. -/
def catGrammar : Grammar where
  rules w :=
    let rule (formula : Text) := (Rule.ofText formula).toOption.toList
    if w = ['a'] then rule ['D', '+']
    else if w = ['c', 'a', 't'] then rule ['D', '-', ' ', '&', ' ', 'S', '+']
    else if w = ['s', 'a', 't'] then rule ['S', '-']
    else []
  tags _ := []

/-- The three words and a `not` among them. -/
def catTokens : List Text := [['c', 'a', 't'], ['n', 'o', 't'], ['s', 'a', 't'], ['a']]

/-- Refuse what opens with `sat`. -/
def notSatFirst (words : List Text) : Bool := words.head? ≠ some ['s', 'a', 't']

theorem run_exact_cat :
    run catGrammar notSatFirst .default catTokens
      = .ok ⟨["Not a cat sat.".toList], ⟨true, false⟩, 6, 1, 2, []⟩ ∧
    {p | p.Perm [['c', 'a', 't'], ['s', 'a', 't'], ['a']] ∧
      Passes catGrammar ⟨false, false, false, true⟩ notSatFirst p}.ncard = 1 := by
  have h : run catGrammar notSatFirst .default catTokens
      = .ok ⟨["Not a cat sat.".toList], ⟨true, false⟩, 6, 1, 2, []⟩ := by cbv
  have hbag : bagOf .default catTokens ≠ [] := by decide
  obtain ⟨-, -, haccepted, -⟩ := (run_exact h).2 hbag
  exact ⟨h, haccepted.symm⟩

end LinkGrammar.Generation
