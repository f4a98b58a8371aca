/-
LinkGrammar/Proofs/Generation/Reordering.lean

The same tokens in another order.

The arrangements of a bag do not depend on its order, but the bag does on that of the
tokens: of several spellings of a modifier the first is taken out.  The words that are left
are the same but for the case of modifiers, so the arrangements of both runs correspond, are
judged alike, and give sentences that differ in case only.  Where the same spellings are taken
out, the results are the same.
-/
import Mathlib
import LinkGrammar.Proofs.Generation.Outcome
import LinkGrammar.Proofs.Generation.Spelling

namespace LinkGrammar.Generation

open Text (fold)

variable {g : Grammar} {idioms : Idioms} {m : Modifiers} {keep : List Text → Bool} {o : Options}
  {tokens tokens' : List Text}

/-! ### What is taken out -/

/-- The first token that is `word` in some case, if there is one. -/
def first (word : Text) (tokens : List Text) : List Text :=
  (tokens.find? (Text.sameIgnoringAsciiCase · word)).toList

/-- The modifiers that are taken out, as the tokens spell them. -/
def taken (m : Modifiers) (tokens : List Text) : List Text :=
  (if m.negated then first ['n', 'o', 't'] tokens else []) ++
    if m.present then first ['n', 'o', 'w'] tokens else []

theorem perm_find?_append_eraseP {α : Type} (p : α → Bool) (l : List α) :
    l.Perm ((l.find? p).toList ++ l.eraseP p) := by
  induction l with
  | nil => exact .nil
  | cons a l ih =>
    by_cases ha : p a = true
    · rw [List.find?_cons_of_pos ha, List.eraseP_cons_of_pos ha]
      exact .refl _
    · rw [List.find?_cons_of_neg ha, List.eraseP_cons_of_neg ha]
      exact (ih.cons a).trans List.perm_middle.symm

/-- Taking out the first of one kind does not change which is the first of another. -/
theorem find?_eraseP {α : Type} {p q : α → Bool} (h : ∀ a, q a = true → p a = false)
    (l : List α) : (l.eraseP p).find? q = l.find? q := by
  induction l with
  | nil => rfl
  | cons a l ih =>
    by_cases ha : p a = true
    · have hq : ¬q a = true := fun hqa => by simp [h a hqa] at ha
      rw [List.eraseP_cons_of_pos ha, List.find?_cons_of_neg hq]
    · rw [List.eraseP_cons_of_neg ha, List.find?_cons, List.find?_cons, ih]

theorem perm_first_append (word : Text) (tokens : List Text) :
    tokens.Perm (first word tokens ++ tokens.eraseP (Text.sameIgnoringAsciiCase · word)) :=
  perm_find?_append_eraseP _ tokens

/-- The tokens are the modifiers taken out and the words that are left. -/
theorem perm_taken_append (m : Modifiers) (tokens : List Text) :
    tokens.Perm (taken m tokens ++ withoutModifiers m tokens) := by
  rcases m with ⟨- | -, - | -⟩
  · exact .refl _
  · exact perm_first_append _ tokens
  · show tokens.Perm ((first _ tokens ++ []) ++ tokens.eraseP _)
    rw [List.append_nil]
    exact perm_first_append _ tokens
  · -- a `now` is no `not`, so it does not matter that `not` is taken out before
    have hother : ∀ t, Text.sameIgnoringAsciiCase t ['n', 'o', 'w'] = true →
        Text.sameIgnoringAsciiCase t ['n', 'o', 't'] = false := by
      intro t ht
      rw [Bool.eq_false_iff, Ne, Text.sameIgnoringAsciiCase_iff,
        Text.sameIgnoringAsciiCase_iff.1 ht]
      decide
    have hnow : first ['n', 'o', 'w'] (tokens.eraseP (Text.sameIgnoringAsciiCase · ['n', 'o', 't']))
        = first ['n', 'o', 'w'] tokens :=
      congrArg Option.toList (find?_eraseP hother tokens)
    show tokens.Perm ((first ['n', 'o', 't'] tokens ++ first ['n', 'o', 'w'] tokens) ++
      (tokens.eraseP _).eraseP _)
    rw [List.append_assoc, ← hnow]
    exact (perm_first_append _ tokens).trans ((perm_first_append _ _).append_left _)

/-- The first `word` is found in every order, maybe in another case. -/
theorem map_lowerModifier_first {word : Text} (hword : word ∈ modifierWords)
    (h : tokens.Perm tokens') :
    (first word tokens).map lowerModifier = (first word tokens').map lowerModifier := by
  have hmodifier : ∀ {l : List Text} {t}, l.find? (Text.sameIgnoringAsciiCase · word) = some t →
      lowerModifier t = word := by
    intro l t ht
    have hsame : Text.sameIgnoringAsciiCase t word = true := by simpa using List.find?_some ht
    exact lowerModifier_of_fold_eq hword (Text.sameIgnoringAsciiCase_iff.1 hsame)
  have hnone : ∀ {l l' : List Text}, l.Perm l' →
      l.find? (Text.sameIgnoringAsciiCase · word) = none →
        l'.find? (Text.sameIgnoringAsciiCase · word) = none := by
    intro l l' hl hfind
    rw [List.find?_eq_none] at hfind ⊢
    exact fun t ht => hfind t (hl.mem_iff.2 ht)
  unfold first
  rcases ht : tokens.find? (Text.sameIgnoringAsciiCase · word) with - | t
  · rw [hnone h ht]
  · rcases ht' : tokens'.find? (Text.sameIgnoringAsciiCase · word) with - | t'
    · cases ht.symm.trans (hnone h.symm ht')
    · show [lowerModifier t] = [lowerModifier t']
      rw [hmodifier ht, hmodifier ht']

/-- In another order the same modifiers are taken out, maybe in another case. -/
theorem map_lowerModifier_taken (m : Modifiers) (h : tokens.Perm tokens') :
    (taken m tokens).map lowerModifier = (taken m tokens').map lowerModifier := by
  have hnot : ['n', 'o', 't'] ∈ modifierWords := by decide
  have hnow : ['n', 'o', 'w'] ∈ modifierWords := by decide
  unfold taken
  rw [List.map_append, List.map_append]
  congr 1
  · split
    · exact map_lowerModifier_first hnot h
    · rfl
  · split
    · exact map_lowerModifier_first hnow h
    · rfl

/-! ### The bag -/

theorem scan_congr (h : tokens.Perm tokens') : Trigger.scan tokens = Trigger.scan tokens' := by
  unfold Trigger.scan
  simp only [(h.map Text.lower).contains_eq]

theorem modifiersOf_of_scan_eq (o : Options) (h : Trigger.scan tokens = Trigger.scan tokens') :
    modifiersOf o tokens = modifiersOf o tokens' := by
  unfold modifiersOf
  rw [h]

theorem modifiersOf_congr (o : Options) (h : tokens.Perm tokens') :
    modifiersOf o tokens = modifiersOf o tokens' :=
  modifiersOf_of_scan_eq o (scan_congr h)

theorem perm_taken_append_bagOf (o : Options) (h : tokens.Perm tokens') :
    (taken (modifiersOf o tokens) tokens ++ bagOf o tokens).Perm
      (taken (modifiersOf o tokens) tokens' ++ bagOf o tokens') := by
  have hbag : bagOf o tokens' = withoutModifiers (modifiersOf o tokens) tokens' := by
    rw [modifiersOf_congr o h]
    rfl
  rw [hbag]
  exact ((perm_taken_append _ tokens).symm.trans h).trans (perm_taken_append _ tokens')

/-- But for the case of modifiers, the words that are left are the same. -/
theorem perm_map_bagOf (o : Options) (h : tokens.Perm tokens') :
    ((bagOf o tokens).map lowerModifier).Perm ((bagOf o tokens').map lowerModifier) := by
  have hall := (perm_taken_append_bagOf o h).map lowerModifier
  rw [List.map_append, List.map_append, map_lowerModifier_taken _ h] at hall
  exact (List.perm_append_left_iff _).1 hall

/-- If the same spellings are taken out, the words that are left are the same. -/
theorem perm_bagOf (h : tokens.Perm tokens')
    (htaken : taken (modifiersOf o tokens) tokens = taken (modifiersOf o tokens) tokens') :
    (bagOf o tokens).Perm (bagOf o tokens') := by
  have hall := perm_taken_append_bagOf o h
  rw [htaken] at hall
  exact (List.perm_append_left_iff _).1 hall

/-! ### Corresponding arrangements -/

/-- Each arrangement has a counterpart in the other bag, the same but for the case of
modifiers. -/
theorem exists_perm_map_eq {bag bag' : List Text}
    (h : (bag.map lowerModifier).Perm (bag'.map lowerModifier)) {p : List Text}
    (hp : p.Perm bag) :
    ∃ p' : List Text, p'.Perm bag' ∧ p'.map lowerModifier = p.map lowerModifier := by
  have hmap : (p.map lowerModifier).Perm (bag'.map lowerModifier) := (hp.map _).trans h
  obtain ⟨p', heq, hp'⟩ : Relation.Comp (· = List.map lowerModifier ·) List.Perm
      (p.map lowerModifier) bag' := by
    rw [List.eq_map_comp_perm]
    exact hmap
  exact ⟨p', hp', heq.symm⟩

theorem accepts_congr {p p' : List Text} (h : p'.map lowerModifier = p.map lowerModifier) :
    g.accepts idioms p' = g.accepts idioms p := by
  rw [← accepts_map_lowerModifier, h, accepts_map_lowerModifier]

/-- The other bag is refused only if this one is. -/
theorem obstacle?_eq_none_of_perm {bag bag' : List Text}
    (h : (bag.map lowerModifier).Perm (bag'.map lowerModifier))
    (hnone : obstacle? g o bag = none) : obstacle? g o bag' = none := by
  rw [obstacle?_eq_none_iff] at hnone ⊢
  obtain ⟨hlimit, hknown⟩ := hnone
  constructor
  · intro limit hlimit'
    have hlength : bag.length = bag'.length := by simpa using h.length_eq
    rw [← hlength]
    exact hlimit limit hlimit'
  · intro w' hw'
    obtain ⟨w, hw, heq⟩ := List.mem_map.1 (h.mem_iff.2 (List.mem_map_of_mem hw'))
    rw [← lower_lowerModifier, ← heq, lower_lowerModifier]
    exact hknown w hw

/-! ### Runs in another order -/

theorem bagOf_eq_nil_of_perm (h : tokens.Perm tokens') (hbag : bagOf o tokens = []) :
    bagOf o tokens' = [] := by
  have hperm := perm_map_bagOf o h
  rw [hbag] at hperm
  exact List.map_eq_nil_iff.1 hperm.nil_eq.symm

/-- If a run ends well, it does so for every order of the tokens. -/
theorem exists_generate_of_perm (h : tokens.Perm tokens')
    (hok : ∃ r, generate g o tokens = .ok r) : ∃ r, generate g o tokens' = .ok r := by
  unfold generate at hok ⊢
  rw [exists_run_eq_ok] at hok ⊢
  rcases hok with hbag | ⟨hnone, haccepts⟩
  · exact .inl (bagOf_eq_nil_of_perm h hbag)
  · have hperm := perm_map_bagOf o h
    refine .inr ⟨obstacle?_eq_none_of_perm hperm hnone, fun p' hp' _ => ?_⟩
    obtain ⟨p, hp, heq⟩ := exists_perm_map_eq hperm.symm hp'
    rw [← scan_congr h, ← accepts_congr heq]
    exact haccepts p hp rfl

/-- Every sentence is found from the tokens in any order, up to its case. -/
theorem mem_map_fold_of_perm (h : tokens.Perm tokens') {r r' : Generation}
    (hr : generate g o tokens = .ok r) (hr' : generate g o tokens' = .ok r') {t : Text}
    (ht : t ∈ r.sentences.map fold) : t ∈ r'.sentences.map fold := by
  obtain ⟨s, hs, rfl⟩ := List.mem_map.1 ht
  obtain ⟨p, hp, ⟨-, haccepts⟩, rfl⟩ := (mem_sentences_iff_of_run hr).1 hs
  obtain ⟨p', hp', heq⟩ := exists_perm_map_eq (perm_map_bagOf o h) hp
  have hpasses : Passes g (Trigger.scan tokens').idioms (fun _ => true) p' := by
    refine ⟨rfl, ?_⟩
    rw [← scan_congr h, accepts_congr heq]
    exact haccepts
  have hfold : fold (Sentence.render (modifiersOf o tokens') p')
      = fold (Sentence.render (modifiersOf o tokens) p) := by
    rw [← modifiersOf_congr o h]
    exact Sentence.fold_render_congr (map_fold_congr heq)
  rw [← hfold]
  exact List.mem_map_of_mem ((mem_sentences_iff_of_run hr').2 ⟨p', hp', hpasses, rfl⟩)

/-! ### Runs over the same words -/

theorem perm_arrangements {bag bag' : List Text} (h : bag.Perm bag') :
    (LinkGrammar.arrangements bag).Perm (LinkGrammar.arrangements bag') := by
  apply (List.perm_ext_iff_of_nodup (nodup_arrangements bag) (nodup_arrangements bag')).2
  intro p
  rw [mem_arrangements, mem_arrangements]
  exact ⟨(·.trans h), (·.trans h.symm)⟩

theorem sorted_congr {l l' : List Text} (h : ∀ s, s ∈ l ↔ s ∈ l') :
    Sentence.sorted l = Sentence.sorted l' := by
  apply (Sentence.pairwise_lt_sorted l).eq_of_mem_iff (Sentence.pairwise_lt_sorted l')
  intro s
  rw [Sentence.mem_sorted, Sentence.mem_sorted]
  exact h s

/-- Runs over the same words in another order find the same. -/
theorem run_congr_of_perm_bagOf (h : tokens.Perm tokens')
    (hbag : (bagOf o tokens).Perm (bagOf o tokens')) {r r' : Generation}
    (hr : run g keep o tokens = .ok r) (hr' : run g keep o tokens' = .ok r') :
    r.sentences = r'.sentences ∧ r.arrangements = r'.arrangements ∧ r.accepted = r'.accepted := by
  by_cases hnil : bagOf o tokens = []
  · rw [run_of_bag_eq_nil hnil] at hr
    rw [run_of_bag_eq_nil (bagOf_eq_nil_of_perm h hnil)] at hr'
    cases hr
    cases hr'
    exact ⟨rfl, rfl, rfl⟩
  · have hnil' : bagOf o tokens' ≠ [] := fun hnil' => hnil (bagOf_eq_nil_of_perm h.symm hnil')
    obtain ⟨s, hs, rfl⟩ := exists_records_of_run hr hnil
    obtain ⟨s', hs', rfl⟩ := exists_records_of_run hr' hnil'
    rw [← scan_congr h, ← modifiersOf_congr o h] at hs'
    have harr := perm_arrangements hbag
    refine ⟨?_, ?_, ?_⟩
    · rw [ofSearch, ofSearch, hs.found, hs'.found]
      apply sorted_congr
      intro t
      rw [List.mem_reverse, List.mem_reverse]
      exact ((harr.filter _).map _).mem_iff
    · rw [ofSearch, ofSearch, hs.arrangements, hs'.arrangements]
      exact harr.length_eq
    · rw [ofSearch, ofSearch, hs.accepted, hs'.accepted]
      exact (harr.filter _).length_eq

/-- **The order of the tokens.**  In every order a run ends well or in none.  It takes out the
same modifiers and finds the same sentences up to their case.  Where the modifiers that are
taken out are spelled alike, the sentences and the counts are the same. -/
theorem generate_of_perm (g : Grammar) (o : Options) (h : tokens.Perm tokens') :
    ((∃ r, generate g o tokens = .ok r) ↔ ∃ r, generate g o tokens' = .ok r) ∧
    ∀ r r', generate g o tokens = .ok r → generate g o tokens' = .ok r' →
      r.modifiers = r'.modifiers ∧
      (∀ t, t ∈ r.sentences.map fold ↔ t ∈ r'.sentences.map fold) ∧
      (taken r.modifiers tokens = taken r.modifiers tokens' →
        r.sentences = r'.sentences ∧ r.arrangements = r'.arrangements ∧
          r.accepted = r'.accepted) := by
  refine ⟨⟨exists_generate_of_perm h, exists_generate_of_perm h.symm⟩, ?_⟩
  intro r r' hr hr'
  refine ⟨?_, fun t => ?_, fun htaken => ?_⟩
  · rw [modifiers_of_run hr, modifiers_of_run hr', modifiersOf_congr o h]
  · exact ⟨mem_map_fold_of_perm h hr hr', mem_map_fold_of_perm h.symm hr' hr⟩
  · rw [modifiers_of_run hr] at htaken
    exact run_congr_of_perm_bagOf h (perm_bagOf h htaken) hr hr'

/-- `a` links to `cat`, and `not` links to it from either side. -/
def notGrammar : Grammar where
  rules w :=
    let rule (formula : String) := (Rule.ofText formula.toList).toOption.toList
    if w = ['a'] then rule "D+"
    else if w = ['c', 'a', 't'] then rule "(M- or D-) & N+"
    else if w = ['n', 'o', 't'] then rule "M+ or N-"
    else []
  tags _ := []

/-- One of two words `not` is taken out, and they are spelled alike. -/
theorem generate_of_perm_notNot :
    let tokens : List Text := [['n', 'o', 't'], ['a'], ['c', 'a', 't'], ['n', 'o', 't']]
    let tokens' : List Text := [['c', 'a', 't'], ['n', 'o', 't'], ['n', 'o', 't'], ['a']]
    ∃ r r', generate notGrammar .default tokens = .ok r ∧
      generate notGrammar .default tokens' = .ok r' ∧
      r.sentences = r'.sentences ∧ r.arrangements = r'.arrangements ∧
      r.accepted = r'.accepted := by
  intro tokens tokens'
  have hperm : tokens.Perm tokens' := by decide
  have hrun : generate notGrammar .default tokens
      = .ok ⟨["Not a cat not.".toList, "Not not a cat.".toList], ⟨true, false⟩, 6, 2, 0, []⟩ := by
    cbv
  obtain ⟨hok, hsame⟩ := generate_of_perm notGrammar .default hperm
  obtain ⟨r', hrun'⟩ := hok.1 ⟨_, hrun⟩
  obtain ⟨-, -, htaken⟩ := hsame _ r' hrun hrun'
  exact ⟨_, r', hrun, hrun', htaken (by decide)⟩

/-- Of three words `not` the first is taken out.  If it is the one in lower case, the other two
are equal, and there are fewer arrangements and sentences. -/
theorem generate_notNotNot :
    let upper : Text := ['N', 'o', 't']
    let lower : Text := ['n', 'o', 't']
    let rest : List Text := [['a'], ['c', 'a', 't']]
    (upper :: lower :: upper :: rest).Perm (lower :: upper :: upper :: rest) ∧
    generate notGrammar .default (upper :: lower :: upper :: rest)
      = .ok ⟨["Not not a cat Not.".toList, "Not not a cat not.".toList], ⟨true, false⟩,
          24, 2, 0, []⟩ ∧
    generate notGrammar .default (lower :: upper :: upper :: rest)
      = .ok ⟨["Not not a cat Not.".toList], ⟨true, false⟩, 12, 1, 0, []⟩ := by
  intro upper lower rest
  exact ⟨.swap _ _ _, by cbv, by cbv⟩

end LinkGrammar.Generation
