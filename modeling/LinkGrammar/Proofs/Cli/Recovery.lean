/-
LinkGrammar/Proofs/Cli/Recovery.lean

Sentences that are found again.

A benchmark takes a line for a bag of words.  If the line is a sentence that was generated from
tokens of small letters, its words are those tokens and in play are the same modifiers, but the
first word has a capital now.  That can change two things: if the word is a modifier, it is the
one that is taken out, whatever others there are; and if it is the article, it has become the
placeholder, which leads its sentence or none.  In both cases the sentence has an arrangement
among those of its own words (`exists_perm_capitalizeFirst`), so it is found again.
-/
import Mathlib
import LinkGrammar.Cli.Benchmark
import LinkGrammar.Proofs.Generation.Wording

namespace LinkGrammar

open Text (capitalize fold)

/-! ### The words of a line -/

namespace Cli

/-- One mark behind a word is taken away. -/
theorem trimEndMarks_concat {w : Text} {mark : Char} (hw : w.Alphabetic) (hmark : mark ∈ endMarks) :
    Text.trimEndMarks endMarks (w ++ [mark]) = w := by
  have hkeep : w.reverse.dropWhile endMarks.contains = w.reverse := by
    apply Text.dropWhile_eq_self
    intro c hc
    have halpha := hw.2 c (List.mem_reverse.1 (List.mem_of_mem_head? hc))
    rw [Bool.eq_false_iff, Ne, List.contains_iff_mem]
    intro hmem
    have key : endMarks.all (!·.isAlpha) = true := by decide
    simpa [halpha] using List.all_eq_true.1 key c hmem
  unfold Text.trimEndMarks
  rw [List.reverse_append, List.reverse_singleton, List.singleton_append,
    List.dropWhile_cons_of_pos (List.contains_iff_mem.2 hmark), hkeep, List.reverse_reverse]

/-- Words with spaces between and an end mark behind are the words of their line. -/
theorem sentenceWords_intercalate {words : List Text} (hne : words ≠ [])
    (h : ∀ w ∈ words, w.Alphabetic) {mark : Char} (hmark : mark ∈ endMarks) :
    sentenceWords ([' '].intercalate words ++ [mark]) = words := by
  obtain ⟨init, last, rfl⟩ := List.eq_nil_or_concat' words |>.resolve_left hne
  have hinit : ∀ w ∈ init, w.Alphabetic := fun w hw => h w (List.mem_append_left _ hw)
  have hlast : last.Alphabetic := h last (by simp)
  have hpieces : ∀ w ∈ init ++ [last ++ [mark]], ' ' ∉ w := by
    intro w hw
    rcases List.mem_append.1 hw with hw | hw
    · exact (hinit w hw).space_not_mem
    · have hspace : ' ' ∉ endMarks := by decide
      rw [List.mem_singleton.1 hw, List.mem_append, List.mem_singleton, not_or]
      exact ⟨hlast.space_not_mem, fun heq => hspace (heq ▸ hmark)⟩
  have hsplit : Text.splitAt ' ' ([' '].intercalate (init ++ [last]) ++ [mark])
      = init ++ [last ++ [mark]] := by
    rw [Text.intercalate_concat_append, Text.splitAt_intercalate (by simp) hpieces]
  have hfilter : (init ++ [last ++ [mark]]).filter (· ≠ []) = init ++ [last ++ [mark]] := by
    rw [List.filter_eq_self]
    intro w hw
    rcases List.mem_append.1 hw with hw | hw
    · simpa using (hinit w hw).1
    · rw [List.mem_singleton.1 hw]
      simp
  unfold sentenceWords
  simp only [hsplit, hfilter, List.getLast?_concat, List.dropLast_concat,
    trimEndMarks_concat hlast hmark, if_neg hlast.1]

end Cli

/-! ### Modifiers among recased words -/

namespace Generation

variable {g : Grammar} {idioms : Idioms} {o : Options} {m : Modifiers} {tokens : List Text}

theorem withoutModifiers_map_fold (m : Modifiers) (tokens : List Text) :
    withoutModifiers m (tokens.map fold) = (withoutModifiers m tokens).map fold := by
  have hsame : ∀ word, (Text.sameIgnoringAsciiCase · word) ∘ fold
      = (Text.sameIgnoringAsciiCase · word) :=
    fun word => funext fun t => Text.sameIgnoringAsciiCase_fold t word
  rcases m with ⟨- | -, - | -⟩
  · rfl
  all_goals simp [withoutModifiers, List.eraseP_map, hsame]

theorem mem_words_iff {w : Text} : w ∈ m.words ↔
    m.negated = true ∧ w = ['n', 'o', 't'] ∨ m.present = true ∧ w = ['n', 'o', 'w'] := by
  rcases m with ⟨- | -, - | -⟩ <;> simp [Modifiers.words, Modifiers.negation, Modifiers.now]

theorem eraseP_cons_of_fold_eq {t word : Text} (hword : word ∈ modifierWords)
    (h : fold t = word) (rest : List Text) :
    (t :: rest).eraseP (Text.sameIgnoringAsciiCase · word) = rest := by
  apply List.eraseP_cons_of_pos
  rw [Text.sameIgnoringAsciiCase_iff, h, fold_of_mem_modifierWords hword]

theorem eraseP_cons_of_fold_ne {t word : Text} (hword : word ∈ modifierWords)
    (h : fold t ≠ word) (rest : List Text) :
    (t :: rest).eraseP (Text.sameIgnoringAsciiCase · word)
      = t :: rest.eraseP (Text.sameIgnoringAsciiCase · word) := by
  apply List.eraseP_cons_of_neg
  rw [Text.sameIgnoringAsciiCase_iff, fold_of_mem_modifierWords hword]
  exact h

/-- A first word that is a modifier is taken out. -/
theorem withoutModifiers_cons_of_mem {t : Text} (h : fold t ∈ m.words) (rest : List Text) :
    withoutModifiers m (t :: rest) ⊆ rest := by
  have hnot : ['n', 'o', 't'] ∈ modifierWords := by decide
  have hnow : ['n', 'o', 'w'] ∈ modifierWords := by decide
  unfold withoutModifiers
  dsimp only
  rcases mem_words_iff.1 h with ⟨hm, ht⟩ | ⟨hm, ht⟩
  · rw [if_pos hm, eraseP_cons_of_fold_eq hnot ht]
    split
    · exact List.eraseP_subset
    · exact List.Subset.refl _
  · rw [if_pos hm]
    split
    · -- it is passed over when `not` is taken out
      have hne : fold t ≠ ['n', 'o', 't'] := by
        rw [ht]
        decide
      rw [eraseP_cons_of_fold_ne hnot hne, eraseP_cons_of_fold_eq hnow ht]
      exact List.eraseP_subset
    · rw [eraseP_cons_of_fold_eq hnow ht]
      exact List.Subset.refl _

/-- A first word that is no modifier stays where it is. -/
theorem withoutModifiers_cons_of_not_mem {t : Text} (h : fold t ∉ m.words) (rest : List Text) :
    withoutModifiers m (t :: rest) = t :: withoutModifiers m rest := by
  have hnot : ['n', 'o', 't'] ∈ modifierWords := by decide
  have hnow : ['n', 'o', 'w'] ∈ modifierWords := by decide
  rw [mem_words_iff, not_or, not_and, not_and] at h
  rcases m with ⟨- | -, - | -⟩
  · rfl
  · exact eraseP_cons_of_fold_ne hnow (h.2 rfl) rest
  · exact eraseP_cons_of_fold_ne hnot (h.1 rfl) rest
  · exact (congrArg _ (eraseP_cons_of_fold_ne hnot (h.1 rfl) rest)).trans
      (eraseP_cons_of_fold_ne hnow (h.2 rfl) _)

/-! ### Runs over recased words -/

theorem mem_of_mem_withoutModifiers {t : Text} (h : t ∈ withoutModifiers m tokens) : t ∈ tokens :=
  (perm_taken_append m tokens).mem_iff.2 (List.mem_append_right _ h)

theorem scan_map_fold (h : ∀ t ∈ tokens, t.Alphabetic) :
    Trigger.scan (tokens.map fold) = Trigger.scan tokens := by
  have hlower : (tokens.map fold).map Text.lower = tokens.map Text.lower := by
    rw [List.map_map]
    refine List.map_congr_left fun t ht => ?_
    show Text.lower (fold t) = _
    rw [(h t ht).lower_eq, (h t ht).fold.lower_eq, Text.fold_fold]
  unfold Trigger.scan
  rw [hlower]

theorem bagOf_map_fold (o : Options) (h : ∀ t ∈ tokens, t.Alphabetic) :
    bagOf o (tokens.map fold) = (bagOf o tokens).map fold := by
  unfold bagOf
  rw [modifiersOf_of_scan_eq o (scan_map_fold h), withoutModifiers_map_fold]

/-- Words are judged alike in lower case, unless one is the placeholder. -/
theorem accepts_map_fold {p : List Text} (h : ∀ t ∈ p, t.Alphabetic)
    (htail : placeholder ∉ p.tail) : g.accepts idioms (p.map fold) = g.accepts idioms p := by
  apply accepts_congr_words
  · rw [List.map_map]
    refine List.map_congr_left fun t ht => ?_
    show Text.lower (Text.trim (fold t)) = _
    rw [(h t ht).trim_eq, (h t ht).fold.trim_eq, (h t ht).lower_eq, (h t ht).fold.lower_eq,
      Text.fold_fold]
  · have hfold : placeholder ∉ (p.map fold).tail := by
      rw [← List.map_tail]
      intro hmem
      obtain ⟨t, -, ht⟩ := List.mem_map.1 hmem
      have : fold placeholder = placeholder := by rw [← ht, Text.fold_fold]
      exact absurd this (by decide)
    rw [Bool.eq_iff_iff, List.contains_iff_mem, List.contains_iff_mem]
    exact iff_of_false hfold htail

/-- If a run over words in lower case ends well, so does a run over the words. -/
theorem exists_generate_of_map_fold (h : ∀ t ∈ tokens, t.Alphabetic)
    (hok : ∃ r, generate g o (tokens.map fold) = .ok r) : ∃ r, generate g o tokens = .ok r := by
  unfold generate at hok ⊢
  rw [exists_run_eq_ok, bagOf_map_fold o h, scan_map_fold h] at hok
  rw [exists_run_eq_ok]
  have hbag : ∀ t ∈ bagOf o tokens, t.Alphabetic := fun t ht => h t (mem_of_mem_withoutModifiers ht)
  rcases hok with hnil | ⟨hnone, haccepts⟩
  · exact .inl (List.map_eq_nil_iff.1 hnil)
  · refine .inr ⟨?_, fun p hp _ => ?_⟩
    · rw [obstacle?_eq_none_iff, List.length_map] at hnone
      rw [obstacle?_eq_none_iff]
      refine ⟨hnone.1, fun t ht => ?_⟩
      have hrules := hnone.2 (fold t) (List.mem_map_of_mem ht)
      rw [(hbag t ht).fold.lower_eq, Text.fold_fold] at hrules
      rw [(hbag t ht).lower_eq]
      exact hrules
    · by_cases htail : placeholder ∈ p.tail
      · refine ⟨false, ?_⟩
        unfold Grammar.accepts
        rw [if_pos (List.contains_iff_mem.2 htail)]
      · rw [← accepts_map_fold (fun t ht => hbag t (hp.mem_iff.1 ht)) htail]
        exact haccepts _ (hp.map fold) rfl

end Generation

namespace Sentence

variable {m : Modifiers} {p words : List Text}

/-- Unless the first word of a sentence is a modifier, the arrangement opens with it, and another
word can take its place in both. -/
theorem Spliced.replace_first {w w' : Text} (h : Spliced m p (w :: words)) (hw : w ∉ m.words)
    (hcase : isArticle w' = isArticle w) :
    ∃ rest, p = w :: rest ∧ Spliced m (w' :: rest) (w' :: words) := by
  generalize hall : w :: words = all at h
  cases h with
  | plain habsent hm =>
    subst hall
    obtain ⟨hfirst, hrest⟩ := List.forall_mem_cons.1 habsent
    exact ⟨words, rfl, .plain (List.forall_mem_cons.2 ⟨hcase.trans hfirst, hrest⟩) hm⟩
  | @leading article next after harticle =>
    rcases hfront : m.now ++ m.negation with - | ⟨v, front⟩
    · rw [hfront] at hall
      obtain ⟨rfl, rfl⟩ := List.cons_eq_cons.1 hall
      have hleading : Spliced m (w' :: next :: after) _ := .leading (hcase.trans harticle)
      rw [hfront] at hleading
      exact ⟨next :: after, rfl, hleading⟩
    · -- the first word is a modifier then
      rw [hfront] at hall
      obtain ⟨rfl, -⟩ := List.cons_eq_cons.1 hall
      refine absurd (List.perm_append_comm.mem_iff.1 ?_) hw
      rw [hfront]
      exact List.mem_cons_self
  | @inner before after article next hne hbefore harticle =>
    rcases before with - | ⟨v, before⟩
    · exact absurd rfl hne
    · obtain ⟨rfl, rfl⟩ := List.cons_eq_cons.1 hall
      obtain ⟨hfirst, hbefore⟩ := List.forall_mem_cons.1 hbefore
      have hbefore' : ∀ u ∈ w' :: before, isArticle u = false :=
        List.forall_mem_cons.2 ⟨hcase.trans hfirst, hbefore⟩
      exact ⟨_, rfl, .inner (List.cons_ne_nil _ _) hbefore' harticle⟩

end Sentence

namespace Generation

open Sentence (Spliced capitalizeFirst render splice)

variable {g : Grammar} {o : Options} {m : Modifiers} {tokens p words : List Text}

/-! ### Words of small letters -/

theorem map_fold_of_small (h : ∀ t ∈ words, t.Small) : words.map fold = words :=
  (List.map_congr_left fun t ht => (h t ht).fold_eq).trans (List.map_id words)

theorem placeholder_not_mem_of_small (h : ∀ t ∈ words, t.Small) : placeholder ∉ words :=
  fun hmem => by cases (h _ hmem).2 'A' List.mem_cons_self

theorem fold_capitalize_of_small {w : Text} (h : w.Small) : fold (capitalize w) = w :=
  (Text.fold_capitalize h.alphabetic.isAscii).trans h.fold_eq

/-- Folding takes the capital away again. -/
theorem map_fold_capitalizeFirst (h : ∀ t ∈ words, t.Small) :
    (capitalizeFirst words).map fold = words := by
  rcases words with - | ⟨w, rest⟩
  · rfl
  · obtain ⟨hw, hrest⟩ := List.forall_mem_cons.1 h
    show fold (capitalize w) :: rest.map fold = w :: rest
    rw [fold_capitalize_of_small hw, map_fold_of_small hrest]

theorem alphabetic_of_mem_capitalizeFirst (h : ∀ t ∈ words, t.Small) :
    ∀ t ∈ capitalizeFirst words, t.Alphabetic := by
  rcases words with - | ⟨w, rest⟩
  · exact fun t ht => absurd ht List.not_mem_nil
  · obtain ⟨hw, hrest⟩ := List.forall_mem_cons.1 h
    exact List.forall_mem_cons.2
      ⟨hw.alphabetic.capitalize, fun t ht => (hrest t ht).alphabetic⟩

/-- The words of a line that is a sentence are as they are written there. -/
theorem sentenceWords_render (hne : splice m p ≠ []) (h : ∀ t ∈ splice m p, t.Small) :
    Cli.sentenceWords (render m p) = capitalizeFirst (splice m p) := by
  rw [Sentence.render_eq]
  apply Cli.sentenceWords_intercalate _ (alphabetic_of_mem_capitalizeFirst h)
  · split
    · decide
    · decide
  · rcases hwords : splice m p with - | ⟨w, rest⟩
    · exact absurd hwords hne
    · exact List.cons_ne_nil _ _

/-- The modifiers that are taken out of words in lower case are those that are reported. -/
theorem taken_eq_words (h : ∀ t ∈ tokens, t.Small) :
    taken (modifiersOf o tokens) tokens = (modifiersOf o tokens).words := by
  rw [← map_fold_taken, map_fold_of_small]
  intro t ht
  exact h t ((perm_taken_append _ tokens).mem_iff.2 (List.mem_append_left _ ht))

/-- The words of a sentence of small letters are its tokens. -/
theorem perm_of_spliced (hsmall : ∀ t ∈ tokens, t.Small) (hp : p.Perm (bagOf o tokens))
    (h : Spliced (modifiersOf o tokens) p words) : tokens.Perm words := by
  have htokens := (perm_taken_append (modifiersOf o tokens) tokens).trans (hp.symm.append_left _)
  rw [taken_eq_words hsmall] at htokens
  exact htokens.trans h.perm.symm

/-- Other orders of words of small letters leave the same words to arrange. -/
theorem perm_bagOf_of_small (hsmall : ∀ t ∈ tokens, t.Small) (h : tokens.Perm words) :
    (bagOf o tokens).Perm (bagOf o words) := by
  apply perm_bagOf h
  have hwords : ∀ t ∈ words, t.Small := fun t ht => hsmall t (h.mem_iff.2 ht)
  rw [taken_eq_words hsmall, modifiersOf_congr o h, taken_eq_words hwords]

/-! ### The arrangement of a sentence -/

/-- With a capital on the first of its words, a sentence has an arrangement too. -/
theorem exists_perm_capitalizeFirst (hsmall : ∀ t ∈ words, t.Small)
    (hp : p.Perm (withoutModifiers m words)) (h : Spliced m p words) :
    ∃ p' : List Text, p'.Perm (withoutModifiers m (capitalizeFirst words)) ∧ p'.map fold = p ∧
      placeholder ∉ p'.tail ∧ render m p' = render m p := by
  have hpsmall : ∀ t ∈ p, t.Small := fun t ht =>
    hsmall t (mem_of_mem_withoutModifiers (hp.mem_iff.1 ht))
  have htail : placeholder ∉ p.tail := fun hmem =>
    placeholder_not_mem_of_small hpsmall (List.mem_of_mem_tail hmem)
  rcases words with - | ⟨w, rest⟩
  · exact ⟨p, hp, map_fold_of_small hpsmall, htail, rfl⟩
  obtain ⟨hw, hrest⟩ := List.forall_mem_cons.1 hsmall
  have hfold := fold_capitalize_of_small hw
  by_cases hmem : w ∈ m.words
  · -- the word with the capital is taken out, so the bag is the same
    have hsub : withoutModifiers m (capitalize w :: rest) ⊆ rest :=
      withoutModifiers_cons_of_mem (hfold.symm ▸ hmem) rest
    have hbag : withoutModifiers m (w :: rest) = withoutModifiers m (capitalize w :: rest) := by
      calc withoutModifiers m (w :: rest)
          = withoutModifiers m ((capitalizeFirst (w :: rest)).map fold) := by
            rw [map_fold_capitalizeFirst hsmall]
        _ = (withoutModifiers m (capitalize w :: rest)).map fold := withoutModifiers_map_fold _ _
        _ = withoutModifiers m (capitalize w :: rest) :=
            map_fold_of_small fun t ht => hrest t (hsub ht)
    exact ⟨p, hbag ▸ hp, map_fold_of_small hpsmall, htail, rfl⟩
  · -- the arrangement opens with the word, which can have its capital there too
    have hcase : Sentence.isArticle (capitalize w) = Sentence.isArticle w := by
      rw [← Sentence.isArticle_fold, hfold]
    obtain ⟨after, rfl, hspliced⟩ := h.replace_first hmem hcase
    have hmap : (capitalize w :: after).map fold = w :: after :=
      map_fold_capitalizeFirst hpsmall
    have hcapital : capitalizeFirst (capitalize w :: rest) = capitalizeFirst (w :: rest) :=
      congrArg (· :: rest) hw.alphabetic.capitalize_capitalize
    rw [withoutModifiers_cons_of_not_mem (hw.fold_eq.symm ▸ hmem)] at hp
    refine ⟨capitalize w :: after, ?_, hmap, htail, ?_⟩
    · show List.Perm _ (withoutModifiers m (capitalize w :: rest))
      rw [withoutModifiers_cons_of_not_mem (hfold.symm ▸ hmem)]
      exact hp.cons_inv.cons _
    · rw [Sentence.render_eq, Sentence.render_eq, ← hspliced.eq_splice, ← h.eq_splice, hcapital,
        ← Sentence.isQuestion_map_fold, hmap]

/-- The capital does not change which modifiers and idioms are in play. -/
theorem scan_capitalizeFirst (hsmall : ∀ t ∈ words, t.Small) :
    Trigger.scan (capitalizeFirst words) = Trigger.scan words := by
  rw [← scan_map_fold (alphabetic_of_mem_capitalizeFirst hsmall), map_fold_capitalizeFirst hsmall]

/-- The capital at the front does not change the modifiers. -/
theorem modifiersOf_capitalizeFirst (o : Options) (hsmall : ∀ t ∈ words, t.Small) :
    modifiersOf o (capitalizeFirst words) = modifiersOf o words :=
  modifiersOf_of_scan_eq o (scan_capitalizeFirst hsmall)

/-- The sentence of an arrangement of its own words is found with the capital on the first. -/
theorem render_mem_of_capitalizeFirst (hsmall : ∀ t ∈ words, t.Small) {r : Generation}
    (hr : generate g o (capitalizeFirst words) = .ok r) (hp : p.Perm (bagOf o words))
    (haccepts : g.accepts (Trigger.scan words).idioms p = .ok true)
    (h : Spliced (modifiersOf o words) p words) : render (modifiersOf o words) p ∈ r.sentences := by
  obtain ⟨p', hp', hmap, htail, hrender⟩ := exists_perm_capitalizeFirst hsmall hp h
  rw [← modifiersOf_capitalizeFirst o hsmall] at hp' hrender ⊢
  have halphabetic : ∀ t ∈ p', t.Alphabetic := fun t ht =>
    alphabetic_of_mem_capitalizeFirst hsmall t (mem_of_mem_withoutModifiers (hp'.mem_iff.1 ht))
  rw [← scan_capitalizeFirst hsmall, ← hmap, accepts_map_fold halphabetic htail] at haccepts
  exact (mem_sentences_iff_of_run hr).2 ⟨p', hp', ⟨rfl, haccepts⟩, hrender⟩

/-- **Sentences are found again.**  If a sentence was generated from tokens of small letters of
ASCII, a run over the words of the sentence as a line ends well and finds the sentence. -/
theorem generate_sentenceWords (htokens : ∀ t ∈ tokens, t ≠ [] ∧ ∀ c ∈ t, c.isLower = true)
    {r : Generation} (hr : generate g o tokens = .ok r) {s : Text} (hs : s ∈ r.sentences) :
    ∃ r', generate g o (Cli.sentenceWords s) = .ok r' ∧ s ∈ r'.sentences := by
  obtain ⟨p, hp, ⟨-, haccepts⟩, rfl⟩ := (mem_sentences_iff_of_run hr).1 hs
  have hspliced := spliced_of_accepts hp haccepts
  have hperm := perm_of_spliced htokens hp hspliced
  have hsmall : ∀ t ∈ splice (modifiersOf o tokens) p, t.Small := fun t ht =>
    htokens t (hperm.mem_iff.2 ht)
  rw [sentenceWords_render (splice_ne_nil hp haccepts) hsmall]
  generalize splice (modifiersOf o tokens) p = words at hspliced hperm hsmall
  -- in lower case the words of the line are the tokens in another order
  obtain ⟨r', hr'⟩ : ∃ r', generate g o (capitalizeFirst words) = .ok r' := by
    apply exists_generate_of_map_fold (alphabetic_of_mem_capitalizeFirst hsmall)
    rw [map_fold_capitalizeFirst hsmall]
    exact exists_generate_of_perm hperm ⟨r, hr⟩
  rw [scan_congr hperm] at haccepts
  rw [modifiersOf_congr o hperm] at hspliced ⊢
  exact ⟨r', hr', render_mem_of_capitalizeFirst hsmall hr'
    (hp.trans (perm_bagOf_of_small htokens hperm)) haccepts hspliced⟩

/-- `not` opens the sentence, and the line has it with a capital. -/
theorem generate_sentenceWords_notCat :
    let tokens : List Text := [['c', 'a', 't'], ['n', 'o', 't'], ['s', 'a', 't'], ['a']]
    let line : Text := "Not a cat sat.".toList
    generate catGrammar .default tokens = .ok ⟨[line], ⟨true, false⟩, 6, 1, 0, []⟩ ∧
    Cli.sentenceWords line = [['N', 'o', 't'], ['a'], ['c', 'a', 't'], ['s', 'a', 't']] ∧
    ∃ r, generate catGrammar .default (Cli.sentenceWords line) = .ok r ∧ line ∈ r.sentences := by
  intro tokens line
  have hrun : generate catGrammar .default tokens = .ok ⟨[line], ⟨true, false⟩, 6, 1, 0, []⟩ := by
    cbv
  have htokens : ∀ t ∈ tokens, t.Small := by decide
  exact ⟨hrun, by decide, generate_sentenceWords htokens hrun List.mem_cons_self⟩

end Generation

end LinkGrammar
