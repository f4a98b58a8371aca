/-
LinkGrammar/Proofs/Generation/Splice.lean

What stands in a sentence.

The modifiers are taken out of a bag before its words are arranged, and put back into each
arrangement that is accepted.  Their places there hang on the first article:

    before  [not]  article  next  [now]  after        with words before the article
    [now]   [not]  article  next         after        without

`Spliced` says this of an arrangement and the words of its sentence.  Two facts make it true of
every accepted arrangement.  A modifier is only reported if some token is an article, and the
article is not taken out (`exists_article_of_ne_none`), so no modifier is lost.  And no
arrangement that is accepted closes with an article (`isArticle_getLast_of_accepts`), so the
word `next` is there, and `now` comes behind it and not before.
-/
import Mathlib
import LinkGrammar.Proofs.Generation.Reordering

namespace LinkGrammar

open Text (fold)

namespace Modifiers

/-- The word `not`, if it is a modifier. -/
def negation (m : Modifiers) : List Text := if m.negated then [['n', 'o', 't']] else []

/-- The word `now`, if it is a modifier. -/
def now (m : Modifiers) : List Text := if m.present then [['n', 'o', 'w']] else []

/-- The modifiers as words. -/
def words (m : Modifiers) : List Text := m.negation ++ m.now

end Modifiers

/-! ### The modifiers in their places -/

namespace Sentence

variable {m : Modifiers} {p words : List Text}

/-- The words are those of the arrangement with the modifiers in their places. -/
inductive Spliced (m : Modifiers) : List Text → List Text → Prop
  /-- There is no article, and no modifier that needs one. -/
  | plain {p : List Text} : (∀ w ∈ p, isArticle w = false) → m = .none → Spliced m p p
  /-- The arrangement opens with an article. -/
  | leading {article next : Text} {after : List Text} : isArticle article = true →
      Spliced m (article :: next :: after) (m.now ++ m.negation ++ article :: next :: after)
  /-- The first article stands behind other words. -/
  | inner {before after : List Text} {article next : Text} : before ≠ [] →
      (∀ w ∈ before, isArticle w = false) → isArticle article = true →
      Spliced m (before ++ article :: next :: after)
        (before ++ m.negation ++ article :: next :: m.now ++ after)

theorem splice_of_absent (h : ∀ w ∈ p, isArticle w = false) : splice m p = p := by
  have hdrop : p.dropWhile (fun w => !isArticle w) = [] := by
    rw [List.dropWhile_eq_nil_iff]
    intro w hw
    rw [h w hw]
    rfl
  unfold splice
  rw [hdrop]

theorem splice_of_article {before after : List Text} {article : Text}
    (hbefore : ∀ w ∈ before, isArticle w = false) (harticle : isArticle article = true) :
    splice m (before ++ article :: after)
      = if before = [] then m.now ++ m.negation ++ article :: after
        else before ++ m.negation ++ article :: after.take 1 ++ m.now ++ after.drop 1 := by
  have hskip : ∀ w ∈ before, (!isArticle w) = true := by
    intro w hw
    rw [hbefore w hw]
    rfl
  have htake : (before ++ article :: after).takeWhile (fun w => !isArticle w) = before := by
    rw [List.takeWhile_append_of_pos hskip, List.takeWhile_cons_of_neg (by simp [harticle]),
      List.append_nil]
  have hdrop : (before ++ article :: after).dropWhile (fun w => !isArticle w)
      = article :: after := by
    rw [List.dropWhile_append_of_pos hskip, List.dropWhile_cons_of_neg (by simp [harticle])]
  unfold splice
  rw [htake, hdrop]
  simp only [List.isEmpty_iff]
  rfl

/-- There is one way to put the modifiers in their places. -/
theorem Spliced.eq_splice (h : Spliced m p words) : words = splice m p := by
  cases h with
  | plain habsent _ => exact (splice_of_absent habsent).symm
  | leading harticle =>
    have hnone : ∀ w ∈ ([] : List Text), isArticle w = false := fun _ hw => by cases hw
    exact (splice_of_article hnone harticle).symm
  | inner hne hbefore harticle =>
    rw [splice_of_article hbefore harticle, if_neg hne]
    simp

/-- An arrangement that does not close with an article has places for the modifiers. -/
theorem spliced_splice (hlast : ∀ w ∈ p.getLast?, isArticle w = false)
    (hm : m = .none ∨ ∃ w ∈ p, isArticle w = true) : Spliced m p (splice m p) := by
  rcases hfirst : p.find? isArticle with - | article
  · -- without an article nothing was reported either
    have habsent : ∀ w ∈ p, isArticle w = false := by simpa using hfirst
    rw [splice_of_absent habsent]
    refine .plain habsent (hm.resolve_right ?_)
    rintro ⟨w, hw, harticle⟩
    rw [habsent w hw] at harticle
    cases harticle
  · obtain ⟨harticle, before, after, rfl, hbefore⟩ := List.find?_eq_some_iff_append.1 hfirst
    have hbefore : ∀ w ∈ before, isArticle w = false := by simpa using hbefore
    rcases after with - | ⟨next, after⟩
    · -- the first article would be the last word
      have := hlast article (by simp)
      rw [harticle] at this
      cases this
    · by_cases hne : before = []
      · subst hne
        have hleading : Spliced m (article :: next :: after) _ := .leading harticle
        exact hleading.eq_splice ▸ hleading
      · have hinner : Spliced m (before ++ article :: next :: after) _ := .inner hne hbefore harticle
        exact hinner.eq_splice ▸ hinner

/-- Nothing is lost, and nothing comes twice. -/
theorem Spliced.perm (h : Spliced m p words) : words.Perm (m.words ++ p) := by
  cases h with
  | plain _ hm =>
    subst hm
    exact .refl _
  | leading _ => exact List.perm_append_comm.append_right _
  | inner _ _ _ =>
    unfold Modifiers.words
    -- the same pieces in another order, so each word comes as often
    apply List.perm_iff_count.2
    intro w
    simp only [List.count_append, List.count_cons]
    omega

end Sentence

/-! ### Accepted arrangements -/

variable {g : Grammar} {idioms : Idioms} {p : List Text}

/-- The articles are the tokens that are looked up as `a`. -/
theorem isArticle_iff_lower {t : Text} : Sentence.isArticle t = true ↔ Text.lower t = ['a'] := by
  apply sameIgnoringAsciiCase_iff_lower
  intro d hd
  obtain rfl : d = 'a' := List.mem_singleton.1 hd
  decide

theorem trimmed_of_isArticle {t : Text} (h : Sentence.isArticle t = true) : t.Trimmed := by
  refine Text.trimmed_of_sameIgnoringAsciiCase (fun c hc => ?_) h
  obtain rfl : c = 'a' := List.mem_singleton.1 hc
  decide

/-- No arrangement that is accepted closes with an article. -/
theorem isArticle_getLast_of_accepts (h : g.accepts idioms p = .ok true) :
    ∀ w ∈ p.getLast?, Sentence.isArticle w = false := by
  intro w hw
  rw [Bool.eq_false_iff]
  intro harticle
  have hlast : (p.map fun t => Text.lower (Text.trim t)).getLast? = some Keyword.a := by
    rw [List.getLast?_map, Option.mem_def.1 hw, Option.map_some,
      (trimmed_of_isArticle harticle).trim_eq, isArticle_iff_lower.1 harticle]
    rfl
  unfold Grammar.accepts at h
  split at h
  · cases h
  · dsimp only at h
    rw [hlast] at h
    split at h
    · next hfirst hkey =>
      cases hkey
      rw [if_pos (by simp [Grammar.cannotClose])] at h
      cases h
    · cases h

namespace Generation

variable {keep : List Text → Bool} {o : Options} {tokens : List Text}

/-! ### Reported modifiers -/

/-- The small letters of a modifier are of ASCII, and no `k`. -/
theorem plain_of_mem_modifierWords {w : Text} (hw : w ∈ modifierWords) :
    ∀ d ∈ w, IsAscii d ∧ d ≠ 'k' ∧ d.toLower = d := by
  have key : modifierWords.all fun w =>
      w.all fun d => IsAscii d && d ≠ 'k' && d.toLower = d := by decide
  simpa [and_assoc] using List.all_eq_true.1 (List.all_eq_true.1 key w hw)

/-- Of the tokens that are looked up as a modifier the first is one of its spellings. -/
theorem map_fold_first {word : Text} (hword : word ∈ modifierWords)
    (h : word ∈ tokens.map Text.lower) : (first word tokens).map fold = [word] := by
  have hplain := plain_of_mem_modifierWords hword
  obtain ⟨t, ht, hlower⟩ := List.mem_map.1 h
  unfold first
  rcases hfind : tokens.find? (Text.sameIgnoringAsciiCase · word) with - | t'
  · have := List.find?_eq_none.1 hfind t ht
    exact absurd ((sameIgnoringAsciiCase_iff_lower hplain).2 hlower) this
  · have hsame : Text.sameIgnoringAsciiCase t' word = true := by simpa using List.find?_some hfind
    show [fold t'] = [word]
    rw [Text.sameIgnoringAsciiCase_iff.1 hsame, fold_of_mem_modifierWords hword]

/-- Where modifiers are reported, some token is an article, and they are tokens themselves. -/
theorem modifiersOf_cases (o : Options) (tokens : List Text) :
    modifiersOf o tokens = .none ∨
      ['a'] ∈ tokens.map Text.lower ∧
        modifiersOf o tokens = ⟨(tokens.map Text.lower).contains ['n', 'o', 't'],
          (tokens.map Text.lower).contains ['n', 'o', 'w']⟩ := by
  unfold modifiersOf
  split
  · rcases ha : (tokens.map Text.lower).contains ['a'] with - | -
    · -- without an article `not` and `now` are ordinary words
      left
      unfold Trigger.scan
      simp only [ha, Bool.false_and]
      rfl
    · right
      refine ⟨List.contains_iff_mem.1 ha, ?_⟩
      unfold Trigger.scan
      simp only [ha, Bool.true_and]
  · exact .inl rfl

/-- What is taken out is what is reported, up to case. -/
theorem map_fold_taken (o : Options) (tokens : List Text) :
    (taken (modifiersOf o tokens) tokens).map fold = (modifiersOf o tokens).words := by
  rcases modifiersOf_cases o tokens with hm | ⟨-, hm⟩
  · rw [hm]
    rfl
  · rw [hm]
    unfold taken Modifiers.words Modifiers.negation Modifiers.now
    rw [List.map_append]
    congr 1
    · split
      · next h => exact map_fold_first (by decide) (List.contains_iff_mem.1 h)
      · rfl
    · split
      · next h => exact map_fold_first (by decide) (List.contains_iff_mem.1 h)
      · rfl

/-- Where modifiers are reported, there is an article among the words that are left. -/
theorem exists_article_of_ne_none (o : Options) (tokens : List Text) :
    modifiersOf o tokens = .none ∨ ∃ w ∈ bagOf o tokens, Sentence.isArticle w = true := by
  apply (modifiersOf_cases o tokens).imp_right
  rintro ⟨ha, -⟩
  -- no article is a spelling of a modifier, so none is taken out
  have hbag : ['a'] ∈ (bagOf o tokens).map Text.lower :=
    (mem_map_lower_withoutModifiers (by decide) (by decide) _ tokens).2 ha
  obtain ⟨w, hw, hlower⟩ := List.mem_map.1 hbag
  exact ⟨w, hw, isArticle_iff_lower.2 hlower⟩

/-! ### The words of sentences -/

/-- In an arrangement that is accepted the modifiers have their places. -/
theorem spliced_of_accepts (hp : p.Perm (bagOf o tokens))
    (h : g.accepts idioms p = .ok true) :
    Sentence.Spliced (modifiersOf o tokens) p (Sentence.splice (modifiersOf o tokens) p) := by
  apply Sentence.spliced_splice (isArticle_getLast_of_accepts h)
  apply (exists_article_of_ne_none o tokens).imp_right
  rintro ⟨w, hw, harticle⟩
  exact ⟨w, hp.mem_iff.2 hw, harticle⟩

/-- The words of the sentence of an arrangement, beside the modifiers and the tokens. -/
structure WordsOf (m : Modifiers) (tokens p words : List Text) : Prop where
  /-- The modifiers are in their places. -/
  spliced : Sentence.Spliced m p words
  /-- No word is lost, and none comes twice. -/
  perm : words.Perm (m.words ++ p)
  /-- The arrangement has all tokens but those that were taken out. -/
  perm_tokens : tokens.Perm (taken m tokens ++ p)
  /-- What was taken out is the modifiers, in some case. -/
  map_fold_taken : (taken m tokens).map fold = m.words

theorem wordsOf_of_accepts (hp : p.Perm (bagOf o tokens)) (h : g.accepts idioms p = .ok true) :
    WordsOf (modifiersOf o tokens) tokens p (Sentence.splice (modifiersOf o tokens) p) where
  spliced := spliced_of_accepts hp h
  perm := (spliced_of_accepts hp h).perm
  perm_tokens := (perm_taken_append _ tokens).trans (hp.symm.append_left _)
  map_fold_taken := map_fold_taken o tokens

/-- **What stands in a sentence.**  In each arrangement that is accepted the reported modifiers
have their places: `not` before the first article, and `now` behind the word that follows it,
or at the front if the article is.  So each of them is in each sentence, and no other word is
lost, comes twice or moves.  The sentences are these words, written out. -/
theorem words_of_run {r : Generation} (h : run g keep o tokens = .ok r) :
    (∀ p, p.Perm (bagOf o tokens) → Passes g (Trigger.scan tokens).idioms keep p →
      ∃ words, WordsOf r.modifiers tokens p words) ∧
    ∀ s, s ∈ r.sentences ↔
      ∃ p words, p.Perm (bagOf o tokens) ∧ Passes g (Trigger.scan tokens).idioms keep p ∧
        WordsOf r.modifiers tokens p words ∧
        s = Text.capitalize ([' '].intercalate words) ++
          [if Sentence.isQuestion p then '?' else '.'] := by
  rw [modifiers_of_run h]
  refine ⟨fun p hp hpasses => ⟨_, wordsOf_of_accepts hp hpasses.2⟩, fun s => ?_⟩
  by_cases hbag : bagOf o tokens = []
  · -- without words there is no sentence, and no arrangement is accepted
    rw [run_of_bag_eq_nil hbag] at h
    cases h
    refine ⟨fun hs => absurd hs List.not_mem_nil, ?_⟩
    rintro ⟨p, words, hp, ⟨-, haccepts⟩, -⟩
    rw [hbag, List.perm_nil] at hp
    subst hp
    cases haccepts
  · rw [mem_sentences_of_run h hbag]
    constructor
    · rintro ⟨p, hp, hpasses, rfl⟩
      exact ⟨p, _, hp, hpasses, wordsOf_of_accepts hp hpasses.2, rfl⟩
    · rintro ⟨p, words, hp, hpasses, hwords, rfl⟩
      obtain rfl := hwords.spliced.eq_splice
      exact ⟨p, hp, hpasses, rfl⟩

/-- `fed` links to `cat`, from an earlier place than `a`. -/
def fedGrammar : Grammar where
  rules w :=
    let rule (formula : String) := (Rule.ofText formula.toList).toOption.toList
    if w = ['a'] then rule "D+"
    else if w = ['c', 'a', 't'] then rule "O- or D-"
    else if w = ['f', 'e', 'd'] then rule "O+"
    else []
  tags _ := []

/-- Words with both modifiers, which are spelled with capital letters. -/
def fedTokens : List Text :=
  ["NOT".toList, "fed".toList, "a".toList, "Now".toList, "cat".toList]

/-- Both modifiers are taken out as they are spelled, and put back in lower case. -/
theorem words_of_run_fed :
    run fedGrammar (fun _ => true) .default fedTokens
      = .ok ⟨["Fed not a cat now.".toList], ⟨true, true⟩, 6, 1, 0, []⟩ ∧
    WordsOf ⟨true, true⟩ fedTokens ["fed".toList, "a".toList, "cat".toList]
      ["fed".toList, "not".toList, "a".toList, "cat".toList, "now".toList] := by
  have h : run fedGrammar (fun _ => true) .default fedTokens
      = .ok ⟨["Fed not a cat now.".toList], ⟨true, true⟩, 6, 1, 0, []⟩ := by cbv
  have hp : List.Perm ["fed".toList, "a".toList, "cat".toList] (bagOf .default fedTokens) := by
    decide
  have haccepts : fedGrammar.accepts (Trigger.scan fedTokens).idioms
      ["fed".toList, "a".toList, "cat".toList] = .ok true := by cbv
  obtain ⟨words, hwords⟩ := (words_of_run h).1 _ hp ⟨rfl, haccepts⟩
  -- there is one way to put the modifiers in their places
  have heq : words = ["fed".toList, "not".toList, "a".toList, "cat".toList, "now".toList] :=
    hwords.spliced.eq_splice.trans (by decide)
  exact ⟨h, heq ▸ hwords⟩

end Generation

end LinkGrammar
