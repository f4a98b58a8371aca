/-
LinkGrammar/Proofs/Generation/Placeholder.lean

Where the placeholder stands in sentences.

An arrangement with the placeholder behind its first word is not accepted.  But the modifiers
come back after that: they go in front of an arrangement that opens with an article, and the
placeholder is one.  It keeps its capital there.  So the placeholder leads the sentence if no
modifier was reported, and stands right behind the modifiers otherwise; it stands nowhere else.
-/
import Mathlib
import LinkGrammar.Proofs.Generation.Wording

namespace LinkGrammar

/-- The text has no blanks. -/
def Text.Blankless (t : Text) : Prop := ∀ c ∈ t, isBlank c = false

instance (t : Text) : Decidable t.Blankless :=
  decidable_of_iff (t.all (!isBlank ·) = true) (by simp [Text.Blankless])

theorem Text.Blankless.space_not_mem {t : Text} (h : t.Blankless) : ' ' ∉ t :=
  fun hmem => by cases h ' ' hmem

variable {m : Modifiers} {p words : List Text}

/-! ### Words of an arrangement -/

theorem Grammar.placeholder_not_mem_tail {g : Grammar} {idioms : Idioms}
    (h : g.accepts idioms p = .ok true) : placeholder ∉ p.tail := by
  intro hmem
  unfold accepts at h
  rw [if_pos (List.contains_iff_mem.2 hmem)] at h
  cases h

theorem placeholder_not_mem_words (m : Modifiers) : placeholder ∉ m.words := by
  rcases m with ⟨- | -, - | -⟩ <;> decide

theorem getElem?_append_cons_eq_some_iff {α : Type} {before after : List α} {a : α} {i : Nat}
    (hbefore : a ∉ before) (hafter : a ∉ after) :
    (before ++ a :: after)[i]? = some a ↔ i = before.length := by
  induction before generalizing i with
  | nil =>
    rcases i with - | i
    · simp
    · simpa using fun h => hafter (List.mem_of_getElem? h)
  | cons b before ih =>
    rcases i with - | i
    · simpa using (List.ne_of_not_mem_cons hbefore).symm
    · simpa using ih (List.not_mem_of_not_mem_cons hbefore)

namespace Sentence

/-- With the modifiers in their places, the placeholder stands behind them if it opened the
arrangement, and nowhere otherwise. -/
theorem Spliced.getElem?_eq_placeholder_iff (h : Spliced m p words)
    (htail : placeholder ∉ p.tail) (i : Nat) :
    words[i]? = some placeholder ↔ p.head? = some placeholder ∧ i = m.words.length := by
  rcases p with - | ⟨first, rest⟩
  · -- without words there is no article either
    obtain rfl : words = [] := h.eq_splice
    simp
  · by_cases hfirst : first = placeholder
    · subst hfirst
      have hnone : ∀ w ∈ ([] : List Text), isArticle w = false := fun _ hw => by cases hw
      have hwords : words = (m.now ++ m.negation) ++ placeholder :: rest :=
        h.eq_splice.trans (splice_of_article hnone (by decide))
      have hperm : (m.now ++ m.negation).Perm m.words := List.perm_append_comm
      have hbefore : placeholder ∉ m.now ++ m.negation := fun hmem =>
        placeholder_not_mem_words m (hperm.mem_iff.1 hmem)
      have hafter : placeholder ∉ rest := htail
      rw [hwords, getElem?_append_cons_eq_some_iff hbefore hafter, hperm.length_eq]
      simp
    · have hwords : placeholder ∉ words := by
        rw [h.perm.mem_iff, List.mem_append, List.mem_cons]
        rintro (hmem | heq | hmem)
        · exact placeholder_not_mem_words m hmem
        · exact hfirst heq.symm
        · exact htail hmem
      constructor
      · exact fun hword => absurd (List.mem_of_getElem? hword) hwords
      · exact fun hhead => absurd (Option.some.inj hhead.1) hfirst

theorem getElem?_capitalizeFirst {i : Nat} (hi : 0 < i) (words : List Text) :
    (capitalizeFirst words)[i]? = words[i]? := by
  obtain ⟨i, rfl⟩ := Nat.exists_eq_add_of_lt hi
  rcases words with - | ⟨w, words⟩
  · rfl
  · simp [capitalizeFirst]

end Sentence

namespace Generation

open Sentence (writtenWords)

variable {g : Grammar} {keep : List Text → Bool} {o : Options} {tokens : List Text}

/-! ### Words of a sentence -/

/-- Tokens without spaces are arranged to sentences whose words have none. -/
theorem space_not_mem_of_wordsOf (htokens : ∀ t ∈ tokens, ' ' ∉ t)
    (h : WordsOf m tokens p words) : ∀ w ∈ words, ' ' ∉ w := by
  have hmodifiers : ∀ w ∈ m.words, ' ' ∉ w := by
    rcases m with ⟨- | -, - | -⟩ <;> decide
  intro w hw
  rcases List.mem_append.1 (h.perm.mem_iff.1 hw) with hmem | hmem
  · exact hmodifiers w hmem
  · exact htokens w (h.perm_tokens.mem_iff.2 (List.mem_append_right _ hmem))

/-- **The placeholder in a sentence.**  Each sentence is that of an arrangement that was
accepted.  If no modifier is reported, the placeholder is no word of the sentence but the first.
In every case it stands behind the first place only where the arrangement opens with it, and
then right behind the modifiers, which are in front. -/
theorem placeholder_of_run {r : Generation} (h : run g keep o tokens = .ok r)
    (htokens : ∀ t ∈ tokens, t.Blankless) {s : Text} (hs : s ∈ r.sentences) :
    (r.modifiers = .none → placeholder ∉ (writtenWords s).tail) ∧
    ∃ p, p.Perm (bagOf o tokens) ∧ Passes g (Trigger.scan tokens).idioms keep p ∧
      s = Sentence.render r.modifiers p ∧
      ∀ i, 0 < i → ((writtenWords s)[i]? = some placeholder ↔
        p.head? = some placeholder ∧ i = r.modifiers.words.length) := by
  obtain ⟨p, hp, hpasses, hrender⟩ := (mem_sentences_iff_of_run h).1 hs
  have hne := splice_ne_nil hp hpasses.2
  have hwords := wordsOf_of_accepts hp hpasses.2
  rw [← modifiers_of_run h] at hrender hne hwords
  -- the words of the sentence are those of the arrangement with the modifiers
  have hspace : ∀ t ∈ tokens, ' ' ∉ t := fun t ht => (htokens t ht).space_not_mem
  have hplace : ∀ i, 0 < i → ((writtenWords s)[i]? = some placeholder ↔
      p.head? = some placeholder ∧ i = r.modifiers.words.length) := by
    intro i hi
    rw [← hrender, Sentence.writtenWords_render hne (space_not_mem_of_wordsOf hspace hwords),
      Sentence.getElem?_capitalizeFirst hi]
    exact hwords.spliced.getElem?_eq_placeholder_iff
      (Grammar.placeholder_not_mem_tail hpasses.2) i
  refine ⟨fun hnone hmem => ?_, p, hp, hpasses, hrender.symm, hplace⟩
  obtain ⟨i, hi⟩ := List.getElem?_of_mem hmem
  rw [List.getElem?_tail] at hi
  have hlength := ((hplace (i + 1) i.succ_pos).1 hi).2
  rw [hnone] at hlength
  cases hlength

/-- Without a modifier the placeholder leads. -/
theorem placeholder_of_run_catSat :
    let tokens : List Text := [['c', 'a', 't'], ['A'], ['s', 'a', 't']]
    run catGrammar (fun _ => true) .default tokens
      = .ok ⟨["A cat sat.".toList], .none, 6, 1, 0, []⟩ ∧
    placeholder ∉ (writtenWords "A cat sat.".toList).tail := by
  intro tokens
  have hrun : run catGrammar (fun _ => true) .default tokens
      = .ok ⟨["A cat sat.".toList], .none, 6, 1, 0, []⟩ := by cbv
  exact ⟨hrun, (placeholder_of_run hrun (by decide) List.mem_cons_self).1 rfl⟩

/-- `now` goes in front of the placeholder, which keeps its capital. -/
theorem placeholder_behind_now :
    let tokens : List Text := [['A'], ['c', 'a', 't'], ['s', 'a', 't'], ['n', 'o', 'w']]
    (∀ t ∈ tokens, t.Blankless) ∧
    run catGrammar (fun _ => true) .default tokens
      = .ok ⟨["Now A cat sat.".toList], ⟨false, true⟩, 6, 1, 0, []⟩ ∧
    (writtenWords "Now A cat sat.".toList)[1]? = some placeholder := by
  intro tokens
  exact ⟨by decide, by cbv, by decide⟩

end Generation

end LinkGrammar
