/-
LinkGrammar/Proofs/Validation/Unknown.lean

When tokens cannot be judged.

The windows ask about words around their place, and about a key word only where the
sentence holds it.  So the one thing that can be missing is a rule for a word of the
sentence: this is what each window, each place and the whole scan keep.
-/
import Mathlib
import LinkGrammar.Proofs.Link.Unknown
import LinkGrammar.Proofs.Validation.Match

namespace LinkGrammar

namespace Place

variable {g : Grammar} {idioms : Idioms} {p : Place} {r : Except GenerateError (Option Pattern)}

/-- The sentence that a place stands in. -/
def sentence (p : Place) : List Text := p.before.reverse ++ p.left :: p.right :: p.after

/-- The words of a place are those of the sentence. -/
theorem sentence_of_at? {words : List Text} {i : Nat} (h : at? words i = some p) :
    p.sentence = words := by
  unfold at? at h
  split at h
  · next hdrop =>
    cases h
    unfold sentence
    rw [List.reverse_reverse, ← hdrop, List.take_append_drop]
  · cases h

theorem left_mem_sentence (p : Place) : p.left ∈ p.sentence := by simp [sentence]

theorem right_mem_sentence (p : Place) : p.right ∈ p.sentence := by simp [sentence]

theorem mem_sentence_of_mem_before {w : Text} (h : w ∈ p.before) : w ∈ p.sentence := by
  simp [sentence, h]

theorem mem_sentence_of_mem_after {w : Text} (h : w ∈ p.after) : w ∈ p.sentence := by
  simp [sentence, h]

/-! ### The windows -/

/-- The window of an instrument verb asks about words of the sentence. -/
theorem missesOnly_instrument? (hg : g.Stated) (h : p.instrument? g = some r) :
    g.MissesOnly p.sentence r := by
  unfold instrument? at h
  split at h
  · obtain ⟨position, hposition, rfl⟩ := Option.map_eq_some_iff.1 h
    have hleft := p.left_mem_sentence
    have hright := p.right_mem_sentence
    rcases withPosition?_cases hposition with ⟨rfl, rest, hafter⟩ |
      ⟨between, rest, rfl, hafter, -⟩
    · have hwith : Keyword.withWord ∈ p.sentence :=
        mem_sentence_of_mem_after (by simp [hafter])
      exact (Grammar.missesOnly_connectsLeft hleft hright hwith).map
    · have hbetween : between ∈ p.sentence := mem_sentence_of_mem_after (by simp [hafter])
      have hwith : Keyword.withWord ∈ p.sentence :=
        mem_sentence_of_mem_after (by simp [hafter])
      apply Grammar.MissesOnly.map
      refine .ite (fun _ => ?_) fun _ => .ite (fun _ => ?_) fun _ => .ok _
      · apply (Grammar.missesOnly_connectsLeft hleft hright hwith).bind
        intro _ _
        exact .ite (fun _ => Grammar.missesOnly_connects hright hbetween) fun _ => .ok _
      · exact Grammar.missesOnly_connectsAll hg hleft hright hbetween hwith
  · cases h

theorem missesOnly_article? (h : p.article? g = some r) : g.MissesOnly p.sentence r := by
  unfold article? at h
  split at h
  · obtain ⟨x, hx, rfl⟩ := Option.map_eq_some_iff.1 h
    have hx : x ∈ p.sentence := mem_sentence_of_mem_after (List.mem_of_mem_head? hx)
    exact (Grammar.missesOnly_connectsThrough p.left_mem_sentence p.right_mem_sentence hx).map
  · cases h

theorem missesOnly_particle? (h : p.particle? g = some r) : g.MissesOnly p.sentence r := by
  unfold particle? at h
  split at h
  · split at h
    · next x y more hbefore =>
      split at h
      · cases h
        have hright := p.right_mem_sentence
        have hmem : ∀ w ∈ x :: y :: more, w ∈ p.sentence := fun w hw =>
          mem_sentence_of_mem_before (hbefore ▸ hw)
        have hx : x ∈ p.sentence := hmem x (by simp)
        have hy : y ∈ p.sentence := hmem y (by simp)
        apply Grammar.MissesOnly.map
        split
        · next z hz =>
          have hz : z ∈ more := List.mem_of_mem_head? (Option.ite_none_right_eq_some.1 hz).2
          exact Grammar.missesOnly_connectsLeft (hmem z (by simp [hz])) hy hright
        · apply (Grammar.missesOnly_connectsLeft hy hx hright).bind
          intro _ _
          refine .ite (fun _ => .ok _) fun _ => ?_
          split
          · next head hhead =>
            have hhead : head ∈ more := List.mem_of_mem_tail (List.mem_of_mem_head? hhead)
            exact Grammar.missesOnly_connectsMin (hmem head (by simp [hhead])) hright
          · exact .ok _
      · cases h
    · cases h
  · cases h

theorem missesOnly_infinitive? (h : p.infinitive? g = some r) : g.MissesOnly p.sentence r := by
  unfold infinitive? at h
  split at h
  · split at h
    · cases h
    · next x rest hafter =>
      cases h
      have hleft := p.left_mem_sentence
      have hright := p.right_mem_sentence
      have hmem : ∀ w ∈ x :: rest, w ∈ p.sentence := fun w hw =>
        mem_sentence_of_mem_after (hafter ▸ hw)
      have hx : x ∈ p.sentence := hmem x (by simp)
      refine .ite (fun _ => ?_) fun _ => .ite (fun hto => ?_) fun _ => ?_
      · exact (Grammar.missesOnly_connectsLeft hleft hright hx).map
      · split
        · next y rest =>
          exact (Grammar.missesOnly_connectsFour hleft hright hx (hmem y (by simp))).map
        · exact .ok _
      · split
        · next y z rest =>
          refine .ite (fun _ => ?_) fun _ => .ok _
          exact (Grammar.missesOnly_connectsFour hleft hx (hmem y (by simp))
            (hmem z (by simp))).map
        · exact .ok _
  · cases h

theorem missesOnly_neighbours : g.MissesOnly p.sentence (p.neighbours g) := by
  have hleft := p.left_mem_sentence
  have hright := p.right_mem_sentence
  apply (Grammar.missesOnly_connects hleft hright).bind
  intro _ _
  refine .ite (fun _ => .ok _) fun _ => .ite (fun hwith => ?_) fun _ => .ok _
  -- the sentence holds `on`
  have hon : Keyword.onWord ∈ p.after := by
    simp only [Bool.and_eq_true, List.contains_iff_mem] at hwith
    exact hwith.2
  exact (Grammar.missesOnly_connectsLeft hleft hright (mem_sentence_of_mem_after hon)).map

/-- What is missing at a place is a rule for a word of its sentence. -/
theorem missesOnly_pattern? (hg : g.Stated) :
    g.MissesOnly p.sentence (p.pattern? g idioms) := by
  unfold pattern?
  rcases hw : p.window? g idioms with - | r
  · exact missesOnly_neighbours
  · show g.MissesOnly p.sentence r
    rcases window?_cases hw with h | h | h | h
    · exact missesOnly_instrument? hg h
    · exact missesOnly_article? h
    · exact missesOnly_particle? h
    · exact missesOnly_infinitive? h

end Place

/-! ### The scan -/

namespace Grammar

variable {g : Grammar} {idioms : Idioms}

/-- What is missing for a scan is a rule for a word of the sentence. -/
theorem missesOnly_scanFrom (hg : g.Stated) (words : List Text) (i : Nat) :
    g.MissesOnly words (g.scanFrom idioms words i) := by
  rcases hp : Place.at? words i with - | p
  · rw [scanFrom_of_none hp]
    exact .ok _
  rw [scanFrom_of_some hp]
  refine .ite (fun _ => .ok _) fun _ => ?_
  have hpattern : g.MissesOnly words (p.pattern? g idioms) := by
    rw [← Place.sentence_of_at? hp]
    exact Place.missesOnly_pattern? hg
  rcases hmet : p.pattern? g idioms with e | (- | pattern)
  · intro e' he'
    cases he'
    exact hpattern e hmet
  · exact .ok _
  · have hlt := Place.lt_length_of_at? hp
    have hpos := pattern.advance_pos
    exact missesOnly_scanFrom hg words (i + pattern.advance)
termination_by words.length - i

/-- What is missing for judging tokens is a rule for one of their words. -/
theorem missesOnly_accepts (hg : g.Stated) (tokens : List Text) :
    g.MissesOnly (tokens.map fun t => Text.lower (Text.trim t)) (g.accepts idioms tokens) := by
  rcases accepts_eq_false_or_scanFrom g tokens with h | h
  · rw [h idioms]
    exact .ok _
  · rw [h idioms]
    exact missesOnly_scanFrom hg _ 0

/-- **When tokens cannot be judged.**  Where formulas state all rules, the one error is a word
of the tokens without rules, and it is named as it was looked up.  So no connector that was
taken for a word, no key word the tokens do not hold and no formula is ever to blame, and
tokens whose words all have rules are judged. -/
theorem accepts_outcome (hg : g.Stated) (idioms : Idioms) (tokens : List Text) :
    (∀ e, g.accepts idioms tokens = .error e →
      ∃ t ∈ tokens, g.rules (Text.lower (Text.trim t)) = [] ∧
        e = .unknownWord (Text.lower (Text.trim t))) ∧
    ((∀ t ∈ tokens, g.rules (Text.lower (Text.trim t)) ≠ []) →
      ∃ ok, g.accepts idioms tokens = .ok ok) := by
  have hmissed : ∀ e, g.accepts idioms tokens = .error e →
      ∃ t ∈ tokens, g.rules (Text.lower (Text.trim t)) = [] ∧
        e = .unknownWord (Text.lower (Text.trim t)) := by
    intro e he
    obtain ⟨w, hw, hrules, rfl⟩ := missesOnly_accepts hg tokens e he
    obtain ⟨t, ht, rfl⟩ := List.mem_map.1 hw
    exact ⟨t, ht, hrules, rfl⟩
  refine ⟨hmissed, fun hknown => ?_⟩
  rcases haccepts : g.accepts idioms tokens with e | ok
  · obtain ⟨t, ht, hrules, -⟩ := hmissed e haccepts
    exact absurd hrules (hknown t ht)
  · exact ⟨ok, rfl⟩

/-- A verb that takes an instrument, and words around it. -/
def instrumentText : Text :=
  "saw: S- & O+ & MV+; the: D+; man.n: {O-} & {D-} & {S+}; with: MV- & J+;".toList

/-- The lexicon of `instrumentText`. -/
def instrumentLexicon : Lexicon := (Lexicon.ofDictionary instrumentText).toOption.getD .empty

theorem stated_instrumentLexicon : instrumentLexicon.grammar.Stated :=
  Lexicon.stated_getD fun _ => Lexicon.stated_ofDictionary

/-- The words `Saw the man with`, the first with a capital letter. -/
def sawWords : List Text := ["Saw".toList, "the".toList, "man".toList, "with".toList]

/-- The window of `saw` takes connectors for words and leads on to `with`; the word behind it
has no rules, and is the one that is named. -/
theorem accepts_outcome_scope :
    let tokens := sawWords ++ ["Scope ".toList]
    instrumentLexicon.grammar.accepts .all tokens = .error (.unknownWord "scope".toList) ∧
    (∃ t ∈ tokens, instrumentLexicon.grammar.rules (Text.lower (Text.trim t)) = [] ∧
      GenerateError.unknownWord "scope".toList = .unknownWord (Text.lower (Text.trim t))) ∧
    ∃ ok, instrumentLexicon.grammar.accepts .all sawWords = .ok ok := by
  have hmissed : instrumentLexicon.grammar.accepts .all (sawWords ++ ["Scope ".toList])
      = .error (.unknownWord "scope".toList) := by cbv
  have hknown : ∀ t ∈ sawWords,
      instrumentLexicon.grammar.rules (Text.lower (Text.trim t)) ≠ [] := by
    have hall : (sawWords.all fun t =>
        !(instrumentLexicon.grammar.rules (Text.lower (Text.trim t))).isEmpty) = true := by cbv
    simpa [List.all_eq_true] using hall
  refine ⟨hmissed, ?_, ?_⟩
  · exact (accepts_outcome stated_instrumentLexicon .all _).1 _ hmissed
  · exact (accepts_outcome stated_instrumentLexicon .all sawWords).2 hknown

end Grammar

end LinkGrammar
