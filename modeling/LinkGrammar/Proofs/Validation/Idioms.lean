/-
LinkGrammar/Proofs/Validation/Idioms.lean

Looking for fewer idioms.

An idiom has key words, and its window never applies to a sentence without them.  So
nothing changes if only those idioms are looked for whose key words occur
(`Idioms.Covers`): every place shows the same pattern, and the scan goes the same way.

Main result: for tokens without blanks at their ends, the idioms that a scan of the tokens
finds are enough, and so are those of any bag that holds the tokens.  With blanks at an end
a token and its word differ, and the scan of the tokens may miss a key word.
-/
import Mathlib
import LinkGrammar.Proofs.Text.Trim
import LinkGrammar.Proofs.Validation.Coverage

namespace LinkGrammar

/-! ### Idioms to look for -/

/-- All idioms of the first choice are among those of the second. -/
instance : LE Idioms where
  le m n := (m.instrument → n.instrument) ∧ (m.particle → n.particle) ∧
    (m.infinitive → n.infinitive) ∧ (m.article → n.article)

instance (m n : Idioms) : Decidable (m ≤ n) :=
  inferInstanceAs (Decidable ((m.instrument → n.instrument) ∧ (m.particle → n.particle) ∧
    (m.infinitive → n.infinitive) ∧ (m.article → n.article)))

/-- Every idiom whose key word occurs among the words is looked for. -/
structure Idioms.Covers (m : Idioms) (words : List Text) : Prop where
  instrument : Keyword.withWord ∈ words → m.instrument = true
  particle : Keyword.onWord ∈ words → m.particle = true
  infinitive : Keyword.wants ∈ words → m.infinitive = true
  article : Keyword.a ∈ words ∨ Keyword.the ∈ words → m.article = true

theorem Idioms.covers_all (words : List Text) : Idioms.all.Covers words :=
  ⟨fun _ => rfl, fun _ => rfl, fun _ => rfl, fun _ => rfl⟩

/-- What a scan of the tokens finds covers them, and so does more. -/
theorem Trigger.covers_of_scan_le {tokens : List Text} {m : Idioms}
    (h : (Trigger.scan tokens).idioms ≤ m) : m.Covers (tokens.map Text.lower) := by
  obtain ⟨hinstrument, hparticle, hinfinitive, harticle⟩ := h
  constructor
  · exact fun hwith => hinstrument (List.contains_iff_mem.2 hwith)
  · exact fun hon => hparticle (List.contains_iff_mem.2 hon)
  · exact fun hwants => hinfinitive (List.contains_iff_mem.2 hwants)
  · intro h
    apply harticle
    exact Bool.or_eq_true_iff.2 (h.imp List.contains_iff_mem.2 List.contains_iff_mem.2)

/-- More tokens set off more idioms. -/
theorem Trigger.idioms_scan_mono {tokens bag : List Text} (h : tokens ⊆ bag) :
    (Trigger.scan tokens).idioms ≤ (Trigger.scan bag).idioms := by
  have hwords : tokens.map Text.lower ⊆ bag.map Text.lower := List.map_subset _ h
  have key : ∀ w, w ∈ tokens.map Text.lower → w ∈ bag.map Text.lower := fun w hw => hwords hw
  refine ⟨?_, ?_, ?_, ?_⟩
  · simpa only [scan, List.contains_iff_mem] using key _
  · simpa only [scan, List.contains_iff_mem] using key _
  · simpa only [scan, List.contains_iff_mem] using key _
  · simpa only [scan, List.contains_iff_mem, Bool.or_eq_true] using Or.imp (key _) (key _)

/-! ### Places without a key word -/

namespace Place

variable {g : Grammar} {p : Place}

/-- Without a `with` behind the place no instrument is taken. -/
theorem instrument?_eq_none (h : Keyword.withWord ∉ p.after) : p.instrument? g = none := by
  have hnone : p.withPosition? = none := by
    rcases hposition : p.withPosition? with - | position
    · rfl
    · exfalso
      apply h
      rcases withPosition?_cases hposition with ⟨-, rest, hafter⟩ | ⟨x, rest, -, hafter, -⟩
      · simp [hafter]
      · simp [hafter]
  unfold instrument?
  rw [hnone]
  exact ite_self _

theorem article?_eq_none (ha : p.right ≠ Keyword.a) (hthe : p.right ≠ Keyword.the) :
    p.article? g = none :=
  if_neg (by simp [ha, hthe])

theorem particle?_eq_none (h : p.right ≠ Keyword.onWord) : p.particle? g = none :=
  if_neg h

theorem infinitive?_eq_none (h : p.left ≠ Keyword.wants) : p.infinitive? g = none :=
  if_neg h

/-- The window at a place does not depend on the idioms that are looked for, as long as
they cover the sentence. -/
theorem window?_of_covers {m : Idioms} {words : List Text} {i : Nat} (hm : m.Covers words)
    (hp : at? words i = some p) :
    p.window? g m = (p.instrument? g <|> p.article? g <|> p.particle? g <|> p.infinitive? g) := by
  have hdrop := drop_of_at? hp
  have hmem : ∀ w ∈ p.left :: p.right :: p.after, w ∈ words := by
    intro w hw
    rw [← hdrop] at hw
    exact List.mem_of_mem_drop hw
  have hinstrument : (if m.instrument then p.instrument? g else none) = p.instrument? g := by
    by_cases h : m.instrument = true
    · exact if_pos h
    · rw [if_neg h, instrument?_eq_none]
      intro hwith
      exact h (hm.instrument (hmem _ (by simp [hwith])))
  have harticle : (if m.article then p.article? g else none) = p.article? g := by
    by_cases h : m.article = true
    · exact if_pos h
    · rw [if_neg h, article?_eq_none]
      · intro ha
        exact h (hm.article (.inl (hmem _ (by simp [ha]))))
      · intro hthe
        exact h (hm.article (.inr (hmem _ (by simp [hthe]))))
  have hparticle : (if m.particle then p.particle? g else none) = p.particle? g := by
    by_cases h : m.particle = true
    · exact if_pos h
    · rw [if_neg h, particle?_eq_none]
      intro hon
      exact h (hm.particle (hmem _ (by simp [hon])))
  have hinfinitive : (if m.infinitive then p.infinitive? g else none) = p.infinitive? g := by
    by_cases h : m.infinitive = true
    · exact if_pos h
    · rw [if_neg h, infinitive?_eq_none]
      intro hwants
      exact h (hm.infinitive (hmem _ (by simp [hwants])))
  unfold window?
  rw [hinstrument, harticle, hparticle, hinfinitive]

end Place

/-! ### The scan -/

namespace Grammar

variable {g : Grammar}

/-- Scans that find the same pattern at every place go the same way. -/
theorem scanFrom_congr {m n : Idioms} {words : List Text}
    (h : ∀ i p, Place.at? words i = some p → p.pattern? g m = p.pattern? g n) (i : Nat) :
    g.scanFrom m words i = g.scanFrom n words i := by
  rcases hp : Place.at? words i with - | p
  · rw [scanFrom_of_none hp, scanFrom_of_none hp]
  rw [scanFrom_of_some hp, scanFrom_of_some hp, h i p hp]
  rcases p.pattern? g n with e | (- | pattern)
  · rfl
  · rfl
  · have hlt := Place.lt_length_of_at? hp
    have hpos := pattern.advance_pos
    dsimp only
    rw [scanFrom_congr h (i + pattern.advance)]
termination_by words.length - i

/-- **Looking for fewer idioms changes nothing.**  Of tokens without blanks at their ends,
it is enough to look for the idioms that they set off, or that any bag sets off of which
they are a part in some order. -/
theorem accepts_eq_all (g : Grammar) {tokens : List Text}
    (htrimmed : ∀ t ∈ tokens, Text.Trimmed t) :
    (∀ m, (Trigger.scan tokens).idioms ≤ m → g.accepts m tokens = g.accepts .all tokens) ∧
      ∀ bag, tokens.Subperm bag →
        g.accepts (Trigger.scan bag).idioms tokens = g.accepts .all tokens := by
  have hwords : (tokens.map fun t => Text.lower (Text.trim t)) = tokens.map Text.lower := by
    apply List.map_congr_left
    intro t ht
    rw [(htrimmed t ht).trim_eq]
  have hscan : ∀ m, (Trigger.scan tokens).idioms ≤ m →
      g.accepts m tokens = g.accepts .all tokens := by
    intro m hm
    rcases g.accepts_eq_false_or_scanFrom tokens with hfalse | hscan
    · rw [hfalse, hfalse]
    · rw [hscan, hscan, hwords]
      apply scanFrom_congr
      intro i p hp
      unfold Place.pattern?
      rw [Place.window?_of_covers (Trigger.covers_of_scan_le hm) hp,
        Place.window?_of_covers (Idioms.covers_all _) hp]
  refine ⟨hscan, ?_⟩
  intro bag hbag
  exact hscan _ (Trigger.idioms_scan_mono hbag.subset)

/-- For `he wants to eat it` it is enough to look for `wants`, and for what a bag sets off that
holds `with` besides. -/
theorem accepts_eq_all_wantsTokens :
    let bag := Keyword.withWord :: wantsTokens
    (∀ t ∈ wantsTokens, Text.Trimmed t) ∧
      (Trigger.scan wantsTokens).idioms ≤ ⟨false, false, true, false⟩ ∧
      wantsGrammar.accepts ⟨false, false, true, false⟩ wantsTokens
        = wantsGrammar.accepts .all wantsTokens ∧
      wantsTokens.Subperm bag ∧
      wantsGrammar.accepts (Trigger.scan bag).idioms wantsTokens
        = wantsGrammar.accepts .all wantsTokens := by
  intro bag
  have htrimmed : ∀ t ∈ wantsTokens, Text.Trimmed t := by decide
  have hscan : (Trigger.scan wantsTokens).idioms ≤ ⟨false, false, true, false⟩ := by decide +kernel
  have hbag : wantsTokens.Subperm bag := (List.sublist_cons_self _ _).subperm
  obtain ⟨hmask, hpart⟩ := wantsGrammar.accepts_eq_all htrimmed
  exact ⟨htrimmed, hscan, hmask _ hscan, hbag, hpart bag hbag⟩

end Grammar

end LinkGrammar
