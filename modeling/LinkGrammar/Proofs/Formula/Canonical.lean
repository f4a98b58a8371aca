/-
LinkGrammar/Proofs/Formula/Canonical.lean

Canonical formulas: those that the reader can return.

Names are what a text can hold as one token, `&` and `or` join at least two operands,
and nothing is made optional twice.  The invariant of the reader is that every
formula on its levels is canonical (`Reader.Canonical`); a token keeps it, and so
does the end of the text.
-/
import LinkGrammar.Proofs.Formula.Reading
import LinkGrammar.Proofs.Formula.Token

namespace LinkGrammar.Formula

/-- A text that is read as one name. -/
def IsName (t : Text) : Prop :=
  t ≠ [] ∧ (∀ c ∈ t, isNameChar c = true) ∧ t ≠ ['o', 'r']

instance (t : Text) : Decidable (IsName t) :=
  have : Decidable (∀ c ∈ t, isNameChar c = true) := List.decidableBAll _ t
  inferInstanceAs (Decidable (t ≠ [] ∧ (∀ c ∈ t, isNameChar c = true) ∧ t ≠ ['o', 'r']))

/-- Whether the formula is optional already, at once or inside one cost group. -/
def isAbsentable : Formula → Bool
  | optional _ => true
  | cost (optional _) => true
  | _ => false

mutual

/-- The formulas that reading can give. -/
def Canonical : Formula → Prop
  | leaf name => IsName name
  | and fs => 2 ≤ fs.length ∧ AllCanonical fs
  | or fs => 2 ≤ fs.length ∧ AllCanonical fs
  | optional f => Canonical f ∧ f.isAbsentable = false
  | cost f => Canonical f

/-- All operands are canonical. -/
def AllCanonical : List Formula → Prop
  | [] => True
  | f :: fs => Canonical f ∧ AllCanonical fs

end

theorem allCanonical_iff {fs : List Formula} : AllCanonical fs ↔ ∀ f ∈ fs, Canonical f := by
  induction fs with
  | nil => simp [AllCanonical]
  | cons f fs ih => simp [AllCanonical, ih]

mutual

/-- Whether a tree is canonical can be computed, node by node. -/
def decideCanonical : (f : Formula) → Decidable (Canonical f)
  | leaf name => inferInstanceAs (Decidable (IsName name))
  | and fs =>
    have := decideAllCanonical fs
    inferInstanceAs (Decidable (2 ≤ fs.length ∧ AllCanonical fs))
  | or fs =>
    have := decideAllCanonical fs
    inferInstanceAs (Decidable (2 ≤ fs.length ∧ AllCanonical fs))
  | optional f =>
    have := decideCanonical f
    inferInstanceAs (Decidable (Canonical f ∧ f.isAbsentable = false))
  | cost f => decideCanonical f

/-- So it can for a list of operands. -/
def decideAllCanonical : (fs : List Formula) → Decidable (AllCanonical fs)
  | [] => isTrue trivial
  | f :: fs =>
    have := decideCanonical f
    have := decideAllCanonical fs
    inferInstanceAs (Decidable (Canonical f ∧ AllCanonical fs))

end

instance : DecidablePred Canonical := decideCanonical

/-! ### Joining canonical parts -/

/-- A part that is absent or canonical. -/
def CanonicalPart (part : Option Formula) : Prop := ∀ f ∈ part, Canonical f

theorem orAbsent_eq_optional {f : Formula} (h : f.isAbsentable = false) :
    f.orAbsent = optional f := by
  unfold orAbsent
  split
  · simp [isAbsentable] at h
  · simp [isAbsentable] at h
  · rfl

/-- A canonical tree made optional is canonical. -/
theorem Canonical.orAbsent {f : Formula} (h : Canonical f) : Canonical f.orAbsent := by
  by_cases hf : f.isAbsentable = false
  · rw [orAbsent_eq_optional hf]
    exact ⟨h, hf⟩
  unfold Formula.orAbsent
  split
  · exact h
  · next g =>
    -- `g` is not optional, so neither is `[g]`
    obtain ⟨hg, hgs⟩ : Canonical g ∧ g.isAbsentable = false := h
    refine ⟨hg, ?_⟩
    cases g <;> simp_all [isAbsentable]
  · next hopt hcost =>
    cases f with
    | cost g => cases g <;> simp_all [isAbsentable]
    | optional g => exact absurd rfl (hopt g)
    | _ => simp [isAbsentable] at hf

/-- The parts that are there are canonical. -/
theorem canonical_of_mem_parts {parts : List (Option Formula)}
    (h : ∀ part ∈ parts, CanonicalPart part) {f : Formula} (hf : f ∈ parts.filterMap id) :
    Canonical f := by
  obtain ⟨part, hpart, rfl⟩ := List.mem_filterMap.1 hf
  exact h (some f) hpart f rfl

/-- Nothing, a single formula, or a node over at least two. -/
def joined (node : List Formula → Formula) : List Formula → Option Formula
  | [] => none
  | [f] => some f
  | fs => some (node fs)

/-- The parts that are there, joined by `&`. -/
theorem conjunction_eq (parts : List (Option Formula)) :
    conjunction parts = joined and (parts.filterMap id) := by
  unfold conjunction
  rcases parts.filterMap id with - | ⟨f, - | ⟨g, fs⟩⟩ <;> rfl

/-- The parts that are there, joined by `or`, and optional if one is absent. -/
theorem disjunction_eq (parts : List (Option Formula)) :
    disjunction parts =
      if parts.any Option.isNone then (joined or (parts.filterMap id)).map orAbsent
      else joined or (parts.filterMap id) := by
  unfold disjunction
  generalize parts.filterMap id = fs
  rcases fs with - | ⟨f, - | ⟨g, fs⟩⟩ <;> rfl

theorem joined_of_two_le {node : List Formula → Formula} {fs : List Formula}
    (h : 2 ≤ fs.length) : joined node fs = some (node fs) := by
  match fs, h with
  | f :: g :: fs, _ => rfl

theorem conjunction_map_some (fs : List Formula) :
    conjunction (fs.map some) = joined and fs := by
  simp [conjunction_eq, List.filterMap_map]

theorem disjunction_map_some (fs : List Formula) :
    disjunction (fs.map some) = joined or fs := by
  simp [disjunction_eq, List.filterMap_map]

/-- Canonical operands are joined to a canonical part. -/
theorem CanonicalPart.joined {node : List Formula → Formula} {fs : List Formula}
    (hnode : 2 ≤ fs.length → AllCanonical fs → Canonical (node fs))
    (h : ∀ f ∈ fs, Canonical f) : CanonicalPart (joined node fs) := by
  rcases fs with - | ⟨f, - | ⟨g, fs⟩⟩
  · simp [CanonicalPart, Formula.joined]
  · simpa [CanonicalPart, Formula.joined] using h
  · rintro _ ⟨⟩
    exact hnode (by simp) (allCanonical_iff.2 h)

theorem CanonicalPart.conjunction {parts : List (Option Formula)}
    (h : ∀ part ∈ parts, CanonicalPart part) : CanonicalPart (conjunction parts) := by
  rw [conjunction_eq]
  exact .joined (fun hlen hall => ⟨hlen, hall⟩) fun _ => canonical_of_mem_parts h

theorem CanonicalPart.disjunction {parts : List (Option Formula)}
    (h : ∀ part ∈ parts, CanonicalPart part) : CanonicalPart (disjunction parts) := by
  have hwhole : CanonicalPart (Formula.joined or (parts.filterMap id)) :=
    .joined (fun hlen hall => ⟨hlen, hall⟩) fun _ => canonical_of_mem_parts h
  rw [disjunction_eq]
  split
  · intro f hf
    obtain ⟨g, hg, rfl⟩ := Option.map_eq_some_iff.1 hf
    exact (hwhole g hg).orAbsent
  · exact hwhole

/-- What a bracket makes of a canonical part is one. -/
theorem CanonicalPart.wrap {b : Bracket} {inner : Option Formula} (h : CanonicalPart inner) :
    CanonicalPart (b.wrap inner) := by
  cases b
  · exact h
  · intro f hf
    obtain ⟨g, hg, rfl⟩ := Option.map_eq_some_iff.1 hf
    exact h g hg
  · intro f hf
    obtain ⟨g, hg, rfl⟩ := Option.map_eq_some_iff.1 hf
    exact (h g hg).orAbsent

/-! ### The invariant of the reader -/

/-- All that was read on the level is canonical. -/
structure Level.Canonical (l : Level) : Prop where
  sequences : ∀ part ∈ l.sequences, CanonicalPart part
  parts : ∀ part ∈ l.parts, CanonicalPart part

/-- All that was read is canonical, on every level. -/
structure Reader.Canonical (r : Reader) : Prop where
  level : r.level.Canonical
  outer : ∀ e ∈ r.enclosures, e.outer.Canonical

namespace Level.Canonical

theorem empty : Level.empty.Canonical := ⟨by simp [Level.empty], by simp [Level.empty]⟩

theorem push {l : Level} {part : Option Formula} (h : l.Canonical) (hpart : CanonicalPart part) :
    (l.push part).Canonical :=
  ⟨h.sequences, List.forall_mem_cons.2 ⟨hpart, h.parts⟩⟩

theorem sequence {l : Level} (h : l.Canonical) : CanonicalPart l.sequence :=
  .conjunction fun part hpart => h.parts part (List.mem_reverse.1 hpart)

theorem next {l : Level} (h : l.Canonical) : l.next.Canonical :=
  ⟨List.forall_mem_cons.2 ⟨h.sequence, h.sequences⟩, by simp [Level.next]⟩

/-- All that was read on the level is canonical. -/
theorem value {l : Level} (h : l.Canonical) : CanonicalPart l.value :=
  .disjunction fun part hpart =>
    List.forall_mem_cons.2 ⟨h.sequence, h.sequences⟩ part (List.mem_reverse.1 hpart)

end Level.Canonical

namespace Reader.Canonical

theorem start : Reader.start.Canonical := ⟨.empty, by simp [Reader.start]⟩

/-- A token keeps the invariant. -/
theorem read {r r' : Reader} {t : Token} (h : r.Canonical)
    (ht : ∀ n, t.lexeme = .name n → IsName n) (hr : r.read t = .ok r') : r'.Canonical := by
  cases Reader.read_eq_ok_iff.1 hr with
  | name _ hn =>
    refine ⟨h.level.push ?_, h.outer⟩
    rintro _ ⟨⟩
    exact ht _ hn
  | opening => exact ⟨.empty, List.forall_mem_cons.2 ⟨h.level, h.outer⟩⟩
  | closing _ he =>
    -- what was read inside the bracket is a part of the level around it
    have houter := h.outer
    rw [he] at houter
    obtain ⟨hlevel, hrest⟩ := List.forall_mem_cons.1 houter
    exact ⟨hlevel.push h.level.value.wrap, hrest⟩
  | weight => exact ⟨h.level, h.outer⟩
  | and => exact ⟨h.level, h.outer⟩
  | or => exact ⟨h.level.next, h.outer⟩

/-- So does a run of tokens. -/
theorem foldlM_read {ts : List Token} {r r' : Reader} (h : r.Canonical)
    (hts : ∀ t ∈ ts, ∀ n, t.lexeme = .name n → IsName n)
    (hr : ts.foldlM Reader.read r = .ok r') : r'.Canonical := by
  induction ts generalizing r with
  | nil => cases hr; exact h
  | cons t ts ih =>
    rw [List.foldlM_cons] at hr
    obtain ⟨ht, hts⟩ := List.forall_mem_cons.1 hts
    rcases e : r.read t with fault | r₁
    · rw [e] at hr; cases hr
    · rw [e] at hr; exact ih (h.read ht e) hts hr

/-- What a reader ends with is canonical. -/
theorem finish {r : Reader} {f : Option Formula} (h : r.Canonical) (hr : r.finish = .ok f) :
    CanonicalPart f := by
  unfold Reader.finish at hr
  split at hr
  · cases hr
  · cases hr
  · cases hr; exact h.level.value
  · cases hr

end Reader.Canonical

/-! ### Reading gives canonical formulas -/

theorem isName_of_mem_lexemes {t n : Text} (h : .name n ∈ lexemes t) : IsName n := by
  induction t using front_cases with
  | nil => simp at h
  | blank c t hb ih => rw [lexemes_cons_blank hb] at h; exact ih h
  | mark c l t hb hc ih =>
    rw [lexemes_cons_mark hb hc] at h
    rcases List.mem_cons.1 h with rfl | h
    · unfold Lexeme.ofChar? at hc
      repeat' split at hc
      all_goals cases hc
    · exact ih h
  | run r t hne hr hseam ih =>
    rw [lexemes_run_append hne hr hseam] at h
    rcases List.mem_cons.1 h with e | h
    · unfold Lexeme.ofRun at e
      split at e
      · cases e
      · next hor => cases e; exact ⟨hne, hr, hor⟩
    · exact ih h

/-- What tokens are read as is canonical. -/
theorem canonical_of_ofTokens {ts : List Token} {f : Formula}
    (hts : ∀ t ∈ ts, ∀ n, t.lexeme = .name n → IsName n) (h : ofTokens ts = .ok (some f)) :
    Canonical f := by
  unfold ofTokens at h
  split at h
  · cases h
  · rcases e : ts.foldlM Reader.read Reader.start with fault | r
    · rw [e] at h; cases h
    · rw [e] at h
      exact (Reader.Canonical.start.foldlM_read hts e).finish h f rfl

theorem parse_eq_ok_iff {t : Text} {f : Option Formula} :
    parse t = .ok f ↔ ofTokens (tokens t) = .ok f := by
  unfold parse
  rcases ofTokens (tokens t) with e | g <;> simp [Except.mapError]

/-- Every formula that a text stands for is canonical. -/
theorem canonical_of_parse {t : Text} {f : Formula} (h : parse t = .ok (some f)) :
    Canonical f := by
  refine canonical_of_ofTokens ?_ (parse_eq_ok_iff.1 h)
  intro token ht n hn
  exact isName_of_mem_lexemes (List.mem_map.2 ⟨token, ht, hn⟩)

end LinkGrammar.Formula
