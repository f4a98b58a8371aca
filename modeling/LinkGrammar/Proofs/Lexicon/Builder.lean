/-
LinkGrammar/Proofs/Lexicon/Builder.lean

Lexicons that are built step by step.

A step states a rule for a word by a formula, adds a rule that there is already, or adds a tag.
What it adds to which word does not depend on the lexicon (`Step.addition?`):

    entry   Cat.n   D- & Ss+       cat     a rule, and the tag n
    tag     Cat.n   f              cat.n   the tag f
    entry   cat     (D- &          nothing, as the formula cannot be read

So a lexicon is what has been added, and the entry of a word what has been added to it
(`entry_foldl_add`).  Steps are one kind of change to an entry, whichever they are
(`Addition.addTo`), and what they do is said once for all of them (`Step.apply_eq`).

Main results: the rules of a word are those that were added to it, in the order of the steps
(`rules_build`); its tags are those that were added, each where it came first (`tags_build`);
there are as many words as something was added to (`size_foldl_add`); and a step that fails
leaves nothing behind (`build_filter_fails`).
-/
import Mathlib
import LinkGrammar.Proofs.Lexicon.Rule
import LinkGrammar.Proofs.Text.Pieces

namespace LinkGrammar.Lexicon

/-! ### The tag behind a word -/

/-- The word is `bare` with a tag behind it. -/
structure Tagged (word bare tag : Text) : Prop where
  text : word = bare ++ '.' :: tag
  ne_nil : bare ≠ []
  oneLine : '\n' ∉ bare
  isTag : isSubscript tag = true

theorem splitSubscript_of_not_mem {word : Text} (h : '.' ∉ word) :
    splitSubscript word = (word, none) := by
  have hdrop : word.reverse.dropWhile (· ≠ '.') = [] :=
    Text.dropWhile_ne_of_not_mem fun hmem => h (List.mem_reverse.1 hmem)
  unfold splitSubscript
  rw [hdrop]
  rfl

/-- The last dot is the one that counts. -/
theorem splitSubscript_append {bare tag : Text} (h : '.' ∉ tag) :
    splitSubscript (bare ++ '.' :: tag)
      = if bare ≠ [] ∧ '\n' ∉ bare ∧ isSubscript tag = true then (bare, some tag)
        else (bare ++ '.' :: tag, none) := by
  have htag : '.' ∉ tag.reverse := fun hmem => h (List.mem_reverse.1 hmem)
  have hreverse : (bare ++ '.' :: tag).reverse = tag.reverse ++ '.' :: bare.reverse := by simp
  simp only [splitSubscript, hreverse, Text.takeWhile_ne_append htag,
    Text.dropWhile_ne_append htag]
  simp [and_assoc]

theorem dot_not_mem_of_isSubscript {tag : Text} (h : isSubscript tag = true) : '.' ∉ tag := by
  rcases tag with - | ⟨c, t⟩
  · exact List.not_mem_nil
  · intro hmem
    simp only [isSubscript, Bool.and_eq_true, List.all_eq_true] at h
    rcases List.mem_cons.1 hmem with rfl | hmem
    · exact absurd h.1 (by decide)
    · exact absurd (h.2 _ hmem) (by decide)

/-- What is split off is the tag of the word; a word is left whole if it has none. -/
theorem tagged_of_splitSubscript (word : Text) :
    (∃ bare tag, splitSubscript word = (bare, some tag) ∧ Tagged word bare tag) ∨
      splitSubscript word = (word, none) := by
  by_cases hdot : '.' ∈ word.reverse
  · obtain ⟨x, u, hword, hx⟩ := List.eq_append_cons_of_mem hdot
    obtain rfl : word = u.reverse ++ '.' :: x.reverse := by
      rw [← word.reverse_reverse, hword]
      simp
    rw [splitSubscript_append fun hmem => hx (List.mem_reverse.1 hmem)]
    split
    · next h => exact .inl ⟨_, _, rfl, rfl, h.1, h.2.1, h.2.2⟩
    · exact .inr rfl
  · exact .inr (splitSubscript_of_not_mem fun hmem => hdot (List.mem_reverse.2 hmem))

/-- When a tag is split off, and which. -/
theorem splitSubscript_eq_some_iff {word bare tag : Text} :
    splitSubscript word = (bare, some tag) ↔ Tagged word bare tag := by
  constructor
  · intro h
    rcases tagged_of_splitSubscript word with ⟨bare', tag', h', htagged⟩ | h'
    · cases h.symm.trans h'
      exact htagged
    · cases h.symm.trans h'
  · rintro ⟨rfl, hne, hline, htag⟩
    rw [splitSubscript_append (dot_not_mem_of_isSubscript htag), if_pos ⟨hne, hline, htag⟩]

/-- When the word is left whole. -/
theorem splitSubscript_eq_none_iff {word bare : Text} :
    splitSubscript word = (bare, none) ↔ bare = word ∧ ∀ b tag, ¬Tagged word b tag := by
  constructor
  · intro h
    rcases tagged_of_splitSubscript word with ⟨b, tag, h', -⟩ | h'
    · cases h.symm.trans h'
    · refine ⟨(Prod.mk.inj (h.symm.trans h')).1, fun b tag htagged => ?_⟩
      cases (splitSubscript_eq_some_iff.2 htagged).symm.trans h'
  · rintro ⟨rfl, hnone⟩
    rcases tagged_of_splitSubscript bare with ⟨b, tag, -, htagged⟩ | h'
    · exact absurd htagged (hnone b tag)
    · exact h'

/-! ### Steps -/

/-- One step of building a lexicon. -/
inductive Step where
  /-- the rule of a word, stated by a formula -/
  | insertFormula (word formula : Text)
  | insert (word : Text) (rule : Rule)
  | addTag (word tag : Text)

/-- The lexicon after a step.  If a formula cannot be read the lexicon stays as it is. -/
def Step.apply (l : Lexicon) : Step → Lexicon
  | insertFormula word formula =>
    match l.insertFormula word formula with
    | .ok l' => l'
    | .error _ => l
  | insert word rule => l.insert word rule
  | addTag word tag => l.addTag word tag

/-- The lexicon that the steps build. -/
def build (steps : List Step) : Lexicon := steps.foldl Step.apply .empty

/-- Whether the step states a rule by a formula that cannot be read. -/
def Step.fails : Step → Bool
  | insertFormula _ formula => !(Rule.ofText formula).isOk
  | _ => false

/-! ### Additions -/

/-- What a step adds, and the word that it adds it to. -/
structure Addition where
  word : Text
  rule? : Option Rule
  tag? : Option Text

/-- A rule is added to the word without its tag, in lower case, and the tag with it. -/
def Addition.ofRule (word : Text) (rule : Rule) : Addition where
  word := Text.lower (splitSubscript word).1
  rule? := some rule
  tag? := (splitSubscript word).2

/-- What a step adds; a tag by itself is added to the whole word, in lower case. -/
def Step.addition? : Step → Option Addition
  | insertFormula word formula => (Rule.ofText formula).toOption.map (.ofRule word)
  | insert word rule => some (.ofRule word rule)
  | addTag word tag => some ⟨Text.lower word, none, some tag⟩

/-- What the steps add to a word, in their order. -/
def additionsTo (w : Text) (steps : List Step) : List Addition :=
  (steps.filterMap Step.addition?).filter (·.word = w)

/-- The entry of the word after the addition. -/
def Addition.addTo (e : Entry) (a : Addition) : Entry :=
  let e := a.rule?.elim e e.addRule
  a.tag?.elim e e.addTag

/-- Make one addition. -/
def add (l : Lexicon) (a : Addition) : Lexicon := l.update a.word fun e => a.addTo e

theorem insert_eq_add (l : Lexicon) (word : Text) (rule : Rule) :
    l.insert word rule = l.add (.ofRule word rule) := by
  unfold insert add Addition.ofRule
  rcases splitSubscript word with ⟨bare, - | tag⟩
  · rfl
  · rfl

theorem addTag_eq_add (l : Lexicon) (word tag : Text) :
    l.addTag word tag = l.add ⟨Text.lower word, none, some tag⟩ := rfl

/-- What a step does is to add what it adds. -/
theorem Step.apply_eq (l : Lexicon) (s : Step) :
    s.apply l = s.addition?.elim l l.add := by
  cases s with
  | insertFormula word formula =>
    show (match (Rule.ofText formula).map (l.insert word) with | .ok l' => l' | .error _ => l) = _
    rw [Step.addition?]
    cases Rule.ofText formula with
    | error e => rfl
    | ok rule => exact insert_eq_add l word rule
  | insert word rule => exact insert_eq_add l word rule
  | addTag word tag => exact addTag_eq_add l word tag

/-- A lexicon is what has been added to it. -/
theorem build_eq_foldl (steps : List Step) :
    build steps = (steps.filterMap Step.addition?).foldl add .empty := by
  rw [List.foldl_filterMap]
  show steps.foldl Step.apply .empty = _
  congr 1
  funext l s
  rw [Step.apply_eq]
  cases s.addition? <;> rfl

theorem Step.fails_iff (s : Step) : s.fails = true ↔ s.addition? = none := by
  cases s with
  | insertFormula word formula =>
    show (!(Rule.ofText formula).isOk) = true ↔ (Rule.ofText formula).toOption.map _ = none
    cases Rule.ofText formula <;> simp [Except.isOk, Except.toBool, Except.toOption]
  | insert word rule => simp [fails, addition?]
  | addTag word tag => simp [fails, addition?]

/-- Steps that fail add nothing. -/
theorem filterMap_addition?_filter (steps : List Step) :
    (steps.filter fun s => !s.fails).filterMap Step.addition? = steps.filterMap Step.addition? := by
  rw [List.filterMap_filter]
  congr 1
  funext s
  by_cases hs : s.fails = true
  · simp [hs, (Step.fails_iff s).1 hs]
  · simp [hs]

/-! ### Entries -/

theorem rules_addTo (e : Entry) (a : Addition) :
    (a.addTo e).rules = e.rules ++ a.rule?.toList := by
  obtain ⟨word, rule?, tag?⟩ := a
  have hrule : (rule?.elim e e.addRule).rules = e.rules ++ rule?.toList := by
    cases rule? with
    | none => exact (List.append_nil _).symm
    | some rule => rfl
  rw [← hrule]
  cases tag? with
  | none => rfl
  | some tag => exact rules_addTag _ tag

/-- Of texts that are already listed another mention is dropped. -/
theorem eraseDups_concat (ts : List Text) (t : Text) :
    (ts ++ [t]).eraseDups = if t ∈ ts then ts.eraseDups else ts.eraseDups ++ [t] := by
  rw [List.eraseDups_append]
  split
  · next h => simp [List.removeAll, h]
  · next h => simp [List.removeAll, h, List.eraseDups_cons]

/-- Tags are listed where they came first. -/
theorem tags_addTo {e : Entry} {tags : List Text} (h : e.tags = tags.eraseDups) (a : Addition) :
    (a.addTo e).tags = (tags ++ a.tag?.toList).eraseDups := by
  obtain ⟨word, rule?, tag?⟩ := a
  have hrule : (rule?.elim e e.addRule).tags = tags.eraseDups := by
    rw [← h]
    cases rule? <;> rfl
  cases tag? with
  | none => rw [Option.toList_none, List.append_nil, ← hrule]; rfl
  | some tag =>
    show (Entry.addTag (rule?.elim e e.addRule) tag).tags = (tags ++ [tag]).eraseDups
    rw [Entry.addTag, hrule, eraseDups_concat]
    by_cases htag : tag ∈ tags
    · rw [if_pos (List.contains_iff_mem.2 (List.mem_eraseDups.2 htag)), if_pos htag, hrule]
    · rw [if_neg fun hmem => htag (List.mem_eraseDups.1 (List.contains_iff_mem.1 hmem)),
        if_neg htag]

/-- The rules of additions come in their order. -/
theorem rules_foldl_addTo (as : List Addition) (e : Entry) :
    (as.foldl Addition.addTo e).rules = e.rules ++ as.filterMap Addition.rule? := by
  induction as generalizing e with
  | nil => exact (List.append_nil _).symm
  | cons a as ih =>
    rw [List.foldl_cons, ih, rules_addTo, List.append_assoc, List.filterMap_cons]
    cases a.rule? <;> rfl

/-- Their tags come in the order of their first mention. -/
theorem tags_foldl_addTo (as : List Addition) {e : Entry} {tags : List Text}
    (h : e.tags = tags.eraseDups) :
    (as.foldl Addition.addTo e).tags = (tags ++ as.filterMap Addition.tag?).eraseDups := by
  induction as generalizing e tags with
  | nil => rw [List.filterMap_nil, List.append_nil, ← h]; rfl
  | cons a as ih =>
    rw [List.foldl_cons, ih (tags_addTo h a), List.append_assoc, List.filterMap_cons]
    cases a.tag? <;> rfl

/-- The entry of a word is what has been added to it. -/
theorem entry_foldl_add (as : List Addition) (l : Lexicon) (w : Text) :
    (as.foldl add l).entry w = (as.filter (·.word = w)).foldl Addition.addTo (l.entry w) := by
  induction as generalizing l with
  | nil => rfl
  | cons a as ih =>
    rw [List.foldl_cons, ih]
    by_cases hw : a.word = w
    · subst hw
      rw [List.filter_cons_of_pos (by simp), List.foldl_cons, add, entry_update_self]
    · rw [List.filter_cons_of_neg (by simpa using hw), add, entry_update_of_ne (Ne.symm hw)]

/-! ### Words -/

/-- The words of a lexicon are the keys of its entries. -/
theorem contains_iff {l : Lexicon} {w : Text} :
    l.contains w = true ↔ w ∈ l.entries.map Prod.fst := by
  rw [contains, List.lookup_isSome_iff, List.mem_map]
  apply exists_congr
  intro p
  rw [beq_iff_eq, eq_comm (a := w)]

theorem mem_words_foldl_add {as : List Addition} {l : Lexicon} {w : Text} :
    w ∈ (as.foldl add l).entries.map Prod.fst
      ↔ w ∈ l.entries.map Prod.fst ∨ w ∈ as.map Addition.word := by
  induction as generalizing l with
  | nil => simp
  | cons a as ih =>
    rw [List.foldl_cons, ih]
    show w ∈ (updateEntry a.word _ l.entries).map Prod.fst ∨ _ ↔ _
    rw [mem_keys_updateEntry, List.map_cons, List.mem_cons]
    tauto

/-- A lexicon has as many words as something was added to. -/
theorem size_foldl_add (as : List Addition) :
    (as.foldl add .empty).size = (as.map Addition.word).toFinset.card := by
  have hwords : ((as.foldl add .empty).entries.map Prod.fst).toFinset
      = (as.map Addition.word).toFinset := by
    ext w
    rw [List.mem_toFinset, List.mem_toFinset, mem_words_foldl_add]
    simp [empty]
  rw [← hwords, List.toFinset_card_of_nodup (as.foldl add .empty).nodup, List.length_map]
  rfl

/-! ### What the steps build -/

/-- The rules of a word after all steps. -/
theorem rules_build (steps : List Step) (w : Text) :
    (build steps).grammar.rules w = (additionsTo w steps).filterMap Addition.rule? := by
  show ((build steps).entry w).rules = _
  rw [build_eq_foldl, entry_foldl_add, rules_foldl_addTo]
  rfl

/-- The tags of a word after all steps. -/
theorem tags_build (steps : List Step) (w : Text) :
    (build steps).grammar.tags w = ((additionsTo w steps).filterMap Addition.tag?).eraseDups := by
  have hempty : (Lexicon.empty.entry w).tags = List.eraseDups [] := rfl
  show ((build steps).entry w).tags = _
  rw [build_eq_foldl, entry_foldl_add, tags_foldl_addTo _ hempty]
  rfl

/-- The words after all steps. -/
theorem contains_build_iff {steps : List Step} {w : Text} :
    (build steps).contains w = true ↔ ∃ s ∈ steps, ∃ a, s.addition? = some a ∧ a.word = w := by
  rw [build_eq_foldl, contains_iff, mem_words_foldl_add]
  constructor
  · rintro (hempty | hadded)
    · cases hempty
    · obtain ⟨a, ha, hw⟩ := List.mem_map.1 hadded
      obtain ⟨s, hs, ha⟩ := List.mem_filterMap.1 ha
      exact ⟨s, hs, a, ha, hw⟩
  · rintro ⟨s, hs, a, ha, hw⟩
    exact .inr (List.mem_map.2 ⟨a, List.mem_filterMap.2 ⟨s, hs, ha⟩, hw⟩)

theorem build_filter_fails (steps : List Step) :
    build (steps.filter fun s => !s.fails) = build steps := by
  rw [build_eq_foldl, build_eq_foldl, filterMap_addition?_filter]

/-- **A lexicon is what its steps have added.**  A word to which a rule is added is split at its
tag if it has one.  The rules of a word are those added to it, in the order of the steps; its tags
are those added, each where it came first; the words are those that something was added to; and
steps that fail leave nothing behind. -/
theorem build_additions (steps : List Step) :
    (∀ word bare tag, splitSubscript word = (bare, some tag) ↔ Tagged word bare tag) ∧
    (∀ word bare, splitSubscript word = (bare, none)
      ↔ bare = word ∧ ∀ b tag, ¬Tagged word b tag) ∧
    (∀ w, (build steps).grammar.rules w = (additionsTo w steps).filterMap Addition.rule?) ∧
    (∀ w, (build steps).grammar.tags w
      = ((additionsTo w steps).filterMap Addition.tag?).eraseDups) ∧
    (∀ w, (build steps).contains w = true
      ↔ ∃ s ∈ steps, ∃ a, s.addition? = some a ∧ a.word = w) ∧
    (build steps).size = ((steps.filterMap Step.addition?).map Addition.word).toFinset.card ∧
    build (steps.filter fun s => !s.fails) = build steps := by
  refine ⟨fun word bare tag => splitSubscript_eq_some_iff,
    fun word bare => splitSubscript_eq_none_iff, rules_build steps, tags_build steps,
    fun w => contains_build_iff, ?_, build_filter_fails steps⟩
  rw [build_eq_foldl]
  exact size_foldl_add _

end LinkGrammar.Lexicon
