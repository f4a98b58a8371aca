/-
LinkGrammar/Lexicon/Basic.lean

Lexicons: words in lower case, with the rules and the tags of each.

Design.  A lexicon is a list of words in the order in which they were first
mentioned, no word twice.  All changes go through `Lexicon.update`, and the two
statements `entry_update` say what a change does to the entry of each word.
-/
import LinkGrammar.Lexicon.Rule
import LinkGrammar.Text.Case

namespace LinkGrammar

/-- What a lexicon holds about one word. -/
structure Entry where
  rules : List Rule
  tags : List Text

namespace Entry

/-- The entry of a word that was not mentioned. -/
def empty : Entry := ⟨[], []⟩

/-- Rules are kept in the order in which they were added, repeated ones too. -/
def addRule (e : Entry) (rule : Rule) : Entry := { e with rules := e.rules ++ [rule] }

/-- Tags are kept in the order of their first mention. -/
def addTag (e : Entry) (tag : Text) : Entry :=
  if e.tags.contains tag then e else { e with tags := e.tags ++ [tag] }

end Entry

/-! ### Entries by word -/

/-- Change the entry of `word`, which is empty if the word is new. -/
def updateEntry (word : Text) (change : Entry → Entry) :
    List (Text × Entry) → List (Text × Entry)
  | [] => [(word, change .empty)]
  | (key, e) :: rest =>
    if key = word then (key, change e) :: rest else (key, e) :: updateEntry word change rest

/-- A change adds its own word to the words, and no other. -/
theorem mem_keys_updateEntry {word w : Text} {change : Entry → Entry} {es : List (Text × Entry)} :
    w ∈ (updateEntry word change es).map Prod.fst ↔ w = word ∨ w ∈ es.map Prod.fst := by
  induction es with
  | nil => simp [updateEntry]
  | cons p es ih =>
    obtain ⟨key, e⟩ := p
    unfold updateEntry
    by_cases h : key = word
    · simp [h]
    · simp only [h, if_false, List.map_cons, List.mem_cons, ih]
      exact or_left_comm

/-- It mentions no word twice. -/
theorem nodup_keys_updateEntry {word : Text} {change : Entry → Entry} {es : List (Text × Entry)}
    (h : (es.map Prod.fst).Nodup) : ((updateEntry word change es).map Prod.fst).Nodup := by
  induction es with
  | nil => simp [updateEntry]
  | cons p es ih =>
    obtain ⟨key, e⟩ := p
    rw [List.map_cons, List.nodup_cons] at h
    unfold updateEntry
    by_cases hk : key = word
    · rw [if_pos hk, List.map_cons, List.nodup_cons]
      exact h
    · rw [if_neg hk, List.map_cons, List.nodup_cons]
      refine ⟨fun hm => ?_, ih h.2⟩
      rcases mem_keys_updateEntry.1 hm with hw | hw
      · exact hk hw
      · exact h.1 hw

/-- The word that is changed has the changed entry. -/
theorem lookup_updateEntry_self (word : Text) (change : Entry → Entry) (es : List (Text × Entry)) :
    (updateEntry word change es).lookup word = some (change ((es.lookup word).getD .empty)) := by
  induction es with
  | nil => simp [updateEntry]
  | cons p es ih =>
    obtain ⟨key, e⟩ := p
    unfold updateEntry
    by_cases hk : key = word
    · simp [hk]
    · have : (word == key) = false := by simpa using fun h => hk h.symm
      simp [hk, this, ih, List.lookup_cons]

/-- The other words keep their entries. -/
theorem lookup_updateEntry_of_ne {word w : Text} (h : w ≠ word) (change : Entry → Entry)
    (es : List (Text × Entry)) : (updateEntry word change es).lookup w = es.lookup w := by
  induction es with
  | nil =>
    have : (w == word) = false := by simpa using h
    simp [updateEntry, List.lookup_cons, this]
  | cons p es ih =>
    obtain ⟨key, e⟩ := p
    unfold updateEntry
    by_cases hk : key = word
    · have : (w == key) = false := by simpa [hk] using h
      simp [hk, List.lookup_cons, hk ▸ this]
    · by_cases hw : w = key <;> simp [hk, hw, List.lookup_cons, ih]

/-! ### Lexicons -/

/-- Entries by word, none for a word twice. -/
structure Lexicon where
  entries : List (Text × Entry)
  nodup : (entries.map Prod.fst).Nodup

namespace Lexicon

/-- No words. -/
def empty : Lexicon := ⟨[], List.nodup_nil⟩

/-- The number of words. -/
def size (l : Lexicon) : Nat := l.entries.length

/-- The entry of a word, looked up as it is written; an unknown word has an empty one. -/
def entry (l : Lexicon) (word : Text) : Entry := (l.entries.lookup word).getD .empty

/-- Whether the lexicon mentions a word, looked up as it is written. -/
def contains (l : Lexicon) (word : Text) : Bool := (l.entries.lookup word).isSome

/-- Change the entry of one word, which is added at the end if it is new. -/
def update (l : Lexicon) (word : Text) (change : Entry → Entry) : Lexicon :=
  ⟨updateEntry word change l.entries, nodup_keys_updateEntry l.nodup⟩

/-- The word that is changed has the changed entry. -/
theorem entry_update_self (l : Lexicon) (word : Text) (change : Entry → Entry) :
    (l.update word change).entry word = change (l.entry word) := by
  simp [entry, update, lookup_updateEntry_self]

/-- The entries of the other words stay as they are. -/
theorem entry_update_of_ne {w word : Text} (h : w ≠ word) (l : Lexicon)
    (change : Entry → Entry) : (l.update word change).entry w = l.entry w := by
  simp [entry, update, lookup_updateEntry_of_ne h]

/-! ### Building -/

/-- Whether a text can be a tag behind a word: a letter, then letters, digits, `_`
and `-`, all of ASCII. -/
def isSubscript : Text → Bool
  | [] => false
  | c :: t => c.isAlpha && t.all fun d => d.isAlphanum || d = '_' || d = '-'

/-- Split the tag off a word, as in `cat.n`. -/
def splitSubscript (word : Text) : Text × Option Text :=
  let tag := (word.reverse.takeWhile (· ≠ '.')).reverse
  let bare := (word.reverse.dropWhile (· ≠ '.')).tail.reverse
  if bare ≠ [] && !bare.contains '\n' && isSubscript tag then (bare, some tag) else (word, none)

/-- Add a rule to a word; its tag, if it has one, is split off and kept. -/
def insert (l : Lexicon) (word : Text) (rule : Rule) : Lexicon :=
  let (bare, tag?) := splitSubscript word
  l.update (Text.lower bare) fun e =>
    let e := e.addRule rule
    match tag? with
    | none => e
    | some tag => e.addTag tag

/-- Add the rule that a formula states. -/
def insertFormula (l : Lexicon) (word formula : Text) : Except FormulaError Lexicon :=
  (Rule.ofText formula).map (l.insert word)

/-- Add a tag to a word; here the word is taken whole. -/
def addTag (l : Lexicon) (word tag : Text) : Lexicon :=
  l.update (Text.lower word) fun e => e.addTag tag

end Lexicon

end LinkGrammar
