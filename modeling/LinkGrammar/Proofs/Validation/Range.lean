/-
LinkGrammar/Proofs/Validation/Range.lean

The words that the scan of a sentence reads, by their indices.

A place carries the words around it as lists, so that no window can ask for a word that is
not there.  Here each window is read off the whole sentence instead, with indices counted
from the place or from a key word found by a search: `wordAt` answers `Fault.outside` for an
index before the first or behind the last word, and nothing catches it.

Main result: reading by indices comes to what the place shows (`stepAt_eq`), so no step
reads outside; where it goes on is further right, at most behind the last word; and the
scan is over after as many steps as there are words.
-/
import Mathlib
import LinkGrammar.Proofs.Validation.Keyword

namespace LinkGrammar

namespace Indexed

/-! ### Reading by indices -/

/-- Why a scan by indices stops without an answer. -/
inductive Fault where
  /-- it reads a word at an index that is none -/
  | outside (index : Int)
  /-- a question about the grammar has no answer -/
  | noAnswer (error : GenerateError)
  /-- the steps that it may take are used up -/
  | unfinished
  deriving DecidableEq

/-- The word at an index, which may have been counted down below zero. -/
def wordAt (words : List Text) (index : Int) : Except Fault Text :=
  if index < 0 then .error (.outside index)
  else
    match words[index.toNat]? with
    | some word => .ok word
    | none => .error (.outside index)

/-- The index of the first occurrence of a word. -/
def firstAt? (words : List Text) (word : Text) : Option Nat :=
  words.findIdx? (· = word)

/-- Ask a question about the grammar. -/
def ask {α : Type} (answer : Except GenerateError α) : Except Fault α :=
  answer.mapError .noAnswer

/-- Go on at an index if a check holds. -/
def goTo (next : Nat) (check : Except Fault Bool) : Except Fault (Option Nat) :=
  check.map fun ok => if ok then some next else none

/-- Whether a word takes an instrument, in this sentence. -/
def takesInstrument (g : Grammar) (words : List Text) (word : Text) : Bool :=
  word = Keyword.saw || Place.sameFirstRule g word Keyword.sawed ||
    (Place.sameFirstRule g word Keyword.writes && words.contains Keyword.toWord)

/-- The check of an instrument verb, with `with` at `k`. -/
def instrumentCheckAt (g : Grammar) (words : List Text) (i k : Nat) (left right : Text) :
    Except Fault Bool := do
  if k = i + 2 then ask (g.connectsLeft left right (← wordAt words k))
  else if right = Keyword.toWord then
    if ← ask (g.connectsLeft left right (← wordAt words k)) then
      ask (g.connects right (← wordAt words (k - 1)))
    else return false
  else if right = Keyword.the then
    ask (g.connectsAll left right (← wordAt words (k - 1)) (← wordAt words k))
  else return false

/-- The window of an instrument verb. -/
def instrumentAt (g : Grammar) (words : List Text) (i : Nat) (left right : Text) :
    Except Fault (Option (Option Nat)) :=
  match (firstAt? words Keyword.withWord).filter fun k => k = i + 2 || k = i + 3 with
  | none => .ok none
  | some k =>
    if takesInstrument g words left then
      some <$> goTo k (instrumentCheckAt g words i k left right)
    else .ok none

/-- The window of an article. -/
def articleAt (g : Grammar) (words : List Text) (i : Nat) (left right : Text) :
    Except Fault (Option (Option Nat)) :=
  if (right = Keyword.a || right = Keyword.the) && i + 2 < words.length then
    some <$> goTo (i + 2) (do ask (g.connectsThrough left right (← wordAt words (i + 2))))
  else .ok none

/-- The check of `on`, with the word `x` before its left neighbour. -/
def particleCheckAt (g : Grammar) (words : List Text) (i : Nat) (x right : Text) :
    Except Fault Bool := do
  if x = Keyword.a && 3 ≤ i then
    ask (g.connectsLeft (← wordAt words (i - 3)) (← wordAt words (i - 2)) right)
  else if ← ask (g.connectsLeft (← wordAt words (i - 2)) x right) then return true
  else if 4 ≤ i then ask (g.connectsMin (← wordAt words (i - 4)) right)
  else return false

/-- The window of `on`. -/
def particleAt (g : Grammar) (words : List Text) (i : Nat) (right : Text) :
    Except Fault (Option (Option Nat)) :=
  if right = Keyword.onWord && 2 ≤ i then do
    let x ← wordAt words (i - 1)
    if x = Keyword.a || x = Keyword.withWord then
      some <$> goTo (i + 1) (particleCheckAt g words i x right)
    else return none
  else .ok none

/-- Where the scan goes on behind `wants`, which has two words behind it. -/
def behindWantsAt (g : Grammar) (words : List Text) (i : Nat) (left right : Text) :
    Except Fault (Option Nat) := do
  if right = Keyword.toWord then
    goTo (i + 3) (do ask (g.connectsLeft left right (← wordAt words (i + 2))))
  else if (← wordAt words (i + 2)) = Keyword.toWord then
    if i + 3 < words.length then
      goTo (i + 4) (do
        ask (g.connectsFour left right (← wordAt words (i + 2)) (← wordAt words (i + 3))))
    else return none
  else if i + 3 < words.length then
    if (← wordAt words (i + 3)) = Keyword.toWord then
      if i + 4 < words.length then
        goTo (i + 5) (do
          ask (g.connectsFour left (← wordAt words (i + 2)) (← wordAt words (i + 3))
            (← wordAt words (i + 4))))
      else return none
    else return none
  else return none

/-- The window of `wants`. -/
def infinitiveAt (g : Grammar) (words : List Text) (i : Nat) (left right : Text) :
    Except Fault (Option (Option Nat)) :=
  if left = Keyword.wants && i + 2 < words.length then
    some <$> behindWantsAt g words i left right
  else .ok none

/-- Two words that link, or a `with` that goes with a later `on`. -/
def neighboursAt (g : Grammar) (words : List Text) (i : Nat) (left right : Text) :
    Except Fault (Option Nat) := do
  if ← ask (g.connects left right) then return some (i + 1)
  else if right = Keyword.withWord && (firstAt? words Keyword.onWord).any (i < ·) then
    goTo (i + 1) (ask (g.connectsLeft left right Keyword.onWord))
  else return none

/-- The answer of a window, if it is looked for and applies, else that of the rest. -/
def orRest (looked : Bool) (window : Except Fault (Option (Option Nat)))
    (rest : Except Fault (Option Nat)) : Except Fault (Option Nat) := do
  if looked then
    match ← window with
    | some next => return next
    | none => rest
  else rest

/-- Where the scan goes on from the `i`-th word; `none` if no pattern is met there. -/
def stepAt (g : Grammar) (idioms : Idioms) (words : List Text) (i : Nat) :
    Except Fault (Option Nat) := do
  let left ← wordAt words i
  let right ← wordAt words (i + 1)
  orRest idioms.instrument (instrumentAt g words i left right) <|
    orRest idioms.article (articleAt g words i left right) <|
    orRest idioms.particle (particleAt g words i right) <|
    orRest idioms.infinitive (infinitiveAt g words i left right) <|
    neighboursAt g words i left right

/-- The scan from the `i`-th word on, if it takes no more than so many steps. -/
def scanWithin (g : Grammar) (idioms : Idioms) (words : List Text) :
    Nat → Nat → Except Fault Bool
  | 0, i => if i + 1 < words.length then .error .unfinished else .ok true
  | steps + 1, i =>
    if i + 1 < words.length then do
      if (← wordAt words i) = (← wordAt words (i + 1)) then return false
      else
        match ← stepAt g idioms words i with
        | none => return false
        | some next => scanWithin g idioms words steps next
    else .ok true

/-! ### The words of a place -/

variable {g : Grammar} {idioms : Idioms} {words : List Text} {p : Place} {i : Nat}

/-- A word is read exactly at the indices of the sentence. -/
theorem wordAt_eq_ok_iff {index : Int} {word : Text} :
    wordAt words index = .ok word ↔ ∃ j : Nat, index = j ∧ words[j]? = some word := by
  unfold wordAt
  constructor
  · intro h
    split at h
    · cases h
    · split at h
      · next w hw =>
        cases h
        exact ⟨index.toNat, by omega, hw⟩
      · cases h
  · rintro ⟨j, rfl, h⟩
    rw [if_neg (by omega), Int.toNat_natCast, h]

/-- The left word of a place stands at its index. -/
theorem getElem?_left (h : Place.at? words i = some p) : words[i]? = some p.left := by
  rw [← List.head?_drop, Place.drop_of_at? h]
  rfl

theorem getElem?_right (h : Place.at? words i = some p) : words[i + 1]? = some p.right := by
  rw [← List.getElem?_drop, Place.drop_of_at? h]
  rfl

theorem wordAt_left (h : Place.at? words i = some p) : wordAt words i = .ok p.left :=
  wordAt_eq_ok_iff.2 ⟨i, rfl, getElem?_left h⟩

theorem wordAt_right (h : Place.at? words i = some p) : wordAt words (i + 1) = .ok p.right :=
  wordAt_eq_ok_iff.2 ⟨i + 1, by omega, getElem?_right h⟩

/-- A word behind the right neighbour, by its index. -/
theorem wordAt_after (h : Place.at? words i = some p) {index : Int} {word : Text} (j : Nat)
    (hword : p.after[j]? = some word) (hindex : index = i + 2 + j) :
    wordAt words index = .ok word :=
  wordAt_eq_ok_iff.2 ⟨i + 2 + j, by omega, (Place.getElem?_of_at? h j).trans hword⟩

/-- As many words stand before a place as its index says. -/
theorem length_before (h : Place.at? words i = some p) : p.before.length = i := by
  have hlt := Place.lt_length_of_at? h
  rw [Place.before_of_at? h, List.length_reverse, List.length_take_of_le (by omega)]

/-- A word before the left neighbour, by its index. -/
theorem wordAt_before (h : Place.at? words i = some p) {index : Int} {word : Text} (j : Nat)
    (hword : p.before[j]? = some word) (hindex : index = i - 1 - j) :
    wordAt words index = .ok word := by
  have hlen := length_before h
  have hlt : j < p.before.length := (List.getElem?_eq_some_iff.1 hword).1
  rw [Place.before_of_at? h, List.length_reverse] at hlen hlt
  -- the words before are listed from the place back to the front
  rw [Place.before_of_at? h, List.getElem?_reverse hlt, hlen,
    List.getElem?_take_of_lt (by omega)] at hword
  exact wordAt_eq_ok_iff.2 ⟨_, by omega, hword⟩

/-! ### Key words found by a search -/

/-- A word among the first `m` is found there. -/
theorem firstAt?_of_mem_take {word : Text} {m : Nat} (h : word ∈ words.take m) :
    ∃ k < m, firstAt? words word = some k := by
  unfold firstAt?
  rw [← List.take_append_drop m words, List.findIdx?_append]
  rcases hfirst : (words.take m).findIdx? (· = word) with - | k
  · simpa using List.findIdx?_eq_none_iff.1 hfirst word h
  · obtain ⟨hlt, -⟩ := List.findIdx?_eq_some_iff_getElem.1 hfirst
    exact ⟨k, lt_of_lt_of_le hlt (List.length_take_le m words), rfl⟩

/-- A word that is not among them is found behind them or nowhere. -/
theorem firstAt?_of_not_mem_take {word : Text} {m : Nat} (hm : m ≤ words.length)
    (h : word ∉ words.take m) :
    firstAt? words word = (firstAt? (words.drop m) word).map (· + m) := by
  have hnone : (words.take m).findIdx? (· = word) = none :=
    List.findIdx?_eq_none_iff.2 fun x hx => decide_eq_false (ne_of_mem_of_not_mem hx h)
  unfold firstAt?
  conv_lhs => rw [← List.take_append_drop m words]
  rw [List.findIdx?_append, hnone, List.length_take_of_le hm]
  rfl

/-- What follows the two words of a place. -/
theorem drop_after (h : Place.at? words i = some p) : words.drop (i + 2) = p.after := by
  rw [← List.drop_drop, Place.drop_of_at? h]
  rfl

/-- A word that is not found up to the place is looked for behind it. -/
theorem firstAt?_eq_after (h : Place.at? words i = some p) {word : Text}
    (hword : word ∉ words.take (i + 2)) :
    firstAt? words word = (firstAt? p.after word).map (· + (i + 2)) := by
  have hlt := Place.lt_length_of_at? h
  rw [firstAt?_of_not_mem_take hlt hword, drop_after h]

/-- The search for `with` finds the one that the window of an instrument verb asks for. -/
theorem firstWith_eq (h : Place.at? words i = some p) :
    ((firstAt? words Keyword.withWord).filter fun k => k = i + 2 || k = i + 3)
      = p.withPosition?.map fun
        | .near => i + 2
        | .far _ => i + 3 := by
  rw [Place.withPosition?_eq h]
  by_cases hearlier : Keyword.withWord ∈ words.take (i + 2)
  · obtain ⟨k, hk, hfirst⟩ := firstAt?_of_mem_take hearlier
    have hnear : k ≠ i + 2 := by omega
    have hfar : k ≠ i + 3 := by omega
    rw [if_pos hearlier, hfirst]
    simp [hnear, hfar]
  · -- the first `with` is the first one behind the right neighbour
    rw [if_neg hearlier, firstAt?_eq_after h hearlier]
    unfold Place.nextWith? firstAt?
    rcases p.after with - | ⟨x, rest⟩
    · rfl
    by_cases hx : x = Keyword.withWord
    · simp [hx, List.findIdx?_cons]
    rcases rest with - | ⟨y, rest⟩
    · simp [hx, List.findIdx?_cons]
    by_cases hy : y = Keyword.withWord
    · simp [hx, hy, List.findIdx?_cons, Nat.add_comm 1]
    · simp only [List.findIdx?_cons, hx, hy, decide_false, Bool.false_eq_true, if_false,
        List.head?_cons, Option.some.injEq, Option.map_none]
      rcases rest.findIdx? (· = Keyword.withWord) with - | k
      · rfl
      · have hfar : k + 1 + 1 + (i + 2) ≠ i + 3 := by omega
        simp [hfar]

/-- The search for `on` finds one behind the place if none stands before that. -/
theorem firstAt?_any (h : Place.at? words i = some p) {word : Text} (hright : p.right ≠ word) :
    (firstAt? words word).any (i < ·) = (!p.holdsUpToLeft word && p.after.contains word) := by
  by_cases hearlier : word ∈ words.take (i + 1)
  · obtain ⟨k, hk, hfirst⟩ := firstAt?_of_mem_take hearlier
    have hle : ¬i < k := by omega
    rw [hfirst, (Place.holdsUpToLeft_iff h).2 hearlier]
    simp [hle]
  · have hword : word ∉ words.take (i + 2) := by
      rw [Place.mem_take_right_iff h]
      exact fun hmem => hmem.elim hearlier hright
    have hcontains : (firstAt? p.after word).isSome = p.after.contains word := by
      unfold firstAt?
      rw [List.findIdx?_isSome, List.any_eq, List.contains_eq_mem]
      simp
    rw [firstAt?_eq_after h hword, Bool.eq_false_iff.2 (mt (Place.holdsUpToLeft_iff h).1 hearlier),
      ← hcontains]
    rcases firstAt? p.after word with - | k
    · rfl
    · have hlt : i < k + (i + 2) := by omega
      simp [hlt]

theorem takesInstrument_eq (h : Place.at? words i = some p) :
    takesInstrument g words p.left = p.isInstrumentVerb g := by
  have hto : words.contains Keyword.toWord = p.holds Keyword.toWord := by
    conv_lhs => rw [← List.take_append_drop i words, Place.drop_of_at? h]
    unfold Place.holds
    rw [Place.before_of_at? h]
    simp [Bool.or_assoc]
  unfold takesInstrument Place.isInstrumentVerb
  rw [hto]

/-! ### The windows -/

@[simp] theorem ok_bind {α β : Type} (a : α) (f : α → Except Fault β) :
    (Except.ok a >>= f) = f a := rfl

/-- One check and, failing that, another. -/
theorem ask_orElse (check other : Except GenerateError Bool) :
    ask (do if ← check then return true else other)
      = (do if ← ask check then return true else ask other) := by
  rcases check with e | - | - <;> rfl

theorem ask_andThen (check other : Except GenerateError Bool) :
    ask (do if ← check then other else return false)
      = (do if ← ask check then ask other else return false) := by
  rcases check with e | - | - <;> rfl

/-- Where the scan goes on if this is met at the `i`-th word. -/
def outcome (i : Nat) (met : Except GenerateError (Option Pattern)) : Except Fault (Option Nat) :=
  (ask met).map (Option.map fun pattern => i + pattern.advance)

/-- The same for a window that may not apply. -/
def reading (i : Nat) (window? : Option (Except GenerateError (Option Pattern))) :
    Except Fault (Option (Option Nat)) :=
  match window? with
  | none => .ok none
  | some met => some <$> outcome i met

/-- A pattern whose check holds leads on by its advance. -/
theorem outcome_guarded (i : Nat) (pattern : Pattern) (check : Except GenerateError Bool) :
    outcome i (Place.guarded pattern check) = goTo (i + pattern.advance) (ask check) := by
  rcases check with e | - | - <;> rfl

/-- The window of an article reads alike. -/
theorem articleAt_eq (h : Place.at? words i = some p) :
    articleAt g words i p.left p.right = reading i (p.article? g) := by
  have hlen := Place.length_of_at? h
  unfold articleAt Place.article?
  by_cases hright : (p.right = Keyword.a || p.right = Keyword.the) = true
  · rcases hafter : p.after with - | ⟨x, rest⟩ <;> rw [hafter] at hlen
    · rw [List.length_nil] at hlen
      simp [hright, hlen, reading]
    · rw [List.length_cons] at hlen
      have hx : wordAt words (i + 2) = .ok x := wordAt_after h 0 (by rw [hafter]; rfl) (by omega)
      simp [hright, hlen, reading, hx, outcome_guarded, Pattern.advance]
  · simp [hright, reading]

/-- The word four before `on` is asked about if there is one. -/
theorem headCheck_eq (h : Place.at? words i = some p) {x y : Text} {more : List Text}
    (hbefore : p.before = x :: y :: more) (right : Text) :
    (do if 4 ≤ i then ask (g.connectsMin (← wordAt words (i - 4)) right) else return false)
      = ask (match more.tail.head? with
        | some head => g.connectsMin head right
        | none => return false) := by
  have hlen := length_before h
  rw [hbefore] at hlen
  rcases more with - | ⟨z, - | ⟨head, more⟩⟩
  · rw [if_neg (by simp at hlen; omega)]
    rfl
  · rw [if_neg (by simp at hlen; omega)]
    rfl
  · have hhead : wordAt words (i - 4) = .ok head :=
      wordAt_before h 3 (by rw [hbefore]; rfl) (by omega)
    rw [if_pos (by simp at hlen; omega), hhead]
    rfl

/-- The check of `on` asks about the same words. -/
theorem particleCheckAt_eq (h : Place.at? words i = some p) {x y : Text} {more : List Text}
    (hbefore : p.before = x :: y :: more) (right : Text) :
    particleCheckAt g words i x right
      = ask (match (if x = Keyword.a then more.head? else none) with
        | some z => g.connectsLeft z y right
        | none => do
          if ← g.connectsLeft y x right then return true
          else
            match more.tail.head? with
            | some head => g.connectsMin head right
            | none => return false) := by
  have hlen := length_before h
  rw [hbefore] at hlen
  have hy : wordAt words (i - 2) = .ok y := wordAt_before h 1 (by rw [hbefore]; rfl) (by omega)
  unfold particleCheckAt
  rw [hy]
  by_cases hz : x = Keyword.a ∧ 3 ≤ i
  · -- a word stands three before `on`
    obtain ⟨hxa, hthree⟩ := hz
    rcases more with - | ⟨z, more⟩
    · simp at hlen; omega
    · have hz : wordAt words (i - 3) = .ok z := wordAt_before h 2 (by rw [hbefore]; rfl) (by omega)
      simp [hxa, hthree, hz]
  · -- behind `with`, or behind an `a` with one word before it
    have hnone : (if x = Keyword.a then more.head? else none) = none := by
      rcases more with - | ⟨z, more⟩
      · simp
      · rw [if_neg]
        rintro rfl
        exact hz ⟨rfl, by simp at hlen; omega⟩
    rw [hnone, ask_orElse, ← headCheck_eq h hbefore]
    simp [hz]

theorem particleAt_eq (h : Place.at? words i = some p) :
    particleAt g words i p.right = reading i (p.particle? g) := by
  have hlen := length_before h
  unfold particleAt Place.particle?
  by_cases hright : p.right = Keyword.onWord
  · rcases hbefore : p.before with - | ⟨x, - | ⟨y, more⟩⟩ <;> rw [hbefore] at hlen
    · simp [← hlen, reading]
    · simp [← hlen, reading]
    · have htwo : 2 ≤ i := by simp at hlen; omega
      have hx : wordAt words (i - 1) = .ok x := wordAt_before h 0 (by rw [hbefore]; rfl) (by omega)
      rw [if_pos (by simp [hright, htwo]), if_pos hright, hx, ok_bind,
        particleCheckAt_eq h hbefore]
      dsimp only
      split
      · rw [reading, outcome_guarded]
        rfl
      · rfl
  · simp [hright, reading]

/-- What stands behind `wants` reads alike. -/
theorem behindWantsAt_eq (h : Place.at? words i = some p) {x : Text} {rest : List Text}
    (left : Text) : p.after = x :: rest →
    behindWantsAt g words i left p.right
      = outcome i (if p.right = Keyword.toWord then
          Place.guarded .infinitive (g.connectsLeft left p.right x)
        else if x = Keyword.toWord then
          match rest with
          | y :: _ => Place.guarded .infinitiveOverOne (g.connectsFour left p.right x y)
          | [] => return none
        else
          match rest with
          | y :: z :: _ =>
            if y = Keyword.toWord then
              Place.guarded .infinitiveOverTwo (g.connectsFour left x y z)
            else return none
          | _ => return none) := by
  -- the equation is no argument, or the matches of the statement would carry it along
  intro hafter
  have hlen := Place.length_of_at? h
  rw [hafter] at hlen
  have hx : wordAt words (i + 2) = .ok x := wordAt_after h 0 (by rw [hafter]; rfl) (by omega)
  unfold behindWantsAt
  rw [hx]
  by_cases hright : p.right = Keyword.toWord
  · rw [if_pos hright, if_pos hright, outcome_guarded]
    rfl
  rw [if_neg hright, if_neg hright, ok_bind]
  -- from here on each check of the length is a case on the words that are left
  rcases rest with - | ⟨y, rest⟩
  · have hthree : ¬i + 3 < words.length := by simp at hlen; omega
    rw [if_neg hthree, if_neg hthree, ite_self, ite_self]
    rfl
  have hthree : i + 3 < words.length := by simp at hlen; omega
  have hy : wordAt words (i + 3) = .ok y := wordAt_after h 1 (by rw [hafter]; rfl) (by omega)
  rw [if_pos hthree, if_pos hthree, hy]
  by_cases hto : x = Keyword.toWord
  · rw [if_pos hto, if_pos hto, outcome_guarded]
    rfl
  rw [if_neg hto, if_neg hto, ok_bind]
  rcases rest with - | ⟨z, rest⟩
  · have hfour : ¬i + 4 < words.length := by simp at hlen; omega
    rw [if_neg hfour, ite_self]
    rfl
  have hfour : i + 4 < words.length := by simp at hlen; omega
  have hz : wordAt words (i + 4) = .ok z := wordAt_after h 2 (by rw [hafter]; rfl) (by omega)
  rw [if_pos hfour, hz]
  dsimp only
  by_cases hto : y = Keyword.toWord
  · rw [if_pos hto, if_pos hto, outcome_guarded]
    rfl
  · rw [if_neg hto, if_neg hto]
    rfl

theorem infinitiveAt_eq (h : Place.at? words i = some p) :
    infinitiveAt g words i p.left p.right = reading i (p.infinitive? g) := by
  have hlen := Place.length_of_at? h
  unfold infinitiveAt Place.infinitive?
  by_cases hleft : p.left = Keyword.wants
  · rcases hafter : p.after with - | ⟨x, rest⟩ <;> rw [hafter] at hlen
    · simp at hlen
      simp [hlen, reading]
    · have htwo : i + 2 < words.length := by simp at hlen; omega
      rw [if_pos (by simp [hleft, htwo]), if_pos hleft, behindWantsAt_eq h p.left hafter]
      rfl
  · simp [hleft, reading]

/-- The window of an instrument verb reads alike. -/
theorem instrumentAt_eq (h : Place.at? words i = some p) :
    instrumentAt g words i p.left p.right = reading i (p.instrument? g) := by
  unfold instrumentAt Place.instrument?
  rw [firstWith_eq h, takesInstrument_eq h]
  rcases hposition : p.withPosition? with - | position
  · rw [Option.map_none, Option.map_none, ite_self]
    rfl
  rw [Option.map_some, Option.map_some]
  dsimp only
  split
  · rcases Place.withPosition?_cases hposition with ⟨rfl, rest, hafter⟩ |
      ⟨between, rest, rfl, hafter, -⟩
    · have hwith : wordAt words ((i + 2 : Nat) : Int) = .ok Keyword.withWord :=
        wordAt_after h 0 (by rw [hafter]; rfl) (by omega)
      rw [reading, Place.instrumentCheck, outcome_guarded, instrumentCheckAt, if_pos rfl, hwith]
      rfl
    · have hbetween : wordAt words ((i + 3 : Nat) - 1 : Int) = .ok between :=
        wordAt_after h 0 (by rw [hafter]; rfl) (by omega)
      have hwith : wordAt words ((i + 3 : Nat) : Int) = .ok Keyword.withWord :=
        wordAt_after h 1 (by rw [hafter]; rfl) (by omega)
      dsimp only
      rw [reading, Place.instrumentCheck, outcome_guarded, instrumentCheckAt, if_neg (by omega),
        hwith, hbetween]
      congr 2
      split
      · rw [ask_andThen]
        rfl
      · split
        · rfl
        · rfl
  · rfl

theorem neighboursAt_eq (h : Place.at? words i = some p) :
    neighboursAt g words i p.left p.right = outcome i (p.neighbours g) := by
  unfold neighboursAt Place.neighbours
  rcases g.connects p.left p.right with e | - | -
  · rfl
  · have hkey : (p.right = Keyword.withWord && (firstAt? words Keyword.onWord).any (i < ·))
        = (p.right = Keyword.withWord && !p.holdsUpToLeft Keyword.onWord &&
          p.after.contains Keyword.onWord) := by
      by_cases hright : p.right = Keyword.withWord
      · have hon : p.right ≠ Keyword.onWord := by rw [hright]; decide
        rw [firstAt?_any h hon, Bool.and_assoc]
      · simp only [hright, decide_false, Bool.false_and]
    rw [hkey]
    simp only [ask, Except.mapError, Bool.false_eq_true, if_false, bind, Except.bind]
    split
    · rw [outcome_guarded]
      rfl
    · rfl
  · rfl

/-- A window that does not apply, or is not looked at, leaves the place to the next. -/
theorem orRest_reading (i : Nat) (looked : Bool)
    (window? : Option (Except GenerateError (Option Pattern)))
    (met : Except GenerateError (Option Pattern)) :
    orRest looked (reading i window?) (outcome i met)
      = outcome i ((if looked then window? else none).getD met) := by
  rcases looked with - | -
  · rfl
  · rcases window? with - | met'
    · rfl
    · unfold orRest reading
      rcases hmet : outcome i met' with e | next
      · simp [hmet]
        rfl
      · simp [hmet]
        rfl

/-- **Reading by indices comes to what the place shows.** -/
theorem stepAt_eq (h : Place.at? words i = some p) :
    stepAt g idioms words i = outcome i (p.pattern? g idioms) := by
  unfold stepAt Place.pattern? Place.window?
  rw [wordAt_left h, wordAt_right h, ok_bind, ok_bind, instrumentAt_eq h, articleAt_eq h,
    particleAt_eq h, infinitiveAt_eq h, neighboursAt_eq h, orRest_reading, orRest_reading,
    orRest_reading, orRest_reading]
  simp only [Option.orElse_eq_orElse, Option.orElse_eq_or, Option.getD_or]

/-! ### Where a step goes -/

/-- There is a place wherever a word follows. -/
theorem exists_at?_eq_some (h : i + 1 < words.length) : ∃ p, Place.at? words i = some p := by
  rcases hp : Place.at? words i with - | p
  · have := Place.length_le_of_at?_eq_none hp
    omega
  · exact ⟨p, rfl⟩

/-- The one fault of a question about the grammar is that it has no answer. -/
theorem eq_noAnswer_of_ask {α : Type} {answer : Except GenerateError α} {fault : Fault}
    (h : ask answer = .error fault) : ∃ error, fault = .noAnswer error := by
  rcases answer with error | a
  · cases h
    exact ⟨error, rfl⟩
  · cases h

/-- So is that of a step that comes to what a place shows. -/
theorem eq_noAnswer_of_outcome {met : Except GenerateError (Option Pattern)} {fault : Fault}
    (h : outcome i met = .error fault) : ∃ error, fault = .noAnswer error := by
  rcases met with error | pattern?
  · cases h
    exact ⟨error, rfl⟩
  · cases h

/-- An index that is led to comes from a pattern. -/
theorem eq_ok_of_outcome_eq {met : Except GenerateError (Option Pattern)} {next : Nat}
    (h : outcome i met = .ok (some next)) :
    ∃ pattern, met = .ok (some pattern) ∧ next = i + pattern.advance := by
  obtain ⟨pattern?, hmet, hnext⟩ := map_eq_ok.1 h
  obtain ⟨pattern, rfl, rfl⟩ := Option.map_eq_some_iff.1 hnext
  rcases met with e | met
  · cases hmet
  · cases hmet
    exact ⟨pattern, rfl, rfl⟩

/-- A pattern leads on, at most behind the last word. -/
theorem advance_le (h : Place.at? words i = some p) {pattern : Pattern}
    (hpattern : p.pattern? g idioms = .ok (some pattern)) :
    i < i + pattern.advance ∧ i + pattern.advance ≤ words.length := by
  have hpos := pattern.advance_pos
  have hreach := (Place.shows_of_pattern? hpattern).reach_le
  have hlen := Place.length_of_at? h
  have hadvance : pattern.advance ≤ pattern.reach + 1 := by
    rw [pattern.advance_eq]
    split <;> omega
  omega

/-! ### The scan within so many steps -/

/-- A step for each word that is left is enough, and the scan then answers as ever. -/
theorem scanWithin_eq {steps : Nat} (h : words.length ≤ i + 1 + steps) :
    scanWithin g idioms words steps i = ask (g.scanFrom idioms words i) := by
  induction steps generalizing i with
  | zero =>
    rcases hp : Place.at? words i with - | p
    · rw [scanWithin, if_neg (by omega), Grammar.scanFrom_of_none hp]
      rfl
    · have := Place.lt_length_of_at? hp
      omega
  | succ steps ih =>
    rcases hp : Place.at? words i with - | p
    · have hlen := Place.length_le_of_at?_eq_none hp
      rw [scanWithin, if_neg (by omega), Grammar.scanFrom_of_none hp]
      rfl
    · rw [scanWithin, if_pos (Place.lt_length_of_at? hp), wordAt_left hp, wordAt_right hp,
        stepAt_eq hp, Grammar.scanFrom_of_some hp, ok_bind, ok_bind]
      split
      · rfl
      · rcases hmet : p.pattern? g idioms with e | - | pattern
        · rfl
        · rfl
        · have hpos := pattern.advance_pos
          have hleft : words.length ≤ i + pattern.advance + 1 + steps := by omega
          exact ih hleft

/-- **The scan stays in range.**  At a word that another one follows, a step reads no index
outside the sentence, and comes to what the place there shows; where it goes on is further
right, and at most behind the last word.  So the scan is over after no more steps than there
are words. -/
theorem steps_in_range (g : Grammar) (idioms : Idioms) (words : List Text) :
    (∀ i, i + 1 < words.length →
      (∀ k, stepAt g idioms words i ≠ .error (.outside k)) ∧
      (∃ p, Place.at? words i = some p ∧
        stepAt g idioms words i = outcome i (p.pattern? g idioms)) ∧
      ∀ next, stepAt g idioms words i = .ok (some next) → i < next ∧ next ≤ words.length) ∧
    ∀ steps, words.length ≤ steps →
      scanWithin g idioms words steps 0 = ask (g.scanFrom idioms words 0) ∧
        scanWithin g idioms words steps 0 ≠ .error .unfinished := by
  constructor
  · intro i hi
    obtain ⟨p, hp⟩ := exists_at?_eq_some hi
    have hstep : stepAt g idioms words i = outcome i (p.pattern? g idioms) := stepAt_eq hp
    refine ⟨fun k hk => ?_, ⟨p, hp, hstep⟩, fun next hnext => ?_⟩
    · obtain ⟨error, hfault⟩ := eq_noAnswer_of_outcome (hstep.symm.trans hk)
      cases hfault
    · obtain ⟨pattern, hpattern, rfl⟩ := eq_ok_of_outcome_eq (hstep.symm.trans hnext)
      exact advance_le hp hpattern
  · intro steps hsteps
    have hscan : scanWithin g idioms words steps 0 = ask (g.scanFrom idioms words 0) :=
      scanWithin_eq (by omega)
    refine ⟨hscan, fun hunfinished => ?_⟩
    obtain ⟨error, hfault⟩ := eq_noAnswer_of_ask (hscan.symm.trans hunfinished)
    cases hfault

/-- `he wants to eat` -/
def wantsWords : List Text := Grammar.wantsTokens.take 4

/-- The window of `wants` leads behind the last word. -/
theorem steps_in_range_wants :
    1 + 1 < wantsWords.length ∧
      stepAt Grammar.wantsGrammar .all wantsWords 1 = .ok (some 4) ∧
      (1 < 4 ∧ 4 ≤ wantsWords.length) ∧
      scanWithin Grammar.wantsGrammar .all wantsWords 4 0
        = ask (Grammar.wantsGrammar.scanFrom .all wantsWords 0) := by
  have hlt : 1 + 1 < wantsWords.length := by decide
  have hstep : stepAt Grammar.wantsGrammar .all wantsWords 1 = .ok (some 4) := by cbv
  obtain ⟨hsteps, hscan⟩ := steps_in_range Grammar.wantsGrammar .all wantsWords
  exact ⟨hlt, hstep, (hsteps 1 hlt).2.2 4 hstep, (hscan 4 (by decide)).1⟩

end Indexed

end LinkGrammar
