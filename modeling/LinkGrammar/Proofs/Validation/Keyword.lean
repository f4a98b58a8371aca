/-
LinkGrammar/Proofs/Validation/Keyword.lean

Key words that occur before the place of a window.

Two patterns ask for a key word behind their place: an instrument verb asks for `with`, and
a word before `with` asks for `on`.  Both look for the first one of the whole sentence, so
one that stands earlier hides those behind.

Main result: what a place shows where the key word stands behind it.  For an instrument verb
the window decides if no `with` stands up to the right neighbour; otherwise it does not apply,
and the other patterns do.  For a word before `with` that does not link to it, no pattern is
ever matched, with or without an earlier `on`: the check of `on` asks for the very link that
is missing.
-/
import Mathlib
import LinkGrammar.Proofs.Link.Answer
import LinkGrammar.Proofs.Validation.Coverage
import LinkGrammar.Proofs.Validation.Idioms

namespace LinkGrammar

namespace Place

variable {g : Grammar} {p : Place} {words : List Text} {i : Nat}

/-! ### The words around a place -/

theorem before_of_at? (h : at? words i = some p) : p.before = (words.take i).reverse := by
  unfold at? at h
  split at h
  · cases h
    rfl
  · cases h

theorem holdsUpToLeft_iff (h : at? words i = some p) {w : Text} :
    p.holdsUpToLeft w = true ↔ w ∈ words.take (i + 1) := by
  rw [List.take_add, drop_of_at? h, holdsUpToLeft, before_of_at? h]
  simp

theorem mem_take_right_iff (h : at? words i = some p) {w : Text} :
    w ∈ words.take (i + 2) ↔ w ∈ words.take (i + 1) ∨ p.right = w := by
  rw [List.take_add, List.take_add, drop_of_at? h]
  simp [or_assoc, eq_comm (b := w)]

theorem getElem?_of_at? (h : at? words i = some p) (k : Nat) :
    words[i + 2 + k]? = p.after[k]? := by
  rw [Nat.add_assoc, ← List.getElem?_drop, drop_of_at? h, Nat.add_comm 2 k]
  rfl

/-! ### The next `with` -/

/-- The position of `with` among the two words after the right neighbour, whatever stands
before them; of two the nearer one. -/
def nextWith? (p : Place) : Option WithPosition :=
  match p.after with
  | [] => none
  | x :: rest =>
    if x = Keyword.withWord then some .near
    else if rest.head? = some Keyword.withWord then some (.far x)
    else none

theorem exists_nextWith?_iff (h : at? words i = some p) :
    (∃ position, p.nextWith? = some position) ↔
      words[i + 2]? = some Keyword.withWord ∨ words[i + 3]? = some Keyword.withWord := by
  have hnear : words[i + 2]? = p.after[0]? := getElem?_of_at? h 0
  have hfar : words[i + 3]? = p.after[1]? := getElem?_of_at? h 1
  rw [hnear, hfar]
  unfold nextWith?
  rcases p.after with - | ⟨x, rest⟩
  · simp
  · by_cases hx : x = Keyword.withWord
    · simp [hx]
    · by_cases hrest : rest.head? = some Keyword.withWord
      · simp [hx, hrest, ← List.head?_eq_getElem?]
      · simp [hx, hrest, ← List.head?_eq_getElem?]

/-- The first `with` of the sentence is the next one unless one stands earlier. -/
theorem withPosition?_eq (h : at? words i = some p) :
    p.withPosition? = if Keyword.withWord ∈ words.take (i + 2) then none else p.nextWith? := by
  have hmem : (p.holdsUpToLeft Keyword.withWord || p.right = Keyword.withWord) = true ↔
      Keyword.withWord ∈ words.take (i + 2) := by
    rw [mem_take_right_iff h, ← holdsUpToLeft_iff h, Bool.or_eq_true, decide_eq_true_eq]
  unfold withPosition? nextWith?
  by_cases hearlier : Keyword.withWord ∈ words.take (i + 2)
  · rw [if_pos hearlier, if_pos (hmem.2 hearlier)]
  · exact (if_neg (mt hmem.1 hearlier)).trans (if_neg hearlier).symm

/-- The pattern at a place, if the window of an instrument verb is left out. -/
def otherPattern? (g : Grammar) (p : Place) : Except GenerateError (Option Pattern) :=
  (p.article? g <|> p.particle? g <|> p.infinitive? g).getD (p.neighbours g)

/-- What an instrument verb shows that has `with` behind it. -/
theorem pattern?_of_isInstrumentVerb (h : at? words i = some p)
    (hverb : p.isInstrumentVerb g = true) {position : WithPosition}
    (hwith : p.nextWith? = some position) :
    p.pattern? g .all =
      if Keyword.withWord ∈ words.take (i + 2) then p.otherPattern? g
      else p.instrumentCheck g position := by
  unfold pattern? otherPattern?
  rw [window?_of_covers (Idioms.covers_all words) h]
  unfold instrument?
  rw [if_pos hverb, withPosition?_eq h, hwith]
  split
  · rfl
  · rfl

end Place

/-! ### The `on` behind `with` -/

namespace Grammar

variable {g : Grammar} {left mid right : Text}

/-- The check of two links of a word asks for the first of them. -/
theorem connects_of_connectsLeft (h : g.connectsLeft left mid right = .ok true) :
    g.connects left mid = .ok true := by
  unfold connectsLeft at h
  split at h
  · cases h
  · obtain ⟨⟨midOk, midAt⟩, hmid, h⟩ := bind_eq_ok.1 h
    obtain ⟨⟨rightOk, rightAt⟩, -, h⟩ := bind_eq_ok.1 h
    obtain ⟨link?, hlink, hpair⟩ := map_eq_ok.1 hmid
    refine map_eq_ok.2 ⟨link?, hlink, ?_⟩
    rcases link? with - | link
    · cases hpair
      cases h
    · rfl

end Grammar

namespace Place

variable {g : Grammar} {p : Place} {words : List Text} {i : Nat}

theorem guarded_of_ne_ok_true {pattern : Pattern} {check : Except GenerateError Bool}
    (h : check ≠ .ok true) : guarded pattern check = check.map fun _ => none := by
  rcases check with e | - | -
  · rfl
  · rfl
  · exact absurd rfl h

/-- The sentence holds `on` behind the left word of a place before `with`. -/
theorem onWord_mem_after (h : at? words i = some p) (hright : p.right = Keyword.withWord)
    (hon : ∃ k, i < k ∧ words[k]? = some Keyword.onWord) : Keyword.onWord ∈ p.after := by
  obtain ⟨k, hik, hk⟩ := hon
  obtain ⟨j, rfl⟩ := Nat.exists_eq_add_of_lt hik
  rw [Nat.add_assoc, ← List.getElem?_drop, drop_of_at? h, hright] at hk
  rcases j with - | j
  · exact absurd (Option.some.inj hk) (by decide)
  · exact List.mem_of_getElem? hk

/-- What a word before `with` shows that does not link to it, and has `on` behind it. -/
theorem pattern?_of_detached (h : at? words i = some p) (hwindow : p.window? g .all = none)
    (hlink : g.connects p.left p.right = .ok false) (hright : p.right = Keyword.withWord)
    (hon : ∃ k, i < k ∧ words[k]? = some Keyword.onWord) :
    g.connectsLeft p.left p.right Keyword.onWord ≠ .ok true ∧
      p.pattern? g .all =
        if Keyword.onWord ∈ words.take (i + 1) then .ok none
        else (g.connectsLeft p.left p.right Keyword.onWord).map fun _ => none := by
  have hcheck : g.connectsLeft p.left p.right Keyword.onWord ≠ .ok true := by
    intro hleft
    have hlinked := Grammar.connects_of_connectsLeft hleft
    rw [hlink] at hlinked
    cases hlinked
  refine ⟨hcheck, ?_⟩
  have hafter : p.after.contains Keyword.onWord = true :=
    List.contains_iff_mem.2 (onWord_mem_after h hright hon)
  have hneighbours : p.neighbours g =
      if !p.holdsUpToLeft Keyword.onWord then
        guarded .detachedWith (g.connectsLeft p.left p.right Keyword.onWord)
      else .ok none := by
    unfold neighbours
    rw [hlink, hafter, hright]
    simp [bind, Except.bind, pure, Except.pure]
  unfold pattern?
  rw [hwindow, Option.getD_none, hneighbours, guarded_of_ne_ok_true hcheck]
  by_cases hearlier : Keyword.onWord ∈ words.take (i + 1)
  · rw [if_pos hearlier, (holdsUpToLeft_iff h).2 hearlier]
    rfl
  · rw [if_neg hearlier, Bool.eq_false_iff.2 (mt (holdsUpToLeft_iff h).1 hearlier)]
    rfl

/-- **Key words before the place of a window.**  Where `with` stands two or three words behind an
instrument verb, the window of the verb decides, unless a `with` stands earlier in the
sentence, up to the right neighbour; then the window does not apply.  Where a word before
`with` does not link to it, no window applies and `on` stands behind, nothing is matched: the
check of `on` never answers yes, and it is not even made if an `on` stands earlier. -/
theorem pattern?_of_keyword (h : at? words i = some p) :
    (p.isInstrumentVerb g = true →
      words[i + 2]? = some Keyword.withWord ∨ words[i + 3]? = some Keyword.withWord →
      ∃ position, p.nextWith? = some position ∧
        p.pattern? g .all =
          if Keyword.withWord ∈ words.take (i + 2) then p.otherPattern? g
          else p.instrumentCheck g position) ∧
    (p.window? g .all = none → g.connects p.left p.right = .ok false →
      p.right = Keyword.withWord → (∃ k, i < k ∧ words[k]? = some Keyword.onWord) →
      g.connectsLeft p.left p.right Keyword.onWord ≠ .ok true ∧
        p.pattern? g .all =
          if Keyword.onWord ∈ words.take (i + 1) then .ok none
          else (g.connectsLeft p.left p.right Keyword.onWord).map fun _ => none) := by
  constructor
  · intro hverb hwith
    obtain ⟨position, hposition⟩ := (exists_nextWith?_iff h).2 hwith
    exact ⟨position, hposition, pattern?_of_isInstrumentVerb h hverb hposition⟩
  · exact fun hwindow hlink hright hon => pattern?_of_detached h hwindow hlink hright hon

/-- `saw` takes an instrument; `with` opens a sentence or stands behind `saw`. -/
def withGrammar : Grammar where
  rules w :=
    let rule (formula : Text) := (Rule.ofText formula).toOption.toList
    if w = Keyword.withWord then rule "S+ or MV-".toList
    else if w = Keyword.saw then rule "S- or O+ or MV+".toList
    else if w = ['i', 't'] then rule ['O', '-']
    else if w = Keyword.onWord then rule ['J', '-']
    else []
  tags _ := []

/-- `with saw it with` -/
def withSaw : List Text := [Keyword.withWord, Keyword.saw, ['i', 't'], Keyword.withWord]

/-- The place of `saw` there. -/
def sawPlace : Place := ⟨[Keyword.withWord], Keyword.saw, ['i', 't'], [Keyword.withWord]⟩

/-- `it with on` -/
def itWith : List Text := [['i', 't'], Keyword.withWord, Keyword.onWord]

/-- The place of `it` there. -/
def itPlace : Place := ⟨[], ['i', 't'], Keyword.withWord, [Keyword.onWord]⟩

/-- For `saw` the window does not apply, as `with` stands earlier; for `it` nothing is matched. -/
theorem pattern?_of_keyword_withSaw :
    (sawPlace.isInstrumentVerb withGrammar = true ∧ withSaw[3]? = some Keyword.withWord ∧
      sawPlace.pattern? withGrammar .all = sawPlace.otherPattern? withGrammar) ∧
    (itPlace.window? withGrammar .all = none ∧
      withGrammar.connects itPlace.left itPlace.right = .ok false ∧
      (∃ k, 0 < k ∧ itWith[k]? = some Keyword.onWord) ∧
      withGrammar.connectsLeft itPlace.left itPlace.right Keyword.onWord ≠ .ok true ∧
      itPlace.pattern? withGrammar .all
        = (withGrammar.connectsLeft itPlace.left itPlace.right Keyword.onWord).map fun _ => none) := by
  have hverb : sawPlace.isInstrumentVerb withGrammar = true := by cbv
  have hsawPlace : at? withSaw 1 = some sawPlace := rfl
  have hitPlace : at? itWith 0 = some itPlace := rfl
  have hwith : withSaw[1 + 2]? = some Keyword.withWord := rfl
  have hwindow : itPlace.window? withGrammar .all = none := by cbv
  have hlink : withGrammar.connects itPlace.left itPlace.right = .ok false := by cbv
  have hon : ∃ k, 0 < k ∧ itWith[k]? = some Keyword.onWord := ⟨2, by decide, rfl⟩
  obtain ⟨position, -, hsaw⟩ := (pattern?_of_keyword hsawPlace).1 hverb (.inl hwith)
  obtain ⟨hcheck, hit⟩ := (pattern?_of_keyword hitPlace).2 hwindow hlink rfl hon
  rw [if_pos (by decide)] at hsaw
  rw [if_neg (by decide)] at hit
  exact ⟨⟨hverb, hwith, hsaw⟩, hwindow, hlink, hon, hcheck, hit⟩

/-- The scan of `with saw it with` comes to `saw`, whose window leads on to the second `with`.
But the first `with` hides that one, so the link to `it` is matched, and leads nowhere. -/
theorem window_hidden_by_with :
    at? withSaw 1 = some sawPlace ∧ sawPlace.isInstrumentVerb withGrammar = true ∧
      withSaw[3]? = some Keyword.withWord ∧
      sawPlace.instrumentCheck withGrammar .near = .ok (some .instrumentNear) ∧
      withGrammar.matchedFrom .all withSaw 0 = [(0, .link), (1, .link)] ∧
      withGrammar.accepts .all withSaw = .ok false :=
  ⟨rfl, by cbv, rfl, by cbv, by cbv, by cbv⟩

end Place

end LinkGrammar
