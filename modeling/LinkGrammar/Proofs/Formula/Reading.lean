/-
LinkGrammar/Proofs/Formula/Reading.lean

What the reader does with a single token that may come next.

A name or an opener may come where a part is expected, an operator or a closer where a
part is complete.  `Reader.Takes` lists all that can happen, so that what a token keeps is
shown case by case without looking at the reader again.
-/
import LinkGrammar.Formula.Parser

namespace LinkGrammar.Formula

namespace Expectation

/-- A part may come next. -/
def IsPart (e : Expectation) : Prop := e = .part ∨ e = .partOrCloser

/-- A part is complete. -/
def IsComplete (e : Expectation) : Prop := e = .operator ∨ e = .operatorOrWeight

end Expectation

/-- What a bracket makes of its contents. -/
def Bracket.wrap : Bracket → Option Formula → Option Formula
  | round, inner => inner
  | square, inner => inner.map cost
  | curly, inner => inner.map orAbsent

theorem Enclosure.wrap_eq (e : Enclosure) (inner : Option Formula) :
    e.wrap inner = e.bracket.wrap inner := by
  unfold Enclosure.wrap
  cases e.bracket <;> rfl

theorem Reader.read_name {r : Reader} {t : Token} {n : Text} (hr : r.expectation.IsPart)
    (ht : t.lexeme = .name n) :
    r.read t = .ok ⟨.operator, r.level.push (some (leaf n)), r.enclosures⟩ := by
  obtain ⟨e, l, es⟩ := r
  rcases hr with rfl | rfl <;> simp [Reader.read, Reader.readPart, ht]

theorem Reader.read_opening {r : Reader} {t : Token} {b : Bracket} (hr : r.expectation.IsPart)
    (ht : t.lexeme = .opening b) :
    r.read t = .ok ⟨.partOrCloser, .empty, ⟨b, t.offset, r.level⟩ :: r.enclosures⟩ := by
  obtain ⟨e, l, es⟩ := r
  rcases hr with rfl | rfl <;> simp [Reader.read, Reader.readPart, ht]

theorem Reader.read_and {r : Reader} {t : Token} (hr : r.expectation.IsComplete)
    (ht : t.lexeme = .and) : r.read t = .ok ⟨.part, r.level, r.enclosures⟩ := by
  obtain ⟨e, l, es⟩ := r
  rcases hr with rfl | rfl <;> simp [Reader.read, Reader.readOperator, ht]

theorem Reader.read_or {r : Reader} {t : Token} (hr : r.expectation.IsComplete)
    (ht : t.lexeme = .or) : r.read t = .ok ⟨.part, r.level.next, r.enclosures⟩ := by
  obtain ⟨e, l, es⟩ := r
  rcases hr with rfl | rfl <;> simp [Reader.read, Reader.readOperator, ht]

/-- What may be expected behind a bracket. -/
def Bracket.behind (b : Bracket) : Expectation :=
  if b = .square then .operatorOrWeight else .operator

theorem Bracket.behind_isComplete (b : Bracket) : b.behind.IsComplete := by
  cases b
  · exact .inl rfl
  · exact .inr rfl
  · exact .inl rfl

/-- A closer of the same kind makes a part of the level. -/
theorem Reader.read_closing {r : Reader} {t : Token} {b : Bracket} {offset : Nat} {outer : Level}
    {es : List Enclosure} (hr : r.expectation.IsComplete)
    (he : r.enclosures = ⟨b, offset, outer⟩ :: es) (ht : t.lexeme = .closing b) :
    r.read t = .ok ⟨b.behind, outer.push (b.wrap r.level.value), es⟩ := by
  obtain ⟨e, l, es'⟩ := r
  obtain rfl : es' = _ := he
  rcases hr with rfl | rfl <;>
    simp [Reader.read, Reader.readOperator, Reader.leave?, ht, Enclosure.wrap_eq, Bracket.behind]

/-- A bracket may be closed as soon as it is opened. -/
theorem Reader.read_closing_at_once {r : Reader} {t : Token} {b : Bracket} {offset : Nat}
    {outer : Level} {es : List Enclosure} (hr : r.expectation = .partOrCloser)
    (he : r.enclosures = ⟨b, offset, outer⟩ :: es) (ht : t.lexeme = .closing b) :
    r.read t = .ok ⟨b.behind, outer.push (b.wrap r.level.value), es⟩ := by
  obtain ⟨e, l, es'⟩ := r
  obtain rfl : es' = _ := he
  obtain rfl : e = _ := hr
  simp [Reader.read, Reader.leave?, ht, Enclosure.wrap_eq, Bracket.behind]

/-- A weight changes nothing but what may come next. -/
theorem Reader.read_weight {r : Reader} {t : Token} {n : Text}
    (hr : r.expectation = .operatorOrWeight) (ht : t.lexeme = .name n) (hn : isWeight n = true) :
    r.read t = .ok ⟨.operator, r.level, r.enclosures⟩ := by
  obtain ⟨e, l, es⟩ := r
  obtain rfl : e = _ := hr
  simp [Reader.read, ht, hn]

/-! ### All that a token can do -/

namespace Reader

/-- What a token that may come next makes of the reader. -/
inductive Takes (r : Reader) (t : Token) : Reader → Prop
  | name {n : Text} : r.expectation.IsPart → t.lexeme = .name n →
    Takes r t ⟨.operator, r.level.push (some (leaf n)), r.enclosures⟩
  | opening {b : Bracket} : r.expectation.IsPart → t.lexeme = .opening b →
    Takes r t ⟨.partOrCloser, .empty, ⟨b, t.offset, r.level⟩ :: r.enclosures⟩
  | closing {e : Enclosure} {es : List Enclosure} :
    r.expectation.IsComplete ∨ r.expectation = .partOrCloser → r.enclosures = e :: es →
    t.lexeme = .closing e.bracket →
    Takes r t ⟨e.bracket.behind, e.outer.push (e.bracket.wrap r.level.value), es⟩
  | weight {n : Text} : r.expectation = .operatorOrWeight → t.lexeme = .name n →
    isWeight n = true → Takes r t ⟨.operator, r.level, r.enclosures⟩
  | and : r.expectation.IsComplete → t.lexeme = .and →
    Takes r t ⟨.part, r.level, r.enclosures⟩
  | or : r.expectation.IsComplete → t.lexeme = .or →
    Takes r t ⟨.part, r.level.next, r.enclosures⟩

variable {r r' : Reader} {t : Token}

theorem Takes.read (h : r.Takes t r') : r.read t = .ok r' := by
  cases h with
  | name hr ht => exact read_name hr ht
  | opening hr ht => exact read_opening hr ht
  | closing hr he ht =>
    rcases hr with hr | hr
    · exact read_closing hr he ht
    · exact read_closing_at_once hr he ht
  | weight hr ht hn => exact read_weight hr ht hn
  | and hr ht => exact read_and hr ht
  | or hr ht => exact read_or hr ht

theorem takes_of_leave? {b : Bracket} (hr : r.expectation.IsComplete ∨ r.expectation = .partOrCloser)
    (ht : t.lexeme = .closing b) (h : r.leave? b = some r') : r.Takes t r' := by
  unfold leave? at h
  split at h
  · cases h
  · next e es he =>
    split at h
    · next hb =>
      cases h
      subst hb
      rw [Enclosure.wrap_eq]
      exact .closing hr he ht
    · cases h

/-- What is read as a part may come next. -/
theorem takes_of_readPart (hr : r.expectation.IsPart) (h : r.readPart t = .ok r') :
    r.Takes t r' := by
  unfold readPart at h
  split at h
  · next n hn =>
    cases h
    exact .name hr hn
  · next b hb =>
    cases h
    exact .opening hr hb
  all_goals cases h

theorem takes_of_readOperator (hr : r.expectation.IsComplete) (h : r.readOperator t = .ok r') :
    r.Takes t r' := by
  unfold readOperator at h
  split at h
  · next ht =>
    cases h
    exact .and hr ht
  · next ht =>
    cases h
    exact .or hr ht
  · next b ht =>
    split at h
    · next r₁ _ hleave =>
      cases h
      exact takes_of_leave? (.inl hr) ht hleave
    all_goals cases h
  all_goals (split at h <;> cases h)

/-- A token is read without a fault exactly if it may come next. -/
theorem read_eq_ok_iff : r.read t = .ok r' ↔ r.Takes t r' := by
  refine ⟨fun h => ?_, Takes.read⟩
  unfold read at h
  split at h
  · next he => exact takes_of_readPart (.inl he) h
  · next b he ht =>
    -- behind an opener there may be a closer at once
    rcases hleave : r.leave? b with - | r₁
    · rw [hleave] at h
      exact takes_of_readPart (.inr he) h
    · rw [hleave] at h
      cases h
      exact takes_of_leave? (.inr he) ht hleave
  · next he _ => exact takes_of_readPart (.inr he) h
  · next n he ht =>
    split at h
    · next hn =>
      cases h
      exact .weight he ht hn
    · exact takes_of_readOperator (.inr he) h
  · next he => exact takes_of_readOperator (.inl he) h
  · next he _ => exact takes_of_readOperator (.inr he) h

end Reader

end LinkGrammar.Formula
