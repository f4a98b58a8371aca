/-
LinkGrammar/Proofs/Formula/Orderly.lean

Reading tokens in which parts and operators alternate.

The reader goes along with the walker of `Nesting`: they have the same brackets open, and
on each level the reader holds the walker's parts (`Tracks`).  A token keeps this as long
as it is of the kind that may come next, so a list of tokens in which each fits to the one
before is read without a fault, and reading gives what the walk gives.
-/
import Mathlib.Data.List.Chain
import LinkGrammar.Proofs.Formula.Nesting

namespace LinkGrammar.Formula

namespace Lexeme

/-- Whether a part may end with the token. -/
def endsPart : Lexeme → Bool
  | name _ | closing _ => true
  | _ => false

/-- Whether a part may begin with the token. -/
def startsPart : Lexeme → Bool
  | name _ | opening _ => true
  | _ => false

end Lexeme

namespace Joint

@[simp] theorem endsPart_lexeme (j : Joint) : j.lexeme.endsPart = false := by
  cases j <;> rfl

@[simp] theorem startsPart_lexeme (j : Joint) : j.lexeme.startsPart = false := by
  cases j <;> rfl

end Joint

/-- Two tokens that may follow each other in a formula. -/
def Fits (a b : Lexeme) : Prop := b.startsPart = !a.endsPart

/-- Parts and operators alternate on every level, and no brackets are empty. -/
structure Orderly (ls : List Lexeme) : Prop where
  fits : ls.IsChain Fits
  first : ∀ a ∈ ls.head?, a.startsPart = true
  last : ∀ a ∈ ls.getLast?, a.endsPart = true

/-! ### Levels -/

/-- The level holds the parts of the row, and waits for another. -/
def Level.Awaits (l : Level) (r : Row) : Prop :=
  (r.joint = .and ∧ l = ⟨[], r.parts.map some⟩) ∨ (r.joint = .or ∧ l = ⟨r.parts.map some, []⟩)

/-- The level holds the parts of the row, the last of them just read. -/
def Level.Holds (l : Level) (r : Row) : Prop :=
  ∃ f ps, r.parts = f :: ps ∧
    ((r.joint = .and ∧ l = ⟨[], r.parts.map some⟩) ∨
      (r.joint = .or ∧ l = ⟨ps.map some, [some f]⟩))

namespace Level

theorem awaits_empty (j : Joint) : Level.empty.Awaits ⟨j, []⟩ := by
  cases j
  · exact .inl ⟨rfl, rfl⟩
  · exact .inr ⟨rfl, rfl⟩

theorem Awaits.push {l : Level} {r : Row} (h : l.Awaits r) (f : Formula) :
    (l.push (some f)).Holds (r.add (some f)) := by
  refine ⟨f, r.parts, rfl, ?_⟩
  rcases h with ⟨hr, rfl⟩ | ⟨hr, rfl⟩
  · exact .inl ⟨hr, rfl⟩
  · exact .inr ⟨hr, rfl⟩

/-- Behind `&` the level waits for a part of the same row. -/
theorem Holds.and {l : Level} {r : Row} (h : l.Holds r) (hr : r.joint = .and) : l.Awaits r := by
  obtain ⟨f, ps, -, ⟨-, hl⟩ | ⟨hor, -⟩⟩ := h
  · exact .inl ⟨hr, hl⟩
  · cases hr.symm.trans hor

/-- Behind `or` it waits for one too, and the sequence before is finished. -/
theorem Holds.or {l : Level} {r : Row} (h : l.Holds r) (hr : r.joint = .or) : l.next.Awaits r := by
  obtain ⟨f, ps, hps, ⟨hand, -⟩ | ⟨-, rfl⟩⟩ := h
  · cases hr.symm.trans hand
  · refine .inr ⟨hr, ?_⟩
    rw [hps]
    rfl

/-- The level and its row stand for the same formula. -/
theorem Holds.value {l : Level} {r : Row} (h : l.Holds r) :
    ∃ f, r.value = some f ∧ l.value = some f := by
  obtain ⟨f, ps, hps, hl⟩ := h
  have hsome : ∃ g, r.value = some g := by
    unfold Row.value
    rcases e : r.parts.reverse with - | ⟨g, - | ⟨g', gs⟩⟩
    · simp [hps] at e
    · exact ⟨g, rfl⟩
    · exact ⟨_, rfl⟩
  obtain ⟨g, hg⟩ := hsome
  refine ⟨g, hg, ?_⟩
  rw [← hg]
  rcases hl with ⟨hr, rfl⟩ | ⟨hr, rfl⟩
  · have hseq : conjunction (r.parts.map some).reverse = some g := by
      rw [← List.map_reverse, conjunction_map_some, ← hg, Row.value, hr]
      rfl
    show disjunction [conjunction (r.parts.map some).reverse] = _
    rw [hseq, hg]
    rfl
  · show disjunction (some f :: ps.map some).reverse = _
    rw [← List.map_cons, ← hps, ← List.map_reverse, disjunction_map_some, Row.value, hr]
    rfl

end Level

/-- A bracket around something is something. -/
theorem Bracket.exists_wrap (b : Bracket) (f : Formula) : ∃ g, b.wrap (some f) = some g := by
  cases b <;> exact ⟨_, rfl⟩

/-! ### The reader and the walker -/

/-- The reader is where the walker is; `complete` says that a part was just read. -/
structure Tracks (complete : Bool) (r : Reader) (w : Walker) : Prop where
  expectation : if complete then r.expectation.IsComplete else r.expectation.IsPart
  level : if complete then r.level.Holds w.row else r.level.Awaits w.row
  outer : List.Forall₂ (fun e x => e.bracket = x.1 ∧ e.outer.Awaits x.2) r.enclosures w.outer

namespace Tracks

theorem start (j : Joint) : Tracks false .start (.start j) :=
  ⟨.inl rfl, Level.awaits_empty j, .nil⟩

/-- One token of the kind that may come next. -/
theorem read {complete : Bool} {r : Reader} {w w' : Walker} {t : Token} (h : Tracks complete r w)
    (ht : t.lexeme.startsPart = !complete) (hw : w.Step t.lexeme w') :
    ∃ r', r.read t = .ok r' ∧ Tracks t.lexeme.endsPart r' w' := by
  obtain ⟨hexp, hlevel, houter⟩ := h
  rcases e : t.lexeme with b | b | - | - | n <;> rw [e] at ht hw
  · -- both enter an empty level, and leave the one they were on as it is
    obtain rfl : complete = false := by simpa [Lexeme.startsPart] using ht
    obtain ⟨j, rfl⟩ := hw
    exact ⟨_, Reader.read_opening hexp e, .inr rfl, Level.awaits_empty j,
      .cons ⟨rfl, hlevel⟩ houter⟩
  · -- the value of the inner level is a part of the one around it
    obtain rfl : complete = true := by simpa [Lexeme.startsPart] using ht
    obtain ⟨row, o, ho, rfl⟩ := hw
    rw [ho] at houter
    obtain ⟨⟨b', offset, outer⟩, es, ⟨rfl, hawaits⟩, hes, henc⟩ :=
      List.forall₂_cons_right_iff.1 houter
    obtain ⟨f, hrow, hvalue⟩ := hlevel.value
    refine ⟨_, Reader.read_closing hexp henc e, b'.behind_isComplete, ?_, hes⟩
    obtain ⟨g, hg⟩ := b'.exists_wrap f
    rw [hrow, hvalue, hg]
    exact hawaits.push g
  · obtain rfl : complete = true := by simpa [Lexeme.startsPart] using ht
    obtain ⟨hj, rfl⟩ := hw
    exact ⟨_, Reader.read_and hexp e, .inl rfl, hlevel.and hj, houter⟩
  · obtain rfl : complete = true := by simpa [Lexeme.startsPart] using ht
    obtain ⟨hj, rfl⟩ := hw
    exact ⟨_, Reader.read_or hexp e, .inl rfl, hlevel.or hj, houter⟩
  · obtain rfl : complete = false := by simpa [Lexeme.startsPart] using ht
    obtain rfl := hw
    exact ⟨_, Reader.read_name hexp e, .inl rfl, hlevel.push (leaf n), houter⟩

/-- Tokens that fit to each other. -/
theorem foldlM_read {complete : Bool} {r : Reader} {w w' : Walker} {ts : List Token}
    (h : Tracks complete r w) (hfits : (ts.map Token.lexeme).IsChain Fits)
    (hfirst : ∀ a ∈ (ts.map Token.lexeme).head?, a.startsPart = !complete)
    (hw : w.Walk (ts.map Token.lexeme) w') :
    ∃ r', ts.foldlM Reader.read r = .ok r' ∧
      Tracks (((ts.map Token.lexeme).getLast?.map Lexeme.endsPart).getD complete) r' w' := by
  induction ts generalizing complete r w with
  | nil =>
    obtain rfl := hw
    exact ⟨r, rfl, h⟩
  | cons t ts ih =>
    obtain ⟨m, ht, hts⟩ := hw
    obtain ⟨r₁, hread, htracks⟩ := h.read (hfirst t.lexeme rfl) ht
    obtain ⟨hnext, hfits⟩ := List.isChain_cons.1 hfits
    obtain ⟨r', hfold, hend⟩ := ih htracks hfits hnext hts
    refine ⟨r', by rw [List.foldlM_cons, hread]; exact hfold, ?_⟩
    rw [List.map_cons, List.getLast?_cons]
    rcases e : (ts.map Token.lexeme).getLast? with - | a <;> simpa [e] using hend

end Tracks

/-- **Orderly tokens are read without a fault**, and give what the walk gives. -/
theorem ofTokens_of_orderly (ts : List Token) {f : Option Formula}
    (h : Orderly (ts.map Token.lexeme)) (hf : Evaluates (ts.map Token.lexeme) f) :
    ofTokens ts = .ok f ∧ (ts ≠ [] → f ≠ none) := by
  obtain ⟨j, row, hwalk, rfl⟩ := hf
  rcases eq_or_ne ts [] with rfl | hne
  · obtain rfl : row = ⟨j, []⟩ := congrArg Walker.row hwalk
    exact ⟨rfl, fun hne => absurd rfl hne⟩
  obtain ⟨r, hread, htracks⟩ := (Tracks.start j).foldlM_read h.fits h.first hwalk
  -- a part was read last, so there is no fault at the end of the text either
  obtain ⟨t, ht⟩ : ∃ t, ts.getLast? = some t := ⟨_, List.getLast?_eq_some_getLast hne⟩
  have hlast : (ts.map Token.lexeme).getLast? = some t.lexeme := by rw [List.getLast?_map, ht]; rfl
  rw [hlast, Option.map_some, h.last _ hlast] at htracks
  obtain ⟨hexp, hlevel, houter⟩ := htracks
  obtain ⟨f, hrow, hvalue⟩ := hlevel.value
  have henc : r.enclosures = [] := List.forall₂_nil_right_iff.1 houter
  refine ⟨?_, fun _ => by rw [hrow]; simp⟩
  unfold ofTokens
  rw [if_neg (by simpa using hne), hread]
  show r.finish = _
  obtain ⟨e, l, es⟩ := r
  obtain rfl : es = [] := henc
  rw [hrow]
  rcases hexp with rfl | rfl
  · exact congrArg Except.ok hvalue
  · exact congrArg Except.ok hvalue

end LinkGrammar.Formula
