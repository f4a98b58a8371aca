/-
LinkGrammar/Proofs/Formula/Blame.lean

Which bracket the reader blames.

The reader stops at the first token with which the text is no longer the beginning of a formula
(`Viable`, `StopsAt`), and decides what is wrong by this token and by what is open before it.
Where a part is missing it names the token; where an operator is missing or a closer of another
kind comes, it names the innermost open bracket, of which all that is known is that it is not
closed *yet*.

So there are two kinds of brackets that it names.  An `Unpartnered` one has no partner in the
text, and the text is not nested.  A `Misjoined` one may well have its partner:

    (A+ B+)      an operator is missing     `(` is named, at the `B+`
    (A+ &)       a part is missing          `)` is named

Main result: the reader names a bracket exactly in these two cases, and what it names stands at
the byte that it names.
-/
import LinkGrammar.Proofs.Formula.Orderly
import LinkGrammar.Proofs.Formula.Partner
import LinkGrammar.Proofs.Formula.Phrase
import LinkGrammar.Proofs.Link.Answer

namespace LinkGrammar.Formula

/-! ### Beginnings -/

/-- The tokens are the beginning of what brackets can hold. -/
def Viable (ls : List Lexeme) : Prop :=
  ∃ (body : Phrase.Body) (rest : List Lexeme), body.lexemes = ls ++ rest

/-- Behind `front`, which can still be continued to a formula, `x` is the first token that cannot
come next. -/
structure StopsAt (ts front : List Token) (x : Token) : Prop where
  split : ∃ back, ts = front ++ x :: back
  viable : Viable (front.map Token.lexeme)
  stuck : ¬Viable ((front ++ [x]).map Token.lexeme)

/-- The last token may end a part. -/
def Complete (ts : List Token) : Prop := ∃ t ∈ ts.getLast?, t.lexeme.endsPart = true

/-! ### What is named -/

/-- `d` at byte `k` is a bracket without its partner. -/
inductive Unpartnered (ts : List Token) : Char → Nat → Prop
  /-- a closer, when no bracket is open, or one of another kind that still lacks a part -/
  | closer {front os : List Token} {x : Token} {b : Bracket} :
    StopsAt ts front x → Leaves front os → x.lexeme = .closing b →
      (∀ o ∈ os.head?, o.lexeme ≠ .opening b) → (os = [] ∨ ¬Complete front) →
        Unpartnered ts b.closer x.offset
  /-- an opener, when a closer of another kind comes behind a part in it -/
  | crossed {front os : List Token} {x o : Token} {b b' : Bracket} :
    StopsAt ts front x → Leaves front (o :: os) → o.lexeme = .opening b →
      x.lexeme = .closing b' → b ≠ b' → Complete front → Unpartnered ts b.opener o.offset
  /-- an opener, when the text ends behind a part in it -/
  | unclosed {os : List Token} {o : Token} {b : Bracket} :
    Viable (ts.map Token.lexeme) → Leaves ts (o :: os) → o.lexeme = .opening b → Complete ts →
      Unpartnered ts b.opener o.offset

/-- `d` at byte `k` is a bracket in which an operator or a part is missing. -/
inductive Misjoined (ts : List Token) : Char → Nat → Prop
  /-- an opener, when one part comes right behind another in it -/
  | part {front os : List Token} {x o : Token} {b : Bracket} :
    StopsAt ts front x → Leaves front (o :: os) → o.lexeme = .opening b → Complete front →
      x.lexeme.startsPart = true → Misjoined ts b.opener o.offset
  /-- the closer of the innermost open bracket, when it comes right behind an operator -/
  | closer {front os : List Token} {x y o : Token} {b : Bracket} {j : Joint} :
    StopsAt ts (front ++ [y]) x → Leaves (front ++ [y]) (o :: os) → o.lexeme = .opening b →
      y.lexeme = j.lexeme → x.lexeme = .closing b → Misjoined ts b.closer x.offset

/-! ### Beginnings are read -/

/-- The tokens at the places that the text behind would give them do not matter. -/
def unplaced (ls : List Lexeme) : List Token := ls.map fun l => ⟨l, 0⟩

@[simp] theorem map_lexeme_unplaced (ls : List Lexeme) : (unplaced ls).map Token.lexeme = ls := by
  simp [unplaced, Function.comp_def]

namespace Reader

/-- What is complete can be continued to the end by closing what is open. -/
theorem exists_reads_of_isComplete {r : Reader} (hr : r.expectation.IsComplete) :
    ∃ ls r', r.Reads ls r' ∧ ∃ f, r'.finish = .ok f := by
  obtain ⟨e, l, es⟩ := r
  induction es generalizing e l with
  | nil =>
    refine ⟨[], ⟨e, l, []⟩, ?_, l.value, ?_⟩
    · intro ts hts
      obtain rfl := List.map_eq_nil_iff.1 hts
      rfl
    · rcases hr with rfl | rfl
      · rfl
      · rfl
  | cons c es ih =>
    obtain ⟨ls, r', hreads, hfinish⟩ :=
      ih c.bracket.behind (c.outer.push (c.bracket.wrap l.value)) c.bracket.behind_isComplete
    refine ⟨.closing c.bracket :: ls, r', .cons fun t ht => ⟨_, ?_, hreads⟩, hfinish⟩
    exact read_closing hr rfl ht

/-- Wherever the reader stands, some tokens lead it to an end. -/
theorem exists_reads (r : Reader) : ∃ ls r', r.Reads ls r' ∧ ∃ f, r'.finish = .ok f := by
  by_cases hr : r.expectation.IsComplete
  · exact exists_reads_of_isComplete hr
  · -- any name makes a part
    have hpart : r.expectation.IsPart := by
      rcases h : r.expectation with - | - | - | -
      all_goals simp [h, Expectation.IsPart, Expectation.IsComplete] at hr ⊢
    obtain ⟨ls, r', hreads, hfinish⟩ := exists_reads_of_isComplete
      (r := ⟨.operator, r.level.push (some (leaf ['x'])), r.enclosures⟩) (.inl rfl)
    exact ⟨.name ['x'] :: ls, r', .cons fun t ht => ⟨_, read_name hpart ht, hreads⟩, hfinish⟩

/-- Tokens are read without a fault exactly if they are the beginning of a phrase. -/
theorem exists_foldlM_read_iff_viable (ts : List Token) :
    (∃ r, ts.foldlM read start = .ok r) ↔ Viable (ts.map Token.lexeme) := by
  constructor
  · rintro ⟨r, hr⟩
    obtain ⟨ls, r', hreads, f, hfinish⟩ := r.exists_reads
    have hrun : (ts ++ unplaced ls).foldlM read start = .ok r' := by
      rw [List.foldlM_append, hr]
      exact hreads _ (map_lexeme_unplaced ls)
    obtain ⟨body, hbody, -⟩ := (after_start.foldlM hrun).exists_body hfinish
    refine ⟨body, ls, ?_⟩
    rw [hbody, List.nil_append, List.map_append, map_lexeme_unplaced]
  · rintro ⟨body, rest, hbody⟩
    rcases eq_or_ne ts [] with rfl | hne
    · exact ⟨start, rfl⟩
    have hwhole : ofTokens (ts ++ unplaced rest) = .ok body.formula? :=
      body.ofTokens (by rw [List.map_append, map_lexeme_unplaced, hbody])
    unfold ofTokens at hwhole
    rw [if_neg (by simp [hne])] at hwhole
    obtain ⟨r, hr, -⟩ := bind_eq_ok.1 hwhole
    rw [List.foldlM_append] at hr
    obtain ⟨m, hm, -⟩ := bind_eq_ok.1 hr
    exact ⟨m, hm⟩

/-! ### Behind the tokens that were read -/

end Reader

/-- The token that opened the bracket. -/
def Enclosure.token (e : Enclosure) : Token := ⟨.opening e.bracket, e.offset⟩

namespace Lexeme

/-- What may come behind a token. -/
def behind : Lexeme → Expectation
  | opening _ => .partOrCloser
  | closing b => b.behind
  | name _ => .operator
  | and | or => .part

/-- A part is complete behind a token that ends one. -/
theorem isComplete_behind_iff {l : Lexeme} : l.behind.IsComplete ↔ l.endsPart = true := by
  cases l with
  | closing b => exact iff_of_true b.behind_isComplete rfl
  | _ => simp [behind, endsPart, Expectation.IsComplete]

/-- Only behind an operator nothing but a part may come. -/
theorem exists_joint_of_behind {l : Lexeme} (h : l.behind = .part) : ∃ j : Joint, l = j.lexeme := by
  cases l with
  | and => exact ⟨.and, rfl⟩
  | or => exact ⟨.or, rfl⟩
  | closing b => rcases b.behind_isComplete with hb | hb <;> cases h.symm.trans hb
  | opening | name => cases h

end Lexeme

/-- Where a part is expected none is complete. -/
theorem Expectation.not_isComplete_of_isPart {e : Expectation} (h : e.IsPart) :
    ¬e.IsComplete := by
  rcases h with rfl | rfl <;> simp [IsComplete]

namespace Reader

/-- The reader has the brackets open that the tokens leave open, and expects what may come behind
the last of them. -/
structure Behind (r : Reader) (ts : List Token) : Prop where
  enclosures : Leaves ts (r.enclosures.map Enclosure.token)
  expectation : r.expectation = (ts.getLast?.map fun t => t.lexeme.behind).getD .part

namespace Behind

variable {r r' : Reader} {t : Token} {ts ts' : List Token}

theorem start : Reader.start.Behind [] := ⟨.nil, rfl⟩

theorem takes (h : r.Behind ts) (ht : r.Takes t r') : r'.Behind (ts ++ [t]) := by
  refine ⟨?_, ?_⟩
  · have hopen := h.enclosures
    cases ht with
    | name _ hn => exact hopen.concat (by rw [hn]; rfl)
    | @opening b _ ho =>
      have htoken : Enclosure.token ⟨b, t.offset, r.level⟩ = t := by rw [Enclosure.token, ← ho]
      rw [List.map_cons, htoken]
      exact hopen.concat_opening ho
    | closing _ he hc =>
      rw [he, List.map_cons] at hopen
      exact hopen.concat_closing rfl hc
    | weight _ hn _ => exact hopen.concat (by rw [hn]; rfl)
    | and _ ha => exact hopen.concat (by rw [ha]; rfl)
    | or _ ho => exact hopen.concat (by rw [ho]; rfl)
  · rw [List.getLast?_concat]
    show _ = t.lexeme.behind
    cases ht with
    | name _ h | opening _ h | closing _ _ h | weight _ h _ | and _ h | or _ h => rw [h]; rfl

theorem foldlM (h : r.Behind ts) (hr : ts'.foldlM read r = .ok r') : r'.Behind (ts ++ ts') := by
  induction ts' generalizing r ts with
  | nil =>
    cases hr
    rwa [List.append_nil]
  | cons t ts' ih =>
    rw [List.foldlM_cons] at hr
    obtain ⟨m, hm, hr⟩ := bind_eq_ok.1 hr
    have := ih (h.takes (read_eq_ok_iff.1 hm)) hr
    rwa [List.append_assoc] at this

/-- Whether a part is complete can be told from the last token. -/
theorem isComplete_iff (h : r.Behind ts) : r.expectation.IsComplete ↔ Complete ts := by
  rw [h.expectation]
  rcases hlast : ts.getLast? with - | t
  · simp [Complete, hlast, Expectation.IsComplete]
  · simpa [Complete, hlast] using t.lexeme.isComplete_behind_iff

end Behind

/-- What is opened among nested tokens is closed there. -/
theorem enclosures_of_nested {ls : List Lexeme} (h : Nested ls) {ts : List Token}
    (hts : ts.map Token.lexeme = ls) {r r' : Reader} (hr : ts.foldlM read r = .ok r') :
    r'.enclosures = r.enclosures := by
  induction h generalizing ts r r' with
  | nil =>
    obtain rfl := List.map_eq_nil_iff.1 hts
    cases hr
    rfl
  | other hl _ ih =>
    obtain ⟨t, rest, rfl, rfl, hrest⟩ := List.map_eq_cons_iff.1 hts
    rw [List.foldlM_cons] at hr
    obtain ⟨m, hm, hr⟩ := bind_eq_ok.1 hr
    rw [ih hrest hr]
    cases read_eq_ok_iff.1 hm with
    | name | weight | and | or => rfl
    | opening _ ht | closing _ _ ht => rw [ht] at hl; cases hl
  | group b _ _ ihin ihout =>
    rw [List.cons_append] at hts
    obtain ⟨t, ts, rfl, ht, hts⟩ := List.map_eq_cons_iff.1 hts
    obtain ⟨inner, back, rfl, hinner, hback⟩ := List.map_eq_append_iff.1 hts
    obtain ⟨u, back, rfl, hu, hback⟩ := List.map_eq_cons_iff.1 hback
    rw [List.foldlM_cons] at hr
    obtain ⟨m₁, hm₁, hr⟩ := bind_eq_ok.1 hr
    rw [List.foldlM_append] at hr
    obtain ⟨m₂, hm₂, hr⟩ := bind_eq_ok.1 hr
    rw [List.foldlM_cons] at hr
    obtain ⟨m₃, hm₃, hr⟩ := bind_eq_ok.1 hr
    rw [ihout hback hr]
    have hin := ihin hinner hm₂
    have hclose : ∃ e, m₂.enclosures = e :: m₃.enclosures := by
      cases read_eq_ok_iff.1 hm₃ with
      | closing _ he _ => exact ⟨_, he⟩
      | name _ h | opening _ h | weight _ h _ | and _ h | or _ h => cases hu.symm.trans h
    have hopen : ∃ e, m₁.enclosures = e :: r.enclosures := by
      cases read_eq_ok_iff.1 hm₁ with
      | opening => exact ⟨_, rfl⟩
      | name _ h | closing _ _ h | weight _ h _ | and _ h | or _ h => cases ht.symm.trans h
    obtain ⟨e, he⟩ := hclose
    obtain ⟨e', he'⟩ := hopen
    rw [he, he'] at hin
    exact (List.cons.inj hin).2

/-- Tokens leave no other brackets open than those that the reader has open. -/
theorem map_token_enclosures {ts os : List Token} (h : Leaves ts os) {r : Reader}
    (hr : ts.foldlM read start = .ok r) : r.enclosures.map Enclosure.token = os := by
  induction h generalizing r with
  | nested hts =>
    rw [enclosures_of_nested hts rfl hr]
    rfl
  | @opening outer inner os o b _ ho hinner ih =>
    rw [List.foldlM_append] at hr
    obtain ⟨m, hm, hr⟩ := bind_eq_ok.1 hr
    rw [List.foldlM_cons] at hr
    obtain ⟨m', hm', hr⟩ := bind_eq_ok.1 hr
    rw [enclosures_of_nested hinner rfl hr, ← ih hm]
    cases read_eq_ok_iff.1 hm' with
    | opening _ h =>
      rw [List.map_cons, Enclosure.token, ← h]
    | name _ h | closing _ _ h | weight _ h _ | and _ h | or _ h => cases ho.symm.trans h

/-! ### Refusing a token -/

/-- What a token that may not come next is taken for. -/
inductive Refuses (r : Reader) (t : Token) : Fault → Prop
  | closer {b : Bracket} : r.expectation.IsPart → t.lexeme = .closing b →
    Refuses r t (.unbalanced b.closer t.offset)
  | operator {j : Joint} : r.expectation.IsPart → t.lexeme = j.lexeme →
    Refuses r t (.unexpected (some t.lexeme.text))
  | stray {b : Bracket} : r.expectation.IsComplete → r.enclosures = [] → t.lexeme = .closing b →
    Refuses r t (.unbalanced b.closer t.offset)
  | part : r.expectation.IsComplete → r.enclosures = [] → t.lexeme.startsPart = true →
    Refuses r t (.unexpected (some t.lexeme.text))
  | crossed {e : Enclosure} {es : List Enclosure} {b : Bracket} : r.expectation.IsComplete →
    r.enclosures = e :: es → t.lexeme = .closing b → e.bracket ≠ b → Refuses r t e.unclosed
  | partInside {e : Enclosure} {es : List Enclosure} : r.expectation.IsComplete →
    r.enclosures = e :: es → t.lexeme.startsPart = true → Refuses r t e.unclosed

variable {r : Reader} {t : Token} {fault : Fault}

/-- Where a part is expected, a closer or an operator is refused. -/
theorem refuses_of_readPart (hr : r.expectation.IsPart) (h : r.readPart t = .error fault) :
    r.Refuses t fault := by
  unfold readPart at h
  split at h
  · cases h
  · cases h
  · next b hb =>
    cases h
    exact .closer hr hb
  · next ht =>
    cases h
    exact .operator (j := .and) hr ht
  · next ht =>
    cases h
    exact .operator (j := .or) hr ht

/-- Where a part is complete, a part is refused, and a closer that closes nothing. -/
theorem refuses_of_readOperator (hr : r.expectation.IsComplete)
    (h : r.readOperator t = .error fault) : r.Refuses t fault := by
  unfold readOperator at h
  split at h
  · cases h
  · cases h
  · next b ht =>
    split at h
    · cases h
    · next he =>
      cases h
      exact .stray hr he ht
    · next e es hleave he =>
      cases h
      refine .crossed hr he ht fun hb => ?_
      rw [leave?, he] at hleave
      dsimp only at hleave
      rw [if_pos hb] at hleave
      cases hleave
  all_goals
    next ht =>
      split at h
      · next he =>
        cases h
        exact .part hr he (by rw [ht]; rfl)
      · next e es he =>
        cases h
        exact .partInside hr he (by rw [ht]; rfl)

/-- There is no other way for a token to be refused. -/
theorem refuses_of_read (h : r.read t = .error fault) : r.Refuses t fault := by
  unfold read at h
  split at h
  · next he => exact refuses_of_readPart (.inl he) h
  · next b he ht =>
    rcases hleave : r.leave? b with - | r'
    · rw [hleave] at h
      exact refuses_of_readPart (.inr he) h
    · rw [hleave] at h
      cases h
  · next he _ => exact refuses_of_readPart (.inr he) h
  · next n he ht =>
    split at h
    · cases h
    · exact refuses_of_readOperator (.inr he) h
  · next he => exact refuses_of_readOperator (.inl he) h
  · next he _ => exact refuses_of_readOperator (.inr he) h

end Reader

/-! ### The fault of a list of tokens -/

open Reader

theorem foldlM_read_concat {front : List Token} {x : Token} {r : Reader}
    (hr : front.foldlM read start = .ok r) : (front ++ [x]).foldlM read start = r.read x := by
  rw [List.foldlM_append, hr]
  show [x].foldlM read r = _
  rw [List.foldlM_cons]
  rcases r.read x with fault | m
  · rfl
  · rfl

/-- The reader stops where the tokens stop being the beginning of a phrase. -/
theorem stopsAt_of_read {front back : List Token} {x : Token} {r : Reader} {fault : Fault}
    (hr : front.foldlM read start = .ok r) (hx : r.read x = .error fault) :
    StopsAt (front ++ x :: back) front x where
  split := ⟨back, rfl⟩
  viable := (exists_foldlM_read_iff_viable front).1 ⟨r, hr⟩
  stuck hviable := by
    obtain ⟨r', hr'⟩ := (exists_foldlM_read_iff_viable (front ++ [x])).2 hviable
    rw [foldlM_read_concat hr, hx] at hr'
    cases hr'

/-- Where reading stops, the reader has come so far, and refuses the token. -/
theorem StopsAt.exists_refuses {ts front : List Token} {x : Token} (h : StopsAt ts front x) :
    ∃ r fault, front.foldlM read start = .ok r ∧ r.Refuses x fault ∧ ofTokens ts = .error fault := by
  obtain ⟨⟨back, rfl⟩, hviable, hstuck⟩ := h
  obtain ⟨r, hr⟩ := (exists_foldlM_read_iff_viable front).2 hviable
  rcases hx : r.read x with fault | m
  · refine ⟨r, fault, hr, refuses_of_read hx, ?_⟩
    unfold ofTokens
    rw [if_neg (by simp), List.foldlM_append, hr]
    show (x :: back).foldlM read r >>= _ = _
    rw [List.foldlM_cons, hx]
    rfl
  · refine absurd ((exists_foldlM_read_iff_viable (front ++ [x])).1 ⟨m, ?_⟩) hstuck
    rw [foldlM_read_concat hr, hx]

/-- A bracket that is named at a token. -/
theorem blamed_of_read {front back : List Token} {x : Token} {r : Reader} {d : Char} {k : Nat}
    (hr : front.foldlM read start = .ok r) (hx : r.read x = .error (.unbalanced d k)) :
    Unpartnered (front ++ x :: back) d k ∨ Misjoined (front ++ x :: back) d k := by
  have hstop : StopsAt (front ++ x :: back) front x := stopsAt_of_read hr hx
  have hbehind : r.Behind front := Behind.start.foldlM hr
  have hopen := hbehind.enclosures
  generalize hfault : Fault.unbalanced d k = fault at hx
  cases refuses_of_read hx with
  | @closer b hpart hb =>
    cases hfault
    have hdue : ¬Complete front := fun hc =>
      Expectation.not_isComplete_of_isPart hpart (hbehind.isComplete_iff.2 hc)
    rcases henc : r.enclosures with - | ⟨e, es⟩
    · rw [henc] at hopen
      exact .inl (.closer hstop hopen hb (by simp) (.inl rfl))
    rw [henc, List.map_cons] at hopen
    by_cases he : e.bracket = b
    · -- the closer is the right one, so it comes behind an operator
      subst he
      obtain ⟨before, y, rfl⟩ := List.eq_nil_or_concat' front |>.resolve_left
        fun hnil => List.not_mem_nil (hnil ▸ hopen.mem)
      have hexp := hbehind.expectation
      rw [List.getLast?_concat] at hexp
      rcases hpart with hpart | hpart
      · obtain ⟨j, hj⟩ := y.lexeme.exists_joint_of_behind (hexp.symm.trans hpart)
        exact .inr (.closer hstop hopen rfl hj hb)
      · cases hx.symm.trans (read_closing_at_once hpart henc hb)
    · refine .inl (.closer hstop hopen hb ?_ (.inr hdue))
      rintro _ ⟨⟩ ho
      exact he (Lexeme.opening.inj ho)
  | operator => cases hfault
  | @stray b hcomplete henc hb =>
    cases hfault
    rw [henc] at hopen
    exact .inl (.closer hstop hopen hb (by simp) (.inl rfl))
  | part => cases hfault
  | crossed hcomplete henc hb hne =>
    cases hfault
    rw [henc] at hopen
    exact .inl (.crossed hstop hopen rfl hb hne (hbehind.isComplete_iff.1 hcomplete))
  | partInside hcomplete henc hstarts =>
    cases hfault
    rw [henc] at hopen
    exact .inr (.part hstop hopen rfl (hbehind.isComplete_iff.1 hcomplete) hstarts)

/-- A bracket that is named at the end. -/
theorem blamed_of_finish {ts : List Token} {r : Reader} {d : Char} {k : Nat}
    (hr : ts.foldlM read start = .ok r) (hfinish : r.finish = .error (.unbalanced d k)) :
    Unpartnered ts d k := by
  have hbehind : r.Behind ts := Behind.start.foldlM hr
  have hopen := hbehind.enclosures
  unfold finish at hfinish
  split at hfinish
  · cases hfinish
  · cases hfinish
  · cases hfinish
  · next e es henc hpart hcloser =>
    cases hfinish
    rw [henc] at hopen
    have hcomplete : r.expectation.IsComplete := by
      rcases he : r.expectation with - | - | - | -
      · exact absurd he hcloser
      · exact absurd he hpart
      · exact .inl rfl
      · exact .inr rfl
    exact .unclosed ((exists_foldlM_read_iff_viable ts).1 ⟨r, hr⟩) hopen rfl
      (hbehind.isComplete_iff.1 hcomplete)

/-- The innermost open bracket is named by its token. -/
theorem unclosed_eq {e : Enclosure} {es : List Enclosure} {o : Token} {os : List Token}
    {b : Bracket} (h : (e :: es).map Enclosure.token = o :: os) (ho : o.lexeme = .opening b) :
    e.unclosed = .unbalanced b.opener o.offset := by
  obtain ⟨rfl, -⟩ := List.cons.inj h
  obtain rfl := Lexeme.opening.inj ho
  rfl

/-- A bracket without its partner is named. -/
theorem ofTokens_of_unpartnered {ts : List Token} {d : Char} {k : Nat} (h : Unpartnered ts d k) :
    ofTokens ts = .error (.unbalanced d k) := by
  cases h with
  | @closer front os x b hstop hopen hb hos hdue =>
    obtain ⟨r, fault, hr, hrefuses, hfault⟩ := hstop.exists_refuses
    obtain rfl := map_token_enclosures hopen hr
    rw [hfault]
    cases hrefuses with
    | closer _ hb' | stray _ _ hb' =>
      obtain rfl : b = _ := Lexeme.closing.inj (hb.symm.trans hb')
      rfl
    | @operator j _ hj => cases j <;> cases hb.symm.trans hj
    | part _ _ hx | partInside _ _ hx => rw [hb] at hx; cases hx
    | crossed hcomplete henc =>
      -- then a bracket is open, and a part in it is complete
      rcases hdue with hnil | hdue
      · rw [henc] at hnil
        cases hnil
      · exact absurd ((Behind.start.foldlM hr).isComplete_iff.1 hcomplete) hdue
  | @crossed front os x o b b' hstop hopen ho hb hne hcomplete =>
    obtain ⟨r, fault, hr, hrefuses, hfault⟩ := hstop.exists_refuses
    have henc := map_token_enclosures hopen hr
    have hexp := (Behind.start.foldlM hr).isComplete_iff.2 hcomplete
    rw [hfault]
    cases hrefuses with
    | closer hpart => exact absurd hexp (Expectation.not_isComplete_of_isPart hpart)
    | operator hpart => exact absurd hexp (Expectation.not_isComplete_of_isPart hpart)
    | stray _ hnil => rw [hnil] at henc; cases henc
    | part _ _ hx | partInside _ _ hx => rw [hb] at hx; cases hx
    | crossed _ he =>
      rw [he] at henc
      rw [unclosed_eq henc ho]
  | @unclosed os o b hviable hopen ho hcomplete =>
    obtain ⟨r, hr⟩ := (exists_foldlM_read_iff_viable ts).2 hviable
    have henc := map_token_enclosures hopen hr
    have hexp := (Behind.start.foldlM hr).isComplete_iff.2 hcomplete
    obtain ⟨e, l, es⟩ := r
    rcases es with - | ⟨c, es⟩
    · cases henc
    unfold ofTokens
    rw [if_neg (by simpa using List.ne_nil_of_mem hopen.mem), hr, ← unclosed_eq henc ho]
    rcases hexp with rfl | rfl
    · rfl
    · rfl

/-- So is the bracket around parts that nothing joins. -/
theorem ofTokens_of_misjoined {ts : List Token} {d : Char} {k : Nat} (h : Misjoined ts d k) :
    ofTokens ts = .error (.unbalanced d k) := by
  cases h with
  | @part front os x o b hstop hopen ho hcomplete hstarts =>
    obtain ⟨r, fault, hr, hrefuses, hfault⟩ := hstop.exists_refuses
    have henc := map_token_enclosures hopen hr
    rw [hfault]
    cases hrefuses with
    | closer _ hx | stray _ _ hx | crossed _ _ hx => rw [hx] at hstarts; cases hstarts
    | @operator j _ hx => rw [hx, Joint.startsPart_lexeme] at hstarts; cases hstarts
    | part _ hnil => rw [hnil] at henc; cases henc
    | partInside _ he =>
      rw [he] at henc
      rw [unclosed_eq henc ho]
  | @closer front os x y o b j hstop hopen ho hy hx =>
    obtain ⟨r, fault, hr, hrefuses, hfault⟩ := hstop.exists_refuses
    have hincomplete : ¬r.expectation.IsComplete := by
      rw [(Behind.start.foldlM hr).isComplete_iff]
      simp [Complete, hy]
    rw [hfault]
    cases hrefuses with
    | closer _ hx' =>
      obtain rfl := Lexeme.closing.inj (hx.symm.trans hx')
      rfl
    | @operator j' _ hx' => cases j' <;> cases hx.symm.trans hx'
    | stray h | part h | crossed h | partInside h => exact absurd h hincomplete

/-- No other bracket is. -/
theorem ofTokens_eq_unbalanced_iff {ts : List Token} {d : Char} {k : Nat} :
    ofTokens ts = .error (.unbalanced d k) ↔ Unpartnered ts d k ∨ Misjoined ts d k := by
  constructor
  · intro h
    unfold ofTokens at h
    split at h
    · cases h
    · rcases bind_eq_error.1 h with hread | ⟨r, hr, hfinish⟩
      · obtain ⟨front, x, back, r, rfl, hr, hx⟩ := exists_first_error hread
        exact blamed_of_read hr hx
      · exact .inl (blamed_of_finish hr hfinish)
  · rintro (h | h)
    · exact ofTokens_of_unpartnered h
    · exact ofTokens_of_misjoined h

/-! ### The fault of a text -/

/-- A token stands at the byte that it knows. -/
theorem exists_of_mem_tokensFrom {offset : Nat} {t : Text} {x : Token}
    (h : x ∈ tokensFrom offset t) :
    ∃ u v, t = u ++ (x.lexeme.text ++ v) ∧ offset + Text.byteLength u = x.offset := by
  fun_induction tokensFrom offset t with
  | case1 => cases h
  | case2 o c rest hb ih =>
    obtain ⟨u, v, hrest, hplace⟩ := ih h
    refine ⟨c :: u, v, by rw [hrest]; rfl, ?_⟩
    rw [← hplace, Text.byteLength_cons, Nat.add_assoc]
  | case3 o c rest hb lexeme hc ih =>
    rcases List.mem_cons.1 h with rfl | h
    · refine ⟨[], rest, ?_, rfl⟩
      rw [Lexeme.text_ofChar? hc]
      rfl
    · obtain ⟨u, v, hrest, hplace⟩ := ih h
      refine ⟨c :: u, v, by rw [hrest]; rfl, ?_⟩
      rw [← hplace, Text.byteLength_cons, Nat.add_assoc]
  | case4 o c rest hb hc run ih =>
    have hsplit : c :: rest = run ++ rest.dropWhile isNameChar := by
      simp [run]
    rw [hsplit]
    rcases List.mem_cons.1 h with rfl | h
    · refine ⟨[], rest.dropWhile isNameChar, ?_, rfl⟩
      rw [Lexeme.text_ofRun]
      rfl
    · obtain ⟨u, v, hrest, hplace⟩ := ih h
      refine ⟨run ++ u, v, by rw [List.append_assoc, ← hrest], ?_⟩
      rw [← hplace, Text.byteLength_append, Nat.add_assoc]

/-- A bracket token stands for its character. -/
theorem exists_of_mem_tokens {t : Text} {x : Token} {d : Char} (h : x ∈ tokens t)
    (hd : x.lexeme.text = [d]) : ∃ u v, t = u ++ d :: v ∧ Text.byteLength u = x.offset := by
  obtain ⟨u, v, ht, hplace⟩ := exists_of_mem_tokensFrom h
  rw [hd] at ht
  rw [Nat.zero_add] at hplace
  exact ⟨u, v, ht, hplace⟩

theorem StopsAt.mem {ts front : List Token} {x : Token} (h : StopsAt ts front x) : x ∈ ts := by
  obtain ⟨back, rfl⟩ := h.split
  simp

theorem StopsAt.mem_of_mem {ts front : List Token} {x y : Token} (h : StopsAt ts front x)
    (hy : y ∈ front) : y ∈ ts := by
  obtain ⟨back, rfl⟩ := h.split
  simp [hy]

/-- The bracket that is named stands in the text, at the byte that is named. -/
theorem Unpartnered.stands {t : Text} {d : Char} {k : Nat} (h : Unpartnered (tokens t) d k) :
    ∃ u v, t = u ++ d :: v ∧ Text.byteLength u = k := by
  cases h with
  | closer hstop _ hb => exact exists_of_mem_tokens hstop.mem (by rw [hb]; rfl)
  | crossed hstop hopen ho =>
    exact exists_of_mem_tokens (hstop.mem_of_mem hopen.mem) (by rw [ho]; rfl)
  | unclosed _ hopen ho => exact exists_of_mem_tokens hopen.mem (by rw [ho]; rfl)

theorem Misjoined.stands {t : Text} {d : Char} {k : Nat} (h : Misjoined (tokens t) d k) :
    ∃ u v, t = u ++ d :: v ∧ Text.byteLength u = k := by
  cases h with
  | part hstop hopen ho =>
    exact exists_of_mem_tokens (hstop.mem_of_mem hopen.mem) (by rw [ho]; rfl)
  | closer hstop _ _ _ hb => exact exists_of_mem_tokens hstop.mem (by rw [hb]; rfl)

/-- Where a bracket lacks its partner the brackets are not nested. -/
theorem Unpartnered.not_nested {t : Text} {d : Char} {k : Nat} (h : Unpartnered (tokens t) d k) :
    ¬Nested (marks t) := by
  cases h with
  | closer hstop hopen hb hos =>
    obtain ⟨back, hsplit⟩ := hstop.split
    exact hopen.not_nested_of_closing hsplit hb hos
  | crossed hstop hopen ho hb hne =>
    obtain ⟨back, hsplit⟩ := hstop.split
    refine hopen.not_nested_of_closing hsplit hb ?_
    rintro _ ⟨⟩ ho'
    exact hne (Lexeme.opening.inj (ho.symm.trans ho'))
  | unclosed _ hopen => exact hopen.not_nested_of_cons

/-- The fault of a text is that of its tokens. -/
theorem parse_eq_error_iff {t : Text} {e : FormulaError} :
    parse t = .error e ↔ ∃ fault, ofTokens (tokens t) = .error fault ∧ fault.inText t = e := by
  unfold parse
  rcases ofTokens (tokens t) with fault | f
  · simp [Except.mapError]
  · simp [Except.mapError]

/-- **What is named as unbalanced.**  A text is refused for the bracket `d` at byte `k` exactly
if this bracket stands there and either it has no partner, and then the text is not nested, or an
operator or a part is missing in it. -/
theorem parse_eq_unbalanced_iff (t f : Text) (d : Char) (k : Nat) :
    parse t = .error (.unbalanced f d k) ↔
      f = t ∧ (∃ u v, t = u ++ d :: v ∧ Text.byteLength u = k) ∧
        (¬Nested (marks t) ∧ Unpartnered (tokens t) d k ∨ Misjoined (tokens t) d k) := by
  rw [parse_eq_error_iff]
  constructor
  · rintro ⟨fault, hfault, he⟩
    cases fault with
    | unexpected => cases he
    | unbalanced d' k' =>
      cases he
      refine ⟨rfl, ?_⟩
      rcases ofTokens_eq_unbalanced_iff.1 hfault with h | h
      · exact ⟨h.stands, .inl ⟨h.not_nested, h⟩⟩
      · exact ⟨h.stands, .inr h⟩
  · rintro ⟨rfl, -, h⟩
    refine ⟨.unbalanced d k, ofTokens_eq_unbalanced_iff.2 ?_, rfl⟩
    rcases h with ⟨-, h⟩ | h
    · exact .inl h
    · exact .inr h

/-- Nested brackets are named where an operator is missing, and where a part is. -/
theorem unbalanced_of_nested :
    (Nested (marks "(A+ B+)".toList) ∧
      parse "(A+ B+)".toList = .error (.unbalanced "(A+ B+)".toList '(' 0)) ∧
    (Nested (marks "(A+ &)".toList) ∧
      parse "(A+ &)".toList = .error (.unbalanced "(A+ &)".toList ')' 5)) := by
  refine ⟨⟨.group .round .nil .nil, by decide +kernel⟩,
    .group .round (.other rfl .nil) .nil, by decide +kernel⟩

end LinkGrammar.Formula
