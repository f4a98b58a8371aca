/-
LinkGrammar/Proofs/Formula/Settled.lean

Texts in which no repair finds anything more.

`cleanup` stops at such a text (`settled_cleanup`), whatever it started from.  In a
settled text that is mendable, parts and operators alternate on every level, but for one
kind of damage that no repair covers: an `or` that fills a pair of brackets, with no blank
on either side (`HasBareOr`).
-/
import LinkGrammar.Proofs.Formula.Repair

namespace LinkGrammar.Formula

/-- No repair finds anything, at any place. -/
def Settled (t : Text) : Prop :=
  ∀ r ∈ Repair.all, ∀ u w : Text, t = u ++ w → w ≠ [] → r.fire? u.isEmpty w = none

/-! ### Where cleanup stops -/

/-- A sweep that does not shorten the text finds nothing. -/
theorem Repair.sweep_of_length_le {r : Repair} {atStart : Bool} {t : Text}
    (h : t.length ≤ (r.sweep atStart t).length) :
    r.sweep atStart t = t ∧
      ∀ u w, t = u ++ w → w ≠ [] → r.fire? (atStart && u.isEmpty) w = none := by
  fun_induction Repair.sweep r atStart t with
  | case1 => exact ⟨rfl, by simp⟩
  | case2 atStart c t out rest hfire _ _ =>
    -- a repair that finds something makes the text shorter
    have hshrinks := r.shrinks hfire
    have hle := r.length_sweep_le false rest
    rw [List.length_append] at h
    omega
  | case3 atStart c t hfire ih =>
    obtain ⟨hid, hnone⟩ := ih (by simpa using h)
    refine ⟨by rw [hid], fun u w huw hw => ?_⟩
    rcases u with - | ⟨d, u⟩
    · obtain rfl : c :: t = w := huw
      simpa using hfire
    · obtain ⟨rfl, ht⟩ := List.cons.inj huw
      simpa using hnone u w ht hw

/-- If a round of repairs leaves the length as it is, none of them fires anywhere. -/
theorem foldl_sweep_of_length_le {rs : List Repair} {t : Text}
    (h : t.length ≤ (rs.foldl (fun t r => r.sweep true t) t).length) :
    ∀ r ∈ rs, ∀ u w : Text, t = u ++ w → w ≠ [] → r.fire? u.isEmpty w = none := by
  induction rs with
  | nil => simp
  | cons r rs ih =>
    have hle : (rs.foldl (fun t r => r.sweep true t) (r.sweep true t)).length
        ≤ (r.sweep true t).length := length_foldl_sweep_le rs _
    obtain ⟨hid, hnone⟩ := Repair.sweep_of_length_le (r := r) (Nat.le_trans h hle)
    rw [List.foldl_cons, hid] at h
    exact List.forall_mem_cons.2 ⟨by simpa using hnone, ih h⟩

/-- Rounds of repairs end at a settled text. -/
theorem settled_repeatCleanup (t : Text) : Settled (repeatCleanup t) := by
  fun_induction repeatCleanup t with
  | case1 t next hlt ih => exact ih
  | case2 t next hlt =>
    have htidy := length_tidy_le (Repair.all.foldl (fun t r => r.sweep true t) t)
    exact foldl_sweep_of_length_le (Nat.le_trans (Nat.le_of_not_lt hlt) htidy)

theorem settled_cleanup (t : Text) : Settled (cleanup t) := settled_repeatCleanup _

/-! ### What a settled text does not hold -/

theorem skipBlanks_append {bl : Text} (h : Blanks bl) (t : Text) :
    Text.skipBlanks (bl ++ t) = Text.skipBlanks t :=
  List.dropWhile_append_of_pos h

theorem skipBlanks_cons {c : Char} (h : isBlank c = false) (t : Text) :
    Text.skipBlanks (c :: t) = c :: t :=
  List.dropWhile_cons_of_neg (by simp [h])

theorem skipBlanks_eq_nil {bl : Text} (h : Blanks bl) : Text.skipBlanks bl = [] := by
  rw [← List.append_nil bl, skipBlanks_append h]
  rfl

theorem skipBlanks_joint (j : Joint) (t : Text) :
    Text.skipBlanks (j.lexeme.text ++ t) = j.lexeme.text ++ t := by
  cases j <;> exact skipBlanks_cons (by decide) _

/-- An operator with a blank behind it is found. -/
theorem exists_afterOperator? {j : Joint} {t : Text} (h : j = .or → t.startsBlank = true) :
    ∃ rest, afterOperator? (j.lexeme.text ++ t) = some rest := by
  cases j
  · exact ⟨_, rfl⟩
  · rcases t with - | ⟨c, t⟩
    · cases h rfl
    · exact ⟨Text.skipBlanks t, if_pos (h rfl)⟩

theorem afterBlankOperator?_eq (atStart : Bool) {j : Joint} {bl : Text} (hbl : Blanks bl)
    (h : j = .or → bl ≠ [] ∨ atStart = true) (t : Text) :
    afterBlankOperator? atStart (bl ++ (j.lexeme.text ++ t)) = some (Text.skipBlanks t) := by
  unfold afterBlankOperator?
  rw [skipBlanks_append hbl, skipBlanks_joint]
  cases j
  · rfl
  · refine if_pos ?_
    rcases h rfl with hne | hstart
    · obtain ⟨c, bl, rfl⟩ := List.exists_cons_of_ne_nil hne
      have hc : isBlank c = true := (blanks_cons.1 hbl).1
      exact Bool.or_eq_true_iff.2 (.inr hc)
    · rw [hstart]; rfl

/-- A double `or` does not begin with a blank. -/
theorem afterDoubleOr?_of_isBlank {c : Char} (hc : isBlank c = true) (t : Text) :
    afterDoubleOr? (c :: t) = none := by
  unfold afterDoubleOr?
  split
  · next e =>
    obtain ⟨rfl, -⟩ := List.cons.inj e
    exact absurd hc (by decide)
  · rfl

namespace Settled

variable {t u v bl bl' : Text} {b : Bracket} {j : Joint}

/-- There is no empty pair of brackets, but for braces. -/
theorem no_emptyGroup (h : Settled t) (hb : b ≠ .curly) (hbl : Blanks bl)
    (ht : t = u ++ b.opener :: (bl ++ b.closer :: v)) : False := by
  have hnone := h .emptyGroup (by simp [Repair.all]) u _ ht (by simp)
  have hskip : Text.skipBlanks (bl ++ b.closer :: v) = b.closer :: v := by
    rw [skipBlanks_append hbl, skipBlanks_cons (not_isBlank_closer b)]
  cases b
  · have hskip : (bl ++ ')' :: v).skipBlanks = ')' :: v := hskip
    simp [Repair.emptyGroup, Bracket.opener, Bracket.closer, hskip] at hnone
  · have hskip : (bl ++ ']' :: v).skipBlanks = ']' :: v := hskip
    simp [Repair.emptyGroup, Bracket.opener, Bracket.closer, hskip] at hnone
  · exact hb rfl

/-- No operator stands behind an opener. -/
theorem no_joint_behind_opener (h : Settled t) (hbl : Blanks bl)
    (hv : j = .or → v.startsBlank = true)
    (ht : t = u ++ b.opener :: (bl ++ (j.lexeme.text ++ v))) : False := by
  have hnone := h .operatorAfterOpener (by simp [Repair.all]) u _ ht (by simp)
  obtain ⟨rest, hrest⟩ := exists_afterOperator? hv
  have hb : isOpener b.opener = true := isOpener_iff.2 ⟨b, rfl⟩
  simp [Repair.operatorAfterOpener, hb, skipBlanks_append hbl, skipBlanks_joint, hrest] at hnone

/-- No operator stands before a closer. -/
theorem no_joint_before_closer (h : Settled t) (hbl : Blanks bl) (hbl' : Blanks bl')
    (hj : j = .or → bl ≠ [])
    (ht : t = u ++ (bl ++ (j.lexeme.text ++ (bl' ++ b.closer :: v)))) : False := by
  have hne : bl ++ (j.lexeme.text ++ (bl' ++ b.closer :: v)) ≠ [] := by simp
  have hnone := h .operatorBeforeCloser (by simp [Repair.all]) u _ ht hne
  have hfind := afterBlankOperator?_eq false hbl (fun hor => .inl (hj hor))
    (bl' ++ b.closer :: v)
  rw [skipBlanks_append hbl', skipBlanks_cons (not_isBlank_closer b)] at hfind
  have hb : isCloser b.closer = true := isCloser_iff.2 ⟨b, rfl⟩
  simp [Repair.operatorBeforeCloser, hfind, hb] at hnone

/-- No operator begins the text. -/
theorem no_joint_at_start (h : Settled t) (hbl : Blanks bl)
    (hv : j = .or → v = [] ∨ v.startsBlank = true)
    (ht : t = bl ++ (j.lexeme.text ++ v)) : False := by
  have hne : bl ++ (j.lexeme.text ++ v) ≠ [] := by cases j <;> simp [Joint.lexeme, Lexeme.text]
  have hnone := h .operatorAtStart (by simp [Repair.all]) [] (bl ++ (j.lexeme.text ++ v)) ht hne
  simp only [Repair.operatorAtStart, List.isEmpty_nil, if_true, skipBlanks_append hbl,
    skipBlanks_joint] at hnone
  split at hnone
  · cases hnone
  · next hend =>
    have hblank : j = .or → v.startsBlank = true := fun hor => (hv hor).resolve_left fun hnil => by
      subst hor hnil
      exact hend rfl
    obtain ⟨rest, hrest⟩ := exists_afterOperator? hblank
    rw [hrest] at hnone
    cases hnone

/-- No operator ends the text. -/
theorem no_joint_at_end (h : Settled t) (hbl : Blanks bl) (hbl' : Blanks bl')
    (hj : j = .or → bl ≠ [] ∨ u = []) (ht : t = u ++ (bl ++ (j.lexeme.text ++ bl'))) : False := by
  have hne : bl ++ (j.lexeme.text ++ bl') ≠ [] := by cases j <;> simp [Joint.lexeme, Lexeme.text]
  have hnone := h .operatorAtEnd (by simp [Repair.all]) u _ ht hne
  have hfind := afterBlankOperator?_eq u.isEmpty hbl
    (fun hor => (hj hor).imp_right fun hu => by rw [hu]; rfl) bl'
  rw [skipBlanks_eq_nil hbl'] at hfind
  simp [Repair.operatorAtEnd, hfind] at hnone

/-- No `&` follows another. -/
theorem no_doubleAnd (h : Settled t) (hbl : Blanks bl) (ht : t = u ++ '&' :: (bl ++ '&' :: v)) :
    False := by
  have hnone := h .doubleAnd (by simp [Repair.all]) u _ ht (by simp)
  have hskip : Text.skipBlanks (bl ++ '&' :: v) = '&' :: v := by
    rw [skipBlanks_append hbl, skipBlanks_cons (by decide)]
  simp [Repair.doubleAnd, hskip] at hnone

/-- Two `or` in a row, with blanks or an end of the text on both sides. -/
theorem no_doubleOr (h : Settled t) (hbl : Blanks bl) (hne : bl ≠ [])
    (hv : v = [] ∨ v.startsBlank = true)
    (hu : u = [] ∨ ∃ u' c, u = u' ++ [c] ∧ isBlank c = true)
    (ht : t = u ++ (['o', 'r'] ++ (bl ++ (['o', 'r'] ++ v)))) : False := by
  obtain ⟨d, bl, rfl⟩ := List.exists_cons_of_ne_nil hne
  obtain ⟨hd, hbl⟩ := blanks_cons.1 hbl
  have hskip : Text.skipBlanks (bl ++ (['o', 'r'] ++ v)) = ['o', 'r'] ++ v := by
    rw [skipBlanks_append hbl]
    exact skipBlanks_cons (by decide) _
  obtain ⟨x, hx⟩ : ∃ x, afterDoubleOr? (['o', 'r'] ++ (d :: bl ++ (['o', 'r'] ++ v))) = some x := by
    rcases v with - | ⟨e, v⟩
    · exact ⟨([], []), by simp_all [afterDoubleOr?]⟩
    · have he : isBlank e = true := hv.resolve_left (by simp)
      exact ⟨([e], v), by simp_all [afterDoubleOr?]⟩
  rcases hu with rfl | ⟨u, c, rfl, hc⟩
  · have hnone := h .doubleOr (by simp [Repair.all]) []
      (['o', 'r'] ++ (d :: bl ++ (['o', 'r'] ++ v))) ht (by simp)
    simp only [Repair.doubleOr, List.isEmpty_nil, if_true, hx] at hnone
    cases hnone
  · have hnone := h .doubleOr (by simp [Repair.all]) u
      (c :: (['o', 'r'] ++ (d :: bl ++ (['o', 'r'] ++ v)))) (by simpa using ht) (by simp)
    -- at the blank itself there is no `or`
    have hblank := afterDoubleOr?_of_isBlank hc (['o', 'r'] ++ (d :: bl ++ (['o', 'r'] ++ v)))
    simp only [Repair.doubleOr, hblank, ite_self, hc, if_true, hx] at hnone
    cases hnone

end Settled

/-! ### Next to an operator -/

/-- Behind a character of no name a part may begin, but for a closer and `&`. -/
theorem opensPart_or_closer {c : Char} (h : isNameChar c = false) :
    OpensPart c ∨ isCloser c = true ∨ c = '&' := by
  unfold isNameChar Lexeme.ofChar? at h
  simp only [Bool.and_eq_false_iff, Bool.not_eq_false'] at h
  unfold OpensPart isOpener isCloser
  grind

/-- Before a character of no name a part may end, but for an opener and `&`. -/
theorem closesPart_or_opener {c : Char} (h : isNameChar c = false) :
    ClosesPart c ∨ isOpener c = true ∨ c = '&' := by
  unfold isNameChar Lexeme.ofChar? at h
  simp only [Bool.and_eq_false_iff, Bool.not_eq_false'] at h
  unfold ClosesPart isOpener isCloser
  grind

/-- The text before an operator ends open. -/
theorem endsOpen_before_joint {u v : Text} {j : Joint}
    (h : (u ++ (j.lexeme.text ++ v)).IsChain Spaced) (hseam : Seam u j.lexeme.text) :
    EndsOpen u := by
  cases j
  · exact endsOpen_of_isChain h (.inr rfl)
  intro c hc
  have hname : isNameChar c = false := by
    simpa [show isNameChar 'o' = true by decide] using hseam c hc 'o' rfl
  refine (opensPart_or_closer hname).resolve_right fun hcloser => ?_
  have hspaced : Spaced c 'o' := (List.isChain_append.1 h).2.2 c hc 'o' rfl
  have ho : ¬ClosesPart 'o' := by unfold ClosesPart; decide
  exact ho (hspaced.1 hcloser)

/-- The text behind an operator begins closed. -/
theorem beginsClosed_behind_joint {u v : Text} {j : Joint}
    (h : (u ++ (j.lexeme.text ++ v)).IsChain Spaced) (hseam : Seam j.lexeme.text v) :
    BeginsClosed v := by
  cases j
  · exact beginsClosed_of_isChain h (.inr rfl)
  intro d hd
  have hname : isNameChar d = false := by
    simpa [show isNameChar 'r' = true by decide] using hseam 'r' rfl d hd
  refine (closesPart_or_opener hname).resolve_right fun hopener => ?_
  have hspaced : Spaced 'r' d :=
    (List.isChain_append.1 (List.isChain_append.1 h).2.1).2.2 'r' rfl d hd
  have hr : ¬OpensPart 'r' := by unfold OpensPart; decide
  exact hr (hspaced.2 hopener)

/-- How a text ends open: it is empty, or a blank or an opener ends it. -/
theorem EndsOpen.cases {u : Text} (h : EndsOpen u) :
    u = [] ∨ (∃ u' c, u = u' ++ [c] ∧ isBlank c = true) ∨
      ∃ (u' : Text) (b : Bracket), u = u' ++ [b.opener] := by
  rcases List.eq_nil_or_concat' u with rfl | ⟨u', c, rfl⟩
  · exact .inl rfl
  · rcases h c (by simp) with hc | hc
    · exact .inr (.inl ⟨u', c, rfl, hc⟩)
    · obtain ⟨b, rfl⟩ := isOpener_iff.1 hc
      exact .inr (.inr ⟨u', b, rfl⟩)

/-- How a text begins closed: it is empty, or a blank or a closer begins it. -/
theorem BeginsClosed.cases {v : Text} (h : BeginsClosed v) :
    v = [] ∨ v.startsBlank = true ∨ ∃ (b : Bracket) (v' : Text), v = b.closer :: v' := by
  rcases v with - | ⟨d, v⟩
  · exact .inl rfl
  · rcases h d (by simp) with hd | hd
    · exact .inr (.inl hd)
    · obtain ⟨b, rfl⟩ := isCloser_iff.1 hd
      exact .inr (.inr ⟨b, v, rfl⟩)

/-! ### Order -/

/-- A token that ends no part is an opener or an operator. -/
theorem Lexeme.opening_or_joint {a : Lexeme} (h : a.endsPart = false) :
    (∃ b, a = .opening b) ∨ ∃ j : Joint, a = j.lexeme := by
  cases a with
  | opening b => exact .inl ⟨b, rfl⟩
  | and => exact .inr ⟨.and, rfl⟩
  | or => exact .inr ⟨.or, rfl⟩
  | _ => cases h

/-- A token that begins no part is a closer or an operator. -/
theorem Lexeme.closing_or_joint {a : Lexeme} (h : a.startsPart = false) :
    (∃ b, a = .closing b) ∨ ∃ j : Joint, a = j.lexeme := by
  cases a with
  | closing b => exact .inl ⟨b, rfl⟩
  | and => exact .inr ⟨.and, rfl⟩
  | or => exact .inr ⟨.or, rfl⟩
  | _ => cases h

/-- An `or` fills a pair of brackets, with no blank on either side. -/
def HasBareOr (t : Text) : Prop := ∃ b : Bracket, [b.opener, 'o', 'r', b.closer] <:+: t

namespace Mendable

variable {t : Text} {f : Option Formula} {p q : List Lexeme} {b : Bracket} {j : Joint}

/-- Where a settled text has an operator behind an opener, that is a bare `or`. -/
theorem hasBareOr_of_opening_joint (h : Mendable t f) (hs : Settled t)
    (hls : lexemes t = p ++ .opening b :: j.lexeme :: q) : HasBareOr t := by
  obtain ⟨u, w, ht, -, -, -, hw⟩ := exists_of_lexemes_append_cons hls
  obtain ⟨bl, v, rfl, hbl, hseam, hv⟩ := exists_of_lexemes_cons hw
  have ht : t = u ++ b.opener :: (bl ++ (j.lexeme.text ++ v)) := ht
  have hassoc : u ++ b.opener :: (bl ++ (j.lexeme.text ++ v))
      = (u ++ b.opener :: bl) ++ (j.lexeme.text ++ v) := by simp
  have hclosed : BeginsClosed v := beginsClosed_behind_joint (hassoc ▸ ht ▸ h.spaced) hseam
  have heval := h.evaluates
  rw [hls] at heval
  -- `&` is dropped whatever stands behind it
  have hor : j = .or := by
    by_contra hne
    exact hs.no_joint_behind_opener hbl (fun hor => absurd hor hne) ht
  rcases hclosed.cases with rfl | hblank | ⟨b', v, rfl⟩
  · rw [lexemes_nil] at hv
    rw [← hv] at heval
    have hdrop := Evaluates.drop_joint (p := p ++ [.opening b]) (s := []) (by simpa using heval)
    exact absurd hdrop (by simpa using Evaluates.not_opening_last)
  · exact absurd (hs.no_joint_behind_opener hbl (fun _ => hblank) ht) id
  · rw [lexemes_cons_closer] at hv
    rw [← hv] at heval
    have hdrop := Evaluates.drop_joint (p := p ++ [.opening b]) (s := .closing b' :: lexemes v)
      (by simpa using heval)
    obtain rfl : b = b' := Evaluates.closing_eq (p := p) (s := lexemes v) (by simpa using hdrop)
    rcases eq_or_ne bl [] with rfl | hne
    · refine ⟨b, u, v, ?_⟩
      rw [ht, hor]
      simp [Joint.lexeme, Lexeme.text]
    · have ht : t = (u ++ [b.opener]) ++ (bl ++ (j.lexeme.text ++ ([] ++ b.closer :: v))) := by
        rw [ht]; simp
      exact (hs.no_joint_before_closer hbl blanks_nil (fun _ => hne) ht).elim

variable (hbare : ¬HasBareOr t)
include hbare

/-- No operator stands right behind an opener. -/
theorem not_opener_joint {u : Text} (h : Mendable t f) (hs : Settled t)
    (hu : lexemes (u ++ [b.opener]) = p) (hls : lexemes t = p ++ j.lexeme :: q) : False := by
  rw [lexemes_append_opener] at hu
  rw [← hu, List.append_assoc] at hls
  exact hbare (h.hasBareOr_of_opening_joint hs hls)

/-- Among the tokens no operator stands before a closer. -/
theorem not_joint_closing (h : Mendable t f) (hs : Settled t)
    (hls : lexemes t = p ++ j.lexeme :: .closing b :: q) : False := by
  obtain ⟨u, w, ht, hleft, -, hu, hw⟩ := exists_of_lexemes_append_cons hls
  obtain ⟨bl, v, rfl, hbl, -, hv⟩ := exists_of_lexemes_cons hw
  have hopen : EndsOpen u := endsOpen_before_joint (ht ▸ h.spaced) hleft
  have ht : t = u ++ ([] ++ (j.lexeme.text ++ (bl ++ b.closer :: v))) := ht
  have hor : j = .or := by
    by_contra hne
    exact hs.no_joint_before_closer blanks_nil hbl (fun hor => absurd hor hne) ht
  have heval := h.evaluates
  rw [hls] at heval
  rcases hopen.cases with rfl | ⟨u, c, rfl, hc⟩ | ⟨u, b', rfl⟩
  · rw [lexemes_nil] at hu
    rw [← hu] at heval
    exact Evaluates.not_closing_first (Evaluates.drop_joint (p := []) heval)
  · have ht : t = u ++ ([c] ++ (j.lexeme.text ++ (bl ++ b.closer :: v))) := by
      rw [ht]; simp
    exact hs.no_joint_before_closer (by simpa [Blanks] using hc) hbl (by simp) ht
  · exact not_opener_joint hbare h hs hu hls

/-- No operator follows the same operator. -/
theorem not_joint_joint (h : Mendable t f) (hs : Settled t)
    (hls : lexemes t = p ++ j.lexeme :: j.lexeme :: q) : False := by
  obtain ⟨u, w, ht, hleft, hright, hu, hw⟩ := exists_of_lexemes_append_cons hls
  obtain ⟨bl, v, rfl, hbl, hseam, hv⟩ := exists_of_lexemes_cons hw
  cases j with
  | and => exact hs.no_doubleAnd hbl ht
  | or =>
  have hopen : EndsOpen u := endsOpen_before_joint (ht ▸ h.spaced) hleft
  have hclosed : BeginsClosed v := by
    have hassoc : u ++ (['o', 'r'] ++ (bl ++ (['o', 'r'] ++ v)))
        = (u ++ (['o', 'r'] ++ bl)) ++ (['o', 'r'] ++ v) := by simp
    exact beginsClosed_behind_joint (j := .or) (hassoc ▸ ht ▸ h.spaced) hseam
  -- without a blank between them the two would be one name
  have hne : bl ≠ [] := by
    rintro rfl
    exact hright 'r' rfl 'o' rfl (by decide)
  have hv : v = [] ∨ v.startsBlank = true := by
    rcases hclosed.cases with hnil | hblank | ⟨b, v, rfl⟩
    · exact .inl hnil
    · exact .inr hblank
    · rw [lexemes_cons_closer] at hv
      rw [← hv] at hls
      have hls : lexemes t
          = (p ++ [.or]) ++ Joint.or.lexeme :: .closing b :: lexemes v := by
        rw [hls]; simp [Joint.lexeme]
      exact (not_joint_closing hbare h hs hls).elim
  rcases hopen.cases with hnil | hblank | ⟨u, b, rfl⟩
  · exact hs.no_doubleOr hbl hne hv (.inl hnil) ht
  · exact hs.no_doubleOr hbl hne hv (.inr hblank) ht
  · exact not_opener_joint hbare h hs (j := .or) hu hls

theorem not_joint_first (h : Mendable t f) (hs : Settled t) (hls : lexemes t = j.lexeme :: q) :
    False := by
  obtain ⟨bl, v, ht, hbl, hseam, hv⟩ := exists_of_lexemes_cons hls
  have hclosed : BeginsClosed v := beginsClosed_behind_joint (ht ▸ h.spaced) hseam
  rcases hclosed.cases with hnil | hblank | ⟨b, v, rfl⟩
  · exact hs.no_joint_at_start hbl (fun _ => .inl hnil) ht
  · exact hs.no_joint_at_start hbl (fun _ => .inr hblank) ht
  · rw [lexemes_cons_closer] at hv
    rw [← hv] at hls
    exact not_joint_closing hbare h hs (p := []) hls

theorem not_joint_last (h : Mendable t f) (hs : Settled t) (hls : lexemes t = p ++ [j.lexeme]) :
    False := by
  obtain ⟨u, bl, ht, hseam, -, hu, hbl⟩ := exists_of_lexemes_append_cons hls
  have hbl : Blanks bl := blanks_of_lexemes_eq_nil hbl
  have hopen : EndsOpen u := endsOpen_before_joint (ht ▸ h.spaced) hseam
  rcases hopen.cases with rfl | ⟨u, c, rfl, hc⟩ | ⟨u, b, rfl⟩
  · exact hs.no_joint_at_end (u := []) blanks_nil hbl (fun _ => .inr rfl) ht
  · have ht : t = u ++ ([c] ++ (j.lexeme.text ++ bl)) := by
      rw [ht]; simp
    exact hs.no_joint_at_end (by simpa [Blanks] using hc) hbl (by simp) ht
  · exact not_opener_joint hbare h hs hu hls

/-- **A settled mendable text is in order**, unless it has a bare `or`. -/
theorem orderly (h : Mendable t f) (hs : Settled t) (hcurly : .opening .curly ∉ lexemes t) :
    Orderly (lexemes t) where
  fits := by
    refine List.isChain_iff_forall_rel_of_append_cons_cons.2 fun a b p q hls => ?_
    have hapart : Apart a b :=
      List.isChain_iff_forall_rel_of_append_cons_cons.1 h.apart hls
    have heval := h.evaluates
    rw [hls] at heval
    by_contra hfits
    have ha : a.endsPart = false := by
      unfold Apart at hapart
      unfold Fits at hfits
      grind
    have hb : b.startsPart = false := by
      simpa [Fits, ha] using hfits
    rcases Lexeme.opening_or_joint ha with ⟨c, rfl⟩ | ⟨j, rfl⟩ <;>
      rcases Lexeme.closing_or_joint hb with ⟨d, rfl⟩ | ⟨k, rfl⟩
    · -- a pair of brackets with nothing in it is dropped, unless it is one of braces
      obtain rfl : c = d := heval.closing_eq
      obtain ⟨u, w, ht, -, -, -, hw⟩ := exists_of_lexemes_append_cons hls
      obtain ⟨bl, v, rfl, hbl, -, -⟩ := exists_of_lexemes_cons hw
      refine hs.no_emptyGroup (fun hc => hcurly ?_) hbl ht
      rw [hls, hc]
      simp
    · exact hbare (h.hasBareOr_of_opening_joint hs hls)
    · exact not_joint_closing hbare h hs hls
    · -- both join the same level
      obtain rfl : j = k := heval.joint_eq
      exact not_joint_joint hbare h hs hls
  first := by
    intro a ha
    obtain ⟨q, hls⟩ := List.head?_eq_some_iff.1 ha
    by_contra hstart
    rcases Lexeme.closing_or_joint (Bool.eq_false_iff.2 hstart) with ⟨d, rfl⟩ | ⟨j, rfl⟩
    · exact Evaluates.not_closing_first (hls ▸ h.evaluates)
    · exact not_joint_first hbare h hs hls
  last := by
    intro a ha
    obtain ⟨p, hls⟩ := List.getLast?_eq_some_iff.1 ha
    by_contra hend
    rcases Lexeme.opening_or_joint (Bool.eq_false_iff.2 hend) with ⟨c, rfl⟩ | ⟨j, rfl⟩
    · exact Evaluates.not_opening_last (hls ▸ h.evaluates)
    · exact not_joint_last hbare h hs hls

end Mendable

/-! ### Reading what cleanup leaves -/

/-- **Mended text reads as the formula it stands for**, unless a bare `or` is left. -/
theorem Mendable.parse_cleanup {t : Text} {f : Option Formula} (h : Mendable t f)
    (hcurly : '{' ∉ t) (hbare : ¬HasBareOr (Formula.cleanup t)) :
    parse (Formula.cleanup t) = .ok f ∧ (f = none → Blanks (Formula.cleanup t)) := by
  have hcurly : .opening .curly ∉ lexemes (Formula.cleanup t) := fun hmem => by
    rcases mem_of_mem_cleanup (opener_mem_of_mem_lexemes hmem) with hc | hspace
    · exact hcurly hc
    · cases hspace
  have hmended := h.cleanup
  obtain ⟨hread, hsome⟩ := ofTokens_of_orderly (tokens (Formula.cleanup t))
    (hmended.orderly hbare (settled_cleanup t) hcurly)
    hmended.evaluates
  refine ⟨parse_eq_ok_iff.2 hread, fun hnone => blanks_of_lexemes_eq_nil ?_⟩
  by_contra hne
  exact hsome (fun hnil => hne (congrArg (List.map Token.lexeme) hnil)) hnone

theorem Reader.expectation_of_read_opening {r r' : Reader} {t : Token} {b : Bracket}
    (ht : t.lexeme = .opening b) (h : r.read t = .ok r') : r'.expectation = .partOrCloser := by
  obtain ⟨e, l, es⟩ := r
  cases e with
  | part | partOrCloser =>
    simp only [Reader.read, Reader.readPart, ht] at h
    cases h
    rfl
  | operator | operatorOrWeight =>
    simp only [Reader.read, Reader.readOperator, ht] at h
    cases es <;> cases h

theorem Reader.read_or_eq_error {r : Reader} {t : Token} (hr : r.expectation = .partOrCloser)
    (ht : t.lexeme = .or) : r.read t = .error (.unexpected (some ['o', 'r'])) := by
  obtain ⟨e, l, es⟩ := r
  obtain rfl : e = .partOrCloser := hr
  simp [Reader.read, Reader.readPart, ht, Lexeme.text]

/-- Reading cannot go on behind an opener with `or`. -/
theorem ofTokens_of_opening_or {ts : List Token} {p q : List Lexeme} {b : Bracket}
    (h : ts.map Token.lexeme = p ++ .opening b :: .or :: q) : ∃ e, ofTokens ts = .error e := by
  obtain ⟨before, rest, rfl, -, hrest⟩ := List.map_eq_append_iff.1 h
  obtain ⟨opener, rest, rfl, hopener, hrest⟩ := List.map_eq_cons_iff.1 hrest
  obtain ⟨or, after, rfl, hor, -⟩ := List.map_eq_cons_iff.1 hrest
  unfold ofTokens
  rw [if_neg (by simp), List.foldlM_append]
  rcases before.foldlM Reader.read Reader.start with fault | r
  · exact ⟨fault, rfl⟩
  show ∃ e, (do let r ← (opener :: or :: after).foldlM Reader.read r; r.finish) = .error e
  rw [List.foldlM_cons]
  rcases e : r.read opener with fault | r₁
  · exact ⟨fault, rfl⟩
  · have hexp := Reader.expectation_of_read_opening hopener e
    show ∃ e, (do let r ← (or :: after).foldlM Reader.read r₁; r.finish) = .error e
    rw [List.foldlM_cons, Reader.read_or_eq_error hexp hor]
    exact ⟨_, rfl⟩

/-- The tokens of a bare `or`. -/
theorem HasBareOr.exists_lexemes {t : Text} (h : HasBareOr t) :
    ∃ p b q, lexemes t = p ++ .opening b :: .or :: .closing b :: q := by
  obtain ⟨b, u, v, rfl⟩ := h
  have hcut : u ++ [b.opener, 'o', 'r', b.closer] ++ v
      = (u ++ [b.opener]) ++ (Joint.or.lexeme.text ++ b.closer :: v) := by simp; rfl
  refine ⟨lexemes u, b, lexemes v, ?_⟩
  rw [hcut, lexemes_append ((endsOpen_opener u b).seam _), lexemes_append_opener,
    Joint.lexemes_text_append ((beginsClosed_closer b v).seam _), lexemes_cons_closer,
    List.append_assoc]
  rfl

/-- A text with a bare `or` is not read. -/
theorem parse_of_hasBareOr {t : Text} (h : HasBareOr t) : ∃ e, parse t = .error e := by
  obtain ⟨p, b, q, hls⟩ := h.exists_lexemes
  obtain ⟨e, he⟩ := ofTokens_of_opening_or hls
  unfold parse
  rw [he]
  exact ⟨_, rfl⟩

end LinkGrammar.Formula
