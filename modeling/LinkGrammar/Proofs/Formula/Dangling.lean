/-
LinkGrammar/Proofs/Formula/Dangling.lean

Operators without an operand, and what cleanup leaves of them.

An operator dangles where no operand can stand on one of its sides: at an end of the text, at an
end of what a pair of brackets holds, or next to its like.  What a repair finds is such an
operator, or a pair of brackets with nothing in it (`Repair.findsDamage_of_mem_all`).  The converse
fails for `or`.  A repair knows the word by the blank that it looks for on the side away from the
missing operand, so it passes over an `or` that stands right against a bracket or `&` there
(`StuckOr`).

Main result: cleanup leaves no empty brackets and no dangling `&`, in any text, and of the
dangling `or` it leaves those that are stuck (`dangling_cleanup_iff`).
-/
import LinkGrammar.Proofs.Formula.Rounds

namespace LinkGrammar.Formula

/-! ### Dangling operators -/

/-- The tokens end without an operand: there are none, or the last is an opener or `j` itself. -/
def LacksLeft (j : Joint) (p : List Lexeme) : Prop :=
  ∀ a ∈ p.getLast?, (∃ b, a = .opening b) ∨ a = j.lexeme

/-- The tokens begin without an operand: there are none, or the first is a closer or `j` itself. -/
def LacksRight (j : Joint) (q : List Lexeme) : Prop :=
  ∀ a ∈ q.head?, (∃ b, a = .closing b) ∨ a = j.lexeme

/-- Somewhere `j` is the first or the last token, follows an opener, precedes a closer, or is next
to another `j`. -/
def Dangling (j : Joint) (ls : List Lexeme) : Prop :=
  ∃ p q, ls = p ++ j.lexeme :: q ∧ (LacksLeft j p ∨ LacksRight j q)

/-- A pair of brackets with nothing in it. -/
def HasEmpty (b : Bracket) (ls : List Lexeme) : Prop :=
  ∃ p q, ls = p ++ .opening b :: .closing b :: q

/-- An `or` with no operand on one side, and neither a blank nor the end of the text on the
other. -/
def StuckOr (t : Text) : Prop :=
  ∃ u v, t = u ++ (['o', 'r'] ++ v) ∧ Seam u ['o', 'r'] ∧ Seam ['o', 'r'] v ∧
    ((LacksLeft .or (lexemes u) ∧ ∃ c ∈ v.head?, isBlank c = false) ∨
      (LacksRight .or (lexemes v) ∧ ∃ c ∈ u.getLast?, isBlank c = false))

theorem lacksLeft_nil (j : Joint) : LacksLeft j [] := fun _ ha => nomatch ha

theorem lacksRight_nil (j : Joint) : LacksRight j [] := fun _ ha => nomatch ha

/-- An operator behind an opener has nothing on its left. -/
theorem lacksLeft_opening (j : Joint) (p : List Lexeme) (b : Bracket) :
    LacksLeft j (p ++ [.opening b]) := by
  intro a ha
  rw [List.getLast?_concat] at ha
  exact .inl ⟨b, (Option.some.inj ha).symm⟩

theorem lacksLeft_joint (j : Joint) (p : List Lexeme) : LacksLeft j (p ++ [j.lexeme]) := by
  intro a ha
  rw [List.getLast?_concat] at ha
  exact .inr (Option.some.inj ha).symm

/-- An operator before a closer has nothing on its right. -/
theorem lacksRight_closing (j : Joint) (b : Bracket) (q : List Lexeme) :
    LacksRight j (.closing b :: q) := fun _ ha => .inl ⟨b, (Option.some.inj ha).symm⟩

theorem lacksRight_joint (j : Joint) (q : List Lexeme) : LacksRight j (j.lexeme :: q) :=
  fun _ ha => .inr (Option.some.inj ha).symm

/-- There is no other way to have nothing on the left. -/
theorem LacksLeft.cases {j : Joint} {p : List Lexeme} (h : LacksLeft j p) :
    p = [] ∨ (∃ p' b, p = p' ++ [.opening b]) ∨ ∃ p', p = p' ++ [j.lexeme] := by
  rcases List.eq_nil_or_concat' p with rfl | ⟨p, a, rfl⟩
  · exact .inl rfl
  · rcases h a List.getLast?_concat with ⟨b, rfl⟩ | rfl
    · exact .inr (.inl ⟨p, b, rfl⟩)
    · exact .inr (.inr ⟨p, rfl⟩)

/-- There is no other way to have nothing on the right. -/
theorem LacksRight.cases {j : Joint} {q : List Lexeme} (h : LacksRight j q) :
    q = [] ∨ (∃ b q', q = .closing b :: q') ∨ ∃ q', q = j.lexeme :: q' := by
  rcases q with - | ⟨a, q⟩
  · exact .inl rfl
  · rcases h a rfl with ⟨b, rfl⟩ | rfl
    · exact .inr (.inl ⟨b, q, rfl⟩)
    · exact .inr (.inr ⟨q, rfl⟩)

/-! ### What a repair finds -/

/-- An operator with blanks around it, and no operand on one of its sides. -/
theorem dangling_joint {j : Joint} {x bl bl' y : Text} (hbl : Blanks bl) (hbl' : Blanks bl')
    (hleft : Seam (x ++ bl) j.lexeme.text) (hright : Seam j.lexeme.text (bl' ++ y))
    (h : LacksLeft j (lexemes x) ∨ LacksRight j (lexemes y)) :
    Dangling j (lexemes (x ++ (bl ++ j.lexeme.text ++ bl' ++ y))) :=
  ⟨lexemes x, lexemes y, lexemes_joint hbl hbl' hleft hright, h⟩

/-- The tokens have empty brackets or a dangling operator. -/
def Damaged (ls : List Lexeme) : Prop := (∃ b, HasEmpty b ls) ∨ ∃ j, Dangling j ls

namespace Repair

/-- The repair finds nothing in texts that are not damaged. -/
def FindsDamage (r : Repair) : Prop :=
  ∀ {u w out rest : Text}, r.fire? u.isEmpty w = some (out, rest) → Damaged (lexemes (u ++ w))

theorem findsDamage_emptyGroup : emptyGroup.FindsDamage := by
  intro u w out rest h
  obtain ⟨b, bl, hbl, rfl, -⟩ := exists_of_emptyGroup h
  have hseam : Seam u (b.opener :: (bl ++ b.closer :: rest)) :=
    Seam.of_head (not_isNameChar_opener b) _
  refine .inl ⟨b, lexemes u, lexemes rest, ?_⟩
  simp only [List.cons_append, List.append_assoc, List.nil_append]
  rw [lexemes_append hseam, lexemes_cons_opener, lexemes_blanks_append hbl, lexemes_cons_closer]

theorem findsDamage_operatorAfterOpener : operatorAfterOpener.FindsDamage := by
  intro u w out rest h
  obtain ⟨b, bl, j, bl', hbl, hbl', rfl, -, hj⟩ := exists_of_operatorAfterOpener h
  have hopen : EndsOpen (u ++ [b.opener]) := endsOpen_opener u b
  have hcut : u ++ b.opener :: (bl ++ j.lexeme.text ++ bl' ++ rest)
      = (u ++ [b.opener]) ++ (bl ++ j.lexeme.text ++ bl' ++ rest) := by simp
  rw [hcut]
  refine .inr ⟨j, dangling_joint hbl hbl' ?_ ?_ (.inl ?_)⟩
  · exact (hbl.endsOpen_append fun _ => hopen).seam _
  · refine j.seam_right fun hor => (hbl'.beginsClosed_append fun hnil => ?_).seam _
    exact absurd hnil (hj hor)
  · rw [lexemes_append_opener]
    exact lacksLeft_opening j _ b

theorem findsDamage_operatorBeforeCloser : operatorBeforeCloser.FindsDamage := by
  intro u w out rest h
  obtain ⟨b, bl, j, bl', hbl, hbl', rfl, -, hj⟩ := exists_of_operatorBeforeCloser h
  have hclosed : BeginsClosed (b.closer :: rest) := beginsClosed_closer b rest
  refine .inr ⟨j, dangling_joint hbl hbl' ?_ ?_ (.inr ?_)⟩
  · refine j.seam_left fun hor => (hbl.endsOpen_append fun hnil => ?_).seam _
    exact absurd hnil (hj hor)
  · exact (hbl'.beginsClosed_append fun _ => hclosed).seam _
  · rw [lexemes_cons_closer]
    exact lacksRight_closing j b _

theorem findsDamage_doubleAnd : doubleAnd.FindsDamage := by
  intro u w out rest h
  obtain ⟨bl, hbl, rfl, -⟩ := exists_of_doubleAnd h
  have hcut : u ++ '&' :: (bl ++ '&' :: rest)
      = (u ++ ['&']) ++ (bl ++ Joint.and.lexeme.text ++ [] ++ rest) := by
    simp [Joint.lexeme, Lexeme.text]
  rw [hcut]
  refine .inr ⟨.and, dangling_joint hbl blanks_nil ?_ ?_ (.inl ?_)⟩
  · exact Seam.of_head (by decide) []
  · exact Seam.of_last (by decide) [] _
  · rw [lexemes_append (Seam.of_head (by decide) []), lexemes_cons_and, lexemes_nil]
    exact lacksLeft_joint .and _

theorem findsDamage_doubleOr : doubleOr.FindsDamage := by
  intro u w out rest h
  obtain ⟨lead, bl, trail, hlead, hbl, htrail, hne, rfl, -, hstart, hend⟩ := exists_of_doubleOr h
  -- both are words of their own: blanks or an end of the text stand outside, blanks between
  have hopen : EndsOpen (u ++ lead) := hlead.endsOpen_append fun hnil => by
    rw [List.isEmpty_iff.1 (hstart hnil)]
    exact endsOpen_nil
  have hclosed : BeginsClosed (trail ++ rest) := htrail.beginsClosed_append fun hnil => by
    rw [hend hnil]
    exact beginsClosed_nil
  have hcut : u ++ (lead ++ ['o', 'r'] ++ (bl ++ ['o', 'r'] ++ (trail ++ rest)))
      = (u ++ lead ++ ['o', 'r']) ++ (bl ++ Joint.or.lexeme.text ++ [] ++ (trail ++ rest)) := by
    simp [Joint.lexeme, Lexeme.text]
  rw [hcut]
  refine .inr ⟨.or, dangling_joint hbl blanks_nil ?_ (hclosed.seam _) (.inl ?_)⟩
  · exact (hbl.endsOpen_append fun hnil => absurd hnil hne).seam _
  · have hor : lexemes ['o', 'r'] = [.or] := Joint.or.lexemes_text
    rw [lexemes_append (hopen.seam _), hor]
    exact lacksLeft_joint .or _

theorem findsDamage_operatorAtStart : operatorAtStart.FindsDamage := by
  intro u w out rest h
  obtain ⟨bl, j, bl', hbl, hbl', hstart, rfl, -, hj⟩ := exists_of_operatorAtStart h
  obtain rfl : u = [] := List.isEmpty_iff.1 hstart
  refine .inr ⟨j, dangling_joint hbl hbl' ?_ ?_ (.inl ?_)⟩
  · exact (hbl.endsOpen_append fun _ => endsOpen_nil).seam _
  · refine j.seam_right fun hor => (hbl'.beginsClosed_append fun hnil => ?_).seam _
    rw [hj hor hnil]
    exact beginsClosed_nil
  · rw [lexemes_nil]
    exact lacksLeft_nil j

theorem findsDamage_operatorAtEnd : operatorAtEnd.FindsDamage := by
  intro u w out rest h
  obtain ⟨bl, j, bl', hbl, hbl', rfl, -, -, hj⟩ := exists_of_operatorAtEnd h
  rw [← List.append_nil (bl ++ j.lexeme.text ++ bl')]
  refine .inr ⟨j, dangling_joint hbl hbl' ?_ ?_ (.inr ?_)⟩
  · refine j.seam_left fun hor => (hbl.endsOpen_append fun hnil => ?_).seam _
    rw [List.isEmpty_iff.1 (hj hor hnil)]
    exact endsOpen_nil
  · exact (hbl'.beginsClosed_append fun _ => beginsClosed_nil).seam _
  · rw [lexemes_nil]
    exact lacksRight_nil j

/-- **A repair finds empty brackets or a dangling operator.** -/
theorem findsDamage_of_mem_all : ∀ r ∈ all, r.FindsDamage := by
  simp only [all, List.forall_mem_cons, List.not_mem_nil, false_implies, implies_true, and_true]
  exact ⟨findsDamage_emptyGroup, findsDamage_operatorAfterOpener,
    findsDamage_operatorBeforeCloser, findsDamage_doubleAnd, findsDamage_doubleOr,
    findsDamage_operatorAtStart, findsDamage_operatorAtEnd⟩

end Repair

/-! ### What no repair finds -/

/-- A text whose first token is an operator. -/
theorem exists_of_lexemes_cons_joint {j : Joint} {v : Text} {q : List Lexeme}
    (h : lexemes v = j.lexeme :: q) :
    ∃ y z, v = y ++ (j.lexeme.text ++ z) ∧ Blanks y ∧ Seam j.lexeme.text z := by
  obtain ⟨y, z, hv, hy, hseam, -⟩ := exists_of_lexemes_cons h
  exact ⟨y, z, hv, hy, hseam⟩

/-- A text whose last token is an operator. -/
theorem exists_of_lexemes_concat_joint {j : Joint} {u : Text} {p : List Lexeme}
    (h : lexemes u = p ++ [j.lexeme]) :
    ∃ x y, u = x ++ (j.lexeme.text ++ y) ∧ Seam x j.lexeme.text ∧ Blanks y := by
  obtain ⟨x, y, hu, hseam, -, -, hy⟩ := exists_of_lexemes_append_cons h
  exact ⟨x, y, hu, hseam, blanks_of_lexemes_eq_nil hy⟩

/-- Two words meet only over blanks. -/
theorem blanks_ne_nil_of_seam {y z : Text} (h : Seam ['o', 'r'] (y ++ (['o', 'r'] ++ z))) :
    y ≠ [] := by
  rintro rfl
  exact h 'r' rfl 'o' rfl (by decide)

/-- A text begins with a blank or with something else. -/
theorem startsBlank_or_head {v : Text} (hne : v ≠ []) :
    v.startsBlank = true ∨ ∃ c ∈ v.head?, isBlank c = false := by
  obtain ⟨c, v, rfl⟩ := List.exists_cons_of_ne_nil hne
  by_cases hc : isBlank c = true
  · exact .inl hc
  · exact .inr ⟨c, rfl, by simpa using hc⟩

/-- It ends with a blank or with something else. -/
theorem getLast_blank_or {u : Text} (hne : u ≠ []) :
    (∃ u' c, u = u' ++ [c] ∧ isBlank c = true) ∨ ∃ c ∈ u.getLast?, isBlank c = false := by
  rcases List.eq_nil_or_concat' u with rfl | ⟨u', c, rfl⟩
  · exact absurd rfl hne
  by_cases hc : isBlank c = true
  · exact .inl ⟨u', c, rfl, hc⟩
  · exact .inr ⟨c, List.getLast?_concat, by simpa using hc⟩

namespace Settled

variable {t u v : Text} {j : Joint}

/-- In a settled text no empty pair of parentheses or square brackets is left. -/
theorem not_hasEmpty (hs : Settled t) {b : Bracket} (hb : b ≠ .curly) :
    ¬HasEmpty b (lexemes t) := by
  rintro ⟨p, q, hls⟩
  obtain ⟨u, w, ht, -, -, -, hw⟩ := exists_of_lexemes_append_cons hls
  obtain ⟨bl, v, rfl, hbl, -, -⟩ := exists_of_lexemes_cons hw
  exact hs.no_emptyGroup hb hbl ht

/-- Where an operator with a blank behind it has no operand before it, this is an `or` that
follows another, and no blank is before that. -/
theorem of_lacksLeft (hs : Settled t) (ht : t = u ++ (j.lexeme.text ++ v))
    (hseam : Seam u j.lexeme.text) (hv : j = .or → v.startsBlank = true)
    (h : LacksLeft j (lexemes u)) :
    j = .or ∧ ∃ x y, u = x ++ (['o', 'r'] ++ y) ∧ Seam x ['o', 'r'] ∧ Blanks y ∧ y ≠ [] ∧
      ∃ c ∈ x.getLast?, isBlank c = false := by
  rcases h.cases with hnil | ⟨p, b, hp⟩ | ⟨p, hp⟩
  · -- the operator is the first token
    exact (hs.no_joint_at_start (blanks_of_lexemes_eq_nil hnil) (fun hor => .inr (hv hor)) ht).elim
  · obtain ⟨x, y, rfl, -, -, -, hy⟩ := exists_of_lexemes_append_cons hp
    have ht : t = x ++ b.opener :: (y ++ (j.lexeme.text ++ v)) := by
      rw [ht]
      simp [Lexeme.text]
    exact (hs.no_joint_behind_opener (blanks_of_lexemes_eq_nil hy) hv ht).elim
  · -- two `&` are repaired whatever stands around them, two `or` only where blanks do
    obtain ⟨x, y, rfl, hx, hy⟩ := exists_of_lexemes_concat_joint hp
    cases j with
    | and =>
      have ht : t = x ++ '&' :: (y ++ '&' :: v) := by
        rw [ht]
        simp [Joint.lexeme, Lexeme.text]
      exact (hs.no_doubleAnd hy ht).elim
    | or =>
      have ht : t = x ++ (['o', 'r'] ++ (y ++ (['o', 'r'] ++ v))) := by
        rw [ht]
        simp [Joint.lexeme, Lexeme.text]
      have hne : y ≠ [] := by
        rintro rfl
        exact hseam 'r' (by simp [Joint.lexeme, Lexeme.text]) 'o' rfl (by decide)
      have hdouble : ∀ _ : x = [] ∨ ∃ x' c, x = x' ++ [c] ∧ isBlank c = true, False :=
        fun hx => hs.no_doubleOr hy hne (.inr (hv rfl)) hx ht
      have hxne : x ≠ [] := fun hnil => hdouble (.inl hnil)
      have htight := (getLast_blank_or hxne).resolve_left fun hblank => hdouble (.inr hblank)
      exact ⟨rfl, x, y, rfl, hx, hy, hne, htight⟩

/-- Where an operator with a blank before it has no operand behind it, this is an `or` before
another, and no blank is behind that. -/
theorem of_lacksRight (hs : Settled t) {bl : Text} (hbl : Blanks bl)
    (ht : t = u ++ (bl ++ (j.lexeme.text ++ v))) (hseam : Seam j.lexeme.text v)
    (hu : j = .or → bl ≠ []) (h : LacksRight j (lexemes v)) :
    j = .or ∧ ∃ y z, v = y ++ (['o', 'r'] ++ z) ∧ Blanks y ∧ y ≠ [] ∧ Seam ['o', 'r'] z ∧
      ∃ c ∈ z.head?, isBlank c = false := by
  rcases h.cases with hnil | ⟨b, q, hq⟩ | ⟨q, hq⟩
  · exact (hs.no_joint_at_end hbl (blanks_of_lexemes_eq_nil hnil) (fun hor => .inl (hu hor))
      ht).elim
  · obtain ⟨y, z, rfl, hy, -, -⟩ := exists_of_lexemes_cons hq
    exact (hs.no_joint_before_closer hbl hy hu ht).elim
  · obtain ⟨y, z, rfl, hy, hz⟩ := exists_of_lexemes_cons_joint hq
    cases j with
    | and =>
      have ht : t = (u ++ bl) ++ '&' :: (y ++ '&' :: z) := by
        rw [ht]
        simp [Joint.lexeme, Lexeme.text]
      exact (hs.no_doubleAnd hy ht).elim
    | or =>
      have ht : t = (u ++ bl) ++ (['o', 'r'] ++ (y ++ (['o', 'r'] ++ z))) := by
        rw [ht]
        simp [Joint.lexeme, Lexeme.text]
      have hne : y ≠ [] := blanks_ne_nil_of_seam hseam
      have hlast : ∃ u' c, u ++ bl = u' ++ [c] ∧ isBlank c = true := by
        rcases List.eq_nil_or_concat' bl with hnil | ⟨bl', c, rfl⟩
        · exact absurd hnil (hu rfl)
        · exact ⟨u ++ bl', c, (List.append_assoc _ _ _).symm, hbl c (by simp)⟩
      have hdouble : ∀ _ : z = [] ∨ z.startsBlank = true, False :=
        fun hz => hs.no_doubleOr hy hne hz (.inr hlast) ht
      have hzne : z ≠ [] := fun hnil => hdouble (.inl hnil)
      have htight := (startsBlank_or_head hzne).resolve_left fun hblank => hdouble (.inr hblank)
      exact ⟨rfl, y, z, rfl, hy, hne, hz, htight⟩

/-- No `&` dangles in a settled text. -/
theorem not_dangling_and (hs : Settled t) : ¬Dangling .and (lexemes t) := by
  rintro ⟨p, q, hls, hlacks⟩
  obtain ⟨u, v, ht, hu, hv, rfl, rfl⟩ := exists_of_lexemes_append_cons hls
  rcases hlacks with hleft | hright
  · exact nomatch (hs.of_lacksLeft (j := .and) ht hu (fun h => nomatch h) hleft).1
  · exact nomatch (hs.of_lacksRight (j := .and) blanks_nil ht hv (fun h => nomatch h) hright).1

/-- An `or` without an operand before it is stuck, or the `or` before it is. -/
theorem stuckOr_of_lacksLeft (hs : Settled t) (ht : t = u ++ (['o', 'r'] ++ v))
    (hu : Seam u ['o', 'r']) (hv : Seam ['o', 'r'] v) (h : LacksLeft .or (lexemes u)) :
    StuckOr t := by
  rcases eq_or_ne v [] with rfl | hne
  · -- at the end of the text the `or` is known by a blank before it
    have hune : u ≠ [] := by
      rintro rfl
      exact hs.no_joint_at_start (j := .or) blanks_nil (fun _ => .inl rfl) ht
    rcases getLast_blank_or hune with ⟨u', c, rfl, hc⟩ | htight
    · have ht : t = u' ++ ([c] ++ (['o', 'r'] ++ [])) := by
        rw [ht]
        simp
      exact (hs.no_joint_at_end (j := .or) (by simpa [Blanks] using hc) blanks_nil (by simp)
        ht).elim
    · exact ⟨u, [], ht, hu, hv, .inr ⟨by rw [lexemes_nil]; exact lacksRight_nil .or, htight⟩⟩
  · rcases startsBlank_or_head hne with hblank | htight
    · obtain ⟨-, x, y, rfl, hx, hy, hyne, htight⟩ :=
        hs.of_lacksLeft (j := .or) ht hu (fun _ => hblank) h
      have hseam : Seam ['o', 'r'] (y ++ (['o', 'r'] ++ v)) :=
        (hy.beginsClosed_append fun hnil => absurd hnil hyne).seam _
      refine ⟨x, y ++ (['o', 'r'] ++ v), by rw [ht]; simp, hx, hseam, .inr ⟨?_, htight⟩⟩
      rw [lexemes_blanks_append hy, lexemes_or_append hv]
      exact lacksRight_joint .or _
    · exact ⟨u, v, ht, hu, hv, .inl ⟨h, htight⟩⟩

/-- An `or` without an operand behind it is stuck, or the `or` behind it is. -/
theorem stuckOr_of_lacksRight (hs : Settled t) (ht : t = u ++ (['o', 'r'] ++ v))
    (hu : Seam u ['o', 'r']) (hv : Seam ['o', 'r'] v) (h : LacksRight .or (lexemes v)) :
    StuckOr t := by
  rcases eq_or_ne u [] with rfl | hne
  · -- at the start of the text the `or` is known by a blank behind it
    have hend : ∀ _ : v = [] ∨ v.startsBlank = true, False := fun hblank =>
      hs.no_joint_at_start (j := .or) blanks_nil (fun _ => hblank) ht
    have hvne : v ≠ [] := fun hnil => hend (.inl hnil)
    have htight := (startsBlank_or_head hvne).resolve_left fun hblank => hend (.inr hblank)
    exact ⟨[], v, ht, hu, hv, .inl ⟨by rw [lexemes_nil]; exact lacksLeft_nil .or, htight⟩⟩
  · rcases getLast_blank_or hne with ⟨u', c, rfl, hc⟩ | htight
    · have hcut : t = u' ++ ([c] ++ (['o', 'r'] ++ v)) := by
        rw [ht]
        simp
      obtain ⟨-, y, z, rfl, hy, hyne, hz, htight⟩ :=
        hs.of_lacksRight (j := .or) (by simpa [Blanks] using hc) hcut hv (by simp) h
      have hopen : EndsOpen y := by
        simpa using hy.endsOpen_append (s := []) fun _ => endsOpen_nil
      have hseam : Seam (u' ++ [c] ++ (['o', 'r'] ++ y)) ['o', 'r'] := by
        rw [← List.append_assoc]
        exact (hopen.seam _).append_left hyne
      refine ⟨u' ++ [c] ++ (['o', 'r'] ++ y), z, by rw [ht]; simp, hseam, hz, .inl ⟨?_, htight⟩⟩
      have hor : lexemes (['o', 'r'] ++ y) = [.or] := by
        rw [lexemes_append_blanks hy]
        exact Joint.or.lexemes_text
      have hcut : Seam (u' ++ [c]) (['o', 'r'] ++ y) := hu.congr_head rfl
      rw [lexemes_append hcut, hor]
      exact lacksLeft_joint .or _
    · exact ⟨u, v, ht, hu, hv, .inr ⟨h, htight⟩⟩

/-- **Where an `or` dangles in a settled text, it is stuck.** -/
theorem dangling_or_iff (hs : Settled t) : Dangling .or (lexemes t) ↔ StuckOr t := by
  constructor
  · rintro ⟨p, q, hls, hlacks⟩
    obtain ⟨u, v, ht, hu, hv, rfl, rfl⟩ := exists_of_lexemes_append_cons hls
    rcases hlacks with hleft | hright
    · exact hs.stuckOr_of_lacksLeft ht hu hv hleft
    · exact hs.stuckOr_of_lacksRight ht hu hv hright
  · rintro ⟨u, v, rfl, hu, hv, hlacks⟩
    have hcut : Seam u (['o', 'r'] ++ v) := hu.congr_head rfl
    refine ⟨lexemes u, lexemes v, ?_, hlacks.imp And.left And.left⟩
    rw [lexemes_append hcut, lexemes_or_append hv]
    rfl

end Settled

/-- **What cleanup leaves.**  Whatever text it starts from, cleanup ends with one in which blanks
are single spaces between other characters, no pair of parentheses or square brackets is empty,
and no `&` is first or last, next to its like, behind an opener or before a closer.  An `or` is
left in such a place exactly if, on the side away from the missing operand, it stands right
against a bracket or `&`. -/
theorem dangling_cleanup_iff (t : Text) :
    Tidied (cleanup t) ∧
      ¬HasEmpty .round (lexemes (cleanup t)) ∧ ¬HasEmpty .square (lexemes (cleanup t)) ∧
      ¬Dangling .and (lexemes (cleanup t)) ∧
      (Dangling .or (lexemes (cleanup t)) ↔ StuckOr (cleanup t)) := by
  have hs := settled_cleanup t
  exact ⟨tidied_cleanup t, hs.not_hasEmpty (by decide), hs.not_hasEmpty (by decide),
    hs.not_dangling_and, hs.dangling_or_iff⟩

/-- An `or` that fills a pair of brackets. -/
def bareOr : Text := "[or] & X+".toList

theorem dangling_bareOr :
    cleanup bareOr = bareOr ∧ Dangling .or (lexemes (cleanup bareOr)) := by
  have hclean : cleanup bareOr = bareOr := by decide +kernel
  have htokens : lexemes bareOr
      = [.opening .square] ++ .or :: [.closing .square, .and, .name ['X', '+']] := by
    decide +kernel
  refine ⟨hclean, ?_⟩
  rw [hclean, htokens]
  exact ⟨_, _, rfl, .inl (lacksLeft_opening .or [] .square)⟩

end LinkGrammar.Formula
