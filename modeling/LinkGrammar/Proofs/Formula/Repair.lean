/-
LinkGrammar/Proofs/Formula/Repair.lean

What each repair finds and what it leaves.

For every repair one statement says which text it replaces, and one that it mends a
mendable text.  A sweep goes on behind each place it replaced, so the statements speak of
a text with `pre` before the place, where the sweep has been already.

Main results: `cleanup` mends a mendable text (`Mendable.mends_cleanup`), so the text stays
mendable and stands for the same formula (`Mendable.cleanup`).
-/
import LinkGrammar.Proofs.Formula.Mending

namespace LinkGrammar.Formula

/-! ### Operators in a text -/

/-- The tokens of a text with an operator in it, and blanks around the operator. -/
theorem lexemes_joint {j : Joint} {x bl bl' y : Text} (hbl : Blanks bl) (hbl' : Blanks bl')
    (hleft : Seam (x ++ bl) j.lexeme.text) (hright : Seam j.lexeme.text (bl' ++ y)) :
    lexemes (x ++ (bl ++ j.lexeme.text ++ bl' ++ y)) = lexemes x ++ ([j.lexeme] ++ lexemes y) := by
  have hne : j.lexeme.text ≠ [] := by cases j <;> decide
  have hseam : Seam (x ++ bl) (j.lexeme.text ++ (bl' ++ y)) := by
    obtain ⟨c, u, e⟩ := List.exists_cons_of_ne_nil hne
    rw [e] at hleft ⊢
    exact hleft.congr_head rfl
  calc lexemes (x ++ (bl ++ j.lexeme.text ++ bl' ++ y))
      = lexemes ((x ++ bl) ++ (j.lexeme.text ++ (bl' ++ y))) := by simp only [List.append_assoc]
    _ = lexemes x ++ ([j.lexeme] ++ lexemes y) := by
      rw [lexemes_append hseam, lexemes_append_blanks hbl, Joint.lexemes_text_append hright,
        lexemes_blanks_append hbl']
      rfl

/-- What was found is an operator with the blanks behind it. -/
theorem exists_of_afterOperator? {t rest : Text} (h : afterOperator? t = some rest) :
    ∃ (j : Joint) (bl : Text), Blanks bl ∧ t = j.lexeme.text ++ bl ++ rest ∧
      (j = .or → bl ≠ []) := by
  unfold afterOperator? at h
  split at h
  · next t =>
    cases h
    obtain ⟨bl, hbl, ht⟩ := exists_blanks_append_skipBlanks t
    exact ⟨.and, bl, hbl, congrArg ('&' :: ·) ht, by simp⟩
  · next c t =>
    split at h
    · next hc =>
      cases h
      obtain ⟨bl, hbl, ht⟩ := exists_blanks_append_skipBlanks t
      refine ⟨.or, c :: bl, blanks_cons.2 ⟨hc, hbl⟩, ?_, by simp⟩
      exact congrArg (fun u => 'o' :: 'r' :: c :: u) ht
    · cases h
  · cases h

/-- What was found is an operator with the blanks around it. -/
theorem exists_of_afterBlankOperator? {atStart : Bool} {t rest : Text}
    (h : afterBlankOperator? atStart t = some rest) :
    ∃ (bl : Text) (j : Joint) (bl' : Text), Blanks bl ∧ Blanks bl' ∧
      t = bl ++ j.lexeme.text ++ bl' ++ rest ∧ (j = .or → bl ≠ [] ∨ atStart = true) := by
  obtain ⟨bl, hbl, ht⟩ := exists_blanks_append_skipBlanks t
  unfold afterBlankOperator? at h
  split at h
  · next u e =>
    cases h
    obtain ⟨bl', hbl', hu⟩ := exists_blanks_append_skipBlanks u
    refine ⟨bl, .and, bl', hbl, hbl', ?_, by simp⟩
    rw [e] at ht
    rw [List.append_assoc, List.append_assoc, ← hu]
    exact ht
  · next u e =>
    split at h
    · next hstart =>
      cases h
      obtain ⟨bl', hbl', hu⟩ := exists_blanks_append_skipBlanks u
      rw [e] at ht
      refine ⟨bl, .or, bl', hbl, hbl', ?_, fun _ => ?_⟩
      · rw [List.append_assoc, List.append_assoc, ← hu]
        exact ht
      · rcases Bool.or_eq_true_iff.1 hstart with h | h
        · exact .inr h
        · refine .inl ?_
          rintro rfl
          rw [ht] at h
          have ho : isBlank 'o' = true := h
          exact absurd ho (by decide)
    · cases h
  · cases h

/-- What was found is `or` twice, with blanks between. -/
theorem exists_of_afterDoubleOr? {t out rest : Text} (h : afterDoubleOr? t = some (out, rest)) :
    ∃ bl, Blanks bl ∧ bl ≠ [] ∧ t = ['o', 'r'] ++ bl ++ ['o', 'r'] ++ out ++ rest ∧ Blanks out ∧
      (out = [] → rest = []) := by
  unfold afterDoubleOr? at h
  split at h
  · next c t =>
    obtain ⟨bl, hbl, ht⟩ := exists_blanks_append_skipBlanks t
    split at h
    · next hc =>
      split at h
      · next e =>
        cases h
        rw [e] at ht
        refine ⟨c :: bl, blanks_cons.2 ⟨hc, hbl⟩, by simp, ?_, blanks_nil, fun _ => rfl⟩
        simpa using ht
      · next d u e =>
        split at h
        · next hd =>
          cases h
          rw [e] at ht
          have hout : Blanks [d] := by simpa [Blanks] using hd
          refine ⟨c :: bl, blanks_cons.2 ⟨hc, hbl⟩, by simp, ?_, hout, by simp⟩
          simpa using ht
        · cases h
      · cases h
    · cases h
  · cases h

/-! ### The single repairs -/

namespace Repair

/-- The repair mends mendable texts. -/
def Keeps (r : Repair) : Prop :=
  ∀ {pre t out rest : Text} {atStart : Bool} {f : Option Formula}, (atStart = true → pre = []) →
    r.fire? atStart t = some (out, rest) → Mendable (pre ++ t) f →
      Mends (pre ++ t) (pre ++ (out ++ rest))

/-- Where `emptyGroup` fires stands a pair of brackets with at most blanks between. -/
theorem exists_of_emptyGroup {atStart : Bool} {t out rest : Text}
    (h : emptyGroup.fire? atStart t = some (out, rest)) :
    ∃ (b : Bracket) (bl : Text), Blanks bl ∧ t = (b.opener :: bl ++ [b.closer]) ++ rest ∧
      out = [] := by
  simp only [emptyGroup] at h
  split at h
  · next t =>
    obtain ⟨bl, hbl, ht⟩ := exists_blanks_append_skipBlanks t
    split at h
    · next e =>
      cases h
      rw [e] at ht
      exact ⟨.round, bl, hbl, by simpa [Bracket.opener, Bracket.closer] using ht, rfl⟩
    · cases h
  · next t =>
    obtain ⟨bl, hbl, ht⟩ := exists_blanks_append_skipBlanks t
    split at h
    · next e =>
      cases h
      rw [e] at ht
      exact ⟨.square, bl, hbl, by simpa [Bracket.opener, Bracket.closer] using ht, rfl⟩
    · cases h
  · cases h

/-- A pair of brackets with nothing between stands for nothing. -/
theorem keeps_emptyGroup : emptyGroup.Keeps := by
  intro pre t out rest atStart f _ hfire h
  obtain ⟨b, bl, hbl, rfl, rfl⟩ := exists_of_emptyGroup hfire
  exact h.drop_empty hbl

/-- Where `operatorAfterOpener` fires stands an opener with an operator behind it. -/
theorem exists_of_operatorAfterOpener {atStart : Bool} {t out rest : Text}
    (h : operatorAfterOpener.fire? atStart t = some (out, rest)) :
    ∃ (b : Bracket) (bl : Text) (j : Joint) (bl' : Text), Blanks bl ∧ Blanks bl' ∧
      t = b.opener :: (bl ++ j.lexeme.text ++ bl' ++ rest) ∧ out = [b.opener] ∧
      (j = .or → bl' ≠ []) := by
  simp only [operatorAfterOpener] at h
  split at h
  · next c t =>
    split at h
    · next hc =>
      obtain ⟨rest', hrest, he⟩ := Option.map_eq_some_iff.1 h
      obtain ⟨rfl, rfl⟩ := Prod.mk.inj he
      obtain ⟨b, rfl⟩ := isOpener_iff.1 hc
      obtain ⟨bl, hbl, ht⟩ := exists_blanks_append_skipBlanks t
      obtain ⟨j, bl', hbl', hu, hj⟩ := exists_of_afterOperator? hrest
      refine ⟨b, bl, j, bl', hbl, hbl', ?_, rfl, hj⟩
      rw [ht, hu]
      simp
    · cases h
  · cases h

theorem keeps_operatorAfterOpener : operatorAfterOpener.Keeps := by
  intro pre t out rest atStart f _ hfire h
  obtain ⟨b, bl, j, bl', hbl, hbl', rfl, rfl, hj⟩ := exists_of_operatorAfterOpener hfire
  have hopen : EndsOpen (pre ++ [b.opener]) := endsOpen_opener pre b
  -- the opener stays, so it belongs to what stands before the cut
  have hcut : ∀ u, pre ++ b.opener :: u = (pre ++ [b.opener]) ++ u := by simp
  rw [hcut] at h ⊢
  rw [← List.append_assoc pre [b.opener] rest]
  refine h.drop_joint (lexemes_joint hbl hbl' ?_ ?_) (hopen.seam rest) (hopen.spaced rest) ?_
  · exact (hbl.endsOpen_append fun _ => hopen).seam _
  · refine j.seam_right fun hor => (hbl'.beginsClosed_append fun hnil => ?_).seam _
    exact absurd hnil (hj hor)
  · intro a ha c _ hac
    rw [lexemes_append_opener, List.getLast?_append] at ha
    obtain rfl : .opening b = a := by simpa using ha
    cases hac.1

/-- Where `operatorBeforeCloser` fires stands an operator with a closer behind it. -/
theorem exists_of_operatorBeforeCloser {atStart : Bool} {t out rest : Text}
    (h : operatorBeforeCloser.fire? atStart t = some (out, rest)) :
    ∃ (b : Bracket) (bl : Text) (j : Joint) (bl' : Text), Blanks bl ∧ Blanks bl' ∧
      t = bl ++ j.lexeme.text ++ bl' ++ (b.closer :: rest) ∧ out = [b.closer] ∧
      (j = .or → bl ≠ []) := by
  simp only [operatorBeforeCloser] at h
  split at h
  · next c u hu =>
    split at h
    · next hc =>
      cases h
      obtain ⟨b, rfl⟩ := isCloser_iff.1 hc
      obtain ⟨bl, j, bl', hbl, hbl', ht, hj⟩ := exists_of_afterBlankOperator? hu
      exact ⟨b, bl, j, bl', hbl, hbl', ht, rfl, fun hor => (hj hor).resolve_right (by decide)⟩
    · cases h
  · cases h

theorem keeps_operatorBeforeCloser : operatorBeforeCloser.Keeps := by
  intro pre t out rest atStart f _ hfire h
  obtain ⟨b, bl, j, bl', hbl, hbl', rfl, rfl, hj⟩ := exists_of_operatorBeforeCloser hfire
  have hclosed : BeginsClosed (b.closer :: rest) := beginsClosed_closer b rest
  refine h.drop_joint (lexemes_joint hbl hbl' ?_ ?_) (hclosed.seam pre) (hclosed.spaced pre) ?_
  · refine j.seam_left fun hor => (hbl.endsOpen_append fun hnil => ?_).seam _
    exact absurd hnil (hj hor)
  · exact (hbl'.beginsClosed_append fun _ => hclosed).seam _
  · intro a _ c hc hac
    rw [lexemes_cons_closer] at hc
    obtain rfl : .closing b = c := by simpa using hc
    cases hac.2

theorem exists_of_doubleAnd {atStart : Bool} {t out rest : Text}
    (h : doubleAnd.fire? atStart t = some (out, rest)) :
    ∃ bl, Blanks bl ∧ t = '&' :: (bl ++ '&' :: rest) ∧ out = ['&'] := by
  simp only [doubleAnd] at h
  split at h
  · next t =>
    obtain ⟨bl, hbl, ht⟩ := exists_blanks_append_skipBlanks t
    split at h
    · next e =>
      cases h
      rw [e] at ht
      exact ⟨bl, hbl, congrArg ('&' :: ·) ht, rfl⟩
    · cases h
  · cases h

theorem keeps_doubleAnd : doubleAnd.Keeps := by
  intro pre t out rest atStart f _ hfire h
  obtain ⟨bl, hbl, rfl, rfl⟩ := exists_of_doubleAnd hfire
  have hclosed : BeginsClosed rest :=
    beginsClosed_of_isChain (s := pre ++ '&' :: bl) (by simpa using h.spaced) (.inr rfl)
  -- the first `&` stays and the second goes
  have hcut : pre ++ '&' :: (bl ++ '&' :: rest)
      = (pre ++ ['&']) ++ (bl ++ Joint.and.lexeme.text ++ [] ++ rest) := by
    simp [Joint.lexeme, Lexeme.text]
  rw [hcut] at h ⊢
  rw [← List.append_assoc pre ['&'] rest]
  refine h.drop_joint (lexemes_joint hbl blanks_nil ?_ ?_) (hclosed.seam _) (hclosed.spaced _) ?_
  · exact Seam.of_head (by decide) []
  · exact Seam.of_last (by decide) [] _
  · intro a ha c _ hac
    rw [lexemes_append (Seam.of_head (by decide) []), lexemes_cons_and, lexemes_nil,
      List.getLast?_append] at ha
    obtain rfl : .and = a := by simpa using ha
    cases hac.1

/-- Where `doubleOr` fires stands `or` twice; the blanks around them are kept. -/
theorem exists_of_doubleOr {atStart : Bool} {t out rest : Text}
    (h : doubleOr.fire? atStart t = some (out, rest)) :
    ∃ lead bl trail, Blanks lead ∧ Blanks bl ∧ Blanks trail ∧ bl ≠ [] ∧
      t = lead ++ ['o', 'r'] ++ (bl ++ ['o', 'r'] ++ (trail ++ rest)) ∧
      out = lead ++ ['o', 'r'] ++ trail ∧
      (lead = [] → atStart = true) ∧ (trail = [] → rest = []) := by
  simp only [doubleOr] at h
  split at h
  · next out' rest' e =>
    split at e
    · next hstart =>
      cases h
      obtain ⟨bl, hbl, hne, ht, hout, hend⟩ := exists_of_afterDoubleOr? e
      exact ⟨[], bl, out', blanks_nil, hbl, hout, hne, by simpa using ht, rfl, fun _ => hstart,
        hend⟩
    · cases e
  · next c t e =>
    split at h
    · next hc =>
      obtain ⟨⟨out', rest'⟩, hrest, he⟩ := Option.map_eq_some_iff.1 h
      obtain ⟨rfl, rfl⟩ := Prod.mk.inj he
      obtain ⟨bl, hbl, hne, ht, hout, hend⟩ := exists_of_afterDoubleOr? hrest
      exact ⟨[c], bl, out', by simpa [Blanks] using hc, hbl, hout, hne, by simpa using ht, rfl,
        by simp, hend⟩
    · cases h
  · cases h

theorem keeps_doubleOr : doubleOr.Keeps := by
  intro pre t out rest atStart f hpre hfire h
  obtain ⟨lead, bl, trail, hlead, hbl, htrail, hne, rfl, rfl, hstart, hend⟩ :=
    exists_of_doubleOr hfire
  have hopen : EndsOpen (pre ++ lead) := hlead.endsOpen_append fun hnil => by
    rw [hpre (hstart hnil)]; exact endsOpen_nil
  have hclosed : BeginsClosed (trail ++ rest) := htrail.beginsClosed_append fun hnil => by
    rw [hend hnil]; exact beginsClosed_nil
  -- the first `or` stays, behind a blank or the start, and the second goes
  have hcut : pre ++ (lead ++ ['o', 'r'] ++ (bl ++ ['o', 'r'] ++ (trail ++ rest)))
      = (pre ++ lead ++ ['o', 'r']) ++ (bl ++ Joint.or.lexeme.text ++ [] ++ (trail ++ rest)) := by
    simp [Joint.lexeme, Lexeme.text]
  have hout : pre ++ (lead ++ ['o', 'r'] ++ trail ++ rest)
      = (pre ++ lead ++ ['o', 'r']) ++ (trail ++ rest) := by
    simp
  rw [hcut] at h ⊢
  rw [hout]
  refine h.drop_joint (lexemes_joint hbl blanks_nil ?_ ?_) (hclosed.seam _) (hclosed.spaced _) ?_
  · exact (hbl.endsOpen_append fun hnil => absurd hnil hne).seam _
  · exact hclosed.seam _
  · intro a ha c _ hac
    have hor : lexemes ['o', 'r'] = [.or] := Joint.or.lexemes_text
    rw [lexemes_append (hopen.seam _), hor, List.getLast?_append] at ha
    obtain rfl : .or = a := by simpa using ha
    cases hac.1

/-- Where `operatorAtStart` fires an operator begins the text. -/
theorem exists_of_operatorAtStart {atStart : Bool} {t out rest : Text}
    (h : operatorAtStart.fire? atStart t = some (out, rest)) :
    ∃ (bl : Text) (j : Joint) (bl' : Text), Blanks bl ∧ Blanks bl' ∧ atStart = true ∧
      t = bl ++ j.lexeme.text ++ bl' ++ rest ∧ out = [] ∧
      (j = .or → bl' = [] → rest = []) := by
  obtain ⟨bl, hbl, ht⟩ := exists_blanks_append_skipBlanks t
  simp only [operatorAtStart] at h
  split at h
  · next hstart =>
    split at h
    · next e =>
      cases h
      rw [e] at ht
      refine ⟨bl, .or, [], hbl, blanks_nil, hstart, ?_, rfl, fun _ _ => rfl⟩
      rw [List.append_nil, List.append_nil]
      exact ht
    · obtain ⟨rest', hrest, he⟩ := Option.map_eq_some_iff.1 h
      obtain ⟨rfl, rfl⟩ := Prod.mk.inj he
      obtain ⟨j, bl', hbl', hu, hj⟩ := exists_of_afterOperator? hrest
      refine ⟨bl, j, bl', hbl, hbl', hstart, ?_, rfl, fun hor hnil => absurd hnil (hj hor)⟩
      rw [ht, hu]
      simp
  · cases h

theorem keeps_operatorAtStart : operatorAtStart.Keeps := by
  intro pre t out rest atStart f hpre hfire h
  obtain ⟨bl, j, bl', hbl, hbl', hstart, rfl, rfl, hj⟩ := exists_of_operatorAtStart hfire
  obtain rfl := hpre hstart
  refine h.drop_joint (lexemes_joint hbl hbl' ?_ ?_) (Seam.nil_left rest) (by simp) (by simp)
  · exact (hbl.endsOpen_append fun _ => endsOpen_nil).seam _
  · refine j.seam_right fun hor => (hbl'.beginsClosed_append fun hnil => ?_).seam _
    rw [hj hor hnil]
    exact beginsClosed_nil

/-- Where `operatorAtEnd` fires an operator ends the text. -/
theorem exists_of_operatorAtEnd {atStart : Bool} {t out rest : Text}
    (h : operatorAtEnd.fire? atStart t = some (out, rest)) :
    ∃ (bl : Text) (j : Joint) (bl' : Text), Blanks bl ∧ Blanks bl' ∧
      t = bl ++ j.lexeme.text ++ bl' ∧ out = [] ∧ rest = [] ∧
      (j = .or → bl = [] → atStart = true) := by
  simp only [operatorAtEnd] at h
  split at h
  · next e =>
    cases h
    obtain ⟨bl, j, bl', hbl, hbl', ht, hj⟩ := exists_of_afterBlankOperator? e
    exact ⟨bl, j, bl', hbl, hbl', by simpa using ht, rfl, rfl,
      fun hor hnil => (hj hor).resolve_left (by simp [hnil])⟩
  · cases h

theorem keeps_operatorAtEnd : operatorAtEnd.Keeps := by
  intro pre t out rest atStart f hpre hfire h
  obtain ⟨bl, j, bl', hbl, hbl', rfl, rfl, rfl, hj⟩ := exists_of_operatorAtEnd hfire
  rw [← List.append_nil (bl ++ j.lexeme.text ++ bl')] at h ⊢
  refine h.drop_joint (lexemes_joint hbl hbl' ?_ ?_) (Seam.nil_right pre) (by simp) (by simp)
  · refine j.seam_left fun hor => (hbl.endsOpen_append fun hnil => ?_).seam _
    rw [hpre (hj hor hnil)]
    exact endsOpen_nil
  · exact (hbl'.beginsClosed_append fun _ => beginsClosed_nil).seam _

/-- All repairs keep what a text stands for. -/
theorem keeps_of_mem_all : ∀ r ∈ all, r.Keeps := by
  simp only [all, List.forall_mem_cons, List.not_mem_nil, false_implies, implies_true, and_true]
  exact ⟨keeps_emptyGroup, keeps_operatorAfterOpener, keeps_operatorBeforeCloser, keeps_doubleAnd,
    keeps_doubleOr, keeps_operatorAtStart, keeps_operatorAtEnd⟩

/-- A repair puts nothing in that was not there. -/
theorem subset_of_fire? {r : Repair} (hr : r ∈ all) {t out rest : Text} {atStart : Bool}
    (h : r.fire? atStart t = some (out, rest)) : out ++ rest ⊆ t := by
  simp only [all, List.mem_cons, List.not_mem_nil, or_false] at hr
  intro c hc
  rcases hr with rfl | rfl | rfl | rfl | rfl | rfl | rfl
  · obtain ⟨b, bl, -, rfl, rfl⟩ := exists_of_emptyGroup h
    simp_all
  · obtain ⟨b, bl, j, bl', -, -, rfl, rfl, -⟩ := exists_of_operatorAfterOpener h
    simp at hc ⊢
    tauto
  · obtain ⟨b, bl, j, bl', -, -, rfl, rfl, -⟩ := exists_of_operatorBeforeCloser h
    simp at hc ⊢
    tauto
  · obtain ⟨bl, -, rfl, rfl⟩ := exists_of_doubleAnd h
    simp at hc ⊢
    tauto
  · obtain ⟨lead, bl, trail, -, -, -, -, rfl, rfl, -, -⟩ := exists_of_doubleOr h
    simp at hc ⊢
    tauto
  · obtain ⟨bl, j, bl', -, -, -, rfl, rfl, -⟩ := exists_of_operatorAtStart h
    simp_all
  · obtain ⟨bl, j, bl', -, -, rfl, rfl, rfl, -⟩ := exists_of_operatorAtEnd h
    simp_all

theorem sweep_subset {r : Repair} (hr : r ∈ all) (atStart : Bool) (t : Text) :
    r.sweep atStart t ⊆ t := by
  fun_induction Repair.sweep r atStart t with
  | case1 => exact List.Subset.refl _
  | case2 atStart c t out rest hfire _ ih =>
    obtain ⟨hout, hrest⟩ := List.append_subset.1 (subset_of_fire? hr hfire)
    exact List.append_subset.2 ⟨hout, List.Subset.trans ih hrest⟩
  | case3 atStart c t hfire ih => exact List.cons_subset_cons c ih

/-- A sweep that comes to `t` with `pre` behind it. -/
theorem Keeps.sweep {r : Repair} (hr : r.Keeps) {atStart : Bool} {pre t : Text}
    {f : Option Formula} (hpre : atStart = true → pre = []) (h : Mendable (pre ++ t) f) :
    Mends (pre ++ t) (pre ++ r.sweep atStart t) := by
  fun_induction Repair.sweep r atStart t generalizing pre with
  | case1 => exact .refl h
  | case2 atStart c t out rest hfire _ ih =>
    -- what the repair put in its place is behind the sweep now
    have hnext := hr hpre hfire h
    have hmended := hnext.mendable h
    rw [← List.append_assoc] at hnext hmended
    rw [← List.append_assoc pre out]
    exact hnext.trans (ih (by simp) hmended)
  | case3 atStart c t hfire ih =>
    have hcons : ∀ u, pre ++ c :: u = (pre ++ [c]) ++ u := by simp
    rw [hcons] at h
    rw [hcons t, hcons (r.sweep false t)]
    exact ih (by simp) h

end Repair

/-! ### Cleanup -/

theorem foldl_sweep_subset {rs : List Repair} (hrs : rs ⊆ Repair.all) (t : Text) :
    rs.foldl (fun t r => r.sweep true t) t ⊆ t := by
  induction rs generalizing t with
  | nil => exact List.Subset.refl t
  | cons r rs ih =>
    obtain ⟨hr, hrs⟩ := List.cons_subset.1 hrs
    exact List.Subset.trans (ih hrs _) (Repair.sweep_subset hr true t)

/-- Squeezing adds no character but spaces. -/
theorem mem_of_mem_squeezeAfter {b : Bool} {t : Text} {c : Char} (h : c ∈ Text.squeezeAfter b t) :
    c ∈ t ∨ c = ' ' := by
  induction t generalizing b with
  | nil => cases h
  | cons d t ih =>
    rw [Text.squeezeAfter] at h
    split at h
    · split at h
      · exact (ih h).imp_left (List.mem_cons_of_mem d)
      · rcases List.mem_cons.1 h with rfl | h
        · exact .inr rfl
        · exact (ih h).imp_left (List.mem_cons_of_mem d)
    · rcases List.mem_cons.1 h with rfl | h
      · exact .inl (by simp)
      · exact (ih h).imp_left (List.mem_cons_of_mem d)

theorem mem_of_mem_tidy {t : Text} {c : Char} (h : c ∈ tidy t) : c ∈ t ∨ c = ' ' := by
  obtain ⟨bl, bl', -, -, ht⟩ := trim_infix t
  refine (mem_of_mem_squeezeAfter h).imp_left fun hc => ?_
  rw [ht]
  simp [hc]

/-- Cleanup puts nothing in but spaces. -/
theorem mem_of_mem_cleanup {t : Text} {c : Char} (h : c ∈ cleanup t) : c ∈ t ∨ c = ' ' := by
  have hround : ∀ {u : Text}, c ∈ repeatCleanup u → c ∈ u ∨ c = ' ' := by
    intro u hu
    fun_induction repeatCleanup u with
    | case1 u next hlt ih =>
      rcases ih hu with hnext | hspace
      · exact (mem_of_mem_tidy hnext).imp_left fun hc =>
          foldl_sweep_subset (List.Subset.refl _) u hc
      · exact .inr hspace
    | case2 => exact .inl hu
  rcases hround h with hc | hspace
  · exact mem_of_mem_tidy hc
  · exact .inr hspace

namespace Mendable

variable {t : Text} {f : Option Formula}

/-- Several repairs, one after the other. -/
theorem mends_foldl_sweep {rs : List Repair} (hrs : ∀ r ∈ rs, r.Keeps) (h : Mendable t f) :
    Mends t (rs.foldl (fun t r => r.sweep true t) t) := by
  induction rs generalizing t with
  | nil => exact .refl h
  | cons r rs ih =>
    obtain ⟨hr, hrs⟩ := List.forall_mem_cons.1 hrs
    have hsweep : Mends t (r.sweep true t) :=
      hr.sweep (fun _ => rfl) (show Mendable ([] ++ t) f from h)
    exact hsweep.trans (ih hrs (hsweep.mendable h))

theorem mends_cleanupRound (h : Mendable t f) : Mends t (Formula.cleanupRound t) := by
  have hsweeps := h.mends_foldl_sweep Repair.keeps_of_mem_all
  exact hsweeps.trans (hsweeps.mendable h).tidy

theorem mends_repeatCleanup (h : Mendable t f) : Mends t (Formula.repeatCleanup t) := by
  fun_induction Formula.repeatCleanup t with
  | case1 t next hlt ih =>
    have hround := h.mends_cleanupRound
    exact hround.trans (ih (hround.mendable h))
  | case2 => exact .refl h

/-- Cleanup mends a mendable text. -/
theorem mends_cleanup (h : Mendable t f) : Mends t (Formula.cleanup t) :=
  h.tidy.trans (h.tidy.mendable h).mends_repeatCleanup

/-- A repaired text stands for what the text stood for. -/
theorem cleanup (h : Mendable t f) : Mendable (Formula.cleanup t) f :=
  h.mends_cleanup.mendable h

end Mendable

end LinkGrammar.Formula
