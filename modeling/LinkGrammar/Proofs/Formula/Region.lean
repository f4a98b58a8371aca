/-
LinkGrammar/Proofs/Formula/Region.lean

What cutting regions takes out of a text and what it leaves.

`outside b t` is what stands outside all regions of `t`, and `insides b t` lists what
stands inside them.  In a mendable text every region is closed, so cutting never fails;
and both the contents of a region and the text around it are mendable again.  What stands
outside the regions stands for the formula without its groups in these brackets
(`Mendable.withoutRegions`).
-/
import LinkGrammar.Formula.Region
import LinkGrammar.Proofs.Formula.Deletion
import LinkGrammar.Proofs.Formula.Mending
import LinkGrammar.Proofs.Text.Pieces

namespace LinkGrammar.Formula

/-! ### Brackets as characters -/

theorem Bracket.opener_ne_closer (b b' : Bracket) : b.opener ≠ b'.closer := by
  cases b <;> cases b' <;> decide

/-- Each kind of bracket has an opener of its own. -/
theorem Bracket.opener_inj {b b' : Bracket} (h : b.opener = b'.opener) : b = b' := by
  revert h
  cases b <;> cases b' <;> decide

/-! ### Scanning for the closer -/

section Scan

variable {opener closer : Char}

theorem untilCloser?_opener (depth : Nat) (t : Text) :
    untilCloser? opener closer depth (opener :: t)
      = (untilCloser? opener closer (depth + 1) t).map fun (s, r) => (opener :: s, r) := by
  rw [untilCloser?.eq_def]
  exact if_pos rfl

/-- With no level left the scan ends at the closer. -/
theorem untilCloser?_closer_zero (h : opener ≠ closer) (t : Text) :
    untilCloser? opener closer 0 (closer :: t) = some ([closer], t) := by
  rw [untilCloser?, if_neg h.symm, if_pos rfl]

theorem untilCloser?_closer_succ (h : opener ≠ closer) (depth : Nat) (t : Text) :
    untilCloser? opener closer (depth + 1) (closer :: t)
      = (untilCloser? opener closer depth t).map fun (s, r) => (closer :: s, r) := by
  rw [untilCloser?, if_neg h.symm, if_pos rfl]

theorem untilCloser?_of_ne {c : Char} (ho : c ≠ opener) (hc : c ≠ closer) (depth : Nat) (t : Text) :
    untilCloser? opener closer depth (c :: t)
      = (untilCloser? opener closer depth t).map fun (s, r) => (c :: s, r) := by
  rw [untilCloser?.eq_def]
  show (if c = opener then _ else if c = closer then _ else _) = _
  rw [if_neg ho, if_neg hc]

end Scan

/-- The scan for a closer runs over the text without noticing. -/
def Balanced (b : Bracket) (u : Text) : Prop :=
  ∀ depth t, untilCloser? b.opener b.closer depth (u ++ t)
    = (untilCloser? b.opener b.closer depth t).map fun (s, r) => (u ++ s, r)

namespace Balanced

variable {b : Bracket}

theorem nil : Balanced b [] := by
  intro depth t
  simp

theorem append {u v : Text} (hu : Balanced b u) (hv : Balanced b v) : Balanced b (u ++ v) := by
  intro depth t
  rw [List.append_assoc, hu, hv, Option.map_map]
  congr 1
  funext x
  simp

theorem of_not_mem {u : Text} (ho : b.opener ∉ u) (hc : b.closer ∉ u) : Balanced b u := by
  induction u with
  | nil => exact nil
  | cons c u ih =>
    have ih := ih (fun h => ho (.tail _ h)) fun h => hc (.tail _ h)
    have hco : c ≠ b.opener := fun h => ho (h ▸ .head _)
    have hcc : c ≠ b.closer := fun h => hc (h ▸ .head _)
    intro depth t
    rw [List.cons_append, untilCloser?_of_ne hco hcc, ih, Option.map_map]
    rfl

theorem bracket {u : Text} (hu : Balanced b u) : Balanced b (b.opener :: u ++ [b.closer]) := by
  intro depth t
  rw [List.append_assoc, List.cons_append, untilCloser?_opener, hu, List.singleton_append,
    untilCloser?_closer_succ (b.opener_ne_closer b), Option.map_map, Option.map_map]
  congr 1
  funext x
  simp

/-- A region is scanned up to its closer. -/
theorem untilCloser? {u : Text} (hu : Balanced b u) (t : Text) :
    untilCloser? b.opener b.closer 0 (u ++ b.closer :: t) = some (u ++ [b.closer], t) := by
  rw [hu, untilCloser?_closer_zero (b.opener_ne_closer b)]
  rfl

end Balanced

/-! ### Outside -/

/-- What stands outside, after `depth` openers without their closers. -/
def outsideFrom (opener closer : Char) : Nat → Text → Text
  | _, [] => []
  | 0, c :: t =>
    if c = opener then outsideFrom opener closer 1 t else c :: outsideFrom opener closer 0 t
  | depth + 1, c :: t =>
    if c = opener then outsideFrom opener closer (depth + 2) t
    else if c = closer then outsideFrom opener closer depth t
    else outsideFrom opener closer (depth + 1) t

/-- What stands outside all regions. -/
def outside (b : Bracket) (t : Text) : Text := outsideFrom b.opener b.closer 0 t

/-- What stands outside is part of the text. -/
theorem outsideFrom_subset (opener closer : Char) (depth : Nat) (t : Text) :
    outsideFrom opener closer depth t ⊆ t := by
  fun_induction outsideFrom opener closer depth t with
  | case1 => exact List.Subset.refl _
  | case3 c t hne ih => exact List.cons_subset_cons c ih
  | case2 _ ih | case4 _ _ ih | case5 _ _ _ ih | case6 _ _ _ _ _ ih =>
    exact List.subset_cons_of_subset _ ih

/-- What stands before the first opener is outside. -/
theorem outside_append_of_not_mem {b : Bracket} {u : Text} (hu : b.opener ∉ u) (t : Text) :
    outside b (u ++ t) = u ++ outside b t := by
  induction u with
  | nil => rfl
  | cons c u ih =>
    have hc : c ≠ b.opener := fun h => hu (h ▸ .head _)
    show outsideFrom _ _ 0 (c :: (u ++ t)) = _
    rw [outsideFrom, if_neg hc]
    exact congrArg (c :: ·) (ih fun h => hu (.tail _ h))

/-- Inside a region the text up to the closer is passed over. -/
theorem outsideFrom_of_untilCloser? {opener closer : Char} {depth : Nat} {t s r : Text}
    (h : untilCloser? opener closer depth t = some (s, r)) :
    outsideFrom opener closer (depth + 1) t = outsideFrom opener closer 0 r := by
  fun_induction Formula.untilCloser? opener closer depth t generalizing s with
  | case1 => cases h
  | case2 depth t ih =>
    obtain ⟨⟨s', r'⟩, h', he⟩ := Option.map_eq_some_iff.1 h
    obtain ⟨-, rfl⟩ := Prod.mk.inj he
    rw [outsideFrom, if_pos rfl]
    exact ih h'
  | case3 t hne =>
    cases h
    rw [outsideFrom, if_neg hne, if_pos rfl]
  | case4 t depth hne ih =>
    obtain ⟨⟨s', r'⟩, h', he⟩ := Option.map_eq_some_iff.1 h
    obtain ⟨-, rfl⟩ := Prod.mk.inj he
    rw [outsideFrom, if_neg hne, if_pos rfl]
    exact ih h'
  | case5 depth c t hne hnc ih =>
    obtain ⟨⟨s', r'⟩, h', he⟩ := Option.map_eq_some_iff.1 h
    obtain ⟨-, rfl⟩ := Prod.mk.inj he
    rw [outsideFrom, if_neg hne, if_neg hnc]
    exact ih h'

/-- What stands outside does not change when the first region is cut. -/
theorem outside_of_untilCloser? {b : Bracket} {x t s y : Text} (hx : b.opener ∉ x)
    (h : untilCloser? b.opener b.closer 0 t = some (s, y)) :
    outside b (x ++ b.opener :: t) = outside b (x ++ y) := by
  rw [outside_append_of_not_mem hx, outside_append_of_not_mem hx]
  refine congrArg (x ++ ·) ?_
  show outsideFrom _ _ 0 (b.opener :: t) = _
  rw [outsideFrom, if_pos rfl]
  exact outsideFrom_of_untilCloser? h

theorem outside_of_not_mem {b : Bracket} {t : Text} (h : b.opener ∉ t) : outside b t = t := by
  simpa [outside, outsideFrom] using outside_append_of_not_mem h []

/-- Nothing of a region stands outside. -/
theorem outside_region_append {b : Bracket} {u : Text} (hu : Balanced b u) (t : Text) :
    outside b (b.opener :: u ++ [b.closer] ++ t) = outside b t := by
  have htext : b.opener :: u ++ [b.closer] ++ t = [] ++ b.opener :: (u ++ b.closer :: t) := by
    simp
  rw [htext, outside_of_untilCloser? List.not_mem_nil (hu.untilCloser? t)]
  rfl

/-! ### Cutting -/

theorem cutRegion_of_not_mem {opener closer : Char} {t : Text} (h : opener ∉ t) :
    cutRegion opener closer t = .ok none := by
  unfold cutRegion
  dsimp only
  rw [Text.dropWhile_ne_of_not_mem h]

/-- The region at the first opener, or the error that it has no closer. -/
theorem cutRegion_append {opener : Char} {x : Text} (hx : opener ∉ x) (closer : Char) (t : Text) :
    cutRegion opener closer (x ++ opener :: t)
      = match untilCloser? opener closer 0 t with
        | some (s, y) => .ok (some ⟨opener :: s, x ++ y⟩)
        | none => .error (.unbalanced (x ++ opener :: t) opener (Text.byteLength x)) := by
  cases e : untilCloser? opener closer 0 t <;>
    simp only [cutRegion, Text.dropWhile_ne_append hx, Text.takeWhile_ne_append hx, e]

/-- What stands inside the regions, from left to right. -/
def insides (b : Bracket) (t : Text) : List Text :=
  match h : cutRegion b.opener b.closer t with
  | .ok (some cut) =>
    have := length_rest_lt_of_cutRegion h
    cut.inner :: insides b cut.rest
  | _ => []
termination_by t.length

/-- The first region, and then those of what is left. -/
theorem insides_of_cutRegion {b : Bracket} {t : Text} {cut : Cut}
    (h : cutRegion b.opener b.closer t = .ok (some cut)) :
    insides b t = cut.inner :: insides b cut.rest := by
  rw [insides]
  split
  · next cut' h' =>
    obtain rfl : cut' = cut := Option.some.inj (Except.ok.inj (h'.symm.trans h))
    rfl
  · next hne => exact absurd h (hne cut)

/-- Where nothing is cut there are no regions. -/
theorem insides_of_uncut {b : Bracket} {t : Text}
    (h : ∀ cut, cutRegion b.opener b.closer t ≠ .ok (some cut)) : insides b t = [] := by
  rw [insides]
  split
  · next cut h' => exact absurd h' (h cut)
  · rfl

theorem insides_of_not_mem {b : Bracket} {t : Text} (h : b.opener ∉ t) : insides b t = [] :=
  insides_of_uncut fun cut hcut => by cases (cutRegion_of_not_mem h).symm.trans hcut

/-- Text before the first region is of no account. -/
theorem insides_append_of_not_mem {b : Bracket} {x : Text} (hx : b.opener ∉ x) (t : Text) :
    insides b (x ++ t) = insides b t := by
  induction h : t.length using Nat.strong_induction_on generalizing t with
  | _ n ih =>
  subst h
  by_cases ht : b.opener ∈ t
  · -- the same region is cut out of both, and what is left has `x` in front again
    obtain ⟨y, u, rfl, hy⟩ := List.eq_append_cons_of_mem ht
    have hxy : b.opener ∉ x ++ y := by simp [hx, hy]
    have hcut := cutRegion_append hy b.closer u
    have hcut' := cutRegion_append hxy b.closer u
    rw [List.append_assoc] at hcut'
    rcases e : untilCloser? b.opener b.closer 0 u with - | ⟨s, r⟩
    · rw [e] at hcut hcut'
      rw [insides_of_uncut fun _ => by rw [hcut']; simp,
        insides_of_uncut fun _ => by rw [hcut]; simp]
    · rw [e] at hcut hcut'
      have hlt := length_rest_lt_of_cutRegion hcut
      rw [insides_of_cutRegion hcut, insides_of_cutRegion hcut', List.append_assoc,
        ih _ hlt _ rfl]
      rfl
  · rw [insides_of_not_mem ht, insides_of_not_mem (by simp [hx, ht])]

/-- A balanced text in brackets is a region. -/
theorem insides_region {b : Bracket} {u : Text} (hu : Balanced b u) (t : Text) :
    insides b (b.opener :: (u ++ b.closer :: t)) = u :: insides b t := by
  have hcut := cutRegion_append (List.not_mem_nil (a := b.opener)) b.closer (u ++ b.closer :: t)
  rw [List.nil_append, hu.untilCloser?] at hcut
  rw [insides_of_cutRegion hcut]
  simp [Cut.inner]

/-! ### Mendable texts -/

open Walker

/-- A token that is no bracket stays on its level. -/
theorem Walker.Step.flat {row : Row} {o : List (Bracket × Row)} {l : Lexeme} {m : Walker}
    (h : (Walker.mk row o).Step l m) (hopen : ∀ b, l ≠ .opening b) (hclose : ∀ b, l ≠ .closing b) :
    ∃ row', m = ⟨row', o⟩ ∧ ∀ o', (Walker.mk row o').Step l ⟨row', o'⟩ := by
  cases l with
  | opening b => exact absurd rfl (hopen b)
  | closing b => exact absurd rfl (hclose b)
  | and =>
    obtain ⟨hj, rfl⟩ := h
    exact ⟨row, rfl, fun _ => ⟨hj, rfl⟩⟩
  | or =>
    obtain ⟨hj, rfl⟩ := h
    exact ⟨row, rfl, fun _ => ⟨hj, rfl⟩⟩
  | name n => exact ⟨_, h, fun _ => rfl⟩

theorem Lexeme.ofChar?_opener (b : Bracket) : Lexeme.ofChar? b.opener = some (.opening b) := by
  cases b <;> rfl

theorem Lexeme.ofChar?_closer (b : Bracket) : Lexeme.ofChar? b.closer = some (.closing b) := by
  cases b <;> rfl

/-- A run of name characters has no brackets. -/
theorem Balanced.run {b : Bracket} {w : Text} (hw : ∀ c ∈ w, isNameChar c = true) :
    Balanced b w := by
  refine .of_not_mem (fun h => ?_) fun h => ?_
  · simpa [not_isNameChar_opener] using hw _ h
  · simpa [not_isNameChar_closer] using hw _ h

/-- A character that is no bracket of this kind. -/
theorem Balanced.single {b : Bracket} {c : Char} (ho : Lexeme.ofChar? c ≠ some (.opening b))
    (hc : Lexeme.ofChar? c ≠ some (.closing b)) : Balanced b [c] := by
  refine .of_not_mem (fun h => ho ?_) fun h => hc ?_
  · rw [← List.mem_singleton.1 h]
    exact Lexeme.ofChar?_opener b
  · rw [← List.mem_singleton.1 h]
    exact Lexeme.ofChar?_closer b

/-! ### Walks out of a bracket -/

/-- A walk that is in a bracket `b`, on row `row` with the brackets `above` opened since,
leaves this `b` in `t`: the scan for its closer finds it, and closes the brackets `above` on
the way.  Behind the closer the walk goes on around `b`, where row `r` was read before it and
`o` is open, and ends on row `r'`. -/
def Exits (b : Bracket) (row : Row) (above : List (Bracket × Row)) (r : Row)
    (o : List (Bracket × Row)) (r' : Row) (t : Text) : Prop :=
  ∃ s y row', untilCloser? b.opener b.closer (above.countP (·.1 = b)) t
      = some (s ++ [b.closer], y) ∧
    (Walker.mk row above).Walk (lexemes s) ⟨row', []⟩ ∧
    (Walker.mk (r.add (b.wrap row'.value)) o).Walk (lexemes y) ⟨r', []⟩

/-- The scan passes an opener, and counts it if it is of the same kind. -/
theorem untilCloser?_opening (b b' : Bracket) (depth : Nat) (t : Text) :
    untilCloser? b.opener b.closer depth (b'.opener :: t)
      = (untilCloser? b.opener b.closer (depth + if b' = b then 1 else 0) t).map
          fun (s, y) => (b'.opener :: s, y) := by
  by_cases hb : b' = b
  · rw [if_pos hb, hb, untilCloser?_opener]
  · rw [if_neg hb, Nat.add_zero]
    exact untilCloser?_of_ne (fun h => hb (Bracket.opener_inj h)) (b'.opener_ne_closer b) depth t

namespace Exits

variable {b : Bracket} {row : Row} {above : List (Bracket × Row)} {r r' : Row}
  {o : List (Bracket × Row)} {t : Text}

/-- What the walk comes by before it leaves: the scan puts it in front of what it finds, and
the walk reads it in front of what stands inside. -/
theorem append {u : Text} {row₁ : Row} {above₁ : List (Bracket × Row)}
    (h : Exits b row₁ above₁ r o r' t)
    (hscan : untilCloser? b.opener b.closer (above.countP (·.1 = b)) (u ++ t)
      = (untilCloser? b.opener b.closer (above₁.countP (·.1 = b)) t).map
          fun (s, y) => (u ++ s, y))
    (hwalk : ∀ s y row', t = s ++ b.closer :: y →
      (Walker.mk row₁ above₁).Walk (lexemes s) ⟨row', []⟩ →
        (Walker.mk row above).Walk (lexemes (u ++ s)) ⟨row', []⟩) :
    Exits b row above r o r' (u ++ t) := by
  obtain ⟨s, y, row', hfound, hs, hy⟩ := h
  have htext : t = s ++ b.closer :: y := by simpa using append_of_untilCloser? hfound
  refine ⟨u ++ s, y, row', ?_, hwalk s y row' htext hs, hy⟩
  rw [hscan, hfound, List.append_assoc]
  rfl

theorem blank {c : Char} (hc : isBlank c = true) (h : Exits b row above r o r' t) :
    Exits b row above r o r' (c :: t) := by
  have hbalanced : Balanced b [c] := by
    refine .of_not_mem (fun hmem => ?_) fun hmem => ?_
    · rw [← List.mem_singleton.1 hmem, not_isBlank_opener] at hc
      cases hc
    · rw [← List.mem_singleton.1 hmem, not_isBlank_closer] at hc
      cases hc
  refine h.append (u := [c]) (hbalanced _ t) fun s y row' _ hs => ?_
  rw [List.singleton_append, lexemes_cons_blank hc]
  exact hs

/-- A name or the word `or`, which stays on its level. -/
theorem run {w : Text} {row₁ : Row} (hne : w ≠ []) (hw : ∀ c ∈ w, isNameChar c = true)
    (hseam : Seam w t) (hstep : (Walker.mk row above).Step (Lexeme.ofRun w) ⟨row₁, above⟩)
    (h : Exits b row₁ above r o r' t) : Exits b row above r o r' (w ++ t) := by
  refine h.append (Balanced.run hw _ t) fun s y row' htext hs => ?_
  have hws : Seam w s := by
    rcases s with - | ⟨d, s⟩
    · exact Seam.nil_right w
    · rw [htext] at hseam
      exact hseam.congr_head rfl
  rw [lexemes_run_append hne hw hws]
  exact ⟨_, hstep, hs⟩

/-- A sign that is no bracket stays on its level too. -/
theorem sign {c : Char} {l : Lexeme} {row₁ : Row} (hblank : isBlank c = false)
    (hc : Lexeme.ofChar? c = some l) (hopen : ∀ b, l ≠ .opening b) (hclose : ∀ b, l ≠ .closing b)
    (hstep : (Walker.mk row above).Step l ⟨row₁, above⟩) (h : Exits b row₁ above r o r' t) :
    Exits b row above r o r' (c :: t) := by
  have hbalanced : Balanced b [c] := .single (by simpa [hc] using hopen b)
    (by simpa [hc] using hclose b)
  refine h.append (u := [c]) (hbalanced _ t) fun s y row' _ hs => ?_
  rw [List.singleton_append, lexemes_cons_mark hblank hc]
  exact ⟨_, hstep, hs⟩

/-- Behind an opener one more bracket is open. -/
theorem opener {b' : Bracket} {j : Joint} (h : Exits b ⟨j, []⟩ ((b', row) :: above) r o r' t) :
    Exits b row above r o r' (b'.opener :: t) := by
  refine h.append (u := [b'.opener]) ?_ fun s y row' _ hs => ?_
  · rw [List.countP_cons]
    simpa using untilCloser?_opening b b' _ t
  · rw [List.singleton_append, lexemes_cons_opener]
    exact ⟨_, ⟨j, rfl⟩, hs⟩

/-- The closer of a bracket above leads one level down. -/
theorem closer {b₁ : Bracket} {r₁ : Row}
    (h : Exits b (r₁.add (b₁.wrap row.value)) above r o r' t) :
    Exits b row ((b₁, r₁) :: above) r o r' (b₁.closer :: t) := by
  refine h.append (u := [b₁.closer]) ?_ fun s y row' _ hs => ?_
  · by_cases hb : b₁ = b
    · subst hb
      rw [List.countP_cons_of_pos (by simp)]
      exact untilCloser?_closer_succ (b₁.opener_ne_closer b₁) _ t
    · rw [List.countP_cons_of_neg (by simpa using hb)]
      have hbalanced : Balanced b [b₁.closer] :=
        .single (by simp [Lexeme.ofChar?_closer]) (by simpa [Lexeme.ofChar?_closer] using hb)
      exact hbalanced _ t
  · rw [List.singleton_append, lexemes_cons_closer]
    exact ⟨_, ⟨r₁, above, rfl, rfl⟩, hs⟩

/-- With nothing open above, the closer of `b` is where the walk leaves it. -/
theorem here (h : (Walker.mk (r.add (b.wrap row.value)) o).Walk (lexemes t) ⟨r', []⟩) :
    Exits b row [] r o r' (b.closer :: t) := by
  refine ⟨[], t, row, untilCloser?_closer_zero (b.opener_ne_closer b) t, ?_, h⟩
  rw [lexemes_nil]
  rfl

end Exits

/-- A walk out of a bracket comes by its closer, and so does the scan.  The brackets that
were opened since are `above`. -/
theorem exits_of_walk {b : Bracket} {t : Text} {row r r' : Row} {above o : List (Bracket × Row)}
    (h : (Walker.mk row (above ++ (b, r) :: o)).Walk (lexemes t) ⟨r', []⟩) :
    Exits b row above r o r' t := by
  induction t using front_cases generalizing row above with
  | nil =>
    rw [lexemes_nil] at h
    cases above <;> cases congrArg Walker.outer h
  | blank c t hb ih =>
    rw [lexemes_cons_blank hb] at h
    exact (ih h).blank hb
  | run w t hne hw hseam ih =>
    rw [lexemes_run_append hne hw hseam] at h
    obtain ⟨m, hl, h⟩ := h
    have hbracket : ∀ b, Lexeme.ofRun w ≠ .opening b ∧ Lexeme.ofRun w ≠ .closing b := by
      unfold Lexeme.ofRun
      split <;> simp
    obtain ⟨row₁, rfl, hstep⟩ := hl.flat (fun b => (hbracket b).1) fun b => (hbracket b).2
    exact .run hne hw hseam (hstep above) (ih h)
  | mark c l t hb hc ih =>
    rw [lexemes_cons_mark hb hc] at h
    obtain ⟨m, hl, h⟩ := h
    have htext := Lexeme.text_ofChar? hc
    rcases l with b' | b' | - | - | n
    · obtain rfl : b'.opener = c := List.singleton_inj.1 htext
      obtain ⟨j, rfl⟩ := hl
      have h : (Walker.mk ⟨j, []⟩ (((b', row) :: above) ++ (b, r) :: o)).Walk _ _ := h
      exact (ih h).opener
    · obtain rfl : b'.closer = c := List.singleton_inj.1 htext
      obtain ⟨r₀, o₀, ho, rfl⟩ := hl
      -- it closes the last bracket that was opened: one of those above, or `b` itself
      rcases above with - | ⟨⟨b₁, r₁⟩, above⟩
      · obtain ⟨he, rfl⟩ := List.cons.inj ho
        obtain ⟨rfl, rfl⟩ := Prod.mk.inj he
        exact .here h
      · obtain ⟨he, rfl⟩ := List.cons.inj ho
        obtain ⟨rfl, rfl⟩ := Prod.mk.inj he
        exact (ih h).closer
    all_goals
      obtain ⟨row₁, rfl, hstep⟩ := hl.flat (by simp) (by simp)
      exact .sign hb hc (by simp) (by simp) (hstep above) (ih h)

/-- A region is closed, and both what stands in it and what stands around it are mendable.
Around it nothing is lost but a group. -/
theorem Mendable.cut {b : Bracket} (hb : b ≠ .round) {x t : Text} {f : Option Formula}
    (h : Mendable (x ++ b.opener :: t) f) :
    ∃ s y, untilCloser? b.opener b.closer 0 t = some (s ++ [b.closer], y) ∧
      (∃ g, Mendable s g) ∧
      ∃ g, Mendable (x ++ y) g ∧ g.bind (without b) = f.bind (without b) := by
  obtain ⟨hspaced, hapart, j, r, hwalk, rfl⟩ := h
  have hx : EndsOpen x := endsOpen_of_isChain hspaced (.inl (isOpener_iff.2 ⟨b, rfl⟩))
  rw [lexemes_append (hx.seam _), lexemes_cons_opener] at hapart hwalk
  obtain ⟨m, hxm, m', ⟨j', rfl⟩, ht⟩ := walk_append_iff.1 hwalk
  have ht : (Walker.mk ⟨j', []⟩ ([] ++ (b, m.row) :: m.outer)).Walk (lexemes t) ⟨r, []⟩ := ht
  obtain ⟨s, y, row', hscan, hs, hy⟩ := exits_of_walk ht
  refine ⟨s, y, hscan, ⟨row'.value, ?_, ?_, j', row', hs, rfl⟩, ?_⟩
  all_goals
    have htext : t = s ++ b.closer :: y := by simpa using append_of_untilCloser? hscan
    have hseam : Seam s (b.closer :: y) := Seam.of_head (not_isNameChar_closer b) y
    rw [htext] at hspaced hapart
    rw [lexemes_append hseam, lexemes_cons_closer] at hapart
  · exact hspaced.infix ⟨x ++ [b.opener], b.closer :: y, by simp⟩
  · exact hapart.infix ⟨lexemes x ++ [.opening b], .closing b :: lexemes y, by simp⟩
  · -- without the region the walk goes on from where it entered it
    have hm : m.without b = (Walker.mk (m.row.add (b.wrap row'.value)) m.outer).without b := by
      refine without_eq_iff.2 ⟨?_, rfl⟩
      rw [Row.without_add, Bracket.wrap_bind_without hb, if_pos rfl]
      rfl
    obtain ⟨⟨row, o⟩, he, hview⟩ := hy.of_without hb hm
    obtain ⟨hrow, houter⟩ := without_eq_iff.1 hview
    obtain rfl : o = [] := List.map_eq_nil_iff.1 houter
    have hassoc : x ++ b.opener :: (s ++ b.closer :: y)
        = x ++ ((b.opener :: s ++ [b.closer]) ++ y) := by simp
    refine ⟨row.value, ⟨?_, ?_, j, row, ?_, rfl⟩, ?_⟩
    · exact isChain_append_of_cut (hassoc ▸ hspaced) (hx.spaced y)
    · have hcut : lexemes x ++ .opening b :: (lexemes s ++ .closing b :: lexemes y)
          = lexemes x ++ ((.opening b :: lexemes s ++ [.closing b]) ++ lexemes y) := by simp
      rw [lexemes_append (hx.seam y)]
      exact isChain_apart_of_cut_opening (hcut ▸ hapart)
    · rw [lexemes_append (hx.seam y)]
      exact hxm.append he
    · rw [← Row.value_without, ← Row.value_without, hrow]

/-- Cutting a mendable text. -/
theorem Mendable.cutRegion {b : Bracket} (hb : b ≠ .round) {t : Text} {f : Option Formula}
    (h : Mendable t f) :
    (b.opener ∉ t ∧ Formula.cutRegion b.opener b.closer t = .ok none) ∨
      ∃ cut, Formula.cutRegion b.opener b.closer t = .ok (some cut) ∧
        outside b t = outside b cut.rest ∧ (∃ g, Mendable cut.inner g) ∧
          ∃ g, Mendable cut.rest g ∧ g.bind (without b) = f.bind (without b) := by
  by_cases ht : b.opener ∈ t
  · obtain ⟨x, u, rfl, hx⟩ := List.eq_append_cons_of_mem ht
    obtain ⟨s, y, hscan, hs, hy⟩ := h.cut hb
    have hcut := cutRegion_append hx b.closer u
    rw [hscan] at hcut
    refine .inr ⟨_, hcut, outside_of_untilCloser? hx hscan, ?_, hy⟩
    simpa [Cut.inner] using hs
  · exact .inl ⟨ht, cutRegion_of_not_mem ht⟩

/-- Cutting all regions leaves what stands outside them, and that stands for the formula
without its groups in these brackets. -/
theorem Mendable.withoutRegions {b : Bracket} (hb : b ≠ .round) {t : Text} {f : Option Formula}
    (h : Mendable t f) :
    Formula.withoutRegions b.opener b.closer t = .ok (outside b t) ∧ b.opener ∉ outside b t ∧
      Mendable (outside b t) (f.bind (without b)) := by
  fun_induction Formula.withoutRegions b.opener b.closer t generalizing f with
  | case1 t e he =>
    rcases h.cutRegion hb with ⟨-, hcut⟩ | ⟨cut, hcut, -⟩ <;> cases he.symm.trans hcut
  | case2 t he =>
    rcases h.cutRegion hb with ⟨ht, -⟩ | ⟨cut, hcut, -⟩
    · rw [outside_of_not_mem ht,
        h.evaluates.bind_without hb fun hmem => ht (opener_mem_of_mem_lexemes hmem)]
      exact ⟨rfl, ht, h⟩
    · cases he.symm.trans hcut
  | case3 t cut he _ ih =>
    rcases h.cutRegion hb with ⟨-, hcut⟩ | ⟨cut', hcut, hout, -, g, hrest, hg⟩
    · cases he.symm.trans hcut
    · obtain rfl : cut = cut' := Option.some.inj (Except.ok.inj (he.symm.trans hcut))
      rw [hout, ← hg]
      exact ih hrest

end LinkGrammar.Formula
