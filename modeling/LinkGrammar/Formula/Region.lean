/-
LinkGrammar/Formula/Region.lean

Bracketed regions of a text, cut out with their contents.

A region begins at the first opener and ends at the closer that brings the number
of open brackets back to zero.  Main statement: what is left after a cut is shorter
than the text, so regions can be cut until none is left.
-/
import LinkGrammar.Formula.Error

namespace LinkGrammar.Formula

/-- A region and the text around it. -/
structure Cut where
  /-- the region, its two brackets included -/
  region : Text
  rest : Text
  deriving DecidableEq

/-- What stands between the brackets. -/
def Cut.inner (c : Cut) : Text := c.region.tail.dropLast

/-- Read up to the closer that matches an opener before the text; `depth` more
openers are open.  Gives what was read and what follows. -/
def untilCloser? (opener closer : Char) : Nat → Text → Option (Text × Text)
  | _, [] => none
  | depth, c :: t =>
    if c = opener then (untilCloser? opener closer (depth + 1) t).map fun (s, r) => (c :: s, r)
    else if c = closer then
      match depth with
      | 0 => some ([c], t)
      | depth + 1 => (untilCloser? opener closer depth t).map fun (s, r) => (c :: s, r)
    else (untilCloser? opener closer depth t).map fun (s, r) => (c :: s, r)

/-- Cut the first region out of a text; `none` if there is no opener. -/
def cutRegion (opener closer : Char) (t : Text) : Except FormulaError (Option Cut) :=
  let before := t.takeWhile (· ≠ opener)
  match t.dropWhile (· ≠ opener) with
  | [] => .ok none
  | c :: behind =>
    match untilCloser? opener closer 0 behind with
    | some (s, after) => .ok (some ⟨c :: s, before ++ after⟩)
    | none => .error (.unbalanced t opener (Text.byteLength before))

/-! ### Lengths -/

/-- What was read and what follows make up the text. -/
theorem append_of_untilCloser? {opener closer : Char} {depth : Nat} {t s r : Text}
    (h : untilCloser? opener closer depth t = some (s, r)) : t = s ++ r := by
  fun_induction untilCloser? opener closer depth t generalizing s with
  | case1 => simp at h
  | case2 depth t ih =>
    obtain ⟨⟨s', r'⟩, h', he⟩ := Option.map_eq_some_iff.1 h
    obtain ⟨rfl, rfl⟩ := Prod.mk.inj he
    simp [ih h']
  | case3 c t =>
    simp at h; simp [← h.1, h.2]
  | case4 t depth hne ih | case5 depth c t hne hnc ih =>
    obtain ⟨⟨s', r'⟩, h', he⟩ := Option.map_eq_some_iff.1 h
    obtain ⟨rfl, rfl⟩ := Prod.mk.inj he
    simp [ih h']

/-- What is left around a region is shorter than the text. -/
theorem length_rest_lt_of_cutRegion {opener closer : Char} {t : Text} {cut : Cut}
    (h : cutRegion opener closer t = .ok (some cut)) : cut.rest.length < t.length := by
  have ht := List.takeWhile_append_dropWhile (p := (· ≠ opener)) (l := t)
  unfold cutRegion at h
  split at h
  · simp at h
  · next c behind e =>
    split at h
    · next s after hu =>
      have hb := append_of_untilCloser? hu
      rw [e, hb] at ht
      have hl := congrArg List.length ht
      simp at h hl
      rw [← h]; simp; omega
    · simp at h

/-! ### Cutting all regions -/

/-- The text with every region cut out. -/
def withoutRegions (opener closer : Char) (t : Text) : Except FormulaError Text :=
  match h : cutRegion opener closer t with
  | .error e => .error e
  | .ok none => .ok t
  | .ok (some cut) =>
    have := length_rest_lt_of_cutRegion h
    withoutRegions opener closer cut.rest
termination_by t.length

end LinkGrammar.Formula
