/-
LinkGrammar/Proofs/Connector/Compare.lean

What it depends on whether two connectors fit.

The comparison reads connectors with their marks.  The mark belongs to what stands behind the
last star of a pattern, and a connector that is shorter than a pattern has to begin it with its
mark.  So a pattern can cover a connector with one mark and not with the other: `S+x*+` covers
`S+`, but `S+x*-` does not cover `S-`.  Where this happens one of the two names begins the other,
and the connectors fit all the same.  What is left is a relation between names (`fits_iff`):

    one name begins the other, or
    the names are of one length, and one has stars that cover the other.

It is symmetric, and a connector keeps its name when it is flipped.  So a comparison does not
depend on the order of the two connectors, nor on the side from which a link is looked at.
-/
import Mathlib
import LinkGrammar.Connector.Compare

namespace LinkGrammar.Connector

variable {a b c : Connector} {n n' s : Text}

/-! ### Names and marks -/

/-- A mark gives its polarity to the name before it. -/
@[simp] theorem polarity?_concat_mark (n : Text) (p : Polarity) :
    polarity? (n ++ [p.mark]) = some p := by
  simp [polarity?]

@[simp] theorem name_concat_mark (n : Text) (p : Polarity) : name (n ++ [p.mark]) = n := by
  simp [name]

@[simp] theorem flip_concat_mark (n : Text) (p : Polarity) :
    flip (n ++ [p.mark]) = n ++ [p.flip.mark] := by
  simp [flip]

/-- Without a mark the connector is all name. -/
theorem name_of_unmarked (h : polarity? c = none) : name c = c := by
  simp [name, h]

/-- Without a mark there is nothing to flip. -/
theorem flip_of_unmarked (h : polarity? c = none) : flip c = c := by
  simp [flip, h]

theorem eq_mark_of_ofMark? {m : Char} {p : Polarity} (h : Polarity.ofMark? m = some p) :
    m = p.mark := by
  unfold Polarity.ofMark? at h
  split at h
  · next hplus =>
    cases h
    exact hplus
  · split at h
    · next hminus =>
      cases h
      exact hminus
    · cases h

/-- A connector with a polarity is its name with the mark behind it. -/
theorem eq_concat_mark_of_polarity? {p : Polarity} (h : polarity? c = some p) :
    c = name c ++ [p.mark] := by
  obtain ⟨m, hlast, hmark⟩ := Option.bind_eq_some_iff.1 h
  obtain ⟨t, rfl⟩ := List.getLast?_eq_some_iff.1 hlast
  obtain rfl := eq_mark_of_ofMark? hmark
  rw [name_concat_mark]

/-- The mark of a polarity, as the end of a connector. -/
def ending (p : Option Polarity) : Text := (p.map Polarity.mark).toList

theorem star_not_mem_ending (p : Option Polarity) : '*' ∉ ending p := by
  rcases p with - | p
  · exact List.not_mem_nil
  · cases p <;> decide

/-- A connector is its name with the mark of its polarity, if it has one. -/
theorem name_append_ending (c : Connector) : name c ++ ending (polarity? c) = c := by
  rcases h : polarity? c with - | p
  · rw [name_of_unmarked h]
    exact List.append_nil c
  · exact (eq_concat_mark_of_polarity? h).symm

/-- A flipped connector points the other way. -/
@[simp] theorem polarity?_flip (c : Connector) : polarity? (flip c) = (polarity? c).map .flip := by
  rcases h : polarity? c with - | p
  · rw [flip_of_unmarked h, h]
    rfl
  · rw [eq_concat_mark_of_polarity? h, flip_concat_mark, polarity?_concat_mark]
    rfl

@[simp] theorem name_flip (c : Connector) : name (flip c) = name c := by
  rcases h : polarity? c with - | p
  · rw [flip_of_unmarked h]
  · rw [eq_concat_mark_of_polarity? h, flip_concat_mark, name_concat_mark, name_concat_mark]

/-- A connector that is flipped twice is as it was. -/
@[simp] theorem flip_flip (c : Connector) : flip (flip c) = c := by
  rcases h : polarity? c with - | p
  · rw [flip_of_unmarked h, flip_of_unmarked h]
  · rw [eq_concat_mark_of_polarity? h, flip_concat_mark, flip_concat_mark, Polarity.flip_flip]

/-! ### Stars -/

/-- What stands before the first star. -/
def front (t : Text) : Text := t.takeWhile (· ≠ '*')

/-- What stands behind the last star. -/
def back (t : Text) : Text := (t.reverse.takeWhile (· ≠ '*')).reverse

/-- The stars of `n` cover `n'`, a name of the same length. -/
structure Covers (n n' : Text) : Prop where
  star : '*' ∈ n
  byteLength_eq : Text.byteLength n = Text.byteLength n'
  front : front n <+: n'
  back : back n <:+ n'

/-- When a wildcard lets two texts fit: the texts around it must stand at the ends of the other,
or at least the one before it must where the lengths differ. -/
theorem wildcard_eq_true_iff : wildcard a b = true ↔ '*' ∈ a ∧
    if Text.byteLength a = Text.byteLength b then front a <+: b ∧ back a <:+ b
    else b <+: front a := by
  unfold wildcard
  by_cases hstar : '*' ∈ a
  · by_cases hlen : Text.byteLength a = Text.byteLength b
    · simp [hstar, hlen, front, back]
    · simp [hstar, hlen, front]
  · simp [hstar]

/-- The front ends at the first wildcard. -/
theorem front_append_star {before : Text} (h : '*' ∉ before) (rest : Text) :
    front (before ++ '*' :: rest) = before := by
  have hskip : ∀ c ∈ before, decide (c ≠ '*') = true := fun c hc => by
    simpa using ne_of_mem_of_not_mem hc h
  show List.takeWhile _ (before ++ '*' :: rest) = before
  rw [List.takeWhile_append_of_pos hskip, List.takeWhile_cons_of_neg (by simp), List.append_nil]

/-- A name with a wildcard is its front, the wildcard, and something. -/
theorem exists_eq_front_append (h : '*' ∈ n) : ∃ rest, n = front n ++ '*' :: rest := by
  obtain ⟨before, rest, rfl, hbefore⟩ := List.eq_append_cons_of_mem h
  exact ⟨rest, by rw [front_append_star hbefore]⟩

/-- What is put behind a wildcard does not change the front. -/
theorem front_append_of_star (h : '*' ∈ n) (s : Text) : front (n ++ s) = front n := by
  obtain ⟨before, rest, rfl, hbefore⟩ := List.eq_append_cons_of_mem h
  rw [List.append_assoc, List.cons_append, front_append_star hbefore, front_append_star hbefore]

/-- What is put behind a name, without a wildcard in it, goes to the back. -/
theorem back_append (hs : '*' ∉ s) (n : Text) : back (n ++ s) = back n ++ s := by
  have hskip : ∀ c ∈ s.reverse, decide (c ≠ '*') = true := fun c hc => by
    simpa using ne_of_mem_of_not_mem (List.mem_reverse.1 hc) hs
  show (List.takeWhile _ (n ++ s).reverse).reverse = back n ++ s
  rw [List.reverse_append, List.takeWhile_append_of_pos hskip, List.reverse_append,
    List.reverse_reverse]
  rfl

/-- The front is shorter than a name with a wildcard. -/
theorem byteLength_front_lt (h : '*' ∈ n) : Text.byteLength (front n) < Text.byteLength n := by
  obtain ⟨rest, hn⟩ := exists_eq_front_append h
  have hstar : 0 < '*'.utf8Size := by decide
  conv_rhs => rw [hn]
  rw [Text.byteLength_append, Text.byteLength_cons]
  omega

/-- A text has no fewer bytes than what it begins with. -/
theorem byteLength_le_of_isPrefix (h : n <+: n') : Text.byteLength n ≤ Text.byteLength n' := by
  obtain ⟨t, rfl⟩ := h
  rw [Text.byteLength_append]
  omega

/-! ### The same end on both sides -/

/-- An end that both sides share is not covered, but compared. -/
theorem wildcard_append_iff (hs : '*' ∉ s) (hlen : Text.byteLength n = Text.byteLength n') :
    wildcard (n ++ s) (n' ++ s) = true ↔ Covers n n' := by
  rw [wildcard_eq_true_iff, if_pos (by simp [hlen]), List.mem_append, or_iff_left hs]
  constructor
  · rintro ⟨hstar, hfront, t, hback⟩
    rw [front_append_of_star hstar] at hfront
    rw [back_append hs, ← List.append_assoc] at hback
    refine ⟨hstar, hlen, ?_, t, List.append_cancel_right hback⟩
    -- what stands before the star is shorter than the name, so it ends before `s` begins
    rcases List.prefix_or_prefix_of_prefix hfront (List.prefix_append n' s) with h | h
    · exact h
    · have hlt := byteLength_front_lt hstar
      have hle := byteLength_le_of_isPrefix h
      omega
  · rintro ⟨hstar, -, hfront, t, hback⟩
    refine ⟨hstar, ?_, t, ?_⟩
    · rw [front_append_of_star hstar]
      exact hfront.trans (List.prefix_append n' s)
    · rw [back_append hs, ← List.append_assoc, hback]

/-- Of two lengths, what a pattern covers begins it. -/
theorem isPrefix_of_wildcard_append (hs : '*' ∉ s)
    (hlen : Text.byteLength n ≠ Text.byteLength n') (h : wildcard (n ++ s) (n' ++ s) = true) :
    n' <+: n := by
  rw [wildcard_eq_true_iff, if_neg (by simp [hlen]), List.mem_append, or_iff_left hs] at h
  obtain ⟨hstar, h⟩ := h
  obtain ⟨rest, hn⟩ := exists_eq_front_append hstar
  have hfront : front n <+: n := ⟨_, hn.symm⟩
  rw [front_append_of_star hstar] at h
  exact ((List.prefix_append n' s).trans h).trans hfront

/-- When one of two names shortens the other. -/
theorem shortens_eq_true_iff :
    shortens n n' = true ↔ n ≠ [] ∧ n' ≠ [] ∧ n ≠ n' ∧ (n <+: n' ∨ n' <+: n) := by
  simp [shortens, and_assoc]

/-- Which of the two comes first does not matter. -/
theorem shortens_symm (h : shortens n n' = true) : shortens n' n = true := by
  obtain ⟨hn, hn', hne, h⟩ := shortens_eq_true_iff.1 h
  exact shortens_eq_true_iff.2 ⟨hn', hn, hne.symm, h.symm⟩

/-- When the connectors of two names fit. -/
def NamesFit (n n' : Text) : Prop := n <+: n' ∨ n' <+: n ∨ Covers n n' ∨ Covers n' n

/-- With one end on both sides, the comparison is one of the names. -/
theorem namesFit_iff_append (hn : n ≠ []) (hn' : n' ≠ []) (hs : '*' ∉ s) :
    (n ++ s = n' ++ s ∨ wildcard (n ++ s) (n' ++ s) = true ∨ wildcard (n' ++ s) (n ++ s) = true ∨
      shortens n n' = true) ↔ NamesFit n n' := by
  rw [List.append_left_inj, shortens_eq_true_iff, and_iff_right hn, and_iff_right hn']
  constructor
  · rintro (rfl | h | h | ⟨-, h | h⟩)
    · exact .inl List.prefix_rfl
    · by_cases hlen : Text.byteLength n = Text.byteLength n'
      · exact .inr (.inr (.inl ((wildcard_append_iff hs hlen).1 h)))
      · exact .inr (.inl (isPrefix_of_wildcard_append hs hlen h))
    · by_cases hlen : Text.byteLength n' = Text.byteLength n
      · exact .inr (.inr (.inr ((wildcard_append_iff hs hlen).1 h)))
      · exact .inl (isPrefix_of_wildcard_append hs hlen h)
    · exact .inl h
    · exact .inr (.inl h)
  · intro h
    by_cases heq : n = n'
    · exact .inl heq
    · rcases h with h | h | h | h
      · exact .inr (.inr (.inr ⟨heq, .inl h⟩))
      · exact .inr (.inr (.inr ⟨heq, .inr h⟩))
      · exact .inr (.inl ((wildcard_append_iff hs h.byteLength_eq).2 h))
      · exact .inr (.inr (.inl ((wildcard_append_iff hs h.byteLength_eq).2 h)))

/-! ### Single connectors -/

/-- When two connectors fit. -/
theorem fits_eq_true_iff : fits a b = true ↔ a ≠ [] ∧ b ≠ [] ∧ polarity? a = polarity? b ∧
    (a = b ∨ wildcard a b = true ∨ wildcard b a = true ∨ shortens (name a) (name b) = true) := by
  simp [fits, and_assoc, or_assoc]

/-- When they fit without shortening. -/
theorem fitsExactly_eq_true_iff : fitsExactly a b = true ↔ a ≠ [] ∧ polarity? a = polarity? b ∧
    (a = b ∨ wildcard a b = true ∨ wildcard b a = true) := by
  simp [fitsExactly, and_assoc, or_assoc]

theorem fits_of_fitsExactly (hb : b ≠ []) (h : fitsExactly a b = true) : fits a b = true := by
  obtain ⟨ha, hpol, h⟩ := fitsExactly_eq_true_iff.1 h
  refine fits_eq_true_iff.2 ⟨ha, hb, hpol, ?_⟩
  rcases h with h | h | h
  · exact .inl h
  · exact .inr (.inl h)
  · exact .inr (.inr (.inl h))

theorem fits_symm (h : fits a b = true) : fits b a = true := by
  obtain ⟨ha, hb, hpol, h⟩ := fits_eq_true_iff.1 h
  refine fits_eq_true_iff.2 ⟨hb, ha, hpol.symm, ?_⟩
  rcases h with h | h | h | h
  · exact .inl h.symm
  · exact .inr (.inr (.inl h))
  · exact .inr (.inl h)
  · exact .inr (.inr (.inr (shortens_symm h)))

/-- The order of the two connectors does not matter. -/
theorem fits_comm (a b : Connector) : fits a b = fits b a :=
  Bool.eq_iff_iff.2 ⟨fits_symm, fits_symm⟩

/-- The polarities must agree, so an empty connector is covered on one side only. -/
theorem fitsExactly_symm (hb : b ≠ []) (h : fitsExactly a b = true) : fitsExactly b a = true := by
  obtain ⟨-, hpol, h⟩ := fitsExactly_eq_true_iff.1 h
  refine fitsExactly_eq_true_iff.2 ⟨hb, hpol.symm, ?_⟩
  rcases h with h | h | h
  · exact .inl h.symm
  · exact .inr (.inr h)
  · exact .inr (.inl h)

theorem ne_nil_of_name_ne_nil (h : name c ≠ []) : c ≠ [] := by
  rintro rfl
  exact h rfl

theorem ne_nil_of_polarity? {p : Polarity} (h : polarity? c = some p) : c ≠ [] := by
  rintro rfl
  cases h

/-- Connectors with names fit when they have one polarity and their names fit. -/
theorem fits_iff (ha : name a ≠ []) (hb : name b ≠ []) :
    fits a b = true ↔ polarity? a = polarity? b ∧ NamesFit (name a) (name b) := by
  rw [fits_eq_true_iff, and_iff_right (ne_nil_of_name_ne_nil ha),
    and_iff_right (ne_nil_of_name_ne_nil hb)]
  apply and_congr_right
  intro hpol
  have hends := namesFit_iff_append ha hb (star_not_mem_ending (polarity? a))
  rw [name_append_ending a, hpol, name_append_ending b] at hends
  exact hends

theorem map_flip_inj {p q : Option Polarity} : p.map Polarity.flip = q.map Polarity.flip ↔ p = q :=
  (Option.map_injective (Function.LeftInverse.injective Polarity.flip_flip)).eq_iff

/-- Flipping two connectors keeps their names, and whether their polarities agree. -/
theorem fits_flip_flip (ha : name a ≠ []) (hb : name b ≠ []) :
    fits (flip a) (flip b) = fits a b := by
  have ha' : name (flip a) ≠ [] := by rwa [name_flip]
  have hb' : name (flip b) ≠ [] := by rwa [name_flip]
  rw [Bool.eq_iff_iff, fits_iff ha' hb', fits_iff ha hb, polarity?_flip, polarity?_flip,
    map_flip_inj, name_flip, name_flip]

/-- It does not matter which of two connectors is flipped to meet the other. -/
theorem fits_flip_left (ha : name a ≠ []) (hb : name b ≠ []) :
    fits (flip a) b = fits (flip b) a := by
  have ha' : name (flip a) ≠ [] := by rwa [name_flip]
  calc fits (flip a) b = fits (flip (flip a)) (flip b) := (fits_flip_flip ha' hb).symm
    _ = fits a (flip b) := by rw [flip_flip]
    _ = fits (flip b) a := fits_comm a (flip b)

/-! ### Lists of connectors -/

/-- Two lists of connectors are compatible: each is one connector, and the two fit, or there are
several, which match exactly and place by place. -/
inductive Compatible : List Connector → List Connector → Prop
  | single {a b : Connector} : fits a b = true → Compatible [a] [b]
  | several {as bs : List Connector} : 2 ≤ as.length →
      List.Forall₂ (fun a b => fitsExactly a b = true) as bs → Compatible as bs

/-- There is at least one connector on the left. -/
theorem Compatible.ne_nil_left {as bs : List Connector} (h : Compatible as bs) : as ≠ [] := by
  rintro rfl
  cases h with
  | several hlen _ => cases hlen

/-- There is at least one on the right too. -/
theorem Compatible.ne_nil_right {as bs : List Connector} (h : Compatible as bs) : bs ≠ [] := by
  rintro rfl
  cases h with
  | several hlen h =>
    cases h
    cases hlen

/-- Compatible lists begin with connectors that fit. -/
theorem Compatible.exists_fits {as bs : List Connector} (hbs : ∀ b ∈ bs, b ≠ [])
    (h : Compatible as bs) : ∃ a ∈ as, ∃ b ∈ bs, fits a b = true := by
  cases h with
  | @single a b h => exact ⟨a, List.mem_singleton_self a, b, List.mem_singleton_self b, h⟩
  | several hlen h =>
    cases h with
    | nil => cases hlen
    | @cons a b _ _ h _ =>
      exact ⟨a, List.mem_cons_self, b, List.mem_cons_self,
        fits_of_fitsExactly (hbs b List.mem_cons_self) h⟩

/-- The check pair by pair is a relation between the two lists. -/
theorem all_zip_eq_true_iff {as bs : List Connector} :
    (decide (as.length = bs.length) && (as.zip bs).all fun (a, b) => fitsExactly a b) = true ↔
      List.Forall₂ (fun a b => fitsExactly a b = true) as bs := by
  simp only [Bool.and_eq_true, decide_eq_true_eq, List.all_eq_true, List.forall₂_iff_zip,
    Prod.forall]

/-- The check of two lists of connectors decides `Compatible`. -/
theorem fitAll_eq_true_iff {as bs : List Connector} :
    fitAll as bs = true ↔ Compatible as bs := by
  constructor
  · intro h
    unfold fitAll at h
    split at h
    · cases h
    · cases h
    · exact .single h
    · next hnil _ hone =>
      have hall := all_zip_eq_true_iff.1 h
      refine .several ?_ hall
      -- neither no connector nor a single one
      cases hall with
      | nil => exact absurd rfl hnil
      | cons _ hrest =>
        cases hrest with
        | nil => exact (hone _ _ rfl rfl).elim
        | cons _ _ => exact Nat.le_add_left 2 _
  · intro h
    cases h with
    | single h => exact h
    | several hlen h =>
      cases h with
      | nil => cases hlen
      | cons h hrest =>
        cases hrest with
        | nil => exact absurd hlen (Nat.lt_irrefl 1)
        | cons h' hrest => exact all_zip_eq_true_iff.2 (.cons h (.cons h' hrest))

/-- Lists of connectors are compatible in either order. -/
theorem Compatible.symm {as bs : List Connector} (hbs : ∀ c ∈ bs, c ≠ [])
    (h : Compatible as bs) : Compatible bs as := by
  cases h with
  | single h => exact .single (fits_symm h)
  | several hlen h =>
    refine .several (h.length_eq ▸ hlen) ?_
    have hback : List.Forall₂ (fun b a => b ≠ [] ∧ fitsExactly a b = true) bs as :=
      (List.forall₂_and_left bs as).2 ⟨hbs, h.flip⟩
    exact hback.imp fun _ _ h => fitsExactly_symm h.1 h.2

theorem fitAll_comm {as bs : List Connector} (has : ∀ c ∈ as, c ≠ []) (hbs : ∀ c ∈ bs, c ≠ []) :
    fitAll as bs = fitAll bs as := by
  rw [Bool.eq_iff_iff, fitAll_eq_true_iff, fitAll_eq_true_iff]
  exact ⟨Compatible.symm hbs, Compatible.symm has⟩

/-- **Comparing connectors is symmetric and does not depend on the side.**  Two connectors with
names fit in one order exactly when they fit in the other, and when both are flipped; to look for
a link, either of them may be flipped.  Lists of connectors, none of them empty, fit in one order
exactly when they fit in the other. -/
theorem comparison_unoriented :
    (∀ a b : Connector, name a ≠ [] → name b ≠ [] →
      fits a b = fits b a ∧ fits (flip a) (flip b) = fits a b ∧
        fits (flip a) b = fits (flip b) a) ∧
    ∀ as bs : List Connector, (∀ c ∈ as, c ≠ []) → (∀ c ∈ bs, c ≠ []) →
      fitAll as bs = fitAll bs as :=
  ⟨fun a b ha hb => ⟨fits_comm a b, fits_flip_flip ha hb, fits_flip_left ha hb⟩,
    fun _ _ has hbs => fitAll_comm has hbs⟩

/-- A pattern with a mark inside of its name: with one mark at the end its star covers the other
connector, and with the other mark it does not. -/
theorem comparison_unoriented_innerMark :
    let a := ['S', '+', 'x', '*', '+']
    let b := ['S', '+']
    let as := [['O', '*', 't', '-'], ['M', '-']]
    let bs := [['O', 's', 't', '-'], ['M', '-']]
    (name a ≠ [] ∧ name b ≠ [] ∧ wildcard a b = true ∧ wildcard (flip a) (flip b) = false) ∧
      (fits a b = fits b a ∧ fits (flip a) (flip b) = fits a b ∧
        fits (flip a) b = fits (flip b) a) ∧
      ((∀ c ∈ as, c ≠ []) ∧ ∀ c ∈ bs, c ≠ []) ∧ fitAll as bs = fitAll bs as := by
  intro a b as bs
  have ha : name a ≠ [] := by decide
  have hb : name b ≠ [] := by decide
  have has : ∀ c ∈ as, c ≠ [] := by decide
  have hbs : ∀ c ∈ bs, c ≠ [] := by decide
  exact ⟨⟨ha, hb, by decide, by decide⟩, comparison_unoriented.1 a b ha hb, ⟨has, hbs⟩,
    comparison_unoriented.2 as bs has hbs⟩

end LinkGrammar.Connector
