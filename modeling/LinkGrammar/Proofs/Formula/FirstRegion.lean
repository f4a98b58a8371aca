/-
LinkGrammar/Proofs/Formula/FirstRegion.lean

The first region of a text, told by numbers of brackets.

It begins at the first opener and ends where, for the first time, as many closers as openers
have been read.  So it has as many of the one as of the other, and every part of it that begins
with it and ends before its end has more openers (`FirstRegion`).

    A+ & {B- & {C+}} & D-        pre    A+ &
                                 span   {B- & {C+}}
                                 post   & D-

Main results: for two different characters the first region is what a cut takes out
(`cutRegion_eq_some_iff`), there is at most one (`FirstRegion.unique`), and if a text has an
opener but no region then the fault names the first opener (`cutRegion_eq_error_iff`).  The scan
may count bytes and open brackets as it goes, with a counter that starts before the first
opener: it is never counted down at zero, and what it cuts out begins and ends between two
characters (`ByBytes.cutRegion_eq`).
-/
import Mathlib
import LinkGrammar.Proofs.Formula.Region

namespace LinkGrammar.Formula

variable {opener closer : Char}

/-! ### Up to the closer -/

/-- The text ends with the first closer of a bracket that was opened before it.  Before the
text `depth` more brackets were opened. -/
structure Closes (opener closer : Char) (depth : Nat) (s : Text) : Prop where
  total : s.count closer = s.count opener + depth + 1
  before : ∀ p, p <+: s → p ≠ s → p.count closer ≤ p.count opener + depth

theorem not_closes_nil (depth : Nat) : ¬ Closes opener closer depth [] := by
  intro h
  have htotal := h.total
  simp at htotal

/-- The empty part of a text is of no account. -/
theorem closes_cons_iff {depth : Nat} {c : Char} {s : Text} :
    Closes opener closer depth (c :: s)
      ↔ (c :: s).count closer = (c :: s).count opener + depth + 1 ∧
        ∀ p, p <+: s → p ≠ s → (c :: p).count closer ≤ (c :: p).count opener + depth := by
  constructor
  · intro h
    refine ⟨h.total, fun p hp hne => h.before (c :: p) ?_ ?_⟩
    · exact List.cons_prefix_cons.2 ⟨rfl, hp⟩
    · exact fun he => hne (List.cons.inj he).2
  · rintro ⟨htotal, hbefore⟩
    refine ⟨htotal, fun p hp hne => ?_⟩
    rcases List.prefix_cons_iff.1 hp with rfl | ⟨q, rfl, hq⟩
    · exact Nat.zero_le _
    · exact hbefore q hq fun he => hne (he ▸ rfl)

/-- What the first character adds to the numbers of brackets, `depth'` has in advance. -/
theorem closes_cons_of_shift {depth depth' : Nat} {c : Char} {s : Text}
    (hshift : ∀ p : Text, (c :: p).count closer + (p.count opener + depth')
      = p.count closer + ((c :: p).count opener + depth)) :
    Closes opener closer depth (c :: s) ↔ Closes opener closer depth' s := by
  rw [closes_cons_iff]
  have hs := hshift s
  constructor
  · rintro ⟨htotal, hbefore⟩
    refine ⟨by omega, fun p hp hne => ?_⟩
    have hp' := hshift p
    have := hbefore p hp hne
    omega
  · rintro ⟨htotal, hbefore⟩
    refine ⟨by omega, fun p hp hne => ?_⟩
    have hp' := hshift p
    have := hbefore p hp hne
    omega

/-- An opener at the front is one level more. -/
theorem closes_cons_opener (h : opener ≠ closer) {depth : Nat} {s : Text} :
    Closes opener closer depth (opener :: s) ↔ Closes opener closer (depth + 1) s := by
  apply closes_cons_of_shift
  intro p
  rw [List.count_cons_of_ne h, List.count_cons_self]
  omega

/-- A closer at the front is one level less. -/
theorem closes_cons_closer_succ (h : opener ≠ closer) {depth : Nat} {s : Text} :
    Closes opener closer (depth + 1) (closer :: s) ↔ Closes opener closer depth s := by
  apply closes_cons_of_shift
  intro p
  rw [List.count_cons_of_ne h.symm, List.count_cons_self]
  omega

/-- All else at the front is on the same level. -/
theorem closes_cons_of_ne {depth : Nat} {c : Char} (ho : c ≠ opener) (hc : c ≠ closer) {s : Text} :
    Closes opener closer depth (c :: s) ↔ Closes opener closer depth s := by
  apply closes_cons_of_shift
  intro p
  rw [List.count_cons_of_ne ho, List.count_cons_of_ne hc]

/-- With no level left the text ends with the closer. -/
theorem closes_cons_closer_zero (h : opener ≠ closer) {s : Text} :
    Closes opener closer 0 (closer :: s) ↔ s = [] := by
  rw [closes_cons_iff]
  constructor
  · rintro ⟨-, hbefore⟩
    by_contra hne
    have := hbefore [] List.nil_prefix (Ne.symm hne)
    rw [List.count_cons_self, List.count_cons_of_ne h.symm] at this
    exact absurd this (Nat.not_succ_le_zero 0)
  · rintro rfl
    refine ⟨?_, fun p hp hne => absurd (List.prefix_nil.1 hp) hne⟩
    rw [List.count_cons_self, List.count_cons_of_ne h.symm]
    rfl

/-- Two ways to say that a part was put in front of what is read. -/
theorem map_cons_eq_some_iff {o : Option (Text × Text)} {c : Char} {s r : Text} :
    o.map (fun (s, r) => (c :: s, r)) = some (s, r) ↔ ∃ s', s = c :: s' ∧ o = some (s', r) := by
  rw [Option.map_eq_some_iff]
  constructor
  · rintro ⟨⟨s', r'⟩, ho, he⟩
    obtain ⟨rfl, rfl⟩ := Prod.mk.inj he
    exact ⟨s', rfl, ho⟩
  · rintro ⟨s', rfl, ho⟩
    exact ⟨(s', r), ho, rfl⟩

/-- The scan for a closer finds the part of the text that ends with it. -/
theorem untilCloser?_eq_some_iff (h : opener ≠ closer) {depth : Nat} {t s r : Text} :
    untilCloser? opener closer depth t = some (s, r)
      ↔ t = s ++ r ∧ Closes opener closer depth s := by
  constructor
  · intro hscan
    refine ⟨append_of_untilCloser? hscan, ?_⟩
    fun_induction untilCloser? opener closer depth t generalizing s with
    | case1 => cases hscan
    | case2 depth t ih =>
      obtain ⟨s', rfl, hs'⟩ := map_cons_eq_some_iff.1 hscan
      exact (closes_cons_opener h).2 (ih hs')
    | case3 t hne =>
      obtain ⟨rfl, rfl⟩ := Prod.mk.inj (Option.some.inj hscan)
      exact (closes_cons_closer_zero h).2 rfl
    | case4 t depth hne ih =>
      obtain ⟨s', rfl, hs'⟩ := map_cons_eq_some_iff.1 hscan
      exact (closes_cons_closer_succ h).2 (ih hs')
    | case5 depth c t ho hc ih =>
      obtain ⟨s', rfl, hs'⟩ := map_cons_eq_some_iff.1 hscan
      exact (closes_cons_of_ne ho hc).2 (ih hs')
  · rintro ⟨rfl, hs⟩
    induction s generalizing depth with
    | nil => exact absurd hs (not_closes_nil depth)
    | cons c s ih =>
      by_cases ho : c = opener
      · subst ho
        rw [List.cons_append, untilCloser?_opener, ih ((closes_cons_opener h).1 hs)]
        rfl
      by_cases hc : c = closer
      · subst hc
        cases depth with
        | zero =>
          rw [(closes_cons_closer_zero h).1 hs]
          exact untilCloser?_closer_zero h r
        | succ depth =>
          rw [List.cons_append, untilCloser?_closer_succ h, ih ((closes_cons_closer_succ h).1 hs)]
          rfl
      · rw [List.cons_append, untilCloser?_of_ne ho hc, ih ((closes_cons_of_ne ho hc).1 hs)]
        rfl

/-! ### The first region -/

/-- The first region of a text, and what stands before and behind it. -/
structure FirstRegion (opener closer : Char) (t pre span post : Text) : Prop where
  text : t = pre ++ span ++ post
  before : opener ∉ pre
  head : span.head? = some opener
  last : span.getLast? = some closer
  even : span.count opener = span.count closer
  inside : ∀ p, p <+: span → p ≠ [] → p ≠ span → p.count closer < p.count opener

theorem Closes.getLast? {s : Text} (h : Closes opener closer 0 s) : s.getLast? = some closer := by
  induction s using List.reverseRecOn with
  | nil => exact absurd h (not_closes_nil 0)
  | append_singleton s c _ =>
    -- without its last character the text has too few closers
    have hbefore := h.before s (List.prefix_append s [c]) (by simp)
    have htotal := h.total
    rw [List.count_append, List.count_append] at htotal
    by_cases hc : c = closer
    · rw [List.getLast?_concat, hc]
    · rw [List.count_singleton, if_neg (by simpa using hc)] at htotal
      omega

/-- The first region begins at the first opener. -/
theorem firstRegion_iff (h : opener ≠ closer) {t pre span post : Text} :
    FirstRegion opener closer t pre span post
      ↔ opener ∉ pre ∧ ∃ s, Closes opener closer 0 s ∧ span = opener :: s ∧
          t = pre ++ opener :: (s ++ post) := by
  have hopener (p : Text) : (opener :: p).count opener = p.count opener + 1 :=
    List.count_cons_self
  have hcloser (p : Text) : (opener :: p).count closer = p.count closer := List.count_cons_of_ne h
  constructor
  · rintro ⟨rfl, hbefore, hhead, -, heven, hinside⟩
    obtain ⟨s, rfl⟩ := List.head?_eq_some_iff.1 hhead
    refine ⟨hbefore, s, ⟨?_, fun p hp hne => ?_⟩, rfl, by simp⟩
    · rw [hopener, hcloser] at heven
      exact heven.symm
    · have := hinside (opener :: p) (List.cons_prefix_cons.2 ⟨rfl, hp⟩) (List.cons_ne_nil _ _)
        fun he => hne (List.cons.inj he).2
      rw [hopener, hcloser] at this
      exact Nat.le_of_lt_succ this
  · rintro ⟨hbefore, s, hs, rfl, rfl⟩
    refine ⟨by simp, hbefore, rfl, ?_, ?_, fun p hp hnil hne => ?_⟩
    · rw [List.getLast?_cons, hs.getLast?]
      rfl
    · rw [hopener, hcloser]
      exact hs.total.symm
    · rcases List.prefix_cons_iff.1 hp with rfl | ⟨q, rfl, hq⟩
      · exact absurd rfl hnil
      · rw [hopener, hcloser]
        exact Nat.lt_succ_of_le (hs.before q hq fun he => hne (he ▸ rfl))

/-! ### Cutting it out -/

/-- Nothing is cut if there is no opener. -/
theorem cutRegion_eq_none_iff {t : Text} :
    cutRegion opener closer t = .ok none ↔ opener ∉ t := by
  refine ⟨fun hcut ht => ?_, cutRegion_of_not_mem⟩
  obtain ⟨x, u, rfl, hx⟩ := List.eq_append_cons_of_mem ht
  rw [cutRegion_append hx] at hcut
  split at hcut <;> cases hcut

/-- What is cut is the first region. -/
theorem cutRegion_eq_some_iff (h : opener ≠ closer) {t span rest : Text} :
    cutRegion opener closer t = .ok (some ⟨span, rest⟩)
      ↔ ∃ pre post, FirstRegion opener closer t pre span post ∧ rest = pre ++ post := by
  constructor
  · intro hcut
    by_cases ht : opener ∈ t
    · obtain ⟨x, u, rfl, hx⟩ := List.eq_append_cons_of_mem ht
      rw [cutRegion_append hx] at hcut
      split at hcut
      · next s y hscan =>
        obtain ⟨rfl, rfl⟩ := Cut.mk.inj (Option.some.inj (Except.ok.inj hcut))
        obtain ⟨rfl, hs⟩ := (untilCloser?_eq_some_iff h).1 hscan
        exact ⟨x, y, (firstRegion_iff h).2 ⟨hx, s, hs, rfl, rfl⟩, rfl⟩
      · cases hcut
    · cases (cutRegion_of_not_mem ht).symm.trans hcut
  · rintro ⟨pre, post, ht, rfl⟩
    obtain ⟨hpre, s, hs, rfl, rfl⟩ := (firstRegion_iff h).1 ht
    rw [cutRegion_append hpre, (untilCloser?_eq_some_iff h).2 ⟨rfl, hs⟩]

/-- A fault names the first opener. -/
theorem eq_unbalanced_of_cutRegion {x u : Text} {e : FormulaError} (hx : opener ∉ x)
    (hcut : cutRegion opener closer (x ++ opener :: u) = .error e) :
    e = .unbalanced (x ++ opener :: u) opener (Text.byteLength x) := by
  rw [cutRegion_append hx] at hcut
  split at hcut
  · cases hcut
  · exact (Except.error.inj hcut).symm

/-- It is an error if the first opener has no closer. -/
theorem cutRegion_eq_error_iff (h : opener ≠ closer) {t : Text} {e : FormulaError} :
    cutRegion opener closer t = .error e
      ↔ (¬ ∃ pre span post, FirstRegion opener closer t pre span post) ∧
        ∃ pre post, t = pre ++ opener :: post ∧ opener ∉ pre ∧
          e = .unbalanced t opener (Text.byteLength pre) := by
  constructor
  · intro hcut
    refine ⟨?_, ?_⟩
    · rintro ⟨pre, span, post, ht⟩
      cases hcut.symm.trans ((cutRegion_eq_some_iff h).2 ⟨pre, post, ht, rfl⟩)
    · by_cases ht : opener ∈ t
      · obtain ⟨x, u, rfl, hx⟩ := List.eq_append_cons_of_mem ht
        exact ⟨x, u, rfl, hx, eq_unbalanced_of_cutRegion hx hcut⟩
      · cases (cutRegion_of_not_mem ht).symm.trans hcut
  · rintro ⟨hnone, pre, post, rfl, hpre, rfl⟩
    -- nothing but the fault is left
    cases hcut : cutRegion opener closer (pre ++ opener :: post) with
    | error e => rw [eq_unbalanced_of_cutRegion hpre hcut]
    | ok cut? =>
      cases cut? with
      | none => exact absurd (by simp) (cutRegion_eq_none_iff.1 hcut)
      | some cut =>
        obtain ⟨pre', post', ht, -⟩ := (cutRegion_eq_some_iff h).1 hcut
        exact absurd ⟨pre', cut.region, post', ht⟩ hnone

/-- There is at most one first region. -/
theorem FirstRegion.unique (h : opener ≠ closer) {t pre span post pre' span' post' : Text}
    (ht : FirstRegion opener closer t pre span post)
    (ht' : FirstRegion opener closer t pre' span' post') :
    pre = pre' ∧ span = span' ∧ post = post' := by
  have hcut := (cutRegion_eq_some_iff h).2 ⟨pre, post, ht, rfl⟩
  have hcut' := (cutRegion_eq_some_iff h).2 ⟨pre', post', ht', rfl⟩
  obtain ⟨rfl, hrest⟩ := Cut.mk.inj (Option.some.inj (Except.ok.inj (hcut.symm.trans hcut')))
  obtain ⟨hpre, s, -, rfl, rfl⟩ := (firstRegion_iff h).1 ht
  obtain ⟨hpre', s', -, -, htext⟩ := (firstRegion_iff h).1 ht'
  obtain rfl : pre = pre' := by
    rw [← Text.takeWhile_ne_append hpre (s ++ post), htext, Text.takeWhile_ne_append hpre']
  exact ⟨rfl, rfl, List.append_cancel_left hrest⟩

/-! ### The scan by bytes -/

namespace ByBytes

/-- Why the scan by bytes stops without an answer. -/
inductive Fault where
  /-- the counter is counted down at zero -/
  | belowZero
  /-- a slice begins or ends inside a character, or behind the text -/
  | betweenBytes
  /-- the region is not closed -/
  | unclosed (error : FormulaError)
  deriving DecidableEq

/-- The text up to a byte, and the text from there. -/
def split : Text → Nat → Except Fault (Text × Text)
  | t, 0 => .ok ([], t)
  | [], _ + 1 => .error .betweenBytes
  | c :: t, i + 1 =>
    if c.utf8Size ≤ i + 1 then
      (split t (i + 1 - c.utf8Size)).map fun (s, r) => (c :: s, r)
    else .error .betweenBytes

/-- The byte of the first occurrence of a character. -/
def firstAt? (c : Char) : Text → Option Nat
  | [] => none
  | d :: t => if d = c then some 0 else (firstAt? c t).map (d.utf8Size + ·)

/-- The byte behind the closer that brings the number of open brackets back to zero.  The
text begins at byte `i`, and `depth` brackets are open. -/
def endFrom (opener closer : Char) (depth i : Nat) : Text → Except Fault (Option Nat)
  | [] => .ok none
  | c :: t =>
    if c = opener then endFrom opener closer (depth + 1) (i + c.utf8Size) t
    else if c = closer then
      match depth with
      | 0 => .error .belowZero
      | depth + 1 =>
        if depth = 0 then .ok (some (i + c.utf8Size))
        else endFrom opener closer depth (i + c.utf8Size) t
    else endFrom opener closer depth (i + c.utf8Size) t

/-- Cut the first region out of a text, with bytes for its ends. -/
def cutRegion (opener closer : Char) (t : Text) : Except Fault (Option Cut) :=
  match firstAt? opener t with
  | none => .ok none
  | some start => do
    let (before, behind) ← split t start
    match ← endFrom opener closer 0 start behind with
    | none => .error (.unclosed (.unbalanced t opener start))
    | some stop => do
      let (front, after) ← split t stop
      let (_, region) ← split front start
      return some ⟨region, before ++ after⟩

-- the counter can be counted down at zero, only not by `cutRegion`
example : endFrom '{' '}' 0 0 ['}'] = .error .belowZero := rfl

theorem split_byteLength (s t : Text) : split (s ++ t) (Text.byteLength s) = .ok (s, t) := by
  induction s with
  | nil => cases t <;> rfl
  | cons c s ih =>
    obtain ⟨n, hn⟩ := Nat.exists_eq_add_one.2 c.utf8Size_pos
    rw [List.cons_append, Text.byteLength_cons, hn, Nat.add_right_comm, split, hn,
      if_pos (by omega), Nat.add_right_comm, Nat.add_sub_cancel_left, ih]
    rfl

theorem firstAt?_of_not_mem {c : Char} {t : Text} (h : c ∉ t) : firstAt? c t = none := by
  induction t with
  | nil => rfl
  | cons d t ih =>
    rw [firstAt?, if_neg fun e : d = c => h (e ▸ .head _), ih fun ht => h (.tail _ ht)]
    rfl

theorem firstAt?_append {c : Char} {x : Text} (hx : c ∉ x) (t : Text) :
    firstAt? c (x ++ c :: t) = some (Text.byteLength x) := by
  induction x with
  | nil => exact if_pos rfl
  | cons d x ih =>
    rw [List.cons_append, firstAt?, if_neg fun e : d = c => hx (e ▸ .head _),
      ih fun h => hx (.tail _ h)]
    rfl

/-- With the opener that the scan starts from the counter is one ahead. -/
theorem endFrom_succ (depth i : Nat) (t : Text) :
    endFrom opener closer (depth + 1) i t
      = .ok ((untilCloser? opener closer depth t).map fun (s, _) => i + Text.byteLength s) := by
  fun_induction untilCloser? opener closer depth t generalizing i with
  | case1 => rfl
  | case2 depth t ih =>
    rw [endFrom, if_pos rfl, ih, Option.map_map]
    congr 2
    funext x
    simp [Nat.add_assoc]
  | case3 t hne =>
    rw [endFrom, if_neg hne, if_pos rfl]
    rfl
  | case4 t depth hne ih =>
    rw [endFrom, if_neg hne, if_pos rfl]
    show (if depth + 1 = 0 then _ else _) = _
    rw [if_neg (Nat.succ_ne_zero depth), ih, Option.map_map]
    congr 2
    funext x
    simp [Nat.add_assoc]
  | case5 depth c t ho hc ih =>
    rw [endFrom, if_neg ho, if_neg hc, ih, Option.map_map]
    congr 2
    funext x
    simp [Nat.add_assoc]

/-- The scan by bytes never faults but where a region is not closed. -/
theorem cutRegion_eq (opener closer : Char) (t : Text) :
    cutRegion opener closer t = (Formula.cutRegion opener closer t).mapError .unclosed := by
  by_cases ht : opener ∈ t
  · obtain ⟨x, u, rfl, hx⟩ := List.eq_append_cons_of_mem ht
    have hend : endFrom opener closer 0 (Text.byteLength x) (opener :: u)
        = .ok ((untilCloser? opener closer 0 u).map fun (s, _) =>
            Text.byteLength (x ++ [opener]) + Text.byteLength s) := by
      rw [endFrom, if_pos rfl, endFrom_succ, Text.byteLength_append]
      rfl
    rw [cutRegion, firstAt?_append hx, cutRegion_append hx]
    show (split _ _ >>= fun x => _) = _
    rw [split_byteLength]
    show (endFrom _ _ _ _ _ >>= fun x => _) = _
    rw [hend]
    rcases hscan : untilCloser? opener closer 0 u with - | ⟨s, y⟩
    · rfl
    · -- the text up to the byte `stop` is what stands before the region, and the region
      have hstop : split (x ++ opener :: u) (Text.byteLength (x ++ [opener]) + Text.byteLength s)
          = .ok (x ++ opener :: s, y) := by
        rw [← Text.byteLength_append, append_of_untilCloser? hscan, ← split_byteLength]
        simp
      show (split _ _ >>= fun x => _) = _
      rw [hstop]
      show (split _ _ >>= fun x => _) = _
      rw [split_byteLength]
      rfl
  · rw [cutRegion, firstAt?_of_not_mem ht, cutRegion_of_not_mem ht]
    rfl

end ByBytes

/-! ### The first region is cut out -/

/-- What a cut gives, for every text and every two characters. -/
theorem cutRegion_iff (h : opener ≠ closer) (t : Text) :
    (cutRegion opener closer t = .ok none ↔ opener ∉ t) ∧
    (∀ span rest, cutRegion opener closer t = .ok (some ⟨span, rest⟩)
      ↔ ∃ pre post, FirstRegion opener closer t pre span post ∧ rest = pre ++ post) ∧
    (∀ pre span post pre' span' post', FirstRegion opener closer t pre span post →
      FirstRegion opener closer t pre' span' post' → pre = pre' ∧ span = span' ∧ post = post') ∧
    (∀ e, cutRegion opener closer t = .error e
      ↔ (¬ ∃ pre span post, FirstRegion opener closer t pre span post) ∧
        ∃ pre post, t = pre ++ opener :: post ∧ opener ∉ pre ∧
          e = .unbalanced t opener (Text.byteLength pre)) ∧
    ByBytes.cutRegion opener closer t = (cutRegion opener closer t).mapError .unclosed :=
  ⟨cutRegion_eq_none_iff, fun _ _ => cutRegion_eq_some_iff h,
    fun _ _ _ _ _ _ => FirstRegion.unique h, fun _ => cutRegion_eq_error_iff h,
    ByBytes.cutRegion_eq opener closer t⟩

/-- A nested region is not cut out on its own. -/
theorem cutRegion_nested :
    '{' ≠ '}' ∧ ∃ pre post,
      FirstRegion '{' '}' "A+ & {B- & {C+}} & D-".toList pre "{B- & {C+}}".toList post ∧
        "A+ &  & D-".toList = pre ++ post :=
  ⟨by decide, ((cutRegion_iff (by decide) _).2.1 _ _).1 rfl⟩

end LinkGrammar.Formula
