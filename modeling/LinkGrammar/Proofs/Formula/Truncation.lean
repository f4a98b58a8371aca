/-
LinkGrammar/Proofs/Formula/Truncation.lean

When dropped disjuncts are noticed.

Each node keeps at most `maxDisjuncts` disjuncts and notes when it drops some.  Under `{…}` and
`&` what it drops shows in the number of disjuncts that it was given.  A choice stops as soon as
it has enough, and does not look at the operands that are left; if it has exactly as many as it
may keep, it notes nothing:

    ({A} & … & {A}) or B       2048 disjuncts of the first operand, and none of the second

So what is dropped unnoticed is dropped by such a choice (`Unnoticed.full`), and stays unnoticed
as long as the nodes around it add nothing: below a cost bracket, as the first operand of another
choice, and in a conjunction whose other operands have one disjunct each.

Main result: for formulas that are read the flag is raised exactly if there are more than
`maxDisjuncts` disjuncts, unless the formula is `Unnoticed`; and of those formulas disjuncts are
dropped.
-/
import Mathlib
import LinkGrammar.Proofs.Formula.Canonical
import LinkGrammar.Proofs.Formula.Expansion

namespace LinkGrammar.Formula

/-! ### Numbers of disjuncts -/

/-- The number of all disjuncts. -/
def count (f : Formula) : Nat := (disjuncts f).length

/-- The number of ways to choose a disjunct of each. -/
def countAll (fs : List Formula) : Nat := (disjunctsOfAll fs).length

/-- The number of disjuncts of all of them. -/
def countAny (fs : List Formula) : Nat := (disjunctsOfAny fs).length

@[simp] theorem countAll_nil : countAll [] = 1 := by
  rw [countAll, disjunctsOfAll]
  rfl

@[simp] theorem countAll_cons (f : Formula) (fs : List Formula) :
    countAll (f :: fs) = count f * countAll fs := by
  rw [countAll, disjunctsOfAll, length_product]
  rfl

@[simp] theorem countAny_nil : countAny [] = 0 := by
  rw [countAny, disjunctsOfAny]
  rfl

@[simp] theorem countAny_cons (f : Formula) (fs : List Formula) :
    countAny (f :: fs) = count f + countAny fs := by
  rw [countAny, disjunctsOfAny, List.length_append]
  rfl

theorem countAll_append (fs gs : List Formula) :
    countAll (fs ++ gs) = countAll fs * countAll gs := by
  induction fs with
  | nil => simp
  | cons f fs ih => simp [ih, Nat.mul_assoc]

theorem countAny_append (fs gs : List Formula) :
    countAny (fs ++ gs) = countAny fs + countAny gs := by
  induction fs with
  | nil => simp
  | cons f fs ih => simp [ih, Nat.add_assoc]

theorem count_and (fs : List Formula) : count (and fs) = countAll fs := by
  rw [count, disjuncts, countAll]

theorem count_or (fs : List Formula) : count (or fs) = countAny fs := by
  rw [count, disjuncts, countAny]

/-- One disjunct more: the choice of nothing. -/
theorem count_optional (f : Formula) : count (optional f) = count f + 1 := by
  rw [count, disjuncts, count, List.length_cons]

theorem count_cost (f : Formula) : count (cost f) = count f := by
  rw [count, disjuncts, count]

/-- As many disjuncts are kept as there are, up to the limit. -/
theorem length_expand (f : Formula) :
    (expand f).disjuncts.length = min maxDisjuncts (count f) := by
  rw [disjuncts_expand, List.length_take, count]

mutual

/-- A formula that is read admits something. -/
theorem count_pos : (f : Formula) → Canonical f → 0 < count f
  | leaf name, _ => by
    rw [count, disjuncts]
    exact Nat.one_pos
  | and fs, h => by
    rw [count_and]
    exact countAll_pos fs h.2
  | or fs, h => by
    rw [count_or]
    apply countAny_pos fs h.2
    rintro rfl
    exact absurd h.1 (by simp)
  | optional f, _ => by
    rw [count_optional]
    exact Nat.succ_pos _
  | cost f, h => by
    rw [count_cost]
    exact count_pos f h

/-- Canonical operands have a disjunct together. -/
theorem countAll_pos : (fs : List Formula) → AllCanonical fs → 0 < countAll fs
  | [], _ => by simp
  | f :: fs, h => by
    rw [countAll_cons]
    exact Nat.mul_pos (count_pos f h.1) (countAll_pos fs h.2)

/-- One canonical operand is enough for a disjunct of a choice. -/
theorem countAny_pos : (fs : List Formula) → AllCanonical fs → fs ≠ [] → 0 < countAny fs
  | [], _, hne => absurd rfl hne
  | f :: fs, h, _ => by
    rw [countAny_cons]
    exact Nat.add_pos_left (count_pos f h.1) _

end

/-- There is one choice from all operands if there is one from each. -/
theorem countAll_eq_one_iff {fs : List Formula} : countAll fs = 1 ↔ ∀ f ∈ fs, count f = 1 := by
  induction fs with
  | nil => simp
  | cons f fs ih => rw [countAll_cons, mul_eq_one, List.forall_mem_cons, ih]

/-! ### Formulas that drop disjuncts unnoticed -/

/-- Disjuncts of the formula are dropped, and no node sees it. -/
inductive Unnoticed : Formula → Prop
  /-- a choice that is full before its last operands -/
  | full {front back : List Formula} : countAny front = maxDisjuncts → back ≠ [] →
    Unnoticed (or (front ++ back))
  | cost {f : Formula} : Unnoticed f → Unnoticed (cost f)
  /-- a choice that is full with what its first operand kept -/
  | first {f : Formula} {fs : List Formula} : Unnoticed f → Unnoticed (or (f :: fs))
  /-- a conjunction that only adds the same parts to each disjunct -/
  | alone {f : Formula} {front back : List Formula} : Unnoticed f →
    (∀ g ∈ front ++ back, count g = 1) → Unnoticed (and (front ++ f :: back))

/-- One operand is `Unnoticed`, and the others have one disjunct each. -/
def OneUnnoticed (fs : List Formula) : Prop :=
  ∃ front f back, fs = front ++ f :: back ∧ Unnoticed f ∧ ∀ g ∈ front ++ back, count g = 1

/-- A choice among the operands, when `found` disjuncts are found already, is full before the
last of them, or with what the first of them kept. -/
def FullUnnoticed (found : Nat) (fs : List Formula) : Prop :=
  (∃ front back, fs = front ++ back ∧ found + countAny front = maxDisjuncts ∧ back ≠ []) ∨
    (found = 0 ∧ ∃ f ∈ fs.head?, Unnoticed f)

/-- Where `&` drops disjuncts without notice, one operand does. -/
theorem unnoticed_and_iff {fs : List Formula} : Unnoticed (and fs) ↔ OneUnnoticed fs := by
  constructor
  · intro h
    cases h with
    | alone hf hone => exact ⟨_, _, _, rfl, hf, hone⟩
  · rintro ⟨front, f, back, rfl, hf, hone⟩
    exact .alone hf hone

/-- Where `or` drops them without notice, it is full when operands are left. -/
theorem unnoticed_or_iff {fs : List Formula} : Unnoticed (or fs) ↔ FullUnnoticed 0 fs := by
  constructor
  · intro h
    cases h with
    | full hfull hne => exact .inl ⟨_, _, rfl, by rw [Nat.zero_add, hfull], hne⟩
    | first hf => exact .inr ⟨rfl, _, rfl, hf⟩
  · rintro (⟨front, back, rfl, hfull, hne⟩ | ⟨-, f, hhead, hf⟩)
    · exact .full (by rw [← hfull, Nat.zero_add]) hne
    · obtain ⟨fs, rfl⟩ := List.head?_eq_some_iff.1 hhead
      exact .first hf

theorem unnoticed_cost_iff {f : Formula} : Unnoticed (Formula.cost f) ↔ Unnoticed f := by
  constructor
  · intro h
    cases h with
    | cost hf => exact hf
  · exact .cost

/-- An optional part never drops disjuncts without notice. -/
theorem not_unnoticed_optional {f : Formula} : ¬Unnoticed (optional f) := nofun

/-- The first operand drops disjuncts unnoticed and the others have one each, or it has one
itself and one of the others drops some. -/
theorem oneUnnoticed_cons_iff {f : Formula} {fs : List Formula} :
    OneUnnoticed (f :: fs) ↔
      (Unnoticed f ∧ countAll fs = 1) ∨ (count f = 1 ∧ OneUnnoticed fs) := by
  rw [countAll_eq_one_iff]
  constructor
  · rintro ⟨front, g, back, hsplit, hg, hone⟩
    rcases front with - | ⟨f', front⟩
    · obtain ⟨rfl, rfl⟩ := List.cons.inj hsplit
      exact .inl ⟨hg, hone⟩
    · obtain ⟨rfl, rfl⟩ := List.cons.inj hsplit
      obtain ⟨hf, hone⟩ := List.forall_mem_cons.1 hone
      exact .inr ⟨hf, front, g, back, rfl, hg, hone⟩
  · rintro (⟨hf, hone⟩ | ⟨hf, front, g, back, rfl, hg, hone⟩)
    · exact ⟨[], f, fs, rfl, hf, hone⟩
    · exact ⟨f :: front, g, back, rfl, hg, List.forall_mem_cons.2 ⟨hf, hone⟩⟩

/-- Of an `Unnoticed` formula disjuncts are dropped. -/
theorem Unnoticed.lt_count {f : Formula} (h : Unnoticed f) (hf : Canonical f) :
    maxDisjuncts < count f := by
  induction h with
  | @full front back hfull hne =>
    have hback : AllCanonical back :=
      allCanonical_iff.2 fun g hg => allCanonical_iff.1 hf.2 g (List.mem_append_right front hg)
    rw [count_or, countAny_append, hfull]
    exact Nat.lt_add_of_pos_right (countAny_pos back hback hne)
  | cost _ ih =>
    rw [count_cost]
    exact ih hf
  | first _ ih =>
    rw [count_or, countAny_cons]
    exact Nat.lt_add_right _ (ih hf.2.1)
  | @alone f front back _ hone ih =>
    have hfront : countAll front = 1 :=
      countAll_eq_one_iff.2 fun g hg => hone g (List.mem_append_left back hg)
    have hback : countAll back = 1 :=
      countAll_eq_one_iff.2 fun g hg => hone g (List.mem_append_right front hg)
    rw [count_and, countAll_append, countAll_cons, hfront, hback, Nat.one_mul, Nat.mul_one]
    exact ih (allCanonical_iff.1 hf.2 f (by simp))

/-! ### One operand more -/

/-- What the flag of a formula is to say. -/
def Noticed (f : Formula) : Prop := maxDisjuncts < count f ∧ ¬Unnoticed f

theorem one_lt_maxDisjuncts : 1 < maxDisjuncts := by decide

variable {f : Formula} {fs : List Formula}

/-- Behind an operand of `&` that dropped some unnoticed, whatever multiplies the disjuncts shows. -/
theorem noticed_all_of_unnoticed (hlt : maxDisjuncts < count f) (hun : Unnoticed f)
    (hN : 0 < countAll fs) :
    maxDisjuncts < maxDisjuncts * countAll fs ∧ ¬(maxDisjuncts = 1 ∧ OneUnnoticed fs) ↔
      maxDisjuncts < count f * countAll fs ∧
        ¬(Unnoticed f ∧ countAll fs = 1 ∨ count f = 1 ∧ OneUnnoticed fs) := by
  have hlimit := one_lt_maxDisjuncts
  have hfull : maxDisjuncts < count f * countAll fs :=
    Nat.lt_of_lt_of_le hlt (Nat.le_mul_of_pos_right _ hN)
  constructor
  · rintro ⟨hmany, -⟩
    refine ⟨hfull, ?_⟩
    rintro (⟨-, hone⟩ | ⟨hone, -⟩)
    · rw [hone, Nat.mul_one] at hmany
      exact Nat.lt_irrefl _ hmany
    · omega
  · rintro ⟨-, hnone⟩
    have hne : countAll fs ≠ 1 := fun hone => hnone (.inl ⟨hun, hone⟩)
    exact ⟨(Nat.lt_mul_iff_one_lt_right (by omega)).2 (by omega), fun h => by omega⟩

/-- An operand of `&` behind which `chosen` choices are kept of those before it. -/
theorem noticed_all_cons {chosen : Nat} (hf : Canonical f) (hfs : AllCanonical fs)
    (hpos : 0 < chosen) (hle : chosen ≤ maxDisjuncts) :
    (Noticed f ∨ maxDisjuncts < chosen * min maxDisjuncts (count f) ∨
        (maxDisjuncts < min maxDisjuncts (chosen * min maxDisjuncts (count f)) * countAll fs ∧
          ¬(min maxDisjuncts (chosen * min maxDisjuncts (count f)) = 1 ∧ OneUnnoticed fs))) ↔
      maxDisjuncts < chosen * countAll (f :: fs) ∧ ¬(chosen = 1 ∧ OneUnnoticed (f :: fs)) := by
  have hlimit := one_lt_maxDisjuncts
  have hn := count_pos f hf
  have hN := countAll_pos fs hfs
  rw [countAll_cons, oneUnnoticed_cons_iff, ← Nat.mul_assoc]
  have hmore : chosen * count f ≤ chosen * count f * countAll fs := Nat.le_mul_of_pos_right _ hN
  by_cases hnoticed : Noticed f
  · -- the operand noticed, and the others do not undo it
    have hlt : maxDisjuncts < chosen * count f * countAll fs :=
      Nat.lt_of_lt_of_le hnoticed.1 (Nat.le_trans (Nat.le_mul_of_pos_left _ hpos) hmore)
    refine iff_of_true (.inl hnoticed) ⟨hlt, ?_⟩
    rintro ⟨-, ⟨hun, -⟩ | ⟨hone, -⟩⟩
    · exact hnoticed.2 hun
    · exact absurd hnoticed.1 (by omega)
  by_cases hbig : maxDisjuncts < chosen * min maxDisjuncts (count f)
  · -- the product itself is too large
    have hlt : maxDisjuncts < chosen * count f * countAll fs :=
      Nat.lt_of_lt_of_le hbig
        (Nat.le_trans (Nat.mul_le_mul_left _ (Nat.min_le_right _ _)) hmore)
    refine iff_of_true (.inr (.inl hbig)) ⟨hlt, ?_⟩
    rintro ⟨rfl, -⟩
    rw [Nat.one_mul] at hbig
    exact absurd hbig (Nat.not_lt.2 (Nat.min_le_left _ _))
  rw [or_iff_right hnoticed, or_iff_right hbig, Nat.min_eq_right (Nat.not_lt.1 hbig)]
  by_cases hkept : count f ≤ maxDisjuncts
  · -- nothing is dropped here
    have hun : ¬Unnoticed f := fun h => absurd (h.lt_count hf) (Nat.not_lt.2 hkept)
    rw [Nat.min_eq_right hkept, mul_eq_one]
    apply and_congr_right
    intro _
    simp only [hun, false_and, false_or, and_assoc]
  · -- all is dropped unnoticed, so what came before made one choice
    have hlt := Nat.not_le.1 hkept
    have hun : Unnoticed f := by
      by_contra hun
      exact hnoticed ⟨hlt, hun⟩
    rw [Nat.min_eq_left hlt.le] at hbig ⊢
    obtain rfl : chosen = 1 := by
      by_contra hne
      have h2 : 2 * maxDisjuncts ≤ chosen * maxDisjuncts := Nat.mul_le_mul_right _ (by omega)
      omega
    rw [Nat.one_mul, Nat.one_mul, noticed_all_of_unnoticed hlt hun hN, eq_self, true_and]

/-- The first operand fills the room and others are left, or it leaves room and one of the others
does, or it is the first of all and has dropped disjuncts itself. -/
theorem fullUnnoticed_cons_iff {found : Nat} (hf : Canonical f) (hlt : found < maxDisjuncts) :
    FullUnnoticed found (f :: fs) ↔
      (found + count f = maxDisjuncts ∧ fs ≠ []) ∨
      (found + count f < maxDisjuncts ∧ FullUnnoticed (found + count f) fs) ∨
      (found = 0 ∧ Unnoticed f) := by
  have hn := count_pos f hf
  constructor
  · rintro (⟨front, back, hsplit, hfull, hne⟩ | ⟨hzero, g, hhead, hg⟩)
    · rcases front with - | ⟨f', front⟩
      · rw [countAny_nil] at hfull
        omega
      obtain ⟨rfl, rfl⟩ := List.cons.inj hsplit
      rw [countAny_cons, ← Nat.add_assoc] at hfull
      rcases Nat.eq_zero_or_pos (countAny front) with hzero | hpos
      · exact .inl ⟨by omega, by simp [hne]⟩
      · exact .inr (.inl ⟨by omega, .inl ⟨front, back, rfl, hfull, hne⟩⟩)
    · obtain rfl : f = g := Option.some.inj hhead
      exact .inr (.inr ⟨hzero, hg⟩)
  · rintro (⟨hfull, hne⟩ | ⟨-, ⟨front, back, rfl, hfull, hne⟩ | ⟨hzero, -⟩⟩ | ⟨hzero, hun⟩)
    · exact .inl ⟨[f], fs, rfl, by simpa using hfull, hne⟩
    · exact .inl ⟨f :: front, back, rfl, by rw [countAny_cons, ← Nat.add_assoc, hfull], hne⟩
    · omega
    · exact .inr ⟨hzero, f, rfl, hun⟩

/-- An operand of `or` with which the choice has enough. -/
theorem noticed_any_cons {found : Nat} (hf : Canonical f) (hfs : AllCanonical fs)
    (hlt : found < maxDisjuncts) (hfull : maxDisjuncts ≤ found + min maxDisjuncts (count f)) :
    (Noticed f ∨ maxDisjuncts < found + min maxDisjuncts (count f)) ↔
      maxDisjuncts < found + countAny (f :: fs) ∧ ¬FullUnnoticed found (f :: fs) := by
  rw [countAny_cons, fullUnnoticed_cons_iff hf hlt]
  by_cases hnoticed : Noticed f
  · have hmany := hnoticed.1
    refine iff_of_true (.inl hnoticed) ⟨by omega, ?_⟩
    rintro (⟨heq, -⟩ | ⟨hroom, -⟩ | ⟨-, hun⟩)
    · omega
    · omega
    · exact hnoticed.2 hun
  by_cases hbig : maxDisjuncts < found + min maxDisjuncts (count f)
  · refine iff_of_true (.inr hbig) ⟨by omega, ?_⟩
    rintro (⟨heq, -⟩ | ⟨hroom, -⟩ | ⟨hzero, -⟩)
    · omega
    · omega
    · omega
  -- the choice has exactly enough
  refine iff_of_false (not_or.2 ⟨hnoticed, hbig⟩) fun ⟨hmany, hnone⟩ => hnone ?_
  by_cases hkept : count f ≤ maxDisjuncts
  · refine .inl ⟨by omega, ?_⟩
    rintro rfl
    rw [countAny_nil] at hmany
    omega
  · have hun : Unnoticed f := by
      by_contra hun
      exact hnoticed ⟨Nat.not_le.1 hkept, hun⟩
    exact .inr (.inr ⟨by omega, hun⟩)

/-! ### The flag -/

mutual

/-- The flag of a formula that is read. -/
theorem truncated_expand : (f : Formula) → Canonical f →
    ((expand f).truncated = true ↔ Noticed f)
  | leaf name, _ => by
    have hone : count (leaf name) = 1 := by
      rw [count, disjuncts]
      rfl
    have hlimit := one_lt_maxDisjuncts
    rw [expand, Noticed, hone]
    exact iff_of_false Bool.false_ne_true fun h => absurd h.1 (by omega)
  | and fs, h => by
    have hlimit := one_lt_maxDisjuncts
    have hempty : 0 < (Expansion.mk [[]] false).disjuncts.length := Nat.one_pos
    rw [expand, truncated_expandAll fs h.2 hempty hlimit.le, Noticed, count_and,
      unnoticed_and_iff]
    simp
  | or fs, h => by
    have hany := truncated_expandAny 0 fs h.2 (by decide)
    rw [Nat.zero_add, Nat.zero_add, ← count_or, ← unnoticed_or_iff] at hany
    rw [expand, Expansion.cap, Noticed, ← hany]
    simp
  | optional f, h => by
    have hf := truncated_expand f h.1
    have hlen := length_expand f
    rw [expand, Expansion.cap, Noticed, count_optional]
    simp only [Bool.or_eq_true, decide_eq_true_eq, List.length_cons, hf, hlen]
    -- one disjunct more than are kept shows, however many there are
    refine ⟨?_, fun ⟨hmany, _⟩ => .inr (by omega)⟩
    rintro (hnoticed | hmany)
    · exact ⟨Nat.lt_succ_of_lt hnoticed.1, not_unnoticed_optional⟩
    · exact ⟨by omega, not_unnoticed_optional⟩
  | cost f, h => by
    rw [expand, Noticed, count_cost, unnoticed_cost_iff]
    exact truncated_expand f h

/-- Under `&`, with the choices that are kept of the operands before. -/
theorem truncated_expandAll : (fs : List Formula) → AllCanonical fs → {chosen : Expansion} →
    0 < chosen.disjuncts.length → chosen.disjuncts.length ≤ maxDisjuncts →
    ((expandAll chosen fs).truncated = true ↔ chosen.truncated = true ∨
      (maxDisjuncts < chosen.disjuncts.length * countAll fs ∧
        ¬(chosen.disjuncts.length = 1 ∧ OneUnnoticed fs)))
  | [], _, chosen, _, hle => by
    rw [expandAll, countAll_nil, Nat.mul_one]
    exact (or_iff_left fun h => absurd h.1 (Nat.not_lt.2 hle)).symm
  | f :: fs, h, chosen, hpos, hle => by
    have hlimit := one_lt_maxDisjuncts
    have hkept : (productUpTo maxDisjuncts chosen.disjuncts (expand f).disjuncts).length
        = min maxDisjuncts (chosen.disjuncts.length * min maxDisjuncts (count f)) := by
      rw [productUpTo_eq_take, List.length_take, length_product, length_expand]
    have hkeptPos : 0 < min maxDisjuncts
        (chosen.disjuncts.length * min maxDisjuncts (count f)) :=
      Nat.lt_min.2 ⟨by omega, Nat.mul_pos hpos (Nat.lt_min.2 ⟨by omega, count_pos f h.1⟩)⟩
    rw [expandAll, truncated_expandAll fs h.2 (by rw [hkept]; exact hkeptPos)
      (by rw [hkept]; exact Nat.min_le_left _ _), ← noticed_all_cons h.1 h.2 hpos hle]
    dsimp only
    rw [hkept]
    simp only [Bool.or_eq_true, decide_eq_true_eq, truncated_expand f h.1, length_expand, or_assoc]

/-- Under `or`, with the number of disjuncts that are found already. -/
theorem truncated_expandAny : (found : Nat) → (fs : List Formula) → AllCanonical fs →
    found < maxDisjuncts →
    ((expandAny found fs).truncated = true ∨
        maxDisjuncts < found + (expandAny found fs).disjuncts.length ↔
      maxDisjuncts < found + countAny fs ∧ ¬FullUnnoticed found fs)
  | found, [], _, hlt => by
    rw [expandAny, countAny_nil]
    refine iff_of_false ?_ fun h => absurd h.1 (by omega)
    rintro (h | h)
    · cases h
    · exact absurd h (by simp; omega)
  | found, f :: fs, h, hlt => by
    have hf := truncated_expand f h.1
    have hlen := length_expand f
    rw [expandAny]
    split
    · next hfull =>
      rw [hlen] at hfull
      rw [← noticed_any_cons h.1 h.2 hlt hfull, hf, hlen]
    · next hroom =>
      -- all disjuncts of the operand are kept, and the choice goes on
      rw [hlen] at hroom
      have hall : min maxDisjuncts (count f) = count f := by omega
      have hnoticed : ¬Noticed f := fun hn => absurd hn.1 (by omega)
      have hun : ¬Unnoticed f := fun hun => absurd (hun.lt_count h.1) (by omega)
      have hrest := truncated_expandAny (found + count f) fs h.2 (by omega)
      have hcons : FullUnnoticed found (f :: fs) ↔ FullUnnoticed (found + count f) fs := by
        rw [fullUnnoticed_cons_iff h.1 hlt]
        constructor
        · rintro (⟨heq, -⟩ | ⟨-, hfull⟩ | ⟨-, hun'⟩)
          · omega
          · exact hfull
          · exact absurd hun' hun
        · exact fun hfull => .inr (.inl ⟨by omega, hfull⟩)
      rw [countAny_cons, hcons, ← Nat.add_assoc, ← hrest]
      rw [hall] at hlen
      simp only [Bool.or_eq_true, hf, hnoticed, false_or, hlen, List.length_append, Nat.add_assoc]

end

/-- **What is dropped is noticed, but for choices that are just full.**  When a formula that was
read is expanded, the flag is raised exactly if it has more than `maxDisjuncts` disjuncts and is
not `Unnoticed`; all `Unnoticed` formulas have more. -/
theorem truncated_iff_of_parse {t : Text} {f : Formula} (h : parse t = .ok (some f)) :
    ((expand f).truncated = true ↔ maxDisjuncts < (disjuncts f).length ∧ ¬Unnoticed f) ∧
      (Unnoticed f → maxDisjuncts < (disjuncts f).length) :=
  ⟨truncated_expand f (canonical_of_parse h), fun hun => hun.lt_count (canonical_of_parse h)⟩

/-! ### A choice that is just full -/

theorem countAll_replicate (n : Nat) (f : Formula) : countAll (List.replicate n f) = count f ^ n := by
  induction n with
  | zero => rw [List.replicate_zero, countAll_nil, Nat.pow_zero]
  | succ n ih => rw [List.replicate_succ, countAll_cons, ih, Nat.pow_succ']

/-- Each of the eleven parts may be absent, which makes 2048 disjuncts. -/
def elevenOptionals : Formula := and (List.replicate 11 (optional (leaf ['A'])))

theorem count_elevenOptionals : count elevenOptionals = maxDisjuncts := by
  have hone : count (leaf ['A']) = 1 := by
    rw [count, disjuncts]
    rfl
  rw [elevenOptionals, count_and, countAll_replicate, count_optional, hone]
  rfl

/-- A choice that its first operand fills, so that the second is left out. -/
def fullChoice : Formula := or [elevenOptionals, leaf ['B']]

/-- The text of `fullChoice`. -/
def fullChoiceText : Text :=
  "({A} & {A} & {A} & {A} & {A} & {A} & {A} & {A} & {A} & {A} & {A}) or B".toList

theorem parse_fullChoiceText : parse fullChoiceText = .ok (some fullChoice) := by
  decide +kernel

/-- The first operand of `fullChoice` fills the room, and the second is left. -/
theorem unnoticed_fullChoice : Unnoticed fullChoice := by
  have hfull : countAny [elevenOptionals] = maxDisjuncts := by
    rw [countAny_cons, countAny_nil, count_elevenOptionals, Nat.add_zero]
  exact .full hfull (List.cons_ne_nil (leaf ['B']) [])

theorem truncated_iff_of_parse_fullChoice :
    parse fullChoiceText = .ok (some fullChoice) ∧
      ((expand fullChoice).truncated = true ↔
        maxDisjuncts < (disjuncts fullChoice).length ∧ ¬Unnoticed fullChoice) ∧
      (Unnoticed fullChoice → maxDisjuncts < (disjuncts fullChoice).length) :=
  ⟨parse_fullChoiceText, truncated_iff_of_parse parse_fullChoiceText⟩

/-- The second operand is dropped, and the flag is not raised. -/
theorem truncated_fullChoice :
    parse fullChoiceText = .ok (some fullChoice) ∧
      maxDisjuncts < (disjuncts fullChoice).length ∧ (expand fullChoice).truncated = false := by
  have hcanonical := canonical_of_parse parse_fullChoiceText
  refine ⟨parse_fullChoiceText, unnoticed_fullChoice.lt_count hcanonical, ?_⟩
  rw [← Bool.not_eq_true, truncated_expand fullChoice hcanonical]
  exact fun hnoticed => hnoticed.2 unnoticed_fullChoice

end LinkGrammar.Formula
