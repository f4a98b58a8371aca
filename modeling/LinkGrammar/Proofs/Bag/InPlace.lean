/-
LinkGrammar/Proofs/Bag/InPlace.lean

The next arrangement, made in the place of the one before.

`nextArrangement?` says what comes next by recursion on the tail.  In an array the same is
done with indices: one is counted down from the last place for as long as the members do not
ascend, a second one to the last member above the one before the first, and these two members
change places; then everything behind is turned round.  The second count has no bound of its
own, it relies on the first to have stopped at such a member.  Here an index that is none and
a count below zero are faults, and nothing catches them.

Where a list ascends for the last time is a `LastAscent`, and what each of the steps does is
told by its parts.  Main result: no list leads to a fault; a descending one stays as it is,
and any other one becomes the least permutation above it (`advance_isNext`).  Repeated from an
ascending list on, the steps lead through every permutation once (`walk_of_ascending`).
-/
import Mathlib
import LinkGrammar.Proofs.Bag.Arrangement
import LinkGrammar.Proofs.Link.Answer

namespace LinkGrammar

namespace InPlace

/-! ### Steps by indices -/

/-- Why the steps end without an answer. -/
inductive Fault where
  /-- a member is read or written at an index that is none -/
  | outside (index : Nat)
  /-- an index is counted down at zero -/
  | belowZero
  deriving DecidableEq

section Steps

variable {α : Type}

/-- The member at an index. -/
def read (v : List α) (i : Nat) : Except Fault α :=
  match v[i]? with
  | some a => .ok a
  | none => .error (.outside i)

/-- The index before. -/
def before : Nat → Except Fault Nat
  | 0 => .error .belowZero
  | i + 1 => .ok i

/-- The list with the members at two indices exchanged. -/
def swap (v : List α) (i j : Nat) : Except Fault (List α) := do
  let a ← read v i
  let b ← read v j
  return (v.set i b).set j a

/-- The list with its members from an index on turned round. -/
def reverseFrom (v : List α) (i : Nat) : Except Fault (List α) :=
  if v.length < i then .error (.outside i) else .ok (v.take i ++ (v.drop i).reverse)

variable [LinearOrder α]

/-- Count down to an index whose member is above the one before it, at most to zero. -/
def ascentFrom (v : List α) : Nat → Except Fault Nat
  | 0 => .ok 0
  | i + 1 => do
    if (← read v i) ≥ (← read v (i + 1)) then ascentFrom v i else return i + 1

/-- Count down to an index whose member is above the one at `k`. -/
def aboveFrom (v : List α) (k j : Nat) : Except Fault Nat := do
  if (← read v j) ≤ (← read v k) then
    match j with
    | 0 => .error .belowZero
    | j + 1 => aboveFrom v k j
  else return j

/-- Put the next arrangement in the place of the list, and say whether there is one. -/
def advance (v : List α) : Except Fault (Bool × List α) :=
  if v.length < 2 then .ok (false, v)
  else do
    let i ← ascentFrom v (← before v.length)
    if i = 0 then return (false, v)
    else do
      let k ← before i
      let j ← aboveFrom v k (← before v.length)
      return (true, ← reverseFrom (← swap v k j) i)

end Steps

-- the second count can go below zero, only not in `advance`
example : aboveFrom [1, 1] 0 1 = .error .belowZero := rfl

variable {α : Type} [LinearOrder α]

/-! ### The last ascent -/

instance (v : List α) : Decidable (Descending v) :=
  inferInstanceAs (Decidable (v.Pairwise fun a b => ¬a < b))

/-- A list taken apart where it ascends for the last time: `low` stands before a tail that
descends and has members above it, `high` being the last of these. -/
structure LastAscent (α : Type) [LinearOrder α] where
  front : List α
  low : α
  larger : List α
  high : α
  rest : List α
  descending : Descending (larger ++ high :: rest)
  low_lt_larger : ∀ x ∈ larger, low < x
  low_lt_high : low < high
  rest_le_low : ∀ x ∈ rest, x ≤ low

namespace LastAscent

variable (p : LastAscent α)

/-- The members behind `low`. -/
def tail : List α := p.larger ++ p.high :: p.rest

/-- The list that is taken apart. -/
def toList : List α := p.front ++ p.low :: p.tail

/-- The list with `low` and `high` exchanged. -/
def swapped : List α := p.front ++ p.high :: (p.larger ++ p.low :: p.rest)

/-- The list with `low` and `high` exchanged and what is behind turned round. -/
def next : List α := p.front ++ p.high :: (p.rest.reverse ++ p.low :: p.larger.reverse)

/-- The index of `high`. -/
def highIndex : Nat := p.front.length + 1 + p.larger.length

/-- The index of the last member. -/
def lastIndex : Nat := p.highIndex + p.rest.length

theorem length_toList : p.toList.length = p.lastIndex + 1 := by
  simp only [toList, tail, lastIndex, highIndex, List.length_append, List.length_cons]
  omega

/-- The tail begins above `low`. -/
theorem exists_tail_eq_cons : ∃ b t, p.tail = b :: t ∧ p.low < b := by
  rcases h : p.larger with - | ⟨b, t⟩
  · exact ⟨p.high, p.rest, by rw [tail, h]; rfl, p.low_lt_high⟩
  · exact ⟨b, t ++ p.high :: p.rest, by rw [tail, h]; rfl, p.low_lt_larger b (by simp [h])⟩

end LastAscent

/-- A list that does not descend has a last ascent. -/
theorem exists_lastAscent {v : List α} (h : ¬Descending v) :
    ∃ p : LastAscent α, p.toList = v := by
  induction v with
  | nil => exact absurd List.Pairwise.nil h
  | cons a t ih =>
    by_cases ht : Descending t
    · -- the ascent is at the head
      rcases ht.split (a := a) with hnone | ⟨larger, high, rest, rfl, hlarger, hhigh, hrest⟩
      · exact absurd (List.pairwise_cons.2 ⟨hnone, ht⟩) h
      · exact ⟨⟨[], a, larger, high, rest, ht, hlarger, hhigh, fun x hx => not_lt.1 (hrest x hx)⟩,
          rfl⟩
    · obtain ⟨p, rfl⟩ := ih ht
      exact ⟨{ p with front := a :: p.front }, rfl⟩

/-! ### What comes next, by recursion -/

theorem nextArrangement?_of_descending {v : List α} (h : Descending v) :
    nextArrangement? v = none := by
  rw [Option.eq_none_iff_forall_ne_some]
  intro m hm
  have hnext := nextArrangement?_isNext hm
  exact h.not_lt hnext.perm hnext.lt

/-- What stands before a list with a successor stays. -/
theorem nextArrangement?_append_of_some (s : List α) {t u : List α}
    (h : nextArrangement? t = some u) : nextArrangement? (s ++ t) = some (s ++ u) := by
  induction s with
  | nil => exact h
  | cons a s ih => exact nextArrangement?_cons_of_some ih

/-- The successor of a list with a last ascent. -/
theorem nextArrangement?_toList (p : LastAscent α) : nextArrangement? p.toList = some p.next := by
  refine nextArrangement?_append_of_some p.front ?_
  refine nextArrangement?_cons_of_none (nextArrangement?_of_descending p.descending)
    p.low_lt_larger p.low_lt_high fun x hx => ?_
  exact not_lt.2 (p.rest_le_low x (List.mem_of_mem_head? hx))

/-! ### Reading and exchanging -/

section Exchange

omit [LinearOrder α]

theorem read_of_getElem? {v : List α} {i : Nat} {a : α} (h : v[i]? = some a) :
    read v i = .ok a := by
  rw [read, h]

theorem read_append (s : List α) {t : List α} {n : Nat} (hn : n < t.length) :
    read (s ++ t) (s.length + n) = .ok t[n] :=
  read_of_getElem? (by simp [List.getElem?_append_right])

theorem read_append_cons (s : List α) (a : α) (t : List α) :
    read (s ++ a :: t) s.length = .ok a :=
  read_of_getElem? (by simp)

/-- An exchange of two cells, told by what stands around them. -/
theorem swap_append (s : List α) (a : α) (t : List α) (b : α) (u : List α) :
    swap (s ++ a :: (t ++ b :: u)) s.length (s.length + 1 + t.length)
      = .ok (s ++ b :: (t ++ a :: u)) := by
  have hsplit : s ++ a :: (t ++ b :: u) = (s ++ a :: t) ++ b :: u := by simp
  have hb : read (s ++ a :: (t ++ b :: u)) (s.length + 1 + t.length) = .ok b := by
    have hread := read_append_cons (s ++ a :: t) b u
    rwa [← hsplit, List.length_append, List.length_cons, Nat.add_comm t.length,
      ← Nat.add_assoc] at hread
  refine bind_eq_ok.2 ⟨a, read_append_cons s a _, ?_⟩
  refine bind_eq_ok.2 ⟨b, hb, congrArg Except.ok ?_⟩
  simp [Nat.add_assoc, Nat.add_comm 1]

theorem reverseFrom_append (s t : List α) :
    reverseFrom (s ++ t) s.length = .ok (s ++ t.reverse) := by
  rw [reverseFrom, if_neg (by simp), List.take_left, List.drop_left]

end Exchange

/-! ### The two counts -/

/-- Where the members descend, the first count goes on. -/
theorem ascentFrom_append (s : List α) {t : List α} (ht : Descending t) {n : Nat}
    (hn : n < t.length) : ascentFrom (s ++ t) (s.length + n) = ascentFrom (s ++ t) s.length := by
  -- on how far behind the first of these members the count stands
  induction n with
  | zero => rfl
  | succ n ih =>
    have hlast : n < t.length := by omega
    have hge : t[n] ≥ t[n + 1] := not_lt.1 (List.pairwise_iff_getElem.1 ht n (n + 1) _ _ (by omega))
    show ascentFrom (s ++ t) (s.length + n + 1) = _
    rw [ascentFrom, read_append s hlast, Nat.add_assoc, read_append s hn]
    exact (if_pos hge).trans (ih hlast)

/-- Where they ascend it stops. -/
theorem ascentFrom_append_of_lt (s : List α) {a b : α} (t : List α) (h : a < b) :
    ascentFrom (s ++ a :: b :: t) (s.length + 1) = .ok (s.length + 1) := by
  have hb : read (s ++ a :: b :: t) (s.length + 1) = .ok b := read_of_getElem? (by simp)
  rw [ascentFrom, read_append_cons, hb]
  exact if_neg (not_le.2 h)

/-- The second count goes on to the last member above the one at `k`. -/
theorem aboveFrom_append {s t : List α} {k : Nat} {a b : α} (hk : read (s ++ b :: t) k = .ok a)
    (hb : a < b) (ht : ∀ x ∈ t, x ≤ a) {n : Nat} (hn : n ≤ t.length) :
    aboveFrom (s ++ b :: t) k (s.length + n) = .ok s.length := by
  -- on how far behind `b` the count stands; it never comes to what is before `b`
  induction n with
  | zero =>
    show aboveFrom (s ++ b :: t) k s.length = _
    rw [aboveFrom.eq_def, read_append_cons, hk]
    exact if_neg (not_le.2 hb)
  | succ n ih =>
    have hlt : n + 1 < (b :: t).length := Nat.succ_lt_succ hn
    have hle : (b :: t)[n + 1] ≤ a := ht _ (List.getElem_mem _)
    rw [aboveFrom.eq_def, read_append s hlt, hk]
    exact (if_pos hle).trans (ih (Nat.le_of_succ_le hn))

/-! ### The steps at the last ascent -/

/-- The first count stops behind `low`. -/
theorem ascentFrom_toList (p : LastAscent α) :
    ascentFrom p.toList p.lastIndex = .ok (p.front.length + 1) := by
  obtain ⟨b, t, htail, hlt⟩ := p.exists_tail_eq_cons
  have hsplit : p.toList = (p.front ++ [p.low]) ++ p.tail := List.append_cons _ _ _
  have hlast : p.lastIndex = (p.front ++ [p.low]).length + (p.larger.length + p.rest.length) := by
    simp [LastAscent.lastIndex, LastAscent.highIndex, Nat.add_assoc]
  have hdesc : Descending p.tail := p.descending
  have hlen : p.larger.length + p.rest.length < p.tail.length := by simp [LastAscent.tail]
  calc ascentFrom p.toList p.lastIndex
      = ascentFrom ((p.front ++ [p.low]) ++ p.tail) (p.front ++ [p.low]).length := by
        rw [hsplit, hlast, ascentFrom_append _ hdesc hlen]
    _ = ascentFrom (p.front ++ p.low :: b :: t) (p.front.length + 1) := by
        rw [← hsplit, LastAscent.toList, htail, List.length_append, List.length_singleton]
    _ = .ok (p.front.length + 1) := ascentFrom_append_of_lt p.front t hlt

/-- The second count stops at `high`. -/
theorem aboveFrom_toList (p : LastAscent α) :
    aboveFrom p.toList p.front.length p.lastIndex = .ok p.highIndex := by
  have hsplit : p.toList = (p.front ++ p.low :: p.larger) ++ p.high :: p.rest := by
    simp [LastAscent.toList, LastAscent.tail]
  have hindex : p.highIndex = (p.front ++ p.low :: p.larger).length := by
    simp only [LastAscent.highIndex, List.length_append, List.length_cons]
    omega
  have hlow : read p.toList p.front.length = .ok p.low := read_append_cons _ _ _
  rw [LastAscent.lastIndex, hindex, hsplit]
  rw [hsplit] at hlow
  exact aboveFrom_append hlow p.low_lt_high p.rest_le_low (Nat.le_refl _)

theorem swap_toList (p : LastAscent α) :
    swap p.toList p.front.length p.highIndex = .ok p.swapped :=
  swap_append p.front p.low p.larger p.high p.rest

theorem reverseFrom_swapped (p : LastAscent α) :
    reverseFrom p.swapped (p.front.length + 1) = .ok p.next := by
  have hturn := reverseFrom_append (p.front ++ [p.high]) (p.larger ++ p.low :: p.rest)
  have hnext : p.front ++ [p.high] ++ (p.larger ++ p.low :: p.rest).reverse = p.next := by
    simp [LastAscent.next]
  rwa [hnext, ← List.append_cons, List.length_append, List.length_singleton] at hturn

/-- A list with a last ascent is turned into its successor. -/
theorem advance_toList (p : LastAscent α) : advance p.toList = .ok (true, p.next) := by
  have hlen := p.length_toList
  have hbefore : before p.toList.length = .ok p.lastIndex := by rw [hlen]; rfl
  have htwo : ¬p.toList.length < 2 := by
    have hlast : p.lastIndex = p.front.length + 1 + p.larger.length + p.rest.length := rfl
    omega
  rw [advance, if_neg htwo]
  refine bind_eq_ok.2 ⟨p.lastIndex, hbefore, ?_⟩
  refine bind_eq_ok.2 ⟨p.front.length + 1, ascentFrom_toList p, ?_⟩
  rw [if_neg (Nat.succ_ne_zero _)]
  refine bind_eq_ok.2 ⟨p.front.length, rfl, ?_⟩
  refine bind_eq_ok.2 ⟨p.lastIndex, hbefore, ?_⟩
  refine bind_eq_ok.2 ⟨p.highIndex, aboveFrom_toList p, ?_⟩
  refine bind_eq_ok.2 ⟨p.swapped, swap_toList p, ?_⟩
  exact bind_eq_ok.2 ⟨p.next, reverseFrom_swapped p, rfl⟩

theorem advance_of_descending {v : List α} (h : Descending v) : advance v = .ok (false, v) := by
  by_cases hlen : v.length < 2
  · exact if_pos hlen
  · obtain ⟨n, hn⟩ : ∃ n, v.length = n + 1 := ⟨v.length - 1, by omega⟩
    have hbefore : before v.length = .ok n := by rw [hn]; rfl
    -- the count goes on over the whole list
    have hascent : ascentFrom v n = .ok 0 := by
      have hcount := ascentFrom_append [] h (n := n) (by omega)
      rw [List.nil_append, List.length_nil, Nat.zero_add] at hcount
      rw [hcount, ascentFrom]
    rw [advance, if_neg hlen]
    refine bind_eq_ok.2 ⟨n, hbefore, ?_⟩
    exact bind_eq_ok.2 ⟨0, hascent, if_pos rfl⟩

/-! ### The successor -/

/-- The steps by indices come to what the recursion says. -/
theorem advance_eq (v : List α) :
    advance v = .ok (match nextArrangement? v with
      | some m => (true, m)
      | none => (false, v)) := by
  by_cases h : Descending v
  · rw [nextArrangement?_of_descending h]
    exact advance_of_descending h
  · obtain ⟨p, rfl⟩ := exists_lastAscent h
    rw [nextArrangement?_toList]
    exact advance_toList p

/-- **A list is advanced to its successor.**  If it descends there is none, and it stays as it
is; from any other list comes its least permutation above it.  This is what the recursion
says, and on no list does a step read or write outside, or count below zero. -/
theorem advance_isNext (v : List α) :
    (Descending v → advance v = .ok (false, v)) ∧
    (¬Descending v → ∃ m, advance v = .ok (true, m) ∧ IsNext v m) ∧
    advance v = .ok (match nextArrangement? v with
      | some m => (true, m)
      | none => (false, v)) := by
  refine ⟨advance_of_descending, fun h => ?_, advance_eq v⟩
  obtain ⟨p, rfl⟩ := exists_lastAscent h
  exact ⟨p.next, advance_toList p, nextArrangement?_isNext (nextArrangement?_toList p)⟩

/-- Of two equal members the last gives way, and with equal ones at the end nothing is next. -/
theorem advance_isNext_equalMembers :
    (¬Descending [2, 3, 3, 1] ∧ advance [2, 3, 3, 1] = .ok (true, [3, 1, 2, 3]) ∧
      IsNext [2, 3, 3, 1] [3, 1, 2, 3]) ∧
    Descending [3, 2, 1, 1] ∧ advance [3, 2, 1, 1] = .ok (false, [3, 2, 1, 1]) := by
  have hascends : ¬Descending [2, 3, 3, 1] := by decide
  have hdescends : Descending [3, 2, 1, 1] := by decide
  have hnext : advance [2, 3, 3, 1] = .ok (true, [3, 1, 2, 3]) := rfl
  obtain ⟨m, hm, hisNext⟩ := (advance_isNext [2, 3, 3, 1]).2.1 hascends
  obtain ⟨-, rfl⟩ := Prod.mk.inj (Except.ok.inj (hm.symm.trans hnext))
  exact ⟨⟨hascends, hnext, hisNext⟩, hdescends, (advance_isNext [3, 2, 1, 1]).1 hdescends⟩

/-! ### Step after step -/

/-- The lists that the steps lead through from `v` on, at most `bound` of them. -/
def walk : Nat → List α → Except Fault (List (List α))
  | 0, _ => .ok []
  | bound + 1, v => do
    let (more, m) ← advance v
    if more then return v :: (← walk bound m) else return [v]

/-- A walk by steps in place lists the arrangements. -/
theorem walk_eq (bound : Nat) (v : List α) : walk bound v = .ok (arrangementsFrom bound v) := by
  induction bound generalizing v with
  | zero => rfl
  | succ bound ih =>
    rw [arrangementsFrom]
    refine bind_eq_ok.2 ⟨_, advance_eq v, ?_⟩
    rcases nextArrangement? v with - | m
    · rfl
    · exact bind_eq_ok.2 ⟨_, ih m, rfl⟩

/-- **Every permutation is met once**, from the least to the greatest. -/
theorem walk_of_ascending {v : List α} (h : Ascending v) :
    ∃ vs, walk (orderCount v.length) v = .ok vs ∧ vs.Pairwise (· < ·) ∧
      ∀ k, k ∈ vs ↔ k.Perm v :=
  ⟨_, walk_eq _ v, pairwise_lt_arrangementsFrom _ v, fun _ => mem_arrangementsFrom_iff h⟩

example : walk 6 ['a', 'b', 'b']
    = .ok [['a', 'b', 'b'], ['b', 'a', 'b'], ['b', 'b', 'a']] := rfl

end InPlace

end LinkGrammar
