/-
LinkGrammar/Bag/Arrangement.lean

The arrangements of a bag: the lists with its members, each as often as in the bag.

Design.  Arrangements are visited one at a time, each found from the one before, so
that a visit of all of them needs no room for their list.  `arrangements` is that
list, for statements and for small bags, and `visitArrangements_eq` says that a
visit of all arrangements is a fold over it.
-/

namespace LinkGrammar

section Successor

variable {α : Type} [LT α] [DecidableLT α]

/-- The next larger arrangement of the same members, in lexicographic order.  If the
tail has none it is descending, and the first member gives way to the least larger
one behind it; what is left then follows in ascending order. -/
def nextArrangement? : List α → Option (List α)
  | [] => none
  | a :: t =>
    match nextArrangement? t with
    | some u => some (a :: u)
    | none =>
      let larger := t.takeWhile (a < ·)
      match larger.getLast? with
      | some b => some (b :: ((t.dropWhile (a < ·)).reverse ++ a :: larger.dropLast.reverse))
      | none => none

/-- The arrangements from `l` on, at most `bound` of them. -/
def arrangementsFrom : Nat → List α → List (List α)
  | 0, _ => []
  | bound + 1, l =>
    l :: match nextArrangement? l with
      | some m => arrangementsFrom bound m
      | none => []

end Successor

/-- The number of orders of `n` different things. -/
def orderCount : Nat → Nat
  | 0 => 1
  | n + 1 => (n + 1) * orderCount n

section Bag

variable {α : Type} [LT α] [DecidableLT α] [DecidableEq α]

/-- The members in ascending order. -/
def ascending (bag : List α) : List α := bag.mergeSort fun a b => !decide (b < a)

/-- All arrangements: the bag as it is given, then the others in ascending order. -/
def arrangements (bag : List α) : List (List α) :=
  bag :: (arrangementsFrom (orderCount bag.length) (ascending bag)).filter (· ≠ bag)

/-! ### Visiting -/

variable {σ ε : Type}

/-- Visit the arrangements from `l` on, all but `skip`, and at most `bound`. -/
def visitFrom (visit : σ → List α → Except ε σ) (skip : List α) :
    Nat → σ → List α → Except ε σ
  | 0, s, _ => .ok s
  | bound + 1, s, l =>
    match if l = skip then .ok s else visit s l with
    | .error e => .error e
    | .ok s =>
      match nextArrangement? l with
      | some m => visitFrom visit skip bound s m
      | none => .ok s

/-- Visit all arrangements of a bag. -/
def visitArrangements (visit : σ → List α → Except ε σ) (s : σ) (bag : List α) : Except ε σ :=
  match visit s bag with
  | .error e => .error e
  | .ok s => visitFrom visit bag (orderCount bag.length) s (ascending bag)

/-- A visit from `l` on is a fold over the arrangements from `l` on, without the one to skip. -/
theorem visitFrom_eq (visit : σ → List α → Except ε σ) (skip : List α) (bound : Nat) (s : σ)
    (l : List α) :
    visitFrom visit skip bound s l
      = ((arrangementsFrom bound l).filter (· ≠ skip)).foldlM visit s := by
  induction bound generalizing s l with
  | zero => rfl
  | succ bound ih =>
    have tail : ∀ s, (match nextArrangement? l with
        | some m => visitFrom visit skip bound s m
        | none => .ok s)
        = ((match nextArrangement? l with
          | some m => arrangementsFrom bound m
          | none => []).filter (· ≠ skip)).foldlM visit s := by
      intro s
      cases nextArrangement? l with
      | some m => exact ih s m
      | none => rfl
    unfold visitFrom arrangementsFrom
    by_cases h : l = skip
    · rw [if_pos h, List.filter_cons_of_neg (by simpa using h)]
      exact tail s
    · rw [if_neg h, List.filter_cons_of_pos (by simpa using h), List.foldlM_cons]
      cases visit s l with
      | error e => rfl
      | ok s => exact tail s

/-- A visit of all arrangements is a fold over their list. -/
theorem visitArrangements_eq (visit : σ → List α → Except ε σ) (s : σ) (bag : List α) :
    visitArrangements visit s bag = (arrangements bag).foldlM visit s := by
  unfold visitArrangements arrangements
  rw [List.foldlM_cons]
  cases visit s bag with
  | error e => rfl
  | ok s => exact visitFrom_eq visit bag _ s _

end Bag

end LinkGrammar
