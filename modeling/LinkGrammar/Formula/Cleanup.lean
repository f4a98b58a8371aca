/-
LinkGrammar/Formula/Cleanup.lean

Repairing formula text from which regions were cut out.

A cut can leave an empty pair of brackets, an operator with nothing on one of its
sides, or two operators in a row.  `cleanup` removes such places until none is
left.

Design.  Each kind of damage is a `Repair`: a test whether the damage stands at
the front of a text, which gives what replaces it and what follows it.  A repair is
carried out from left to right, and goes on behind each place that it replaced.
Since every replacement is shorter than the damage, rounds of all repairs come to
an end.

Main statement: `cleanup` never lengthens a text.
-/
import LinkGrammar.Text.Blank

namespace LinkGrammar.Formula

/-- One kind of damage.  `fire? atStart t` looks for it at the front of `t`, where
`atStart` says that nothing stands before `t`, and gives the replacement and what
follows the damage. -/
structure Repair where
  fire? : (atStart : Bool) → Text → Option (Text × Text)
  shrinks : ∀ {atStart t out rest}, fire? atStart t = some (out, rest) →
    out.length + rest.length < t.length

/-- Replace the damage, from left to right. -/
def Repair.sweep (r : Repair) (atStart : Bool) : Text → Text
  | [] => []
  | c :: t =>
    match h : r.fire? atStart (c :: t) with
    | some (out, rest) =>
      have : rest.length < (c :: t).length := by have := r.shrinks h; omega
      out ++ r.sweep false rest
    | none => c :: r.sweep false t
termination_by t => t.length
decreasing_by
  · exact this
  · exact Nat.lt_succ_self _

/-- Repairing never lengthens a text. -/
theorem Repair.length_sweep_le (r : Repair) (atStart : Bool) (t : Text) :
    (r.sweep atStart t).length ≤ t.length := by
  fun_induction Repair.sweep r atStart t with
  | case1 => simp
  | case2 atStart c t out rest h _ ih =>
    have := r.shrinks h
    simp at this ⊢; omega
  | case3 atStart c t h ih => simpa using ih

/-! ### The kinds of damage -/

/-- Whether a character opens a bracket. -/
def isOpener (c : Char) : Bool := c = '(' || c = '[' || c = '{'

/-- Whether a character closes a bracket. -/
def isCloser (c : Char) : Bool := c = ')' || c = ']' || c = '}'

/-- What follows an operator at the front, with the blanks behind it skipped; `or`
is an operator only before a blank. -/
def afterOperator? : Text → Option Text
  | '&' :: t => some (Text.skipBlanks t)
  | 'o' :: 'r' :: c :: t => if isBlank c then some (Text.skipBlanks t) else none
  | _ => none

/-- What follows an operator with the blanks before it; `or` is an operator only
after a blank, or where `atStart` says that the text begins. -/
def afterBlankOperator? (atStart : Bool) (t : Text) : Option Text :=
  match Text.skipBlanks t with
  | '&' :: rest => some (Text.skipBlanks rest)
  | 'o' :: 'r' :: rest =>
    if atStart || t.startsBlank then some (Text.skipBlanks rest) else none
  | _ => none

/-- What follows `or or` and a blank, the blank included; at the end nothing follows. -/
def afterDoubleOr? : Text → Option (Text × Text)
  | 'o' :: 'r' :: c :: t =>
    if isBlank c then
      match Text.skipBlanks t with
      | ['o', 'r'] => some ([], [])
      | 'o' :: 'r' :: d :: rest => if isBlank d then some ([d], rest) else none
      | _ => none
    else none
  | _ => none

/-- What follows an operator is shorter than the text. -/
theorem length_lt_of_afterOperator? {t rest : Text} (h : afterOperator? t = some rest) :
    rest.length < t.length := by
  unfold afterOperator? at h
  split at h
  · next t =>
    have := Text.length_skipBlanks_le t
    simp at h; subst h; simp; omega
  · next c t =>
    have := Text.length_skipBlanks_le t
    simp at h; rw [← h.2]; simp; omega
  · simp at h

/-- So is what follows an operator with blanks before it. -/
theorem length_lt_of_afterBlankOperator? {atStart : Bool} {t rest : Text}
    (h : afterBlankOperator? atStart t = some rest) : rest.length < t.length := by
  have ht := Text.length_skipBlanks_le t
  unfold afterBlankOperator? at h
  split at h
  · next r e =>
    have := Text.length_skipBlanks_le r
    simp [e] at h ht; subst h; omega
  · next r e =>
    have := Text.length_skipBlanks_le r
    simp [e] at h ht; rw [← h.2]; omega
  · simp at h

/-- Of a double `or` at least four characters go. -/
theorem length_lt_of_afterDoubleOr? {t out rest : Text} (h : afterDoubleOr? t = some (out, rest)) :
    out.length + rest.length + 4 ≤ t.length := by
  unfold afterDoubleOr? at h
  split at h
  · next c t =>
    have ht := Text.length_skipBlanks_le t
    split at h
    · split at h
      · next e => simp [e] at h ht; simp [h.1, h.2]; omega
      · next d r e =>
        simp [e] at h ht; simp [← h.2.1, ← h.2.2]; omega
      · simp at h
    · simp at h
  · simp at h

namespace Repair

/-- An empty pair of parentheses or square brackets. -/
def emptyGroup : Repair where
  fire? _ t :=
    match t with
    | '(' :: t => match Text.skipBlanks t with
      | ')' :: rest => some ([], rest)
      | _ => none
    | '[' :: t => match Text.skipBlanks t with
      | ']' :: rest => some ([], rest)
      | _ => none
    | _ => none
  shrinks := by
    intro _ t out rest h
    split at h
    · next t =>
      have ht := Text.length_skipBlanks_le t
      split at h
      · next e => simp [e] at h ht; simp [h.1, ← h.2]; omega
      · simp at h
    · next t =>
      have ht := Text.length_skipBlanks_le t
      split at h
      · next e => simp [e] at h ht; simp [h.1, ← h.2]; omega
      · simp at h
    · simp at h

/-- An operator behind an opening bracket. -/
def operatorAfterOpener : Repair where
  fire? _ t :=
    match t with
    | c :: t =>
      if isOpener c then (afterOperator? (Text.skipBlanks t)).map fun rest => ([c], rest) else none
    | [] => none
  shrinks := by
    intro _ t out rest h
    split at h
    · next c t =>
      have ht := Text.length_skipBlanks_le t
      split at h
      · obtain ⟨r, hr, he⟩ := Option.map_eq_some_iff.1 h
        have := length_lt_of_afterOperator? hr
        simp at he; simp [← he.1, ← he.2]; omega
      · simp at h
    · simp at h

/-- An operator before a closing bracket. -/
def operatorBeforeCloser : Repair where
  fire? _ t :=
    match afterBlankOperator? false t with
    | some (c :: rest) => if isCloser c then some ([c], rest) else none
    | _ => none
  shrinks := by
    intro _ t out rest h
    split at h
    · next c r e =>
      have := length_lt_of_afterBlankOperator? e
      split at h
      · simp at h; simp [← h.1, ← h.2] at this ⊢; omega
      · simp at h
    · simp at h

/-- Two `&` in a row. -/
def doubleAnd : Repair where
  fire? _ t :=
    match t with
    | '&' :: t => match Text.skipBlanks t with
      | '&' :: rest => some (['&'], rest)
      | _ => none
    | _ => none
  shrinks := by
    intro _ t out rest h
    split at h
    · next t =>
      have ht := Text.length_skipBlanks_le t
      split at h
      · next e => simp [e] at h ht; simp [← h.1, ← h.2]; omega
      · simp at h
    · simp at h

/-- Two `or` in a row, as words of their own. -/
def doubleOr : Repair where
  fire? atStart t :=
    match (if atStart then afterDoubleOr? t else none), t with
    | some (out, rest), _ => some ('o' :: 'r' :: out, rest)
    | none, c :: t =>
      if isBlank c then (afterDoubleOr? t).map fun (out, rest) => (c :: 'o' :: 'r' :: out, rest)
      else none
    | none, [] => none
  shrinks := by
    intro atStart t out rest h
    split at h
    · next e =>
      split at e
      · have := length_lt_of_afterDoubleOr? e
        simp at h; simp [← h.1, ← h.2]; omega
      · simp at e
    · split at h
      · obtain ⟨⟨o, r⟩, hr, he⟩ := Option.map_eq_some_iff.1 h
        have := length_lt_of_afterDoubleOr? hr
        simp at he; simp [← he.1, ← he.2]; omega
      · simp at h
    · simp at h

/-- An operator that opens the text. -/
def operatorAtStart : Repair where
  fire? atStart t :=
    if atStart then
      match Text.skipBlanks t with
      | ['o', 'r'] => some ([], [])
      | u => (afterOperator? u).map fun rest => ([], rest)
    else none
  shrinks := by
    intro atStart t out rest h
    have ht := Text.length_skipBlanks_le t
    split at h
    · split at h
      · next e => simp [e] at h ht; simp [h.1, h.2]; omega
      · obtain ⟨r, hr, he⟩ := Option.map_eq_some_iff.1 h
        obtain ⟨rfl, rfl⟩ := Prod.mk.inj he
        have := length_lt_of_afterOperator? hr
        simp; omega
    · simp at h

/-- An operator that ends the text. -/
def operatorAtEnd : Repair where
  fire? atStart t := if afterBlankOperator? atStart t = some [] then some ([], []) else none
  shrinks := by
    intro atStart t out rest h
    split at h
    · next e =>
      have := length_lt_of_afterBlankOperator? e
      simp at h this; simp [h.1, h.2]; omega
    · simp at h

/-- All repairs, in the order of a round. -/
def all : List Repair :=
  [emptyGroup, operatorAfterOpener, operatorBeforeCloser, doubleAnd, doubleOr, operatorAtStart,
    operatorAtEnd]

end Repair

/-! ### Rounds -/

/-- The text with its ends trimmed and its blanks squeezed. -/
def tidy (t : Text) : Text := Text.squeeze (Text.trim t)

/-- One round of all repairs. -/
def cleanupRound (t : Text) : Text :=
  tidy (Repair.all.foldl (fun t r => r.sweep true t) t)

/-- Rounds of repairs for as long as they find damage. -/
def repeatCleanup (t : Text) : Text :=
  let next := cleanupRound t
  if next.length < t.length then repeatCleanup next else t
termination_by t.length

/-- The text with all damage repaired. -/
def cleanup (t : Text) : Text := repeatCleanup (tidy t)

/-! ### Lengths -/

/-- Trimming and squeezing never lengthen a text. -/
theorem length_tidy_le (t : Text) : (tidy t).length ≤ t.length :=
  Nat.le_trans (Text.length_squeeze_le _) (Text.length_trim_le t)

/-- Neither do several repairs, one after the other. -/
theorem length_foldl_sweep_le (rs : List Repair) (t : Text) :
    (rs.foldl (fun t r => r.sweep true t) t).length ≤ t.length := by
  induction rs generalizing t with
  | nil => simp
  | cons r rs ih => exact Nat.le_trans (ih _) (r.length_sweep_le true t)

/-- Neither do rounds of repairs. -/
theorem length_repeatCleanup_le (t : Text) : (repeatCleanup t).length ≤ t.length := by
  fun_induction repeatCleanup t with
  | case1 t next h ih => omega
  | case2 => simp

/-- What is left of a text once it is repaired is not longer than the text. -/
theorem length_cleanup_le (t : Text) : (cleanup t).length ≤ t.length :=
  Nat.le_trans (length_repeatCleanup_le _) (length_tidy_le t)

end LinkGrammar.Formula
