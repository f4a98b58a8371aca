/-
LinkGrammar/Decimal/Share.lean

The share that a part has in a whole, written with a fixed number of decimals.

A share is a binary64 number: the quotient is first rounded to 53 significant
bits, and the exact value of those bits is then rounded to the decimals asked for.
Both roundings send a half to the even neighbour.  The first one can decide the
second: 1/80 has no finite binary form, lies a little above 0.0125 once rounded,
and therefore reads 0.013.

`roundDiv_near` says that rounding misses the quotient by at most a half, and
`roundDiv_of_half` which way a half goes.
-/

namespace LinkGrammar.Decimal

/-- `a / b` rounded to a whole number, a half going to the even neighbour. -/
def roundDiv (a b : Nat) : Nat :=
  if b < 2 * (a % b) ∨ (2 * (a % b) = b ∧ (a / b) % 2 = 1) then a / b + 1 else a / b

/-- `m` and `k` such that `m / 2 ^ k` is the binary64 number nearest to
`part / whole`, for `0 < part ≤ whole`. -/
def significand (part whole : Nat) : Nat × Nat :=
  let d := Nat.log2 whole - Nat.log2 part
  let k := if whole ≤ part * Nat.pow 2 d then 52 + d else 53 + d
  (roundDiv (part * Nat.pow 2 k) whole, k)

/-- `n` in units of the last of `places` decimals, written out. -/
def fixed (n places : Nat) : String :=
  let digits := Nat.toDigits 10 (n % Nat.pow 10 places)
  toString (n / Nat.pow 10 places) ++ "." ++
    String.ofList (List.replicate (places - digits.length) '0' ++ digits)

/-- The share of `part` in `whole`; of an empty whole it is zero. -/
def share (part whole places : Nat) : String :=
  if part = 0 ∨ whole = 0 then fixed 0 places
  else
    let (m, k) := significand part whole
    fixed (roundDiv (m * Nat.pow 10 places) (Nat.pow 2 k)) places

/-! ### Rounding -/

/-- Rounding misses the quotient by at most a half. -/
theorem roundDiv_near (a b : Nat) (h : 0 < b) :
    2 * a ≤ 2 * (b * roundDiv a b) + b ∧ 2 * (b * roundDiv a b) ≤ 2 * a + b := by
  have hdiv := Nat.div_add_mod a b
  have hlt := Nat.mod_lt a h
  unfold roundDiv
  split
  · rw [Nat.mul_add]; omega
  · omega

/-- A quotient that ends in a half is rounded to an even number. -/
theorem roundDiv_of_half (a b : Nat) (h : 2 * (a % b) = b) : roundDiv a b % 2 = 0 := by
  unfold roundDiv
  split <;> omega

end LinkGrammar.Decimal
