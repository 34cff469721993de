/-!
# Rounding

Quotients are rounded to the nearest integer and ties go to the even one
(`roundQuotient_near`). A double keeps the 53 leading bits of an integer.
-/

namespace ClasspathAdvice.Number
set_option autoImplicit false

/-- The integer nearest to a quotient; of two as near, the even one. -/
def roundQuotient (numerator denominator : Nat) : Nat :=
  let quotient := numerator / denominator
  let twice := 2 * (numerator % denominator)
  if twice < denominator then quotient
  else if denominator < twice then quotient + 1
  else quotient + quotient % 2

theorem roundQuotient_near (n : Nat) {d : Nat} (h : 0 < d) :
    2 * n ≤ 2 * d * roundQuotient n d + d ∧ 2 * d * roundQuotient n d ≤ 2 * n + d := by
  have e : 2 * d * (n / d) + 2 * (n % d) = 2 * n := by
    have := Nat.div_add_mod n d
    rw [Nat.mul_assoc]
    omega
  have lt := Nat.mod_lt n h
  have up : 2 * d * (n / d + 1) = 2 * d * (n / d) + 2 * d := by rw [Nat.mul_add, Nat.mul_one]
  simp only [roundQuotient]
  split
  · omega
  · split
    · omega
    · rcases Nat.mod_two_eq_zero_or_one (n / d) with h0 | h1
      · rw [h0, Nat.add_zero]; omega
      · rw [h1]; omega

/-- The integer as a double holds it: of its bits the first 53, rounded. -/
def toDouble (n : Nat) : Nat :=
  let excess := Nat.log2 n - 52
  roundQuotient n (1 <<< excess) <<< excess

/-- A natural number of hundredths with two places behind a point. -/
def twoPlaces (hundredths : Nat) : String :=
  let places := hundredths % 100
  toString (hundredths / 100) ++ "." ++ toString (places / 10) ++ toString (places % 10)

end ClasspathAdvice.Number
