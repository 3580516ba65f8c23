import Mathlib.Tactic

/-! # Integers as IEEE 754 doubles

    Converting an integer to a double keeps its 53 leading bits, rounded to the
    nearest, ties to even (`roundNat`).  Up to `2 ^ 53` nothing is lost
    (`roundNat_of_le`), and only zero becomes zero (`roundNat_pos`).  `ofNat` is
    the double itself, by its bits. -/

namespace Float64

/-- The quotient by `2 ^ e`, rounded to the nearest, ties to even. -/
def roundShift (n e : Nat) : Nat :=
  let q := n / 2 ^ e
  let r := n % 2 ^ e
  if 2 ^ e < 2 * r ∨ (2 ^ e = 2 * r ∧ q % 2 = 1) then q + 1 else q

/-- The integer a double has for `n`. -/
def roundNat (n : Nat) : Nat :=
  if n ≤ 2 ^ 53 then n else roundShift n (n.log2 - 52) * 2 ^ (n.log2 - 52)

/-- The bits of the double for `n`: the exponent, then the 52 bits behind the
    leading one. -/
def ofNat (n : Nat) : UInt64 :=
  let m := roundNat n
  if m = 0 then 0
  else UInt64.ofNat ((1023 + m.log2) * 2 ^ 52 + (m * 2 ^ 52 / 2 ^ m.log2 - 2 ^ 52))

theorem roundNat_of_le {n : Nat} (h : n ≤ 2 ^ 53) : roundNat n = n := if_pos h

theorem roundNat_pos {n : Nat} (h : 0 < n) : 0 < roundNat n := by
  by_cases hle : n ≤ 2 ^ 53
  · rw [roundNat_of_le hle]
    exact h
  · have hlog : n.log2 - 52 ≤ n.log2 := Nat.sub_le _ _
    have hpow : 2 ^ (n.log2 - 52) ≤ n :=
      (Nat.pow_le_pow_right (by decide) hlog).trans (Nat.log2_self_le (by omega))
    have hq : 0 < n / 2 ^ (n.log2 - 52) := Nat.div_pos hpow (Nat.two_pow_pos _)
    rw [roundNat, if_neg hle]
    refine Nat.mul_pos ?_ (Nat.two_pow_pos _)
    unfold roundShift
    dsimp only
    split
    · exact Nat.succ_pos _
    · exact hq

example : ofNat 1 = 0x3FF0000000000000 := by decide

example : ofNat 18446744073709551615 = 0x43F0000000000000 := by decide

end Float64
