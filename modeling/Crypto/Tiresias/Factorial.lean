import Crypto.Tiresias.Bounds
import Mathlib.Data.Nat.Factorial.Basic
import Mathlib.Tactic.Ring

/-!
# The factorial bound

`factorialUpperBound n = (n + 1) * const_log(n + 1) - n` bounds `log2(n!)`: the source takes
the approximation `(n + 1) log(n + 1) - n` of `log(n!)`, bounding `e` by its floor `2`.

A step from `n` to `n + 1` does not carry the bound where `const_log(n + 2) = const_log(n + 1)`,
so the proof goes through the Stirling-type inequality `n! * 2 ^ n ≤ (n + 1) ^ n`
(`factorial_mul_two_pow_le`, by induction from Bernoulli's `2 * m ^ m ≤ (m + 1) ^ m`) and
`n + 1 ≤ 2 ^ const_log(n + 1)`. `factorial_lt_two_pow_factorialUpperBound`: for `n ≥ 1` the
subtraction does not underflow and `n! < 2 ^ factorialUpperBound n`.
-/

namespace Tiresias

open Nat

/-- Bernoulli's inequality for `(a + 1) ^ k`, multiplied through by `a`. -/
theorem pow_mul_add_le (a : Nat) : ∀ k, a ^ k * (a + k) ≤ a * (a + 1) ^ k
  | 0 => by simp
  | k + 1 =>
    calc a ^ (k + 1) * (a + (k + 1)) = a ^ k * (a * (a + k + 1)) := by ring
      _ ≤ a ^ k * ((a + 1) * (a + k)) := Nat.mul_le_mul_left _ (by ring_nf; omega)
      _ = (a + 1) * (a ^ k * (a + k)) := by ring
      _ ≤ (a + 1) * (a * (a + 1) ^ k) := Nat.mul_le_mul_left _ (pow_mul_add_le a k)
      _ = a * (a + 1) ^ (k + 1) := by ring

theorem two_mul_pow_self_le {m : Nat} (hm : 0 < m) : 2 * m ^ m ≤ (m + 1) ^ m :=
  Nat.le_of_mul_le_mul_left (c := m)
    (by rw [show m * (2 * m ^ m) = m ^ m * (m + m) by ring]; exact pow_mul_add_le m m) hm

/-- The Stirling-type estimate behind `factorial_upper_bound`. -/
theorem factorial_mul_two_pow_le : ∀ n, n ! * 2 ^ n ≤ (n + 1) ^ n
  | 0 => le_rfl
  | n + 1 =>
    calc (n + 1)! * 2 ^ (n + 1) = 2 * (n + 1) * (n ! * 2 ^ n) := by
          rw [Nat.factorial_succ]; ring
      _ ≤ 2 * (n + 1) * (n + 1) ^ n := Nat.mul_le_mul_left _ (factorial_mul_two_pow_le n)
      _ = 2 * (n + 1) ^ (n + 1) := by ring
      _ ≤ (n + 1 + 1) ^ (n + 1) := two_mul_pow_self_le (Nat.succ_pos n)

/-- **The factorial bound**: for `n ≥ 1`, `factorial_upper_bound(n)` does not underflow and
`n! < 2 ^ factorial_upper_bound(n)`. -/
theorem factorial_lt_two_pow_factorialUpperBound (n : Nat) (hn : 1 ≤ n) :
    n ≤ (n + 1) * constLog (n + 1) ∧ n ! < 2 ^ factorialUpperBound n := by
  have hK := constLog_pos (show 2 ≤ n + 1 by omega)
  have hle : n ≤ (n + 1) * constLog (n + 1) := (Nat.le_succ n).trans (Nat.le_mul_of_pos_right _ hK)
  refine ⟨hle, Nat.lt_of_mul_lt_mul_right (a := 2 ^ n) ?_⟩
  calc n ! * 2 ^ n ≤ (n + 1) ^ n := factorial_mul_two_pow_le n
    _ < (n + 1) ^ (n + 1) := Nat.pow_lt_pow_right (by omega) (Nat.lt_succ_self n)
    _ ≤ (2 ^ constLog (n + 1)) ^ (n + 1) := Nat.pow_le_pow_left (le_two_pow_constLog _) _
    _ = 2 ^ factorialUpperBound n * 2 ^ n := by
      rw [← Nat.pow_mul, ← Nat.pow_add, factorialUpperBound, Nat.sub_add_cancel hle,
        Nat.mul_comm]

theorem factorial_lt_two_pow_factorialUpperBound_fifteen :
    1 ≤ 15 ∧ 15 ≤ (15 + 1) * constLog (15 + 1) ∧ 15 ! < 2 ^ factorialUpperBound 15 :=
  ⟨by decide, factorial_lt_two_pow_factorialUpperBound 15 (by decide)⟩

end Tiresias
