import Mathlib.Algebra.Group.Nat.Basic
import Mathlib.Data.Nat.Log

/-!
# `const_log`, the ceiling logarithm of the bound derivation

`const_log` (tiresias `lib.rs`) starts from `power = 1, counter = 0` and runs
`while power < n { power *= 2; counter += 1; }`. On unbounded naturals it computes
`Nat.clog 2 n`, the least `k` with `n ≤ 2 ^ k` (`constLog_eq_clog`), and `2 ^ constLog n` is
`n.nextPowerOfTwo`, the same loop returning `power` (`two_pow_constLog`).

On a `usize` of `bits` bits `power *= 2` can overflow, which const evaluation rejects:
`constLogUsize` is the loop with that check. For `n ≤ 2 ^ (bits - 1)` no doubling overflows and
the loop returns `constLog n`, the least `k` with `n ≤ 2 ^ k` (`constLogUsize_eq_least`); past
that bound the last doubling overflows (`constLogUsize_eq`).
-/

namespace Tiresias

/-! ## The loop on naturals -/

/-- The `while` loop of `const_log` from a positive `power`: `counter` on exit. -/
def constLogLoop (n power counter : Nat) (h : 0 < power) : Nat :=
  if hp : power < n then constLogLoop n (power * 2) (counter + 1) (Nat.mul_pos h Nat.two_pos)
  else counter
termination_by n - power
decreasing_by exact Nat.nextPowerOfTwo_dec h hp

/-- `const_log(n)`. -/
def constLog (n : Nat) : Nat := constLogLoop n 1 0 Nat.one_pos

theorem lt_clog_of_two_pow_lt {n c : Nat} (h : 2 ^ c < n) : c < Nat.clog 2 n :=
  Nat.lt_of_not_le fun h' => Nat.not_le_of_lt h ((Nat.le_pow_iff_clog_le Nat.one_lt_two).2 h')

/-- The loop invariant `power = 2 ^ counter`: the loop exits at the first `counter` whose power
reaches `n`. -/
theorem constLogLoop_eq (n : Nat) : ∀ power counter (h : 0 < power), power = 2 ^ counter →
    constLogLoop n power counter h = max counter (Nat.clog 2 n) := by
  intro power counter h
  induction power, counter, h using constLogLoop.induct n with
  | case1 power counter h hp ih =>
    rintro rfl
    rw [constLogLoop, dif_pos hp, ih (by rw [Nat.pow_succ])]
    have := lt_clog_of_two_pow_lt hp
    omega
  | case2 power counter h hp =>
    rintro rfl
    rw [constLogLoop, dif_neg hp]
    have := (Nat.le_pow_iff_clog_le Nat.one_lt_two).1 (Nat.le_of_not_lt hp)
    omega

theorem constLog_eq_clog (n : Nat) : constLog n = Nat.clog 2 n := by
  rw [constLog, constLogLoop_eq n 1 0 Nat.one_pos rfl, Nat.zero_max]

/-- The ceiling logarithm's Galois connection: `n ≤ 2 ^ k` exactly when `constLog n ≤ k`. -/
theorem constLog_le_iff {n k : Nat} : constLog n ≤ k ↔ n ≤ 2 ^ k := by
  rw [constLog_eq_clog, Nat.le_pow_iff_clog_le Nat.one_lt_two]

theorem le_two_pow_constLog (n : Nat) : n ≤ 2 ^ constLog n := constLog_le_iff.1 le_rfl

theorem two_pow_lt_of_lt_constLog {n k : Nat} (h : k < constLog n) : 2 ^ k < n :=
  Nat.lt_of_not_le fun h' => Nat.not_le_of_lt h (constLog_le_iff.2 h')

theorem constLog_mono {n m : Nat} (h : n ≤ m) : constLog n ≤ constLog m :=
  constLog_le_iff.2 (h.trans (le_two_pow_constLog m))

theorem constLog_eq_succ {n k : Nat} (h₁ : 2 ^ k < n) (h₂ : n ≤ 2 ^ (k + 1)) :
    constLog n = k + 1 :=
  Nat.le_antisymm (constLog_le_iff.2 h₂)
    (Nat.lt_of_not_le fun h => Nat.not_le_of_lt h₁ (constLog_le_iff.1 h))

theorem constLog_le_one {n : Nat} (h : n ≤ 1) : constLog n = 0 :=
  Nat.le_zero.1 (constLog_le_iff.2 h)

theorem constLog_pos {n : Nat} (h : 2 ≤ n) : 0 < constLog n :=
  Nat.pos_of_ne_zero fun h0 => by have := le_two_pow_constLog n; rw [h0] at this; omega

/-- The reference table of `const_log_computes_correctly`, at its last entry. -/
example : constLog 9 = 4 := constLog_eq_succ (by decide) (by decide)

/-! ## `next_power_of_two` -/

theorem nextPowerOfTwo_go_eq (n : Nat) : ∀ power counter (h : 0 < power), power = 2 ^ counter →
    Nat.nextPowerOfTwo.go n power h = 2 ^ constLogLoop n power counter h := by
  intro power counter h
  induction power, counter, h using constLogLoop.induct n with
  | case1 power counter h hp ih =>
    rintro rfl
    rw [Nat.nextPowerOfTwo.go, constLogLoop, if_pos hp, dif_pos hp, ih (by rw [Nat.pow_succ])]
  | case2 power counter h hp =>
    rintro rfl
    rw [Nat.nextPowerOfTwo.go, constLogLoop, if_neg hp, dif_neg hp]

/-- `next_power_of_two` runs the loop of `const_log` and returns `power`. -/
theorem two_pow_constLog (n : Nat) : 2 ^ constLog n = n.nextPowerOfTwo :=
  (nextPowerOfTwo_go_eq n 1 0 Nat.one_pos rfl).symm

theorem le_nextPowerOfTwo (n : Nat) : n ≤ n.nextPowerOfTwo :=
  two_pow_constLog n ▸ le_two_pow_constLog n

/-! ## The loop on a `usize` -/

/-- The loop of `const_log` on a `usize` of `bits` bits: `none` when `power *= 2` overflows. -/
def constLogLoopUsize (bits n power counter : Nat) (h : 0 < power) : Option Nat :=
  if hp : power < n then
    if power * 2 < 2 ^ bits then
      constLogLoopUsize bits n (power * 2) (counter + 1) (Nat.mul_pos h Nat.two_pos)
    else none
  else some counter
termination_by n - power
decreasing_by exact Nat.nextPowerOfTwo_dec h hp

/-- `const_log(n)` evaluated with `usize::BITS = bits`. -/
def constLogUsize (bits n : Nat) : Option Nat := constLogLoopUsize bits n 1 0 Nat.one_pos

/-- The loop invariant on a `usize`: `power = 2 ^ counter` with `counter < bits`, so a doubling
overflows exactly when it would pass `2 ^ (bits - 1)`. -/
theorem constLogLoopUsize_eq (bits n : Nat) : ∀ power counter (h : 0 < power),
    power = 2 ^ counter → counter ≤ bits - 1 →
    constLogLoopUsize bits n power counter h =
      if n ≤ 2 ^ (bits - 1) then some (max counter (Nat.clog 2 n)) else none := by
  intro power counter h
  induction power, counter, h using constLogLoopUsize.induct bits n with
  | case1 power counter h hp hb ih =>
    rintro rfl hc
    rw [constLogLoopUsize, dif_pos hp, if_pos hb, ih (by rw [Nat.pow_succ]) ?_]
    · have := lt_clog_of_two_pow_lt hp
      split
      · simp only [Option.some.injEq]; omega
      · rfl
    · have : counter + 1 < bits := (Nat.pow_lt_pow_iff_right Nat.one_lt_two).1 (by rwa [Nat.pow_succ])
      omega
  | case2 power counter h hp hb =>
    rintro rfl hc
    rw [constLogLoopUsize, dif_pos hp, if_neg hb]
    have : 2 ^ (bits - 1) < n := by
      refine Nat.lt_of_le_of_lt (Nat.pow_le_pow_right Nat.two_pos ?_) hp
      by_contra hlt
      exact hb (by rw [← Nat.pow_succ]; exact Nat.pow_lt_pow_right Nat.one_lt_two (by omega))
    rw [if_neg (Nat.not_le_of_lt this)]
  | case3 power counter h hp =>
    rintro rfl hc
    rw [constLogLoopUsize, dif_neg hp,
      if_pos ((Nat.le_of_not_lt hp).trans (Nat.pow_le_pow_right Nat.two_pos hc))]
    have := (Nat.le_pow_iff_clog_le Nat.one_lt_two).1 (Nat.le_of_not_lt hp)
    simp only [Option.some.injEq]
    omega

/-- **`const_log` on a `usize`**: the doubling `power *= 2` overflows exactly for
`n > 2 ^ (usize::BITS - 1)`, and for every other `n` the loop returns `const_log n`. -/
theorem constLogUsize_eq (bits n : Nat) :
    constLogUsize bits n = if n ≤ 2 ^ (bits - 1) then some (constLog n) else none := by
  rw [constLogUsize, constLogLoopUsize_eq bits n 1 0 Nat.one_pos rfl (Nat.zero_le _),
    constLog_eq_clog, Nat.zero_max]

/-- **`const_log` is a total ceiling `log2`**: for every `n ≤ 2 ^ (usize::BITS - 1)` the loop
exits without an overflowing doubling and returns the least `k` with `n ≤ 2 ^ k`. -/
theorem constLogUsize_eq_least (bits n : Nat) (h : n ≤ 2 ^ (bits - 1)) :
    constLogUsize bits n = some (constLog n) ∧ n ≤ 2 ^ constLog n ∧
      ∀ k, n ≤ 2 ^ k → constLog n ≤ k :=
  ⟨by rw [constLogUsize, constLogLoopUsize_eq bits n 1 0 Nat.one_pos rfl (Nat.zero_le _),
      if_pos h, constLog_eq_clog, Nat.zero_max],
    le_two_pow_constLog n, fun _ => constLog_le_iff.2⟩

theorem constLogUsize_eq_least_at_word_boundary :
    2 ^ 63 ≤ 2 ^ (64 - 1) ∧ constLogUsize 64 (2 ^ 63) = some (constLog (2 ^ 63)) ∧
      2 ^ 63 ≤ 2 ^ constLog (2 ^ 63) ∧ ∀ k, 2 ^ 63 ≤ 2 ^ k → constLog (2 ^ 63) ≤ k :=
  ⟨le_rfl, constLogUsize_eq_least 64 (2 ^ 63) le_rfl⟩

end Tiresias
