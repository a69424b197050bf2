import Crypto.Tiresias.Bounds
import Mathlib.Algebra.BigOperators.Intervals
import Mathlib.Algebra.Order.BigOperators.Group.Finset
import Mathlib.Data.Nat.Choose.Sum
import Mathlib.Data.Nat.Dist
import Mathlib.Data.Nat.Factorial.Basic

/-!
# The width of an adjusted Lagrange coefficient

`adjusted_lagrange_coefficient_sized_number(n, t)` is, in the source's comment, an upper bound
for `2 * (n choose j) * ∏_{j' ∈ [n] \ S} |j' - j|`, over a quorum `S ⊆ [n]` of at least `t`
parties and a member `j ∈ S` (`adjustedLagrangeBounded`).

* `adjustedLagrangeBounded_lt`: for each configuration the bound holds, and `n - t` does not
  underflow: `n choose j ≤ 2 ^ n`, each `|j' - j| < n ≤ 2 ^ const_log(n)`, and the complement of
  `S` has at most `n - t` members.
* `adjustedLagrangeBounded_exceeds_global`: the global `ADJUSTED_LAGRANGE_COEFFICIENT_SIZE_UPPER_BOUND`
  is the function at `(MAX_PLAYERS, MAX_PLAYERS)`, where the product is empty. At
  `n = MAX_PLAYERS, t = 1, S = {1}, j = 1` the bounded integer is `2 * 1024!`
  (`adjustedLagrangeBounded_singleton_one`), past `2 ^ 8192` (`two_pow_le_factorial_two_pow`),
  which no `AdjustedLagrangeCoefficientSizedNumber` holds.
* `adjustedLagrangeBounded_lt_at_threshold_one`: the same function at `(MAX_PLAYERS, 1)` bounds
  every configuration with at most `MAX_PLAYERS` parties.
-/

namespace Tiresias

open Nat Finset

/-- The integer `adjusted_lagrange_coefficient_sized_number` bounds, in the source's comment:
`2 * (n choose j) * ∏_{j' ∈ [n] \ S} |j' - j|`. -/
def adjustedLagrangeBounded (numberOfParties : Nat) (S : Finset Nat) (j : Nat) : Nat :=
  2 * numberOfParties.choose j * ∏ j' ∈ Icc 1 numberOfParties \ S, Nat.dist j' j

theorem choose_le_two_pow (n j : Nat) : n.choose j ≤ 2 ^ n := by
  rcases Nat.lt_or_ge n j with h | h
  · rw [Nat.choose_eq_zero_of_lt h]; exact Nat.zero_le _
  · rw [← Nat.sum_range_choose n]
    exact single_le_sum (fun _ _ => Nat.zero_le _) (mem_range.2 (Nat.lt_succ_of_le h))

theorem dist_lt_of_mem_Icc {n j j' : Nat} (hj : j ∈ Icc 1 n) (hj' : j' ∈ Icc 1 n) :
    Nat.dist j' j < n := by
  rw [mem_Icc] at hj hj'
  unfold Nat.dist
  omega

/-- The complement of a quorum of at least `t` parties has at most `n - t` members. -/
theorem card_sdiff_le {n t : Nat} {S : Finset Nat} (hS : S ⊆ Icc 1 n) (ht : t ≤ S.card) :
    (Icc 1 n \ S).card ≤ n - t := by
  rw [card_sdiff hS, Nat.card_Icc]
  omega

theorem prod_dist_le {n t j : Nat} {S : Finset Nat} (hS : S ⊆ Icc 1 n) (ht : t ≤ S.card)
    (hj : j ∈ S) :
    ∏ j' ∈ Icc 1 n \ S, Nat.dist j' j ≤ 2 ^ ((n - t) * constLog n) :=
  calc ∏ j' ∈ Icc 1 n \ S, Nat.dist j' j ≤ (2 ^ constLog n) ^ (Icc 1 n \ S).card :=
        prod_le_pow_card _ _ _ fun j' hj' =>
          (dist_lt_of_mem_Icc (hS hj) (mem_sdiff.1 hj').1).le.trans (le_two_pow_constLog n)
    _ ≤ (2 ^ constLog n) ^ (n - t) :=
        Nat.pow_le_pow_right (Nat.two_pow_pos _) (card_sdiff_le hS ht)
    _ = 2 ^ ((n - t) * constLog n) := by rw [← Nat.pow_mul, Nat.mul_comm]

theorem adjustedLagrangeBounded_le {n t j : Nat} {S : Finset Nat} (hS : S ⊆ Icc 1 n)
    (ht : t ≤ S.card) (hj : j ∈ S) :
    adjustedLagrangeBounded n S j ≤ 2 ^ ((n - t) * constLog n + n + 1) :=
  calc adjustedLagrangeBounded n S j ≤ 2 * 2 ^ n * 2 ^ ((n - t) * constLog n) :=
        Nat.mul_le_mul (Nat.mul_le_mul_left 2 (choose_le_two_pow n j)) (prod_dist_le hS ht hj)
    _ = 2 ^ ((n - t) * constLog n + n + 1) := by rw [Nat.pow_succ, Nat.pow_add]; ring

/-- **The per-configuration adjusted-Lagrange width is sound**, and `n - t` does not underflow. -/
theorem adjustedLagrangeBounded_lt {n t j : Nat} {S : Finset Nat} (hS : S ⊆ Icc 1 n)
    (ht : t ≤ S.card) (hj : j ∈ S) :
    t ≤ n ∧ adjustedLagrangeBounded n S j < 2 ^ adjustedLagrangeCoefficientSizedNumber n t := by
  have htn : t ≤ n := ht.trans ((card_le_card hS).trans (by rw [Nat.card_Icc]; omega))
  refine ⟨htn, (adjustedLagrangeBounded_le hS ht hj).trans_lt ?_⟩
  have hn : 1 ≤ n := (mem_Icc.1 (hS hj)).1.trans (mem_Icc.1 (hS hj)).2
  exact Nat.pow_lt_pow_right Nat.one_lt_two (by unfold adjustedLagrangeCoefficientSizedNumber; omega)

theorem adjustedLagrangeBounded_lt_three_parties :
    (({1, 3} : Finset Nat) ⊆ Icc 1 3 ∧ 2 ≤ ({1, 3} : Finset Nat).card ∧ 1 ∈ ({1, 3} : Finset Nat)) ∧
      2 ≤ 3 ∧ adjustedLagrangeBounded 3 {1, 3} 1 < 2 ^ adjustedLagrangeCoefficientSizedNumber 3 2 :=
  ⟨⟨by decide, by decide, by decide⟩, adjustedLagrangeBounded_lt (by decide) (by decide) (by decide)⟩

theorem adjustedLagrangeCoefficientSizedNumber_MAX_PLAYERS_one :
    adjustedLagrangeCoefficientSizedNumber MAX_PLAYERS 1 = 14328 := by
  rw [adjustedLagrangeCoefficientSizedNumber, constLog_MAX_PLAYERS]
  rfl

/-- The width at threshold `1` instead of `MAX_PLAYERS` bounds every configuration up to
`MAX_PLAYERS`: the bounded integer is below `2 ^ (n * const_log(n) + n + 1) ≤ 2 ^ 11265`. -/
theorem adjustedLagrangeBounded_lt_at_threshold_one {n j : Nat} {S : Finset Nat}
    (hn : n ≤ MAX_PLAYERS) (hS : S ⊆ Icc 1 n) (hj : j ∈ S) :
    adjustedLagrangeBounded n S j < 2 ^ adjustedLagrangeCoefficientSizedNumber MAX_PLAYERS 1 := by
  have hlog : n * constLog n ≤ MAX_PLAYERS * 10 :=
    Nat.mul_le_mul hn ((constLog_mono hn).trans_eq constLog_MAX_PLAYERS)
  rw [adjustedLagrangeCoefficientSizedNumber_MAX_PLAYERS_one]
  refine (adjustedLagrangeBounded_le hS (Nat.zero_le _) hj).trans_lt
    (Nat.pow_lt_pow_right Nat.one_lt_two ?_)
  simp only [MAX_PLAYERS, Nat.sub_zero] at hn hlog ⊢
  omega

theorem adjustedLagrangeBounded_lt_at_threshold_one_of_MAX_PLAYERS :
    (MAX_PLAYERS ≤ MAX_PLAYERS ∧ ({1} : Finset Nat) ⊆ Icc 1 MAX_PLAYERS ∧ 1 ∈ ({1} : Finset Nat)) ∧
      adjustedLagrangeBounded MAX_PLAYERS {1} 1 <
        2 ^ adjustedLagrangeCoefficientSizedNumber MAX_PLAYERS 1 :=
  ⟨⟨le_rfl, by simp [MAX_PLAYERS], by decide⟩,
    adjustedLagrangeBounded_lt_at_threshold_one le_rfl (by simp [MAX_PLAYERS]) (by decide)⟩

/-! ## The global constant -/

/-- At `S = {1}` and `j = 1` the product runs over `2..n`. -/
theorem prod_dist_one (m : Nat) : ∏ j' ∈ Icc 1 (m + 1) \ {1}, Nat.dist j' 1 = m ! := by
  have hset : Icc 1 (m + 1) \ {1} = Ico (1 + 1) (m + 1 + 1) := by
    ext x; simp only [mem_sdiff, mem_Icc, mem_singleton, mem_Ico]; omega
  calc ∏ j' ∈ Icc 1 (m + 1) \ {1}, Nat.dist j' 1
        = ∏ x ∈ Ico (1 + 1) (m + 1 + 1), Nat.dist x 1 := by rw [hset]
    _ = ∏ x ∈ Ico 1 (m + 1), Nat.dist (x + 1) 1 := (prod_Ico_add' (Nat.dist · 1) _ _ _).symm
    _ = ∏ x ∈ Ico 1 (m + 1), x := prod_congr rfl fun x _ => by simp [Nat.dist]
    _ = m ! := prod_Ico_id_eq_factorial m

theorem adjustedLagrangeBounded_singleton_one (m : Nat) :
    adjustedLagrangeBounded (m + 1) {1} 1 = 2 * (m + 1)! := by
  rw [adjustedLagrangeBounded, prod_dist_one, Nat.choose_one_right, Nat.factorial_succ,
    Nat.mul_assoc]

/-- The factorial of a power of two, block by block: `(2 ^ (k + 1))!` has the factor
`(2 ^ k + 1) ^ (2 ^ k)` over `(2 ^ k)!`. -/
theorem two_pow_le_factorial_two_pow : ∀ k, 2 ^ (∑ i ∈ range k, i * 2 ^ i) ≤ (2 ^ k)!
  | 0 => by simp
  | k + 1 =>
    calc 2 ^ (∑ i ∈ range (k + 1), i * 2 ^ i)
        = 2 ^ (∑ i ∈ range k, i * 2 ^ i) * (2 ^ k) ^ 2 ^ k := by
          rw [sum_range_succ, Nat.pow_add, ← Nat.pow_mul]
      _ ≤ (2 ^ k)! * (2 ^ k + 1) ^ 2 ^ k :=
          Nat.mul_le_mul (two_pow_le_factorial_two_pow k) (Nat.pow_le_pow_left (Nat.le_succ _) _)
      _ ≤ (2 ^ k + 2 ^ k)! := Nat.factorial_mul_pow_le_factorial
      _ = (2 ^ (k + 1))! := by rw [Nat.pow_succ, Nat.mul_two]

theorem AdjustedLagrangeCoefficientSizedNumber.BITS_le (limbBits : Nat) :
    AdjustedLagrangeCoefficientSizedNumber.BITS limbBits ≤ 2 ^ 13 := by
  refine (sizedNumberBits_le _ _).trans ?_
  rw [ADJUSTED_LAGRANGE_COEFFICIENT_SIZE_UPPER_BOUND_eq, ← two_pow_constLog,
    constLog_eq_succ (k := 12) (by decide) (by decide)]

/-- The global width at a valid configuration: `n = MAX_PLAYERS`, `t = 1`, `S = {1}`, `j = 1`.
The bounded integer `2 * 1024!` reaches `2 ^ ADJUSTED_LAGRANGE_COEFFICIENT_SIZE_UPPER_BOUND`, and
the width of `AdjustedLagrangeCoefficientSizedNumber` for every limb size. -/
theorem adjustedLagrangeBounded_exceeds_global :
    (1 ≤ 1 ∧ 1 ≤ MAX_PLAYERS ∧ ({1} : Finset Nat) ⊆ Icc 1 MAX_PLAYERS ∧
      1 ≤ ({1} : Finset Nat).card ∧ 1 ∈ ({1} : Finset Nat)) ∧
    2 ^ ADJUSTED_LAGRANGE_COEFFICIENT_SIZE_UPPER_BOUND ≤ adjustedLagrangeBounded MAX_PLAYERS {1} 1 ∧
    ∀ limbBits, 2 ^ AdjustedLagrangeCoefficientSizedNumber.BITS limbBits ≤
      adjustedLagrangeBounded MAX_PLAYERS {1} 1 := by
  have hsum : ∑ i ∈ range 10, i * 2 ^ i = 8194 := by decide
  have hf : ∀ e ≤ 8194, 2 ^ e ≤ adjustedLagrangeBounded MAX_PLAYERS {1} 1 := by
    intro e he
    have h := two_pow_le_factorial_two_pow 10
    rw [hsum, show (2 : ℕ) ^ 10 = 1023 + 1 from rfl] at h
    rw [show MAX_PLAYERS = 1023 + 1 from rfl, adjustedLagrangeBounded_singleton_one]
    exact (Nat.pow_le_pow_right Nat.two_pos he).trans
      (h.trans (Nat.le_mul_of_pos_left _ Nat.two_pos))
  refine ⟨⟨le_rfl, by decide, by simp [MAX_PLAYERS], by decide, by decide⟩, ?_,
    fun limbBits => ?_⟩
  · rw [ADJUSTED_LAGRANGE_COEFFICIENT_SIZE_UPPER_BOUND_eq]
    exact hf _ (by decide)
  · exact hf _ ((AdjustedLagrangeCoefficientSizedNumber.BITS_le limbBits).trans (by decide))

end Tiresias
