import Crypto.Tiresias.Bounds
import Mathlib.Algebra.Order.BigOperators.Group.List
import Mathlib.Tactic.Linarith
import Mathlib.Tactic.Ring

/-!
# The width of a secret key share

The `secret_sharing` module, which samples the sharing polynomial and evaluates it, is not part of
this source. `evaluatePolynomial` models a share from the spec: the polynomial
`a_0 + a_1 x + ... + a_t x^t` with natural coefficients, `a_0` the secret, evaluated at a party
index as an integer, with no modular reduction.

* `sub_one_mul_evaluatePolynomial_add_le`: the geometric-sum bound, by induction over the
  coefficients; at `x ≥ 2` it gives `f(x) < 2 * 2 ^ b * x ^ t` (`evaluatePolynomial_lt_two_mul`).
* `evaluatePolynomial_lt`: coefficients below `2 ^ b` give shares below
  `2 ^ (b + t * const_log(n) + 1)` at every index `1 ≤ i ≤ n`: every index lies below
  `2 ^ const_log(n)`, and `n = 1` (where that power is `1`) is counted apart.
* `share_lt_two_pow`: with the source's coefficient widths, shares stay below
  `2 ^ secret_key_share_size_upper_bound(n, t)`, and up to `MAX_PLAYERS` below
  `2 ^ SECRET_KEY_SHARE_SIZE_UPPER_BOUND`, within `SecretKeyShareSizedNumber`.
* `secretSharingPolynomialCoefficientSizeUpperBound_le_iff`: the `const_log(n)` term of the
  coefficient width is exactly the room for summing one value from each of the `n` parties: the
  width is the least `W` below whose power every such sum stays (`sum_lt_two_pow_add_constLog`,
  `two_pow_le_sum_replicate`).
-/

namespace Tiresias

/-- Modelled from the spec: a share of the integer secret sharing (`secret_sharing`, not in this
source), the polynomial with coefficients `a_0, ..., a_t` (constant term first) evaluated at the
party index `x`. -/
def evaluatePolynomial : List Nat → Nat → Nat
  | [], _ => 0
  | a :: coefficients, x => a + x * evaluatePolynomial coefficients x

@[simp] theorem evaluatePolynomial_nil (x : Nat) : evaluatePolynomial [] x = 0 := rfl

@[simp] theorem evaluatePolynomial_cons (a : Nat) (coefficients : List Nat) (x : Nat) :
    evaluatePolynomial (a :: coefficients) x = a + x * evaluatePolynomial coefficients x := rfl

theorem evaluatePolynomial_mono {x y : Nat} (h : x ≤ y) :
    ∀ coefficients, evaluatePolynomial coefficients x ≤ evaluatePolynomial coefficients y
  | [] => le_rfl
  | a :: coefficients => by
    simp only [evaluatePolynomial_cons]
    exact Nat.add_le_add_left (Nat.mul_le_mul h (evaluatePolynomial_mono h coefficients)) a

/-- The geometric-sum bound `(x - 1) * f(x) + B ≤ B * x ^ (t + 1)` for coefficients below `B`,
written with `x = y + 1`. -/
theorem sub_one_mul_evaluatePolynomial_add_le {B : Nat} (y : Nat) :
    ∀ coefficients : List Nat, (∀ a ∈ coefficients, a < B) →
      y * evaluatePolynomial coefficients (y + 1) + B ≤ B * (y + 1) ^ coefficients.length
  | [], _ => by simp
  | a :: coefficients, h => by
    have ih := sub_one_mul_evaluatePolynomial_add_le y coefficients
      fun a ha => h a (List.mem_cons_of_mem _ ha)
    have ha := h a (List.mem_cons_self _ _)
    simp only [evaluatePolynomial_cons, List.length_cons, Nat.pow_succ]
    linarith [Nat.mul_le_mul_left (y + 1) ih, Nat.mul_le_mul_left y ha.le]

/-- At a point `x ≥ 2`, a polynomial of degree `t` with coefficients below `B` stays below
`2 * B * x ^ t`. -/
theorem evaluatePolynomial_lt_two_mul {B t x : Nat} {coefficients : List Nat} (hB : 0 < B)
    (hx : 2 ≤ x) (hlen : coefficients.length ≤ t + 1) (h : ∀ a ∈ coefficients, a < B) :
    evaluatePolynomial coefficients x < 2 * B * x ^ t := by
  obtain ⟨y, rfl⟩ : ∃ y, x = y + 1 + 1 := ⟨x - 2, by omega⟩
  have hgeom := (sub_one_mul_evaluatePolynomial_add_le (y + 1) coefficients h).trans
    (Nat.mul_le_mul_left B (Nat.pow_le_pow_right (Nat.succ_pos _) hlen))
  rw [Nat.pow_succ] at hgeom
  by_contra hge
  have := Nat.mul_le_mul_left (y + 1) (Nat.le_of_not_lt hge)
  linarith [Nat.zero_le (y * (B * (y + 1 + 1) ^ t))]

/-- A single party: its index is `1` and the polynomial has degree at most `1`. -/
theorem evaluatePolynomial_one_lt {B : Nat} {coefficients : List Nat}
    (hlen : coefficients.length ≤ 2) (h : ∀ a ∈ coefficients, a < B) (hB : 0 < B) :
    evaluatePolynomial coefficients 1 < 2 * B := by
  match coefficients, hlen with
  | [], _ => simp; omega
  | [a], _ => have := h a (by simp); simp; omega
  | [a, a'], _ => have := h a (by simp); have := h a' (by simp); simp; omega

/-- Coefficients below `2 ^ b` give shares below `2 ^ (b + t * const_log(n) + 1)` at every party
index. -/
theorem evaluatePolynomial_lt {n t b i : Nat} {coefficients : List Nat} (htn : t ≤ n)
    (hi : 1 ≤ i) (hin : i ≤ n) (hlen : coefficients.length ≤ t + 1)
    (h : ∀ a ∈ coefficients, a < 2 ^ b) :
    evaluatePolynomial coefficients i < 2 ^ (b + t * constLog n + 1) := by
  rcases Nat.lt_or_ge n 2 with hn | hn
  · obtain rfl : i = 1 := by omega
    rw [constLog_le_one (by omega), Nat.mul_zero, Nat.add_zero, Nat.pow_succ, Nat.mul_comm]
    exact evaluatePolynomial_one_lt (by omega) h (Nat.two_pow_pos b)
  · have hX : 2 ≤ 2 ^ constLog n := Nat.pow_le_pow_right Nat.two_pos (constLog_pos hn)
    calc evaluatePolynomial coefficients i
        ≤ evaluatePolynomial coefficients (2 ^ constLog n) :=
          evaluatePolynomial_mono (hin.trans (le_two_pow_constLog n)) _
      _ < 2 * 2 ^ b * (2 ^ constLog n) ^ t :=
          evaluatePolynomial_lt_two_mul (Nat.two_pow_pos b) hX hlen h
      _ = 2 ^ (b + t * constLog n + 1) := by rw [← Nat.pow_mul]; ring

/-- **Secret-key-share width suffices**: coefficients below `2 ^ b` give shares below
`2 ^ (b + t * const_log(n) + 1)`; with the source's coefficient width every share is below
`2 ^ secret_key_share_size_upper_bound(n, t)`; and up to `MAX_PLAYERS`, with the global coefficient
width, below `2 ^ SECRET_KEY_SHARE_SIZE_UPPER_BOUND`, so within `SecretKeyShareSizedNumber`. -/
theorem share_lt_two_pow (securityBits : Nat) :
    (∀ n t b i (coefficients : List Nat), t ≤ n → 1 ≤ i → i ≤ n →
      coefficients.length ≤ t + 1 → (∀ a ∈ coefficients, a < 2 ^ b) →
      evaluatePolynomial coefficients i < 2 ^ (b + t * constLog n + 1)) ∧
    (∀ n t i (coefficients : List Nat), t ≤ n → 1 ≤ i → i ≤ n →
      coefficients.length ≤ t + 1 →
      (∀ a ∈ coefficients,
        a < 2 ^ secretSharingPolynomialCoefficientSizeUpperBound securityBits n t) →
      evaluatePolynomial coefficients i < 2 ^ secretKeyShareSizeUpperBound securityBits n t) ∧
    (∀ limbBits n t i (coefficients : List Nat),
      limbBits ∣ PaillierModulusSizedNumber.BITS → t ≤ n → n ≤ MAX_PLAYERS → 1 ≤ i → i ≤ n →
      coefficients.length ≤ t + 1 →
      (∀ a ∈ coefficients,
        a < 2 ^ SECRET_SHARING_POLYNOMIAL_COEFFICIENT_SIZE_UPPER_BOUND securityBits) →
      evaluatePolynomial coefficients i < 2 ^ SECRET_KEY_SHARE_SIZE_UPPER_BOUND securityBits ∧
        evaluatePolynomial coefficients i <
          2 ^ SecretKeyShareSizedNumber.BITS securityBits limbBits) := by
  refine ⟨fun _ _ _ _ _ => evaluatePolynomial_lt, fun _ _ _ _ => evaluatePolynomial_lt, ?_⟩
  intro limbBits n t i coefficients hl htn hn hi hin hlen h
  have hw : SECRET_SHARING_POLYNOMIAL_COEFFICIENT_SIZE_UPPER_BOUND securityBits +
      t * constLog n + 1 ≤ SECRET_KEY_SHARE_SIZE_UPPER_BOUND securityBits := by
    have := Nat.mul_le_mul (htn.trans hn) (constLog_mono hn)
    unfold SECRET_KEY_SHARE_SIZE_UPPER_BOUND secretKeyShareSizeUpperBound
    unfold SECRET_SHARING_POLYNOMIAL_COEFFICIENT_SIZE_UPPER_BOUND at *
    omega
  have hlt := (evaluatePolynomial_lt htn hi hin hlen h).trans_le
    (Nat.pow_le_pow_right Nat.two_pos hw)
  exact ⟨hlt, hlt.trans_le
    (Nat.pow_le_pow_right Nat.two_pos (SecretKeyShareSizedNumber.bound_le_BITS securityBits hl))⟩

/-! ## Room for a sum over the parties -/

/-- At most `n` values below `2 ^ w` sum below `2 ^ (w + const_log n)`. -/
theorem sum_lt_two_pow_add_constLog {n w : Nat} (coefficients : List Nat)
    (hlen : coefficients.length ≤ n) (h : ∀ a ∈ coefficients, a < 2 ^ w) :
    coefficients.sum < 2 ^ (w + constLog n) :=
  calc coefficients.sum ≤ coefficients.length * (2 ^ w - 1) :=
        List.sum_le_card_nsmul coefficients _ fun a ha => Nat.le_sub_one_of_lt (h a ha)
    _ ≤ 2 ^ constLog n * (2 ^ w - 1) :=
        Nat.mul_le_mul_right _ (hlen.trans (le_two_pow_constLog n))
    _ < 2 ^ constLog n * 2 ^ w :=
        Nat.mul_lt_mul_of_pos_left (Nat.sub_lt (Nat.two_pow_pos _) Nat.one_pos) (Nat.two_pow_pos _)
    _ = 2 ^ (w + constLog n) := by rw [← Nat.pow_add, Nat.add_comm]

/-- No fewer extra bits do: `n ≥ 1` values at the top of a width `w` that can count the parties
reach `2 ^ W` for every `W < w + const_log n`. -/
theorem two_pow_le_sum_replicate {n w W : Nat} (hn : 1 ≤ n) (hw : n ≤ 2 ^ w)
    (hW : W < w + constLog n) : 2 ^ W ≤ (List.replicate n (2 ^ w - 1)).sum := by
  rw [List.sum_replicate, smul_eq_mul]
  rcases Nat.lt_or_ge W w with hlt | hge
  · calc 2 ^ W ≤ 2 ^ w - 1 := Nat.le_sub_one_of_lt (Nat.pow_lt_pow_right Nat.one_lt_two hlt)
      _ ≤ n * (2 ^ w - 1) := Nat.le_mul_of_pos_left _ hn
  · have hk : 2 ^ (W - w) + 1 ≤ n := two_pow_lt_of_lt_constLog (by omega)
    have hmul := Nat.mul_le_mul_right (2 ^ w) hk
    rw [Nat.add_mul, Nat.one_mul] at hmul
    rw [Nat.mul_sub_one, show W = W - w + w by omega, Nat.pow_add]
    omega

/-- `factorial_upper_bound(n)` alone counts the parties: `const_log n ≤ factorial_upper_bound(n)`. -/
theorem constLog_le_factorialUpperBound (n : Nat) : constLog n ≤ factorialUpperBound n := by
  have hmono := constLog_mono (Nat.le_add_right n 1)
  unfold factorialUpperBound
  rcases Nat.eq_zero_or_pos n with rfl | hn
  · simp [constLog_le_one]
  · have hc : 1 ≤ constLog (n + 1) := constLog_pos (by omega)
    have := Nat.mul_le_mul_left n hc
    rw [Nat.add_mul, Nat.one_mul]
    omega

/-- **The `const_log(n)` term of the coefficient width is exactly the room for a sum over the
parties**, as the source's comment says: for `n ≥ 1` parties, any `n` values of the width without
that term, one from each party, sum below `2 ^ W` exactly when `W` is at least
`secret_sharing_polynomial_coefficient_size_upper_bound(n, t)`. -/
theorem secretSharingPolynomialCoefficientSizeUpperBound_le_iff (securityBits : Nat) {n : Nat}
    (t : Nat) (hn : 1 ≤ n) (W : Nat) :
    (∀ coefficients : List Nat, coefficients.length ≤ n →
      (∀ a ∈ coefficients, a < 2 ^ (factorialUpperBound n + 2 * constLog t + 2 +
        PaillierModulusSizedNumber.BITS + securityBits)) →
      coefficients.sum < 2 ^ W) ↔
    secretSharingPolynomialCoefficientSizeUpperBound securityBits n t ≤ W := by
  constructor
  · intro hsafe
    refine Nat.le_of_not_lt fun hW => Nat.not_le_of_lt
      (hsafe _ (List.length_replicate _ _).le fun a ha => ?_) (two_pow_le_sum_replicate hn ?_ hW)
    · rw [List.eq_of_mem_replicate ha]
      exact Nat.sub_lt (Nat.two_pow_pos _) Nat.one_pos
    · refine (le_two_pow_constLog n).trans (Nat.pow_le_pow_right Nat.two_pos ?_)
      have := constLog_le_factorialUpperBound n
      omega
  · intro hW coefficients hlen h
    exact (sum_lt_two_pow_add_constLog coefficients hlen h).trans_le
      (Nat.pow_le_pow_right Nat.two_pos hW)

theorem secretSharingPolynomialCoefficientSizeUpperBound_le_iff_of_three :
    1 ≤ 3 ∧
      ((∀ coefficients : List Nat, coefficients.length ≤ 3 →
        (∀ a ∈ coefficients, a < 2 ^ (factorialUpperBound 3 + 2 * constLog 2 + 2 +
          PaillierModulusSizedNumber.BITS + 128)) →
        coefficients.sum < 2 ^ secretSharingPolynomialCoefficientSizeUpperBound 128 3 2) ↔
      secretSharingPolynomialCoefficientSizeUpperBound 128 3 2 ≤
        secretSharingPolynomialCoefficientSizeUpperBound 128 3 2) :=
  ⟨by decide, secretSharingPolynomialCoefficientSizeUpperBound_le_iff 128 2 (by decide) _⟩

theorem share_lt_two_pow_three_parties :
    (2 ≤ 3 ∧ 1 ≤ 3 ∧ 3 ≤ 3 ∧ [15, 15, 15].length ≤ 2 + 1 ∧ ∀ a ∈ [15, 15, 15], a < 2 ^ 4) ∧
      evaluatePolynomial [15, 15, 15] 3 < 2 ^ (4 + 2 * constLog 3 + 1) ∧
    (64 ∣ PaillierModulusSizedNumber.BITS ∧ 2 ≤ 3 ∧ 3 ≤ MAX_PLAYERS ∧
      ∀ a ∈ [15, 15, 15], a < 2 ^ SECRET_SHARING_POLYNOMIAL_COEFFICIENT_SIZE_UPPER_BOUND 128) ∧
      evaluatePolynomial [15, 15, 15] 3 < 2 ^ SecretKeyShareSizedNumber.BITS 128 64 :=
  have hglobal : ∀ a ∈ [15, 15, 15],
      a < 2 ^ SECRET_SHARING_POLYNOMIAL_COEFFICIENT_SIZE_UPPER_BOUND 128 := by
    intro a ha
    rw [SECRET_SHARING_POLYNOMIAL_COEFFICIENT_SIZE_UPPER_BOUND_eq]
    exact Nat.lt_of_lt_of_le (by simp at ha; omega : a < 2 ^ 4)
      (Nat.pow_le_pow_right Nat.two_pos (by omega))
  ⟨⟨by decide, by decide, by decide, by decide, by decide⟩,
    (share_lt_two_pow 128).1 3 2 4 3 [15, 15, 15] (by decide) (by decide) (by decide) (by decide)
      (by decide),
    ⟨by decide, by decide, by decide, hglobal⟩,
    ((share_lt_two_pow 128).2.2 64 3 2 3 [15, 15, 15] (by decide) (by decide) (by decide)
      (by decide) (by decide) (by decide) hglobal).2⟩

end Tiresias
