import Mathlib.Algebra.Group.Nat.Basic
import Mathlib.Data.Nat.ModEq
import Mathlib.Tactic.Linarith
import Mathlib.Tactic.Ring

/-!
# Montgomery reduction (`crypto_bigint`)

`DynResidue` keeps a residue modulo an odd `modulus` in Montgomery form `x * R mod modulus`,
`R = 2 ^ (w * LIMBS)` for limbs of `w = Limb::BITS` bits. Both of its conversions run
`montgomery_reduction`, modelled here on naturals: a double-width accumulator, one pass per limb
`i` that adds `u * modulus` at limb `i`, with `u = limb_i * mod_neg_inv mod 2 ^ w` chosen to clear
limb `i`; then the upper half, less `modulus` once if it is not below it (`sub_mod_with_carry`).
The source's inner carry loops are the word-by-word form of that addition; the low limbs it
leaves unwritten are cleared here, and neither is read again.

* `reductionStep_spec`, `reductionLoop_spec`: after `i` passes the accumulator is congruent to the
  input, a multiple of `2 ^ (w * i)`, and at most `input + modulus * (2 ^ (w * i) - 1)`.
* `montgomeryReduction_spec`: for an input below `modulus * R` the result is below `modulus` and
  `result * R ≡ input [MOD modulus]`.
* `invMod2k_spec`: `inv_mod2k_vartime(k)`'s bit loop computes the inverse of an odd word modulo
  `2 ^ k`, for every `k` up to the word size (`invMod2kLoop_spec`, its loop invariant);
  `modNegInv_spec`: `modulus * mod_neg_inv + 1 ≡ 0 [MOD 2 ^ w]`.
-/

namespace CryptoBigint

open Nat

section Reduction

variable (w : Nat)

/-- Pass `i` of the outer loop of `montgomery_reduction` on the accumulator
`lower + upper * R + meta_carry * R ^ 2`. -/
def reductionStep (modulus modNegInv acc i : Nat) : Nat :=
  acc + acc / 2 ^ (w * i) % 2 ^ w * modNegInv % 2 ^ w * modulus * 2 ^ (w * i)

/-- The first `i` passes of the outer loop. -/
def reductionLoop (modulus modNegInv lowerUpper i : Nat) : Nat :=
  (List.range i).foldl (reductionStep w modulus modNegInv) lowerUpper

/-- `montgomery_reduction(lower_upper, modulus, mod_neg_inv)` on `limbs` limbs: the upper half
`(meta_carry, upper)` after the loop, through `sub_mod_with_carry`. -/
def montgomeryReduction (limbs modulus modNegInv lowerUpper : Nat) : Nat :=
  let upper := reductionLoop w modulus modNegInv lowerUpper limbs / 2 ^ (w * limbs)
  if upper < modulus then upper else upper - modulus

variable {w} {modulus modNegInv : Nat}

@[simp] theorem reductionLoop_zero (input : Nat) :
    reductionLoop w modulus modNegInv input 0 = input := rfl

@[simp] theorem reductionLoop_succ (input i : Nat) :
    reductionLoop w modulus modNegInv input (i + 1) =
      reductionStep w modulus modNegInv (reductionLoop w modulus modNegInv input i) i := by
  simp only [reductionLoop, List.range_succ, List.foldl_append, List.foldl_cons, List.foldl_nil]

/-- What one pass keeps: the residue, and a further cleared limb, at the cost of at most
`(2 ^ w - 1) * modulus` at limb `i`. -/
theorem reductionStep_spec (hinv : modulus * modNegInv + 1 ≡ 0 [MOD 2 ^ w]) {acc i : Nat}
    (hdvd : 2 ^ (w * i) ∣ acc) :
    reductionStep w modulus modNegInv acc i ≡ acc [MOD modulus] ∧
      2 ^ (w * (i + 1)) ∣ reductionStep w modulus modNegInv acc i ∧
      reductionStep w modulus modNegInv acc i + modulus * 2 ^ (w * i) ≤
        acc + modulus * 2 ^ (w * (i + 1)) := by
  obtain ⟨q, rfl⟩ := hdvd
  have hq : 2 ^ (w * i) * q / 2 ^ (w * i) = q := Nat.mul_div_cancel_left q (Nat.two_pow_pos _)
  simp only [reductionStep, hq, Nat.mul_add w i, Nat.mul_one, Nat.pow_add]
  have hu : q % 2 ^ w * modNegInv % 2 ^ w < 2 ^ w := Nat.mod_lt _ (Nat.two_pow_pos w)
  have hcleared : q + q % 2 ^ w * modNegInv % 2 ^ w * modulus ≡ 0 [MOD 2 ^ w] :=
    calc q + q % 2 ^ w * modNegInv % 2 ^ w * modulus
        ≡ q % 2 ^ w + q % 2 ^ w * modNegInv * modulus [MOD 2 ^ w] :=
          (Nat.mod_modEq q _).symm.add ((Nat.mod_modEq _ _).mul_right _)
      _ = q % 2 ^ w * (modulus * modNegInv + 1) := by ring
      _ ≡ q % 2 ^ w * 0 [MOD 2 ^ w] := hinv.mul_left _
  generalize q % 2 ^ w * modNegInv % 2 ^ w = u at hu hcleared ⊢
  refine ⟨?_, ?_, ?_⟩
  · rw [Nat.ModEq, Nat.mul_right_comm u, Nat.add_mul_mod_self_right]
  · rw [show 2 ^ (w * i) * q + u * modulus * 2 ^ (w * i) = 2 ^ (w * i) * (q + u * modulus) by
      ring]
    exact Nat.mul_dvd_mul_left _ ((Nat.modEq_zero_iff_dvd).1 hcleared)
  · have := Nat.mul_le_mul_right (modulus * 2 ^ (w * i)) (Nat.succ_le_of_lt hu)
    linarith

/-- The invariant of `montgomery_reduction`'s outer loop after `i` passes. -/
theorem reductionLoop_spec (hinv : modulus * modNegInv + 1 ≡ 0 [MOD 2 ^ w]) (input : Nat) :
    ∀ i, reductionLoop w modulus modNegInv input i ≡ input [MOD modulus] ∧
      2 ^ (w * i) ∣ reductionLoop w modulus modNegInv input i ∧
      reductionLoop w modulus modNegInv input i + modulus ≤ input + modulus * 2 ^ (w * i)
  | 0 => ⟨Nat.ModEq.refl _, by simp, by simp⟩
  | i + 1 => by
    obtain ⟨h1, h2, h3⟩ := reductionLoop_spec hinv input i
    obtain ⟨s1, s2, s3⟩ := reductionStep_spec hinv h2
    rw [reductionLoop_succ]
    exact ⟨s1.trans h1, s2, by omega⟩

/-- **Montgomery reduction**: for an input below `modulus * R`, the result is below `modulus`
and is the input times `R⁻¹` modulo `modulus`. -/
theorem montgomeryReduction_spec (hinv : modulus * modNegInv + 1 ≡ 0 [MOD 2 ^ w])
    {limbs input : Nat} (hin : input < modulus * 2 ^ (w * limbs)) :
    montgomeryReduction w limbs modulus modNegInv input < modulus ∧
      montgomeryReduction w limbs modulus modNegInv input * 2 ^ (w * limbs) ≡ input
        [MOD modulus] := by
  obtain ⟨h1, ⟨t, ht⟩, h3⟩ := reductionLoop_spec hinv input limbs
  have hR : 0 < 2 ^ (w * limbs) := Nat.two_pow_pos _
  rw [ht] at h1 h3
  have ht2 : t < 2 * modulus :=
    Nat.lt_of_mul_lt_mul_left (a := 2 ^ (w * limbs)) (by linarith)
  have htR : t * 2 ^ (w * limbs) ≡ input [MOD modulus] := by rwa [Nat.mul_comm]
  simp only [montgomeryReduction, ht, Nat.mul_div_cancel_left t hR]
  split
  · exact ⟨‹_›, htR⟩
  · refine ⟨by omega, Nat.ModEq.trans ?_ htR⟩
    have : (t - modulus) * 2 ^ (w * limbs) + modulus * 2 ^ (w * limbs) = t * 2 ^ (w * limbs) := by
      rw [← Nat.add_mul, Nat.sub_add_cancel (by omega)]
    rw [Nat.ModEq, ← this, Nat.add_mul_mod_self_left]

end Reduction

/-! ## The Montgomery constant `mod_neg_inv` -/

/-- The loop of `inv_mod2k_vartime` on a one-limb `a` of `w` bits: from `x = 0, b = 1`, bit `i` of
the inverse is `X_i = b mod 2`, then `b ← (b - a * X_i) >> 1` in wrapping arithmetic and
`x ← x | (X_i << i)` (an addition: `x` has no bit at `i`). -/
def invMod2kLoop (w a : Nat) : (fuel i x b : Nat) → Nat
  | 0, _, x, _ => x
  | fuel + 1, i, x, b =>
    invMod2kLoop w a fuel (i + 1) (x + b % 2 * 2 ^ i)
      ((if b % 2 = 1 then (b + 2 ^ w - a) % 2 ^ w else b) / 2)

/-- `inv_mod2k_vartime(k)`: `while i < k`. -/
def invMod2k (w a k : Nat) : Nat := invMod2kLoop w a k 0 0 1

/-- `mod_neg_inv` of `DynResidueParams::new`:
`Word::MIN.wrapping_sub(modulus_lo.inv_mod2k_vartime(Word::BITS))` with `modulus_lo` the low
limb of the modulus. -/
def modNegInv (w modulus : Nat) : Nat := (2 ^ w - invMod2k w (modulus % 2 ^ w) w) % 2 ^ w

/-- One step of `inv_mod2k_vartime`'s loop on `b`: with `X_i = b mod 2`, the new `b` is
`(b - a * X_i) / 2` modulo `2 ^ w`. -/
theorem two_mul_nextB_add_modEq {w a b : Nat} (ha : a % 2 = 1) (haw : a < 2 ^ w) (hw : 0 < w) :
    2 * ((if b % 2 = 1 then (b + 2 ^ w - a) % 2 ^ w else b) / 2) + a * (b % 2) ≡ b
      [MOD 2 ^ w] := by
  have h2w : 2 ∣ 2 ^ w := dvd_pow_self 2 hw.ne'
  split
  next hb =>
    have heven : 2 ∣ (b + 2 ^ w - a) % 2 ^ w := by
      have := Nat.mod_eq_zero_of_dvd h2w
      rw [Nat.dvd_iff_mod_eq_zero, Nat.mod_mod_of_dvd _ h2w]
      omega
    rw [Nat.mul_div_cancel' heven, hb, Nat.mul_one]
    calc (b + 2 ^ w - a) % 2 ^ w + a ≡ b + 2 ^ w - a + a [MOD 2 ^ w] :=
          (Nat.mod_modEq _ _).add_right a
      _ = b + 2 ^ w := by omega
      _ ≡ b [MOD 2 ^ w] := Nat.add_modEq_right
  next hb =>
    rw [Nat.mul_div_cancel' (Nat.dvd_of_mod_eq_zero (by omega)), show b % 2 = 0 by omega,
      Nat.mul_zero, Nat.add_zero]

/-- The invariant `a * x + 2 ^ i * b ≡ 1 [MOD 2 ^ w]` of `inv_mod2k_vartime`'s loop: after the
loop has run up to `i + fuel ≤ w`, `x` is the inverse of `a` modulo `2 ^ (i + fuel)`. -/
theorem invMod2kLoop_spec {w a : Nat} (ha : a % 2 = 1) (haw : a < 2 ^ w) :
    ∀ fuel i x b, i + fuel ≤ w → x < 2 ^ i → a * x + 2 ^ i * b ≡ 1 [MOD 2 ^ w] →
      invMod2kLoop w a fuel i x b < 2 ^ (i + fuel) ∧
        a * invMod2kLoop w a fuel i x b ≡ 1 [MOD 2 ^ (i + fuel)]
  | 0, i, x, b, hi, hx, h => by
    refine ⟨hx, ?_⟩
    have hlow := Nat.ModEq.of_dvd (Nat.pow_dvd_pow 2 (by omega : i ≤ w)) h
    simpa [invMod2kLoop, Nat.ModEq, Nat.add_mul_mod_self_left] using hlow
  | fuel + 1, i, x, b, hi, hx, h => by
    rw [show i + (fuel + 1) = i + 1 + fuel by omega]
    refine invMod2kLoop_spec ha haw fuel (i + 1) _ _ (by omega) ?_ ?_
    · have hbit : b % 2 * 2 ^ i ≤ 1 * 2 ^ i :=
        Nat.mul_le_mul_right _ (Nat.le_of_lt_succ (Nat.mod_lt b Nat.two_pos))
      rw [Nat.pow_succ]
      omega
    · have hstep := two_mul_nextB_add_modEq (b := b) ha haw (by omega)
      generalize (if b % 2 = 1 then (b + 2 ^ w - a) % 2 ^ w else b) / 2 = b' at hstep ⊢
      calc a * (x + b % 2 * 2 ^ i) + 2 ^ (i + 1) * b'
          = a * x + 2 ^ i * (2 * b' + a * (b % 2)) := by ring
        _ ≡ a * x + 2 ^ i * b [MOD 2 ^ w] := (hstep.mul_left _).add_left _
        _ ≡ 1 [MOD 2 ^ w] := h

/-- **`inv_mod2k_vartime(k)` inverts an odd word modulo `2 ^ k`**, for every `k` up to the word
size: the result is below `2 ^ k` and its product with the word is `1` modulo `2 ^ k`. -/
theorem invMod2k_spec {w a k : Nat} (ha : a % 2 = 1) (haw : a < 2 ^ w) (hk : k ≤ w) :
    invMod2k w a k < 2 ^ k ∧ a * invMod2k w a k ≡ 1 [MOD 2 ^ k] := by
  have h := invMod2kLoop_spec ha haw k 0 0 1 (by omega) (Nat.two_pow_pos 0)
    (by simp [Nat.ModEq.refl])
  rwa [Nat.zero_add] at h

theorem invMod2k_spec_of_three :
    (3 % 2 = 1 ∧ 3 < 2 ^ 8 ∧ 5 ≤ 8) ∧ invMod2k 8 3 5 < 2 ^ 5 ∧ 3 * invMod2k 8 3 5 ≡ 1 [MOD 2 ^ 5] :=
  ⟨⟨rfl, by decide, by decide⟩, invMod2k_spec rfl (by decide) (by decide)⟩

/-- `mod_neg_inv` is `-modulus⁻¹` modulo `2 ^ w` for an odd modulus. -/
theorem modNegInv_spec {w modulus : Nat} (hodd : modulus % 2 = 1) :
    modulus * modNegInv w modulus + 1 ≡ 0 [MOD 2 ^ w] := by
  rcases Nat.eq_zero_or_pos w with rfl | hw
  · exact Nat.modEq_one
  have ha : modulus % 2 ^ w % 2 = 1 := by
    rw [Nat.mod_mod_of_dvd _ (dvd_pow_self 2 (by omega)), hodd]
  obtain ⟨hx, hinv⟩ := invMod2kLoop_spec ha (Nat.mod_lt _ (Nat.two_pow_pos w)) w 0 0 1
    (Nat.zero_add w).le (Nat.two_pow_pos 0) (by simp [Nat.ModEq.refl])
  rw [Nat.zero_add] at hx hinv
  unfold modNegInv invMod2k
  generalize invMod2kLoop w (modulus % 2 ^ w) w 0 0 1 = x at hx hinv ⊢
  have hmx : modulus * x ≡ 1 [MOD 2 ^ w] :=
    ((Nat.mod_modEq modulus _).symm.mul_right x).trans hinv
  calc modulus * ((2 ^ w - x) % 2 ^ w) + 1 ≡ modulus * (2 ^ w - x) + modulus * x [MOD 2 ^ w] :=
        ((Nat.mod_modEq _ _).mul_left _).add hmx.symm
    _ = modulus * 2 ^ w := by rw [← Nat.mul_add, Nat.sub_add_cancel hx.le]
    _ ≡ 0 [MOD 2 ^ w] := (Nat.modEq_zero_iff_dvd).2 (Nat.dvd_mul_left _ _)

end CryptoBigint
