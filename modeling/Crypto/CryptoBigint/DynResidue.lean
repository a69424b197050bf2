import Crypto.CryptoBigint.Montgomery
import Mathlib.Data.Nat.Prime.Basic

/-!
# `DynResidue`: residues modulo a modulus known at run time

`DynResidueParams::new(modulus)` (`crypto_bigint`) panics on an even modulus and otherwise keeps
`r2 = R ^ 2 mod modulus`, from `r = (Uint::MAX mod modulus) + 1`, and `mod_neg_inv`.
`DynResidue::new(value, params)` stores `montgomery_reduction(value * r2)`, that is
`value * R mod modulus`; `retrieve` reduces it once more. `DynResidueParams` carries what the
reduction needs as fields (an odd modulus, the two constants' specs), so only the parameters
`new` builds exist, and `DynResidue` carries that its Montgomery form is reduced.

* `new_montgomeryForm`: `new` stores exactly `value * R mod modulus`.
* `retrieve_new`: retrieving a lifted value gives the value modulo `modulus`, for every value of
  the width (reduced or not) and every odd modulus: `R` is cancelled since it is coprime to
  `modulus`.
* `new_retrieve`, `new_eq_new_iff`: the other way round, every residue is the lift of what it
  retrieves, and two values lift to the same residue exactly when they are congruent.
-/

namespace CryptoBigint

/-- `Uint<LIMBS>` with limbs of `w` bits. -/
abbrev Uint (w limbs : Nat) := Fin (2 ^ (w * limbs))

/-- `DynResidueParams<LIMBS>`: the modulus and the Montgomery constants `DynResidue::new` and
`retrieve` read (the fields `r` and `r3`, which they do not read, are left out). -/
structure DynResidueParams (w limbs : Nat) where
  modulus : Uint w limbs
  r2 : Nat
  modNegInv : Nat
  modulus_odd : modulus.val % 2 = 1
  r2_eq : r2 = 2 ^ (w * limbs) * 2 ^ (w * limbs) % modulus.val
  modNegInv_spec : modulus.val * modNegInv + 1 ≡ 0 [MOD 2 ^ w]

/-- `r * r mod modulus` with `r = (Uint::MAX mod modulus) + 1` is `R ^ 2 mod modulus`. -/
theorem r2_eq_of_pos {R m : Nat} (hR : 0 < R) :
    ((R - 1) % m + 1) * ((R - 1) % m + 1) % m = R * R % m := by
  have hr : (R - 1) % m + 1 ≡ R [MOD m] := by
    calc (R - 1) % m + 1 ≡ R - 1 + 1 [MOD m] := (Nat.mod_modEq _ _).add_right 1
      _ = R := Nat.sub_add_cancel hR
  exact hr.mul hr

/-- `DynResidueParams::new(modulus)`: `none` where it panics, on an even modulus. -/
def DynResidueParams.new {w limbs : Nat} (modulus : Uint w limbs) :
    Option (DynResidueParams w limbs) :=
  if hodd : modulus.val % 2 = 1 then
    some
      { modulus
        r2 := ((2 ^ (w * limbs) - 1) % modulus.val + 1) *
          ((2 ^ (w * limbs) - 1) % modulus.val + 1) % modulus.val
        modNegInv := CryptoBigint.modNegInv w modulus.val
        modulus_odd := hodd
        r2_eq := r2_eq_of_pos (Nat.two_pow_pos _)
        modNegInv_spec := CryptoBigint.modNegInv_spec hodd }
  else none

theorem DynResidueParams.new_modulus {w limbs : Nat} {modulus : Uint w limbs}
    {params : DynResidueParams w limbs} (h : DynResidueParams.new modulus = some params) :
    params.modulus = modulus := by
  unfold DynResidueParams.new at h
  split at h
  · cases h; rfl
  · cases h

theorem DynResidueParams.new_isSome {w limbs : Nat} {modulus : Uint w limbs} :
    (DynResidueParams.new modulus).isSome ↔ modulus.val % 2 = 1 := by
  unfold DynResidueParams.new
  split
  · simpa
  · simp only [Option.isSome_none, Bool.false_eq_true, false_iff]; assumption

namespace DynResidueParams

variable {w limbs : Nat} (params : DynResidueParams w limbs)

theorem modulus_pos : 0 < params.modulus.val := by have := params.modulus_odd; omega

theorem r2_lt : params.r2 < params.modulus.val := by
  rw [params.r2_eq]; exact Nat.mod_lt _ params.modulus_pos

/-- The Montgomery reduction these parameters run. -/
theorem reduction_spec {input : Nat} (hin : input < params.modulus.val * 2 ^ (w * limbs)) :
    montgomeryReduction w limbs params.modulus.val params.modNegInv input < params.modulus.val ∧
      montgomeryReduction w limbs params.modulus.val params.modNegInv input * 2 ^ (w * limbs) ≡
        input [MOD params.modulus.val] :=
  montgomeryReduction_spec params.modNegInv_spec hin

theorem coprime_two_pow (k : Nat) : Nat.Coprime params.modulus.val (2 ^ k) :=
  (Nat.coprime_two_right.2 (Nat.odd_iff.2 params.modulus_odd)).pow_right k

/-- The input of `DynResidue::new`'s reduction is below `modulus * R`. -/
theorem mul_r2_lt (value : Uint w limbs) :
    value.val * params.r2 < params.modulus.val * 2 ^ (w * limbs) := by
  rw [Nat.mul_comm _ (2 ^ _)]; exact Nat.mul_lt_mul'' value.isLt params.r2_lt

theorem lt_mul_R {x : Nat} (h : x < params.modulus.val) :
    x < params.modulus.val * 2 ^ (w * limbs) :=
  Nat.lt_of_lt_of_le h (Nat.le_mul_of_pos_right _ (Nat.two_pow_pos _))

end DynResidueParams

/-- `DynResidue<LIMBS>`: a residue in Montgomery form, below the modulus. -/
structure DynResidue (w limbs : Nat) where
  montgomeryForm : Nat
  residueParams : DynResidueParams w limbs
  montgomeryForm_lt : montgomeryForm < residueParams.modulus.val

/-- `DynResidue::new(value, residue_params)`: `montgomery_reduction(value.mul_wide(r2))`. -/
def DynResidue.new {w limbs : Nat} (value : Uint w limbs) (residueParams : DynResidueParams w limbs) :
    DynResidue w limbs where
  montgomeryForm :=
    montgomeryReduction w limbs residueParams.modulus.val residueParams.modNegInv
      (value.val * residueParams.r2)
  residueParams := residueParams
  montgomeryForm_lt := (residueParams.reduction_spec (residueParams.mul_r2_lt value)).1

@[simp] theorem DynResidue.new_residueParams {w limbs : Nat} (value : Uint w limbs)
    (residueParams : DynResidueParams w limbs) :
    (DynResidue.new value residueParams).residueParams = residueParams := rfl

/-- `DynResidue::retrieve`: `montgomery_reduction((montgomery_form, 0))`. -/
def DynResidue.retrieve {w limbs : Nat} (self : DynResidue w limbs) : Uint w limbs :=
  ⟨montgomeryReduction w limbs self.residueParams.modulus.val self.residueParams.modNegInv
      self.montgomeryForm,
    ((self.residueParams.reduction_spec (self.residueParams.lt_mul_R self.montgomeryForm_lt)).1).trans
      self.residueParams.modulus.isLt⟩

section
variable {w limbs : Nat} (value : Uint w limbs) (params : DynResidueParams w limbs)

/-- The lifted value's Montgomery form is `value * R` modulo `modulus`: `r2` holds `R ^ 2`, one
`R` of which the reduction takes off. -/
theorem DynResidue.new_montgomeryForm_modEq :
    (DynResidue.new value params).montgomeryForm ≡ value.val * 2 ^ (w * limbs)
      [MOD params.modulus.val] := by
  have hr2 : value.val * params.r2 ≡ value.val * 2 ^ (w * limbs) * 2 ^ (w * limbs)
      [MOD params.modulus.val] := by
    rw [params.r2_eq, Nat.mul_assoc]; exact (Nat.mod_modEq _ _).mul_left _
  exact ((params.reduction_spec (params.mul_r2_lt value)).2.trans hr2).cancel_right_of_coprime
    (params.coprime_two_pow _)

/-- `DynResidue::new` stores the Montgomery form `value * R mod modulus`. -/
theorem DynResidue.new_montgomeryForm :
    (DynResidue.new value params).montgomeryForm =
      value.val * 2 ^ (w * limbs) % params.modulus.val := by
  rw [← Nat.mod_eq_of_lt (DynResidue.new value params).montgomeryForm_lt]
  exact DynResidue.new_montgomeryForm_modEq value params

/-- **Round trip through the Montgomery form**: `retrieve(new(value))` is `value mod modulus`. -/
theorem DynResidue.retrieve_new :
    (DynResidue.new value params).retrieve.val = value.val % params.modulus.val := by
  obtain ⟨hlt, hR⟩ := params.reduction_spec
    (params.lt_mul_R (DynResidue.new value params).montgomeryForm_lt)
  show montgomeryReduction w limbs params.modulus.val params.modNegInv
    (DynResidue.new value params).montgomeryForm = _
  rw [← Nat.mod_eq_of_lt hlt]
  exact (hR.trans (DynResidue.new_montgomeryForm_modEq value params)).cancel_right_of_coprime
    (params.coprime_two_pow _)

/-- A residue is its Montgomery form and its parameters (the bound is a proof). -/
theorem DynResidue.ext_of {a b : DynResidue w limbs} (hform : a.montgomeryForm = b.montgomeryForm)
    (hparams : a.residueParams = b.residueParams) : a = b := by
  cases a; cases b; cases hform; cases hparams; rfl

/-- `retrieve` gives the value whose Montgomery form the residue holds. -/
theorem DynResidue.retrieve_mul_modEq (self : DynResidue w limbs) :
    self.retrieve.val * 2 ^ (w * limbs) ≡ self.montgomeryForm
      [MOD self.residueParams.modulus.val] :=
  (self.residueParams.reduction_spec (self.residueParams.lt_mul_R self.montgomeryForm_lt)).2

/-- **The other round trip**: lifting the retrieved value rebuilds the residue, so every residue
is the lift of a natural number below its modulus. -/
theorem DynResidue.new_retrieve (self : DynResidue w limbs) :
    DynResidue.new self.retrieve self.residueParams = self :=
  DynResidue.ext_of
    (((DynResidue.new_montgomeryForm_modEq _ _).trans self.retrieve_mul_modEq).eq_of_lt_of_lt
      (DynResidue.new _ _).montgomeryForm_lt self.montgomeryForm_lt) rfl

/-- Two values lift to the same residue exactly when they are congruent modulo the modulus. -/
theorem DynResidue.new_eq_new_iff {x y : Uint w limbs} :
    DynResidue.new x params = DynResidue.new y params ↔ x.val ≡ y.val [MOD params.modulus.val] := by
  constructor
  · intro h
    simpa only [DynResidue.retrieve_new] using congrArg (fun r => r.retrieve.val) h
  · intro h
    refine DynResidue.ext_of (Nat.ModEq.eq_of_lt_of_lt ?_ (DynResidue.new x params).montgomeryForm_lt
      (DynResidue.new y params).montgomeryForm_lt) rfl
    calc (DynResidue.new x params).montgomeryForm ≡ x.val * 2 ^ (w * limbs)
          [MOD params.modulus.val] := DynResidue.new_montgomeryForm_modEq x params
      _ ≡ y.val * 2 ^ (w * limbs) [MOD params.modulus.val] := h.mul_right _
      _ ≡ (DynResidue.new y params).montgomeryForm [MOD params.modulus.val] :=
          (DynResidue.new_montgomeryForm_modEq y params).symm

end

end CryptoBigint
