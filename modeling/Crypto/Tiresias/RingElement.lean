import Crypto.CryptoBigint.DynResidue
import Crypto.Tiresias.Bounds

/-!
# Ring elements of the Paillier moduli

`AsRingElement` lifts a natural number into the ring `ℤ_n` (`DynResidue::new` over
`DynResidueParams::new(n)`), and `AsNaturalNumber` retrieves the minimal natural number of its
class (`retrieve`). tiresias implements the pair for the modulus `N²`
(`PaillierModulusSizedNumber` into `PaillierRingElement`) and for `N`
(`LargeBiPrimeSizedNumber` into `PaillierPlaintextRingElement`). The impls differ only in their
number of limbs (`BITS / Limb::BITS`, with `w = Limb::BITS`), so each is the generic pair at its
width.

* `asNaturalNumber_asRingElement`: for every odd modulus and every value of the same width,
  reduced or not, the round trip gives the value modulo the modulus, in both pairs.
* `asRingElement_bijective`: the other way round, every ring element of `n` is the lift of its
  natural number, and two values lift to the same element exactly when they are congruent.
-/

namespace Tiresias

open CryptoBigint

section Generic

variable {w limbs : Nat}

/-- `as_ring_element(&self, n)`: `DynResidue::new(self, DynResidueParams::new(n))`. -/
def asRingElement (self n : Uint w limbs) : Option (DynResidue w limbs) :=
  (DynResidueParams.new n).map (DynResidue.new self)

/-- `as_natural_number(&self)`: `self.retrieve()`. -/
def asNaturalNumber (self : DynResidue w limbs) : Uint w limbs := self.retrieve

theorem asNaturalNumber_asRingElement_val (x n : Uint w limbs) (hn : n.val % 2 = 1) :
    (asRingElement x n).map (fun r => (asNaturalNumber r).val) = some (x.val % n.val) := by
  obtain ⟨params, hp⟩ := Option.isSome_iff_exists.1 (DynResidueParams.new_isSome.2 hn)
  simp only [asRingElement, hp, Option.map_some', asNaturalNumber, DynResidue.retrieve_new,
    DynResidueParams.new_modulus hp]

/-- Lifting into `ℤ_n` identifies exactly the values congruent modulo `n`. -/
theorem asRingElement_eq_asRingElement_iff {x y n : Uint w limbs} (hn : n.val % 2 = 1) :
    asRingElement x n = asRingElement y n ↔ x.val ≡ y.val [MOD n.val] := by
  obtain ⟨params, hp⟩ := Option.isSome_iff_exists.1 (DynResidueParams.new_isSome.2 hn)
  simp only [asRingElement, hp, Option.map_some', Option.some.injEq, DynResidue.new_eq_new_iff,
    DynResidueParams.new_modulus hp]

/-- Every ring element of the modulus `n` is the lift of its natural number. -/
theorem asRingElement_asNaturalNumber {n : Uint w limbs} {r : DynResidue w limbs}
    (hr : DynResidueParams.new n = some r.residueParams) :
    asRingElement (asNaturalNumber r) n = some r := by
  simp only [asRingElement, hr, Option.map_some', asNaturalNumber, DynResidue.new_retrieve]

end Generic

/-- `PaillierModulusSizedNumber::LIMBS`. -/
def PaillierModulusSizedNumber.LIMBS (w : Nat) : Nat := PaillierModulusSizedNumber.BITS / w

/-- `LargeBiPrimeSizedNumber::LIMBS`. -/
def LargeBiPrimeSizedNumber.LIMBS (w : Nat) : Nat := LargeBiPrimeSizedNumber.BITS / w

/-- `PaillierModulusSizedNumber`. -/
abbrev PaillierModulusSizedNumber (w : Nat) := Uint w (PaillierModulusSizedNumber.LIMBS w)

/-- `LargeBiPrimeSizedNumber`. -/
abbrev LargeBiPrimeSizedNumber (w : Nat) := Uint w (LargeBiPrimeSizedNumber.LIMBS w)

/-- `PaillierRingElement = DynResidue<{ PaillierModulusSizedNumber::LIMBS }>`. -/
abbrev PaillierRingElement (w : Nat) := DynResidue w (PaillierModulusSizedNumber.LIMBS w)

/-- `PaillierPlaintextRingElement = DynResidue<{ LargeBiPrimeSizedNumber::LIMBS }>`. -/
abbrev PaillierPlaintextRingElement (w : Nat) := DynResidue w (LargeBiPrimeSizedNumber.LIMBS w)

/-- `impl AsRingElement<PaillierRingElement> for PaillierModulusSizedNumber`. -/
def PaillierModulusSizedNumber.asRingElement {w : Nat} (self n : PaillierModulusSizedNumber w) :
    Option (PaillierRingElement w) :=
  Tiresias.asRingElement self n

/-- `impl AsNaturalNumber<PaillierModulusSizedNumber> for PaillierRingElement`. -/
def PaillierRingElement.asNaturalNumber {w : Nat} (self : PaillierRingElement w) :
    PaillierModulusSizedNumber w :=
  Tiresias.asNaturalNumber self

/-- `impl AsRingElement<PaillierPlaintextRingElement> for LargeBiPrimeSizedNumber`. -/
def LargeBiPrimeSizedNumber.asRingElement {w : Nat} (self n : LargeBiPrimeSizedNumber w) :
    Option (PaillierPlaintextRingElement w) :=
  Tiresias.asRingElement self n

/-- `impl AsNaturalNumber<LargeBiPrimeSizedNumber> for PaillierPlaintextRingElement`. -/
def PaillierPlaintextRingElement.asNaturalNumber {w : Nat} (self : PaillierPlaintextRingElement w) :
    LargeBiPrimeSizedNumber w :=
  Tiresias.asNaturalNumber self

/-- A word fits in a `PaillierModulusSizedNumber` of 64-bit limbs. -/
theorem lt_two_pow_PaillierModulusSizedNumber {a : Nat} (h : a < 2 ^ 64) :
    a < 2 ^ (64 * PaillierModulusSizedNumber.LIMBS 64) :=
  Nat.lt_of_lt_of_le h (Nat.pow_le_pow_right Nat.two_pos (by decide))

/-- **Lifting into the ring and retrieving gives the residue**, for both pairs of the source, every
odd modulus and every value of the width. -/
theorem asNaturalNumber_asRingElement (w : Nat) :
    (∀ x n : PaillierModulusSizedNumber w, n.val % 2 = 1 →
      (PaillierModulusSizedNumber.asRingElement x n).map
          (fun r => (PaillierRingElement.asNaturalNumber r).val) = some (x.val % n.val)) ∧
    (∀ x n : LargeBiPrimeSizedNumber w, n.val % 2 = 1 →
      (LargeBiPrimeSizedNumber.asRingElement x n).map
          (fun r => (PaillierPlaintextRingElement.asNaturalNumber r).val) = some (x.val % n.val)) :=
  ⟨asNaturalNumber_asRingElement_val, asNaturalNumber_asRingElement_val⟩

theorem asNaturalNumber_asRingElement_twelve_mod_seven :
    7 % 2 = 1 ∧
      (PaillierModulusSizedNumber.asRingElement ⟨12, lt_two_pow_PaillierModulusSizedNumber (by decide)⟩
          ⟨7, lt_two_pow_PaillierModulusSizedNumber (by decide)⟩).map
        (fun r => (PaillierRingElement.asNaturalNumber r).val) = some (12 % 7) :=
  ⟨rfl, (asNaturalNumber_asRingElement 64).1 _ ⟨7, lt_two_pow_PaillierModulusSizedNumber (by decide)⟩
    (by decide)⟩

/-- **`as_ring_element` and `as_natural_number` are inverse bijections** between the residues
modulo an odd `n` and the ring elements of `n`, in both pairs: two values lift to the same element
exactly when they are congruent modulo `n`, and every element of `n` is the lift of its natural
number. -/
theorem asRingElement_bijective (w : Nat) :
    (∀ x y n : PaillierModulusSizedNumber w, n.val % 2 = 1 →
      (PaillierModulusSizedNumber.asRingElement x n = PaillierModulusSizedNumber.asRingElement y n ↔
        x.val ≡ y.val [MOD n.val])) ∧
    (∀ (n : PaillierModulusSizedNumber w) (r : PaillierRingElement w),
      DynResidueParams.new n = some r.residueParams →
        PaillierModulusSizedNumber.asRingElement (PaillierRingElement.asNaturalNumber r) n =
          some r) ∧
    (∀ x y n : LargeBiPrimeSizedNumber w, n.val % 2 = 1 →
      (LargeBiPrimeSizedNumber.asRingElement x n = LargeBiPrimeSizedNumber.asRingElement y n ↔
        x.val ≡ y.val [MOD n.val])) ∧
    (∀ (n : LargeBiPrimeSizedNumber w) (r : PaillierPlaintextRingElement w),
      DynResidueParams.new n = some r.residueParams →
        LargeBiPrimeSizedNumber.asRingElement (PaillierPlaintextRingElement.asNaturalNumber r) n =
          some r) :=
  ⟨fun _ _ _ hn => asRingElement_eq_asRingElement_iff hn,
    fun _ _ hr => asRingElement_asNaturalNumber hr,
    fun _ _ _ hn => asRingElement_eq_asRingElement_iff hn,
    fun _ _ hr => asRingElement_asNaturalNumber hr⟩

theorem asRingElement_twelve_eq_five_mod_seven :
    7 % 2 = 1 ∧
      (PaillierModulusSizedNumber.asRingElement ⟨12, lt_two_pow_PaillierModulusSizedNumber (by decide)⟩
          ⟨7, lt_two_pow_PaillierModulusSizedNumber (by decide)⟩ =
        PaillierModulusSizedNumber.asRingElement ⟨5, lt_two_pow_PaillierModulusSizedNumber (by decide)⟩
          ⟨7, lt_two_pow_PaillierModulusSizedNumber (by decide)⟩ ↔ 12 ≡ 5 [MOD 7]) ∧
    DynResidueParams.new (⟨7, lt_two_pow_PaillierModulusSizedNumber (by decide)⟩ :
        PaillierModulusSizedNumber 64) =
      some (DynResidue.new ⟨3, lt_two_pow_PaillierModulusSizedNumber (by decide)⟩
        ((DynResidueParams.new ⟨7, lt_two_pow_PaillierModulusSizedNumber (by decide)⟩).get
          (DynResidueParams.new_isSome.2 (by decide)))).residueParams ∧
      PaillierModulusSizedNumber.asRingElement
          (PaillierRingElement.asNaturalNumber
            (DynResidue.new ⟨3, lt_two_pow_PaillierModulusSizedNumber (by decide)⟩
              ((DynResidueParams.new ⟨7, lt_two_pow_PaillierModulusSizedNumber (by decide)⟩).get
                (DynResidueParams.new_isSome.2 (by decide)))))
          ⟨7, lt_two_pow_PaillierModulusSizedNumber (by decide)⟩ =
        some (DynResidue.new ⟨3, lt_two_pow_PaillierModulusSizedNumber (by decide)⟩
          ((DynResidueParams.new ⟨7, lt_two_pow_PaillierModulusSizedNumber (by decide)⟩).get
            (DynResidueParams.new_isSome.2 (by decide)))) := by
  refine ⟨by decide, (asRingElement_bijective 64).1 _ _ _ (by decide), ?_,
    (asRingElement_bijective 64).2.1 _ _ ?_⟩ <;>
  · rw [DynResidue.new_residueParams]
    exact (Option.some_get _).symm

end Tiresias
