import Crypto.Commitment.Derive
import Crypto.Group.Secp256k1

/-!
# Pedersen over secp256k1

`PublicParameters::derive::<SCALAR_LIMBS, secp256k1::GroupElement>` (commitment `pedersen.rs` over
the group `secp256k1/group_element.rs`): message generator `0` is the curve's generator, and every
other generator is the curve point `hash_to_group` gives for its label's `as_bytes()`.

* `pedersenDerive_eq_error`: `derive` fails only when hashing a label to the curve fails
  (`derive_eq_error`, with `GroupElement::new` always `Ok` and `hashToGroup_eq_error`).
* `new_pedersenDerive`: where `to_curve` undoes `to_affine` and `BATCH_SIZE ≥ 1`, `Pedersen::new`
  accepts what `derive` returns, with the curve's generator as message generator `0` and the k256
  hashes of the labels elsewhere (`new_derive`, `new_value`, `hashToGroup_eq_ok`).
-/

namespace Secp256k1

open Commitment

universe u

variable {ProjectivePoint AffinePoint PublicParameters Error : Type u} {CurveError : Type*}
  {BATCH_SIZE : Nat} (toAffine : ProjectivePoint → AffinePoint)
  (toCurve : AffinePoint → ProjectivePoint) (GENERATOR : AffinePoint)
  (hashFromBytes : List (List UInt8) → List (List UInt8) → Except CurveError ProjectivePoint)
  (HashToGroup : Error)

/-- `PublicParameters::derive::<SCALAR_LIMBS, secp256k1::GroupElement>`: the labels' `as_bytes()`
(their UTF-8 encoding) hashed by `hash_to_group`. -/
def pedersenDerive (publicParameters : PublicParameters) :
    Except (Commitment.Error Error)
      (Commitment.PublicParameters BATCH_SIZE (Value AffinePoint) PublicParameters) :=
  Commitment.PublicParameters.derive (GroupElement.generatorFromPublicParameters toCurve GENERATOR)
    (fun label => GroupElement.hashToGroup hashFromBytes HashToGroup label.toUTF8.toList)
    (GroupElement.value toAffine) publicParameters

/-- Over secp256k1, `derive` fails only when hashing a label to the curve fails. -/
theorem pedersenDerive_eq_error {publicParameters : PublicParameters} {error : Commitment.Error Error}
    (h : (pedersenDerive toAffine toCurve GENERATOR hashFromBytes HashToGroup publicParameters :
      Except _ (Commitment.PublicParameters BATCH_SIZE _ _)) = .error error) :
    error = .group HashToGroup := by
  obtain ⟨e, rfl, hfail⟩ := Commitment.PublicParameters.derive_eq_error _ _ _ h
  rcases hfail with ⟨-, hgenerator⟩ | ⟨i, -, hhash⟩ | hhash
  · simp [GroupElement.generatorFromPublicParameters, GroupElement.new] at hgenerator
  all_goals rw [GroupElement.hashToGroup_eq_error hashFromBytes HashToGroup hhash]

theorem pedersenDerive_eq_error_of_hash_failure :
    (pedersenDerive (id : ℤ → ℤ) id 1 (fun _ _ => .error ()) true () :
        Except _ (Commitment.PublicParameters 2 _ Unit)) = .error (.group true) ∧
      (Commitment.Error.group true : Commitment.Error Bool) = .group true :=
  have hderive : (pedersenDerive (id : ℤ → ℤ) id 1 (fun _ _ => .error ()) true () :
      Except _ (Commitment.PublicParameters 2 _ Unit)) = .error (.group true) := rfl
  ⟨hderive, pedersenDerive_eq_error id id 1 (fun _ _ => .error ()) true hderive⟩

/-- **Pedersen over secp256k1.** Where `to_curve` undoes `to_affine` and `BATCH_SIZE ≥ 1`,
`Pedersen::new` accepts what `derive` returns: message generator `0` is the curve's generator, and
every other generator is the curve point k256 hashes its label to. -/
theorem new_pedersenDerive (hcurve : ∀ p, toCurve (toAffine p) = p) (hbatch : 0 < BATCH_SIZE)
    {publicParameters : PublicParameters}
    {pedersenPublicParameters : Commitment.PublicParameters BATCH_SIZE (Value AffinePoint) PublicParameters}
    (hderive : pedersenDerive toAffine toCurve GENERATOR hashFromBytes HashToGroup publicParameters =
      .ok pedersenPublicParameters) :
    ∃ pedersen : Pedersen BATCH_SIZE (GroupElement ProjectivePoint),
      Pedersen.new (GroupElement.new toCurve : _ → PublicParameters → Except Error _)
        pedersenPublicParameters = .ok pedersen ∧
      pedersen.messageGenerators.get ⟨0, hbatch⟩ = ⟨toCurve GENERATOR⟩ ∧
      (∀ i : Fin BATCH_SIZE, 0 < i.val →
        hashFromBytes [(messageGeneratorLabel i).toUTF8.toList]
          ["CURVE_XOF:SHAKE-256_SSWU_RO_".toUTF8.toList] = .ok (pedersen.messageGenerators.get i).point) ∧
      hashFromBytes [randomnessGeneratorLabel.toUTF8.toList]
        ["CURVE_XOF:SHAKE-256_SSWU_RO_".toUTF8.toList] = .ok pedersen.randomnessGenerator.point := by
  obtain ⟨pedersen, hnew, hgenerator, hmessage, hrandomness⟩ := Pedersen.new_derive _ _ _
    (GroupElement.new toCurve) (GroupElement.new_value toAffine toCurve hcurve publicParameters) hbatch
    hderive
  refine ⟨pedersen, hnew, ?_, fun i hi => ?_, ?_⟩
  · simp only [GroupElement.generatorFromPublicParameters, GroupElement.new, Except.ok.injEq]
      at hgenerator
    exact hgenerator.symm
  · exact (GroupElement.hashToGroup_eq_ok hashFromBytes HashToGroup).1 (hmessage i hi)
  · exact (GroupElement.hashToGroup_eq_ok hashFromBytes HashToGroup).1 hrandomness

theorem new_pedersenDerive_over_int :
    ∃ pedersen : Pedersen 2 (GroupElement ℤ),
      Pedersen.new (GroupElement.new id : _ → Unit → Except Bool _) ⟨(), ⟨[⟨1⟩, ⟨0⟩], rfl⟩, ⟨0⟩⟩ =
        .ok pedersen ∧
      pedersen.messageGenerators.get ⟨0, by decide⟩ = ⟨1⟩ ∧
      (∀ i : Fin 2, 0 < i.val → (.ok 0 : Except Unit ℤ) = .ok (pedersen.messageGenerators.get i).point) ∧
      (.ok 0 : Except Unit ℤ) = .ok pedersen.randomnessGenerator.point :=
  new_pedersenDerive id id 1 (fun _ _ => .ok 0) false (fun _ => rfl) (by decide) rfl

end Secp256k1
