import Mathlib.Algebra.Group.InjSurj

/-!
# The secp256k1 group element

`GroupElement` (group `secp256k1/group_element.rs`) wraps a k256 `ProjectivePoint`, and its
`Value` wraps an `AffinePoint`. The curve itself is k256's: the model takes its two point types,
`to_affine`, `to_curve`, its group operations, its generator and `hash_from_bytes` as parameters,
and equality of projective points is k256's (equality of the points they represent).

* `new_value`: where `to_curve` undoes `to_affine`, `GroupElement::new` takes back every element's
  `value()`.
* `instAddCommGroup`: the wrapped `+`, `-`, negation and `neutral()` make `GroupElement` a
  commutative group whenever k256's projective points are one.
* `hashToGroup_eq_error`, `hashToGroup_eq_ok`: `hash_to_group` fails only with `HashToGroup`, and
  otherwise returns the point k256 hashes to.
-/

namespace Secp256k1

/-- `Value(AffinePoint)`: built only by deserialization, which checks that the point is on the
curve. -/
structure Value (AffinePoint : Type*) where
  point : AffinePoint

/-- `GroupElement(ProjectivePoint)`. -/
@[ext]
structure GroupElement (ProjectivePoint : Type*) where
  point : ProjectivePoint

universe u

variable {ProjectivePoint AffinePoint PublicParameters Error : Type u} {CurveError : Type*}

/-! ## Values -/

section Value

variable (toAffine : ProjectivePoint → AffinePoint) (toCurve : AffinePoint → ProjectivePoint)

/-- `value()`: the point in affine form. -/
def GroupElement.value (self : GroupElement ProjectivePoint) : Value AffinePoint :=
  ⟨toAffine self.point⟩

/-- `GroupElement::new(value, _public_parameters)`: always `Ok`, the value's point in projective
form (the public parameters are not read). -/
def GroupElement.new (value : Value AffinePoint) (_publicParameters : PublicParameters) :
    Except Error (GroupElement ProjectivePoint) :=
  .ok ⟨toCurve value.point⟩

/-- `generator_value_from_public_parameters`: `Value(AffinePoint::GENERATOR)`, whatever the public
parameters. -/
def GroupElement.generatorValueFromPublicParameters (GENERATOR : AffinePoint)
    (_publicParameters : PublicParameters) : Value AffinePoint :=
  ⟨GENERATOR⟩

/-- Modelled from the spec: the group collaborator's `generator_from_public_parameters` (not in
this source), `new` on `generator_value_from_public_parameters`. -/
def GroupElement.generatorFromPublicParameters (GENERATOR : AffinePoint)
    (publicParameters : PublicParameters) : Except Error (GroupElement ProjectivePoint) :=
  GroupElement.new toCurve (GroupElement.generatorValueFromPublicParameters GENERATOR
    publicParameters) publicParameters

/-- `new` takes back every element's `value()`, where `to_curve` undoes `to_affine`. -/
theorem GroupElement.new_value (hcurve : ∀ p, toCurve (toAffine p) = p)
    (publicParameters : PublicParameters) (self : GroupElement ProjectivePoint) :
    (GroupElement.new toCurve (self.value toAffine) publicParameters : Except Error _) = .ok self := by
  simp [GroupElement.new, GroupElement.value, hcurve]

end Value

/-! ## The group -/

section Arithmetic

/-- `impl Add`: `Self(self.0.add(rhs.0))`. -/
instance [Add ProjectivePoint] : Add (GroupElement ProjectivePoint) :=
  ⟨fun self rhs => ⟨self.point + rhs.point⟩⟩

/-- `impl Sub`: `Self(self.0.sub(rhs.0))`. -/
instance [Sub ProjectivePoint] : Sub (GroupElement ProjectivePoint) :=
  ⟨fun self rhs => ⟨self.point - rhs.point⟩⟩

/-- `impl Neg`: `Self(self.0.neg())`. -/
instance [Neg ProjectivePoint] : Neg (GroupElement ProjectivePoint) :=
  ⟨fun self => ⟨-self.point⟩⟩

/-- `neutral()`: `Self(ProjectivePoint::IDENTITY)`. -/
instance [Zero ProjectivePoint] : Zero (GroupElement ProjectivePoint) :=
  ⟨⟨0⟩⟩

/-- Multiples by a natural number or an integer, those of the projective points: the group
instance needs them, and the source multiplies through its `Scalar`. -/
instance [SMul ℕ ProjectivePoint] : SMul ℕ (GroupElement ProjectivePoint) :=
  ⟨fun n self => ⟨n • self.point⟩⟩

instance [SMul ℤ ProjectivePoint] : SMul ℤ (GroupElement ProjectivePoint) :=
  ⟨fun n self => ⟨n • self.point⟩⟩

/-- The wrapped operations make `GroupElement` a commutative group when k256's projective points
are one: `point` is injective and commutes with every operation. -/
instance instAddCommGroup [AddCommGroup ProjectivePoint] : AddCommGroup (GroupElement ProjectivePoint) :=
  Function.Injective.addCommGroup GroupElement.point (fun _ _ => GroupElement.ext) rfl
    (fun _ _ => rfl) (fun _ => rfl) (fun _ _ => rfl) (fun _ _ => rfl) (fun _ _ => rfl)

end Arithmetic

/-! ## Hashing to the curve -/

section Hash

variable (hashFromBytes : List (List UInt8) → List (List UInt8) → Except CurveError ProjectivePoint)
  (HashToGroup : Error)

/-- `hash_to_group(bytes)`: k256's `hash_from_bytes::<ExpandMsgXof<Shake256>>` with the domain
separation tag `CURVE_XOF:SHAKE-256_SSWU_RO_`, its error replaced by `HashToGroup`. -/
def GroupElement.hashToGroup (bytes : List UInt8) : Except Error (GroupElement ProjectivePoint) :=
  ((hashFromBytes [bytes] ["CURVE_XOF:SHAKE-256_SSWU_RO_".toUTF8.toList]).mapError
    fun _ => HashToGroup).map GroupElement.mk

/-- `hash_to_group` fails only with `HashToGroup`. -/
theorem GroupElement.hashToGroup_eq_error {bytes : List UInt8} {error : Error}
    (h : GroupElement.hashToGroup hashFromBytes HashToGroup bytes = .error error) :
    error = HashToGroup := by
  revert h
  unfold GroupElement.hashToGroup
  cases hashFromBytes [bytes] ["CURVE_XOF:SHAKE-256_SSWU_RO_".toUTF8.toList] <;>
    simp [Except.mapError, Except.map, eq_comm]

theorem GroupElement.hashToGroup_eq_ok {bytes : List UInt8} {self : GroupElement ProjectivePoint} :
    (GroupElement.hashToGroup hashFromBytes HashToGroup bytes = .ok self) ↔
      hashFromBytes [bytes] ["CURVE_XOF:SHAKE-256_SSWU_RO_".toUTF8.toList] = .ok self.point := by
  unfold GroupElement.hashToGroup
  cases hashFromBytes [bytes] ["CURVE_XOF:SHAKE-256_SSWU_RO_".toUTF8.toList] <;>
    simp [Except.mapError, Except.map, GroupElement.ext_iff, eq_comm]

end Hash

end Secp256k1
