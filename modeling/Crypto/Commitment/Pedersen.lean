import Mathlib.Algebra.BigOperators.Fin
import Mathlib.Algebra.BigOperators.GroupWithZero.Action
import Mathlib.Algebra.Module.Defs
import Mathlib.Data.Vector.Basic
import Mathlib.Data.Vector.Zip

/-!
# Batched Pedersen commitments

`Pedersen<BATCH_SIZE, SCALAR_LIMBS, Scalar, GroupElement>` (commitment `pedersen.rs`) holds
`BATCH_SIZE` message generators `G_i` and a randomness generator `H`, and commits to a message
`m` and a randomness `ρ` as `m_1 G_1 + ... + m_n G_n + ρ H`. The group is `GroupElement` with its
`neutral` element and `+` (an additive commutative monoid), `Scalar * GroupElement` is an
`SMul`, and the source's arrays are `Mathlib.Vector`s.

* `commit_eq_sum`: the fold over the generators zipped with the message, from the neutral
  element, is the documented sum, each message entry with the generator of its own index.
* `commit_homomorphic`: where scalar multiplication distributes over scalar addition, the
  commitment of a sum of messages and randomnesses is the sum of the commitments.
* `commit_linear`: where the scalars act as a module, `commit` is linear in the message and the
  randomness together.
* `new_eq_ok`, `new_eq_error`: `Pedersen::new` rejects exactly `BATCH_SIZE = 0` with
  `InvalidPublicParameters`, otherwise propagates the group's error of the first generator it
  cannot decode (`mmap_eq_error_iff`), and keeps the decoded generators, each at its own index.
-/

namespace Commitment

/-- `Pedersen<BATCH_SIZE, SCALAR_LIMBS, Scalar, GroupElement>` (its `PhantomData` left out). -/
structure Pedersen (BATCH_SIZE : Nat) (GroupElement : Type*) where
  messageGenerators : Mathlib.Vector GroupElement BATCH_SIZE
  randomnessGenerator : GroupElement

/-- `PublicParameters`: the generators' values and the commitment space's public parameters, which
`new` passes to `GroupElement::new` (the message and randomness spaces' parameters are not read). -/
structure PublicParameters (BATCH_SIZE : Nat) (GroupElementValue GroupPublicParameters : Type*) where
  commitmentSpacePublicParameters : GroupPublicParameters
  messageGenerators : Mathlib.Vector GroupElementValue BATCH_SIZE
  randomnessGenerator : GroupElementValue

/-- Modelled from the spec: the commitment crate's `Error` (its declaration is not in this
source): `InvalidPublicParameters`, and a group error propagated unchanged. -/
inductive Error (GroupError : Type*)
  | invalidPublicParameters
  | group (error : GroupError)

section New

universe u

variable {BATCH_SIZE : Nat} {GroupElement GroupElementValue GroupPublicParameters GroupError : Type*}
  (groupElementNew : GroupElementValue → GroupPublicParameters → Except GroupError GroupElement)

/-- `Pedersen::new(public_parameters)`: `InvalidPublicParameters` for `BATCH_SIZE = 0`, then
`GroupElement::new` on every message generator (`flat_map_results`: the first error) and on the
randomness generator. -/
def Pedersen.new (publicParameters : PublicParameters BATCH_SIZE GroupElementValue GroupPublicParameters) :
    Except (Error GroupError) (Pedersen BATCH_SIZE GroupElement) :=
  if BATCH_SIZE = 0 then throw .invalidPublicParameters else do
    let messageGenerators ← (publicParameters.messageGenerators.mmap fun value =>
      groupElementNew value publicParameters.commitmentSpacePublicParameters).mapError .group
    let randomnessGenerator ← (groupElementNew publicParameters.randomnessGenerator
      publicParameters.commitmentSpacePublicParameters).mapError .group
    pure { messageGenerators, randomnessGenerator }

theorem mapError_bind_eq_ok {ε ε' : Type*} {α β : Type u} {x : Except ε α} {g : ε → ε'}
    {f : α → Except ε' β} {b : β} :
    x.mapError g >>= f = .ok b ↔ ∃ a, x = .ok a ∧ f a = .ok b := by
  cases x <;> simp [Except.mapError, bind, Except.bind]

theorem mapError_bind_eq_error {ε ε' : Type*} {α β : Type u} {x : Except ε α} {g : ε → ε'}
    {f : α → Except ε' β} {e : ε'} :
    x.mapError g >>= f = .error e ↔
      (∃ e', x = .error e' ∧ e = g e') ∨ ∃ a, x = .ok a ∧ f a = .error e := by
  cases x <;> simp [Except.mapError, bind, Except.bind, eq_comm]

theorem mmap_eq_ok {α β ε : Type*} (f : α → Except ε β) : ∀ {n} (v : Mathlib.Vector α n)
    (w : Mathlib.Vector β n), v.mmap f = .ok w ↔ ∀ i, f (v.get i) = .ok (w.get i)
  | 0, v, w => by simp [Mathlib.Vector.eq_nil v, Mathlib.Vector.eq_nil w, pure, Except.pure]
  | n + 1, v, w => by
    obtain ⟨a, v, rfl⟩ := v.exists_eq_cons
    obtain ⟨b, w, rfl⟩ := w.exists_eq_cons
    rw [Mathlib.Vector.mmap_cons, Fin.forall_fin_succ]
    cases hh : f a <;> cases ht : v.mmap f <;>
      simp [bind, Except.bind, pure, Except.pure, Mathlib.Vector.eq_cons_iff, ← mmap_eq_ok f v, hh,
        ht]

/-- A traversal fails with the first error in index order: every element before it succeeds. -/
theorem mmap_eq_error_iff {α β ε : Type*} (f : α → Except ε β) {e : ε} :
    ∀ {n} (v : Mathlib.Vector α n), v.mmap f = .error e ↔
      ∃ i, f (v.get i) = .error e ∧ ∀ j < i, ∃ b, f (v.get j) = .ok b
  | 0, v => by simp [Mathlib.Vector.eq_nil v, pure, Except.pure]
  | n + 1, v => by
    obtain ⟨a, v, rfl⟩ := v.exists_eq_cons
    rw [Mathlib.Vector.mmap_cons, Fin.exists_fin_succ]
    cases hh : f a <;> cases ht : v.mmap f <;>
      simp [bind, Except.bind, pure, Except.pure, Fin.forall_fin_succ, ← mmap_eq_error_iff f v, hh, ht]

theorem exists_mmap_eq_ok_iff {α β ε : Type*} (f : α → Except ε β) {n : Nat}
    (v : Mathlib.Vector α n) : (∃ w, v.mmap f = .ok w) ↔ ∀ i, ∃ b, f (v.get i) = .ok b := by
  simp only [mmap_eq_ok]
  refine ⟨fun ⟨w, hw⟩ i => ⟨_, hw i⟩, fun h => ⟨Mathlib.Vector.ofFn fun i => (h i).choose, ?_⟩⟩
  simpa using fun i => (h i).choose_spec

/-- What `new` does: it succeeds exactly when `BATCH_SIZE ≥ 1` and every generator decodes, and
then keeps the decoded generators, each at its own index. -/
theorem Pedersen.new_eq_ok
    {publicParameters : PublicParameters BATCH_SIZE GroupElementValue GroupPublicParameters}
    {pedersen : Pedersen BATCH_SIZE GroupElement} :
    Pedersen.new groupElementNew publicParameters = .ok pedersen ↔
      0 < BATCH_SIZE ∧
      (∀ i, groupElementNew (publicParameters.messageGenerators.get i)
        publicParameters.commitmentSpacePublicParameters = .ok (pedersen.messageGenerators.get i)) ∧
      groupElementNew publicParameters.randomnessGenerator
        publicParameters.commitmentSpacePublicParameters = .ok pedersen.randomnessGenerator := by
  unfold Pedersen.new
  split
  · simp_all [throw, throwThe, MonadExceptOf.throw]
  · simp only [mapError_bind_eq_ok, mmap_eq_ok, pure, Except.pure, Except.ok.injEq]
    constructor
    · rintro ⟨_, hmessage, _, hrandomness, rfl⟩
      exact ⟨by omega, hmessage, hrandomness⟩
    · rintro ⟨-, hmessage, hrandomness⟩
      exact ⟨_, hmessage, _, hrandomness, rfl⟩

/-- **How `new` fails.** With `InvalidPublicParameters` exactly for `BATCH_SIZE = 0`; otherwise with
the error of the first message generator that `GroupElement::new` rejects (`flat_map_results`), or,
when every message generator decodes, with the randomness generator's error, propagated unchanged
as a group error. -/
theorem Pedersen.new_eq_error
    {publicParameters : PublicParameters BATCH_SIZE GroupElementValue GroupPublicParameters}
    {error : Error GroupError} :
    (Pedersen.new groupElementNew publicParameters : Except _ (Pedersen BATCH_SIZE GroupElement)) =
        .error error ↔
      (BATCH_SIZE = 0 ∧ error = .invalidPublicParameters) ∨
      (0 < BATCH_SIZE ∧ ∃ e, error = .group e ∧
        ((∃ i, groupElementNew (publicParameters.messageGenerators.get i)
            publicParameters.commitmentSpacePublicParameters = .error e ∧
          ∀ j < i, ∃ g, groupElementNew (publicParameters.messageGenerators.get j)
            publicParameters.commitmentSpacePublicParameters = .ok g) ∨
        ((∀ i, ∃ g, groupElementNew (publicParameters.messageGenerators.get i)
            publicParameters.commitmentSpacePublicParameters = .ok g) ∧
          groupElementNew publicParameters.randomnessGenerator
            publicParameters.commitmentSpacePublicParameters = .error e))) := by
  unfold Pedersen.new
  split
  · next h => simp [h, throw, throwThe, MonadExceptOf.throw, eq_comm]
  rw [mapError_bind_eq_error]
  constructor
  · rintro (⟨e, hmessage, rfl⟩ | ⟨generators, hgenerators, h⟩)
    · exact .inr ⟨by omega, e, rfl, .inl ((mmap_eq_error_iff _ _).1 hmessage)⟩
    rcases mapError_bind_eq_error.1 h with ⟨e, hrandomness, rfl⟩ | ⟨_, -, h⟩
    · exact .inr ⟨by omega, e, rfl,
        .inr ⟨(exists_mmap_eq_ok_iff _ _).1 ⟨generators, hgenerators⟩, hrandomness⟩⟩
    · cases h
  · rintro (⟨h, -⟩ | ⟨-, e, rfl, hmessage | ⟨hmessage, hrandomness⟩⟩)
    · contradiction
    · exact .inl ⟨e, (mmap_eq_error_iff _ _).2 hmessage, rfl⟩
    · obtain ⟨generators, hgenerators⟩ := (exists_mmap_eq_ok_iff
        (groupElementNew · publicParameters.commitmentSpacePublicParameters) _).2 hmessage
      exact .inr ⟨generators, hgenerators, mapError_bind_eq_error.2 (.inl ⟨e, hrandomness, rfl⟩)⟩

end New

section Commit

variable {BATCH_SIZE : Nat} {Scalar GroupElement : Type*} [AddCommMonoid GroupElement]
  [SMul Scalar GroupElement]

/-- `commit(message, randomness)`: the message generators zipped with the message, folded from
`neutral()` by `acc + value * generator`, plus `randomness * randomness_generator`. -/
def Pedersen.commit (self : Pedersen BATCH_SIZE GroupElement)
    (message : Mathlib.Vector Scalar BATCH_SIZE) (randomness : Scalar) : GroupElement :=
  (self.messageGenerators.toList.zip message.toList).foldl
      (fun acc (generator, value) => acc + value • generator) 0 +
    randomness • self.randomnessGenerator

theorem foldl_zip_eq_add_sum (acc : GroupElement) :
    ∀ (generators : List GroupElement) (values : List Scalar),
      (generators.zip values).foldl (fun acc (generator, value) => acc + value • generator) acc =
        acc + (List.zipWith (fun generator value => value • generator) generators values).sum
  | [], _ => by simp
  | _ :: _, [] => by simp
  | _ :: generators, _ :: values => by
    simp [foldl_zip_eq_add_sum _ generators values, add_assoc]

/-- The commitment is `m_1 G_1 + ... + m_n G_n + ρ H`. -/
theorem Pedersen.commit_eq_sum (self : Pedersen BATCH_SIZE GroupElement)
    (message : Mathlib.Vector Scalar BATCH_SIZE) (randomness : Scalar) :
    self.commit message randomness =
      ∑ i, message.get i • self.messageGenerators.get i +
        randomness • self.randomnessGenerator := by
  rw [Pedersen.commit, foldl_zip_eq_add_sum, zero_add, ← Mathlib.Vector.zipWith_toList,
    ← Mathlib.Vector.ofFn_get (Mathlib.Vector.zipWith _ _ _), Mathlib.Vector.toList_ofFn,
    List.sum_ofFn]
  simp only [Mathlib.Vector.zipWith_get]

/-- The commitment of a sum is the sum of the commitments, where scalar multiplication
distributes over scalar addition. -/
theorem Pedersen.commit_add [Add Scalar]
    (hdist : ∀ (a b : Scalar) (g : GroupElement), (a + b) • g = a • g + b • g)
    (self : Pedersen BATCH_SIZE GroupElement) (message message' : Mathlib.Vector Scalar BATCH_SIZE)
    (randomness randomness' : Scalar) :
    self.commit (Mathlib.Vector.zipWith (· + ·) message message') (randomness + randomness') =
      self.commit message randomness + self.commit message' randomness' := by
  simp only [Pedersen.commit_eq_sum, Mathlib.Vector.zipWith_get, hdist, Finset.sum_add_distrib]
  exact add_add_add_comm _ _ _ _

/-- **Pedersen `commit` is its defining formula and is additively homomorphic.** -/
theorem Pedersen.commit_eq_sum_and_homomorphic [Add Scalar]
    (hdist : ∀ (a b : Scalar) (g : GroupElement), (a + b) • g = a • g + b • g)
    (self : Pedersen BATCH_SIZE GroupElement) :
    (∀ (message : Mathlib.Vector Scalar BATCH_SIZE) randomness, self.commit message randomness =
      ∑ i, message.get i • self.messageGenerators.get i + randomness • self.randomnessGenerator) ∧
    (∀ (message message' : Mathlib.Vector Scalar BATCH_SIZE) randomness randomness',
      self.commit (Mathlib.Vector.zipWith (· + ·) message message') (randomness + randomness') =
        self.commit message randomness + self.commit message' randomness') :=
  ⟨self.commit_eq_sum, self.commit_add hdist⟩

theorem Pedersen.commit_eq_sum_and_homomorphic_over_int :
    (∀ (a b g : ℤ), (a + b) • g = a • g + b • g) ∧
      (Pedersen.mk ⟨[2, 3], rfl⟩ 5 : Pedersen 2 ℤ).commit
          (Mathlib.Vector.zipWith (· + ·) (⟨[1, 4], rfl⟩ : Mathlib.Vector ℤ 2) ⟨[6, 7], rfl⟩)
          (8 + 9) =
        (Pedersen.mk ⟨[2, 3], rfl⟩ 5 : Pedersen 2 ℤ).commit (⟨[1, 4], rfl⟩ : Mathlib.Vector ℤ 2) 8 +
          (Pedersen.mk ⟨[2, 3], rfl⟩ 5 : Pedersen 2 ℤ).commit (⟨[6, 7], rfl⟩ : Mathlib.Vector ℤ 2) 9 :=
  ⟨fun a b g => add_smul a b g,
    (Pedersen.commit_eq_sum_and_homomorphic (fun a b g => add_smul a b g) _).2 _ _ _ _⟩

end Commit

section Linear

variable {BATCH_SIZE : Nat} {Scalar GroupElement : Type*} [Semiring Scalar] [AddCommMonoid GroupElement]
  [Module Scalar GroupElement]

/-- **`commit` is linear** where the scalars act as a module: the commitment of a linear
combination of messages and randomnesses is the same combination of their commitments. -/
theorem Pedersen.commit_linear (self : Pedersen BATCH_SIZE GroupElement) (a b : Scalar)
    (message message' : Mathlib.Vector Scalar BATCH_SIZE) (randomness randomness' : Scalar) :
    self.commit (Mathlib.Vector.zipWith (fun m m' => a * m + b * m') message message')
        (a * randomness + b * randomness') =
      a • self.commit message randomness + b • self.commit message' randomness' := by
  simp only [Pedersen.commit_eq_sum, Mathlib.Vector.zipWith_get, add_smul, mul_smul, smul_add,
    Finset.smul_sum, Finset.sum_add_distrib]
  exact add_add_add_comm _ _ _ _

end Linear

end Commitment
