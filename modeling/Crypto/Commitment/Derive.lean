import Crypto.Commitment.Pedersen
import Mathlib.Data.Nat.Digits
import Mathlib.Tactic.IntervalCases

/-!
# Deriving the Pedersen generators

`PublicParameters::derive` (commitment `pedersen.rs`) takes message generator `0` to be the
group's generator and hashes a label to the group for each other generator:
`"commitment/pedersen: message generator #i"` for message generator `i`, and
`"commitment/pedersen: randomness generator"` for the randomness generator. Hashing is a
parameter `hashToGroup` of the model, applied to the label (whose `as_bytes` is its UTF-8
encoding, an injective one).

* `messageGeneratorLabel_injective`, `messageGeneratorLabel_ne_randomnessGeneratorLabel`: the
  labels are pairwise distinct, so no two generators are hashes of the same input.
* `derive_eq_ok`, `derive_eq_error`: what a successful `derive` returns, and that it fails only
  with a group error, propagated unchanged.
* `new_derive`: where `GroupElement::new` takes back every element's `value()`, `Pedersen::new`
  accepts the derived parameters (for `BATCH_SIZE ≥ 1`) and rebuilds the derived generators.
* `new_withAltered`: `with_altered_randomness_generator` and `with_altered_message_generators`
  change only the generators they replace in what `new` decodes.
* `commit_derive`: the whole pipeline. When the generator and the hashes succeed, `derive`, `new`
  and `commit` give `m_0 G + Σ_{i ≥ 1} m_i H(label i) + ρ H(randomness label)`.
-/

namespace Commitment

/-! ## Generator labels -/

/-- The label `derive` hashes for message generator `i` (`format!` of a `usize` with `{:?}` is
its decimal digits). -/
def messageGeneratorLabel (i : Nat) : String :=
  "commitment/pedersen: message generator #" ++ toString i

/-- The label `derive` hashes for the randomness generator. -/
def randomnessGeneratorLabel : String := "commitment/pedersen: randomness generator"

/-- Reads decimal digits back, most significant first: the inverse of `Nat.repr`. -/
def ofDecimalChars (digits : List Char) : Nat :=
  digits.foldl (fun acc c => 10 * acc + (c.toNat - 48)) 0

theorem digitChar_toNat_sub {d : Nat} (hd : d < 10) : (Nat.digitChar d).toNat - 48 = d := by
  interval_cases d <;> rfl

/-- `Nat.toDigitsCore` with enough fuel pushes the digits of `n` in front of `ds`. -/
theorem foldl_toDigitsCore (fuel : Nat) : ∀ {n : Nat} (ds : List Char), n < fuel →
    (Nat.toDigitsCore 10 fuel n ds).foldl (fun acc c => 10 * acc + (c.toNat - 48)) 0 =
      ds.foldl (fun acc c => 10 * acc + (c.toNat - 48)) n := by
  induction fuel with
  | zero => intro n ds h; omega
  | succ fuel ih =>
    intro n ds hn
    have hd := digitChar_toNat_sub (Nat.mod_lt n (by decide : 10 > 0))
    simp only [Nat.toDigitsCore]
    split
    · simp only [List.foldl_cons, hd]; congr 1; omega
    · rw [ih _ (by omega), List.foldl_cons, hd, Nat.div_add_mod]

theorem ofDecimalChars_repr (n : Nat) : ofDecimalChars (Nat.repr n).data = n :=
  foldl_toDigitsCore (n + 1) [] (Nat.lt_succ_self n)

/-- Distinct message generators hash distinct labels. -/
theorem messageGeneratorLabel_injective : Function.Injective messageGeneratorLabel := by
  intro i j h
  have hdigits := List.append_cancel_left (congrArg String.data h)
  rw [← ofDecimalChars_repr i, ← ofDecimalChars_repr j]
  exact congrArg ofDecimalChars hdigits

/-- No message generator hashes the randomness generator's label: the two differ at the 22nd
character (`m` against `r`). -/
theorem messageGeneratorLabel_ne_randomnessGeneratorLabel (i : Nat) :
    messageGeneratorLabel i ≠ randomnessGeneratorLabel := by
  intro h
  have h21 := congrArg (fun s : String => s.data[21]?) h
  simp only [messageGeneratorLabel, String.data_append] at h21
  rw [List.getElem?_append_left (by decide)] at h21
  exact absurd h21 (by decide)

/-! ## `derive` -/

section Derive

universe u

variable {BATCH_SIZE : Nat} {GroupElement GroupElementValue GroupPublicParameters GroupError : Type u}
  (generatorFromPublicParameters : GroupPublicParameters → Except GroupError GroupElement)
  (hashToGroup : String → Except GroupError GroupElement) (value : GroupElement → GroupElementValue)

/-- `PublicParameters::derive(scalar_public_parameters, group_public_parameters)`: the message
generators from `array::from_fn` (the group's generator at `0`, the hash of its label elsewhere)
and `flat_map_results` (the first error), the hash of the randomness label, and `new` on their
`value()`s (the scalar public parameters, which nothing modelled reads, left out). -/
def PublicParameters.derive (groupPublicParameters : GroupPublicParameters) :
    Except (Error GroupError) (PublicParameters BATCH_SIZE GroupElementValue GroupPublicParameters) := do
  let messageGenerators : Mathlib.Vector GroupElement BATCH_SIZE ← ((Mathlib.Vector.ofFn fun i : Fin BATCH_SIZE =>
    if i.val = 0 then generatorFromPublicParameters groupPublicParameters
    else hashToGroup (messageGeneratorLabel i)).mmap id).mapError .group
  let randomnessGenerator : GroupElement ← (hashToGroup randomnessGeneratorLabel).mapError .group
  pure { commitmentSpacePublicParameters := groupPublicParameters
         messageGenerators := messageGenerators.map value
         randomnessGenerator := value randomnessGenerator }

/-- `with_altered_message_generators(message_generators)`. -/
def PublicParameters.withAlteredMessageGenerators
    (self : PublicParameters BATCH_SIZE GroupElementValue GroupPublicParameters)
    (messageGenerators : Mathlib.Vector GroupElementValue BATCH_SIZE) :
    PublicParameters BATCH_SIZE GroupElementValue GroupPublicParameters :=
  { self with messageGenerators }

/-- `with_altered_randomness_generator(randomness_generator)`. -/
def PublicParameters.withAlteredRandomnessGenerator
    (self : PublicParameters BATCH_SIZE GroupElementValue GroupPublicParameters)
    (randomnessGenerator : GroupElementValue) :
    PublicParameters BATCH_SIZE GroupElementValue GroupPublicParameters :=
  { self with randomnessGenerator }

section WithAltered

variable (groupElementNew : GroupElementValue → GroupPublicParameters → Except GroupError GroupElement)
  {publicParameters : PublicParameters BATCH_SIZE GroupElementValue GroupPublicParameters}
  {pedersen : Pedersen BATCH_SIZE GroupElement}

/-- After `with_altered_randomness_generator`, `new` decodes only the new randomness generator and
keeps the message generators it decoded before. -/
theorem Pedersen.new_withAlteredRandomnessGenerator_eq_ok
    (h : Pedersen.new groupElementNew publicParameters = .ok pedersen)
    (randomnessGenerator : GroupElementValue) (pedersen' : Pedersen BATCH_SIZE GroupElement) :
    Pedersen.new groupElementNew
        (publicParameters.withAlteredRandomnessGenerator randomnessGenerator) = .ok pedersen' ↔
      pedersen'.messageGenerators = pedersen.messageGenerators ∧
        groupElementNew randomnessGenerator publicParameters.commitmentSpacePublicParameters =
          .ok pedersen'.randomnessGenerator := by
  obtain ⟨hbatch, hmessage, -⟩ := (Pedersen.new_eq_ok _).1 h
  rw [Pedersen.new_eq_ok]
  constructor
  · rintro ⟨-, hmessage', hrandomness'⟩
    exact ⟨Mathlib.Vector.ext fun i => Except.ok.inj ((hmessage' i).symm.trans (hmessage i)),
      hrandomness'⟩
  · rintro ⟨hgenerators, hrandomness'⟩
    exact ⟨hbatch, hgenerators ▸ hmessage, hrandomness'⟩

/-- After `with_altered_message_generators`, `new` decodes only the new message generators and
keeps the randomness generator it decoded before. -/
theorem Pedersen.new_withAlteredMessageGenerators_eq_ok
    (h : Pedersen.new groupElementNew publicParameters = .ok pedersen)
    (messageGenerators : Mathlib.Vector GroupElementValue BATCH_SIZE)
    (pedersen' : Pedersen BATCH_SIZE GroupElement) :
    Pedersen.new groupElementNew
        (publicParameters.withAlteredMessageGenerators messageGenerators) = .ok pedersen' ↔
      (∀ i, groupElementNew (messageGenerators.get i)
        publicParameters.commitmentSpacePublicParameters = .ok (pedersen'.messageGenerators.get i)) ∧
        pedersen'.randomnessGenerator = pedersen.randomnessGenerator := by
  obtain ⟨hbatch, -, hrandomness⟩ := (Pedersen.new_eq_ok _).1 h
  rw [Pedersen.new_eq_ok]
  constructor
  · rintro ⟨-, hmessage', hrandomness'⟩
    exact ⟨hmessage', Except.ok.inj (hrandomness'.symm.trans hrandomness)⟩
  · rintro ⟨hmessage', hgenerator⟩
    exact ⟨hbatch, hmessage', hgenerator ▸ hrandomness⟩

/-- **Altering one kind of generator leaves the other alone.** From parameters `new` accepts,
`with_altered_randomness_generator` gives parameters that `new` accepts exactly when it decodes the
new randomness generator, with the same message generators as before; and
`with_altered_message_generators` gives parameters that `new` accepts exactly when it decodes every
new message generator, with the same randomness generator as before. -/
theorem Pedersen.new_withAltered
    (h : Pedersen.new groupElementNew publicParameters = .ok pedersen) :
    (∀ randomnessGenerator (pedersen' : Pedersen BATCH_SIZE GroupElement),
      Pedersen.new groupElementNew
          (publicParameters.withAlteredRandomnessGenerator randomnessGenerator) = .ok pedersen' ↔
        pedersen'.messageGenerators = pedersen.messageGenerators ∧
          groupElementNew randomnessGenerator publicParameters.commitmentSpacePublicParameters =
            .ok pedersen'.randomnessGenerator) ∧
    (∀ messageGenerators (pedersen' : Pedersen BATCH_SIZE GroupElement),
      Pedersen.new groupElementNew
          (publicParameters.withAlteredMessageGenerators messageGenerators) = .ok pedersen' ↔
        (∀ i, groupElementNew (messageGenerators.get i)
          publicParameters.commitmentSpacePublicParameters =
            .ok (pedersen'.messageGenerators.get i)) ∧
          pedersen'.randomnessGenerator = pedersen.randomnessGenerator) :=
  ⟨Pedersen.new_withAlteredRandomnessGenerator_eq_ok groupElementNew h,
    Pedersen.new_withAlteredMessageGenerators_eq_ok groupElementNew h⟩

theorem Pedersen.new_withAltered_over_int :
    Pedersen.new (fun value _ => (.ok value : Except Unit ℤ))
        (⟨(), Mathlib.Vector.ofFn fun i : Fin 2 => (i.val : ℤ), 5⟩ :
          PublicParameters 2 ℤ Unit) = .ok ⟨Mathlib.Vector.ofFn fun i => (i.val : ℤ), 5⟩ ∧
      ((∀ randomnessGenerator (pedersen' : Pedersen 2 ℤ),
        Pedersen.new (fun value _ => (.ok value : Except Unit ℤ))
            ((⟨(), Mathlib.Vector.ofFn fun i : Fin 2 => (i.val : ℤ), 5⟩ :
              PublicParameters 2 ℤ Unit).withAlteredRandomnessGenerator randomnessGenerator) =
            .ok pedersen' ↔
          pedersen'.messageGenerators = Mathlib.Vector.ofFn (fun i => (i.val : ℤ)) ∧
            (.ok randomnessGenerator : Except Unit ℤ) = .ok pedersen'.randomnessGenerator) ∧
      (∀ messageGenerators (pedersen' : Pedersen 2 ℤ),
        Pedersen.new (fun value _ => (.ok value : Except Unit ℤ))
            ((⟨(), Mathlib.Vector.ofFn fun i : Fin 2 => (i.val : ℤ), 5⟩ :
              PublicParameters 2 ℤ Unit).withAlteredMessageGenerators messageGenerators) =
            .ok pedersen' ↔
          (∀ i, (.ok (messageGenerators.get i) : Except Unit ℤ) =
            .ok (pedersen'.messageGenerators.get i)) ∧
            pedersen'.randomnessGenerator = 5)) :=
  have hnew : Pedersen.new (fun value _ => (.ok value : Except Unit ℤ))
      (⟨(), Mathlib.Vector.ofFn fun i : Fin 2 => (i.val : ℤ), 5⟩ : PublicParameters 2 ℤ Unit) =
        .ok ⟨Mathlib.Vector.ofFn fun i => (i.val : ℤ), 5⟩ := rfl
  ⟨hnew, Pedersen.new_withAltered _ hnew⟩

end WithAltered

/-- What a successful `derive` returns: the values of generators that the group's generator
and the hashes produced, each at its own index. -/
theorem PublicParameters.derive_eq_ok {groupPublicParameters : GroupPublicParameters}
    {publicParameters : PublicParameters BATCH_SIZE GroupElementValue GroupPublicParameters} :
    PublicParameters.derive generatorFromPublicParameters hashToGroup value groupPublicParameters =
        .ok publicParameters ↔
      ∃ (messageGenerators : Mathlib.Vector GroupElement BATCH_SIZE)
        (randomnessGenerator : GroupElement),
        (∀ i : Fin BATCH_SIZE, (if i.val = 0 then generatorFromPublicParameters groupPublicParameters
          else hashToGroup (messageGeneratorLabel i)) = .ok (messageGenerators.get i)) ∧
        hashToGroup randomnessGeneratorLabel = .ok randomnessGenerator ∧
        publicParameters = ⟨groupPublicParameters, messageGenerators.map value,
          value randomnessGenerator⟩ := by
  simp only [PublicParameters.derive, mapError_bind_eq_ok, mmap_eq_ok, Mathlib.Vector.get_ofFn, id]
  simp [pure, Except.pure, eq_comm]

/-- How `derive` fails: only with a group error, propagated unchanged, from the group's generator,
the hash of a message generator's label or the hash of the randomness label. -/
theorem PublicParameters.derive_eq_error {groupPublicParameters : GroupPublicParameters}
    {error : Error GroupError}
    (h : (PublicParameters.derive generatorFromPublicParameters hashToGroup value
      groupPublicParameters : Except _ (PublicParameters BATCH_SIZE _ _)) = .error error) :
    ∃ e, error = .group e ∧
      ((0 < BATCH_SIZE ∧ generatorFromPublicParameters groupPublicParameters = .error e) ∨
        (∃ i : Fin BATCH_SIZE, 0 < i.val ∧ hashToGroup (messageGeneratorLabel i) = .error e) ∨
        hashToGroup randomnessGeneratorLabel = .error e) := by
  unfold PublicParameters.derive at h
  rcases mapError_bind_eq_error.1 h with ⟨e, hmessage, rfl⟩ | ⟨_, -, h⟩
  · obtain ⟨i, hi, -⟩ := (mmap_eq_error_iff _ _).1 hmessage
    simp only [Mathlib.Vector.get_ofFn, id] at hi
    split at hi
    · exact ⟨e, rfl, .inl ⟨by omega, hi⟩⟩
    · exact ⟨e, rfl, .inr (.inl ⟨i, by omega, hi⟩)⟩
  rcases mapError_bind_eq_error.1 h with ⟨e, hrandomness, rfl⟩ | ⟨_, -, h⟩
  · exact ⟨e, rfl, .inr (.inr hrandomness)⟩
  · cases h

/-- **`Pedersen::new` accepts what `derive` returns.** Where `GroupElement::new` takes back every
element's `value()` and `BATCH_SIZE ≥ 1`, `new` on the derived parameters succeeds and rebuilds the
derived generators: message generator `0` is the group's generator, every other message generator
is the hash of its own label, and the randomness generator is the hash of the randomness label. -/
theorem Pedersen.new_derive
    (groupElementNew : GroupElementValue → GroupPublicParameters → Except GroupError GroupElement)
    {groupPublicParameters : GroupPublicParameters}
    (hvalue : ∀ g, groupElementNew (value g) groupPublicParameters = .ok g) (hbatch : 0 < BATCH_SIZE)
    {publicParameters : PublicParameters BATCH_SIZE GroupElementValue GroupPublicParameters}
    (hderive : PublicParameters.derive generatorFromPublicParameters hashToGroup value
      groupPublicParameters = .ok publicParameters) :
    ∃ pedersen : Pedersen BATCH_SIZE GroupElement,
      Pedersen.new groupElementNew publicParameters = .ok pedersen ∧
      generatorFromPublicParameters groupPublicParameters =
        .ok (pedersen.messageGenerators.get ⟨0, hbatch⟩) ∧
      (∀ i : Fin BATCH_SIZE, 0 < i.val →
        hashToGroup (messageGeneratorLabel i) = .ok (pedersen.messageGenerators.get i)) ∧
      hashToGroup randomnessGeneratorLabel = .ok pedersen.randomnessGenerator := by
  obtain ⟨generators, randomnessGenerator, hgenerators, hrandomness, rfl⟩ :=
    (PublicParameters.derive_eq_ok _ _ _).1 hderive
  refine ⟨⟨generators, randomnessGenerator⟩,
    (Pedersen.new_eq_ok _).2 ⟨hbatch, fun i => ?_, hvalue _⟩,
    by simpa using hgenerators ⟨0, hbatch⟩,
    fun i hi => by simpa [hi.ne'] using hgenerators i, hrandomness⟩
  simpa [Mathlib.Vector.get_map] using hvalue (generators.get i)

/-- **Committing with derived generators.** Where `GroupElement::new` takes back every element's
`value()`, `BATCH_SIZE ≥ 1`, and the group's generator and every hash succeed, `derive` and then
`Pedersen::new` succeed, and the instance commits to `m` with randomness `ρ` as
`m_0 G + Σ_{i ≥ 1} m_i H(label i) + ρ H(randomness label)`. -/
theorem Pedersen.commit_derive {Scalar : Type*} [AddCommMonoid GroupElement]
    [SMul Scalar GroupElement]
    (groupElementNew : GroupElementValue → GroupPublicParameters → Except GroupError GroupElement)
    {groupPublicParameters : GroupPublicParameters}
    (hvalue : ∀ g, groupElementNew (value g) groupPublicParameters = .ok g) (hbatch : 0 < BATCH_SIZE)
    {generator randomnessGenerator : GroupElement} {hashed : Fin BATCH_SIZE → GroupElement}
    (hgenerator : generatorFromPublicParameters groupPublicParameters = .ok generator)
    (hhashed : ∀ i : Fin BATCH_SIZE, 0 < i.val →
      hashToGroup (messageGeneratorLabel i) = .ok (hashed i))
    (hrandomness : hashToGroup randomnessGeneratorLabel = .ok randomnessGenerator) :
    ∃ publicParameters pedersen,
      PublicParameters.derive generatorFromPublicParameters hashToGroup value
        groupPublicParameters = .ok publicParameters ∧
      Pedersen.new groupElementNew publicParameters = .ok pedersen ∧
      ∀ (message : Mathlib.Vector Scalar BATCH_SIZE) randomness,
        pedersen.commit message randomness =
          message.get ⟨0, hbatch⟩ • generator +
            ∑ i ∈ Finset.univ.erase ⟨0, hbatch⟩, message.get i • hashed i +
            randomness • randomnessGenerator := by
  let generators : Mathlib.Vector GroupElement BATCH_SIZE :=
    Mathlib.Vector.ofFn fun i => if i.val = 0 then generator else hashed i
  have hgenerators : ∀ i : Fin BATCH_SIZE, (if i.val = 0 then
      generatorFromPublicParameters groupPublicParameters
      else hashToGroup (messageGeneratorLabel i)) = .ok (generators.get i) := by
    intro i
    simp only [generators, Mathlib.Vector.get_ofFn]
    split
    · exact hgenerator
    · exact hhashed i (Nat.pos_of_ne_zero ‹_›)
  refine ⟨_, ⟨generators, randomnessGenerator⟩,
    (PublicParameters.derive_eq_ok _ _ _).2 ⟨generators, randomnessGenerator, hgenerators,
      hrandomness, rfl⟩,
    (Pedersen.new_eq_ok _).2 ⟨hbatch, fun i => by simp [Mathlib.Vector.get_map, hvalue], hvalue _⟩,
    fun message randomness => ?_⟩
  have hrest : ∀ i ∈ Finset.univ.erase ⟨0, hbatch⟩,
      message.get i • generators.get i = message.get i • hashed i := by
    intro i hi
    have hi0 : i.val ≠ 0 := fun h => (Finset.mem_erase.1 hi).1 (Fin.ext h)
    simp [generators, hi0]
  rw [Pedersen.commit_eq_sum, ← Finset.add_sum_erase _ _ (Finset.mem_univ ⟨0, hbatch⟩),
    Finset.sum_congr rfl hrest]
  simp [generators]

theorem Pedersen.commit_derive_over_int :
    ∃ (publicParameters : PublicParameters 2 ℤ Unit) (pedersen : Pedersen 2 ℤ),
      PublicParameters.derive (fun _ => (.ok 1 : Except Unit ℤ)) (fun _ => .ok 2) id () =
        .ok publicParameters ∧
      Pedersen.new (fun value _ => (.ok value : Except Unit ℤ)) publicParameters = .ok pedersen ∧
      ∀ (message : Mathlib.Vector ℤ 2) randomness,
        pedersen.commit message randomness =
          message.get ⟨0, by decide⟩ • 1 +
            ∑ i ∈ Finset.univ.erase ⟨0, by decide⟩, message.get i • 2 + randomness • 2 :=
  Pedersen.commit_derive _ _ _ _ (fun _ => rfl) (by decide) rfl (fun _ _ => rfl) rfl

end Derive

end Commitment
