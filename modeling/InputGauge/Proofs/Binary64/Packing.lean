import InputGauge.Proofs.Binary64.Order

/-!
# Packing numbers of 53 bits

A number that is not packed and has a mantissa of just 53 bits and an exponent in reach is packed
field by field, its first bit left out, and unpacked to itself (`unpack_pack_full`). Rounding makes
such a number of one that has a bit too many, whatever came after its last bit
(`exists_roundWithAccuracy_full`), and so the quotient of two such numbers is another, unless their
exponents are far apart (`exists_div_full`).
-/

namespace InputGauge.Binary64

open Float.Model Float.Model.UnpackedFloat

/-- The mantissa has 53 bits. -/
def IsFull (m : Nat) : Prop := m.log2 = 52

/-- The exponents that a full mantissa can have: those whose field is neither the lowest nor the
highest. -/
def InReach (e : Int) : Prop := -1074 ≤ e ∧ e ≤ 970

section Fields

variable {m : Nat} {e : Int}

theorem isFull_iff : IsFull m ↔ 0x10000000000000 ≤ m ∧ m < 0x20000000000000 := by
  rcases Nat.eq_zero_or_pos m with rfl | pos
  · exact iff_of_false (by decide : ¬ Nat.log2 0 = 52) (by decide)
  · exact Nat.log2_eq_iff pos.ne'

theorem IsFull.pos (full : IsFull m) : 0 < m :=
  Nat.lt_of_lt_of_le (by decide) (isFull_iff.mp full).1

/-- The field of the exponent. -/
def field (e : Int) : BitVec 11 := BitVec.ofNat 11 (e + 1075).toNat

theorem toNat_field (reach : InReach e) : (field e).toNat = (e + 1075).toNat := by
  obtain ⟨low, high⟩ := reach
  rw [field, BitVec.toNat_ofNat, Nat.mod_eq_of_lt]
  omega

theorem field_ne_lowest (reach : InReach e) : field e ≠ 0#11 := by
  intro same
  have zero := congrArg BitVec.toNat same
  obtain ⟨low, high⟩ := id reach
  rw [toNat_field reach, BitVec.toNat_zero] at zero
  omega

theorem field_ne_highest (reach : InReach e) : field e ≠ -1#11 := by
  intro same
  have ones : (field e).toNat = 2047 := congrArg BitVec.toNat same
  obtain ⟨low, high⟩ := id reach
  rw [toNat_field reach] at ones
  omega

/-- The first bit is not stored. -/
theorem toNat_mantissa (full : IsFull m) :
    (BitVec.ofNat 52 m).toNat = m - 0x10000000000000 := by
  have bounds := isFull_iff.mp full
  rw [BitVec.toNat_ofNat]
  omega

/-- With the bit that is not stored the mantissa is whole again. -/
theorem toNat_append_mantissa (full : IsFull m) : (1#1 ++ BitVec.ofNat 52 m).toNat = m := by
  have bounds := isFull_iff.mp full
  have rest := toNat_mantissa full
  rw [BitVec.toNat_append, ← Nat.shiftLeft_add_eq_or_of_lt (BitVec.isLt _), rest]
  show 0x10000000000000 + _ = _
  omega

theorem pack_full (sign : Sign) (full : IsFull m) (reach : InReach e) :
    UnpackedFloat.pack .binary64 (.finite sign m e full.pos) =
      packComponents .binary64 sign (field e) (BitVec.ofNat 52 m) := by
  have bits : m.log2 + 1 = Format.binary64.mantissaBits := congrArg (· + 1) full
  have biased : (e + Format.binary64.exponentBias +
      Format.binary64.mantissaBitsWithoutImplicit).toNat = (e + 1075).toNat :=
    congrArg Int.toNat (Int.add_assoc e 1023 52)
  have fits : ¬ 2 ^ Format.binary64.exponentBits ≤ (e + 1075).toNat + 1 := by
    obtain ⟨low, high⟩ := reach
    show ¬ 2048 ≤ _
    omega
  rw [UnpackedFloat.pack]
  simp only [biased]
  rw [if_neg fits, if_pos bits]
  rfl

theorem finite_congr {sign : Sign} {m m' : Nat} {e e' : Int} {h : 0 < m} {h' : 0 < m'}
    (mantissa : m = m') (exponent : e = e') : finite sign m e h = finite sign m' e' h' := by
  subst mantissa exponent
  rfl

theorem unpack_pack_full (sign : Sign) (full : IsFull m) (reach : InReach e) :
    (Float.Model.pack (.finite sign m e full.pos)).unpack = .finite sign m e full.pos := by
  show UnpackedFloat.unpack .binary64 (UnpackedFloat.pack .binary64 _) = _
  rw [pack_full sign full reach, UnpackedFloat.unpack]
  simp only [unpackExponent_packComponents, unpackMantissa_packComponents,
    unpackSign_packComponents, Sign.ofBitVec_toBitVec, field_ne_lowest reach,
    field_ne_highest reach, ↓reduceIte, toNat_field reach]
  refine finite_congr (toNat_append_mantissa full) ?_
  obtain ⟨low, high⟩ := reach
  show (((e + 1075).toNat : Nat) : Int) - ((1023 : Nat) + (52 : Nat)) = e
  omega

end Fields

/-! ## Rounding -/

/-- Rounding moves a mantissa up by one at most. -/
theorem roundedMantissa_bounds (em : ExtendedMantissa) :
    em.mantissa ≤ em.roundedMantissa ∧ em.roundedMantissa ≤ em.mantissa + 1 := by
  have odd : em.mantissa % 2 ≤ 1 := Nat.le_of_lt_succ (Nat.mod_lt _ (by decide))
  rcases em with ⟨m, _ | _, _ | _⟩
  · exact ⟨Nat.le_refl m, Nat.le_succ m⟩
  · exact ⟨Nat.le_refl m, Nat.le_succ m⟩
  · exact ⟨Nat.le_add_right m _, Nat.add_le_add_left odd m⟩
  · exact ⟨Nat.le_succ m, Nat.le_refl _⟩

theorem mantissa_ofMantissaAndAccuracy (m : Nat) (accuracy : Accuracy) :
    (ExtendedMantissa.ofMantissaAndAccuracy m accuracy).mantissa = m := by
  rcases accuracy with _ | _ | _ | _ <;> rfl

theorem shiftToTargetExponent_of_log2 {m k : Nat} {e : Int} (bits : m.log2 = 52 + k)
    (reach : -1074 ≤ e) (accuracy : Accuracy) :
    shiftToTargetExponent .binary64 m e accuracy =
      (ExtendedMantissa.ofMantissaAndAccuracy m accuracy >>> k, e + k) := by
  have lowest : Format.binary64.minExponent = -1074 := by decide
  have width : (Format.binary64.mantissaBits : Int) = 53 := by decide
  have target : Format.binary64.targetExponent (totalExponent m e) = e + k := by
    rw [Format.targetExponent, totalExponent, bits, lowest, width]
    omega
  have amount : (e + k - e).toNat = k := by omega
  rw [shiftToTargetExponent, target, shiftToExponent, amount]

/-- At most one bit too many is shifted out. -/
theorem exists_shiftToTargetExponent_full {m : Nat} (low : 0x10000000000000 ≤ m)
    (high : m < 0x40000000000000) {e : Int} (reach : -1074 ≤ e) (accuracy : Accuracy) :
    ∃ em e', shiftToTargetExponent .binary64 m e accuracy = (em, e') ∧ IsFull em.mantissa ∧
      e ≤ e' ∧ e' ≤ e + 1 := by
  have same := mantissa_ofMantissaAndAccuracy m accuracy
  rcases Nat.lt_or_ge m 0x20000000000000 with short | long
  · have full : IsFull m := isFull_iff.mpr ⟨low, short⟩
    refine ⟨_, _, shiftToTargetExponent_of_log2 (k := 0) full reach accuracy, ?_, ?_, ?_⟩
    · show IsFull (ExtendedMantissa.ofMantissaAndAccuracy m accuracy).mantissa
      rwa [same]
    · exact (Int.add_zero e).ge
    · exact Int.add_le_add_left (by decide) e
  · have bits : m.log2 = 52 + 1 :=
      (Nat.log2_eq_iff (Nat.lt_of_lt_of_le (by decide) low).ne').mpr ⟨long, high⟩
    refine ⟨_, _, shiftToTargetExponent_of_log2 bits reach accuracy, ?_, ?_, Int.le_refl _⟩
    · show IsFull ((ExtendedMantissa.ofMantissaAndAccuracy m accuracy).mantissa / 2)
      rw [same, isFull_iff]
      omega
    · exact Int.le_add_of_nonneg_right (by decide)

theorem exists_roundWithAccuracy_full (sign : Sign) {m : Nat} (low : 0x10000000000000 ≤ m)
    (high : m < 0x40000000000000) {e : Int} (reach : -1074 ≤ e) (accuracy : Accuracy) :
    ∃ m' e', ∃ full : IsFull m', e ≤ e' ∧ e' ≤ e + 2 ∧
      roundWithAccuracy .binary64 sign m e accuracy = .finite sign m' e' full.pos := by
  obtain ⟨em, e₁, first, full, lower, upper⟩ :=
    exists_shiftToTargetExponent_full low high reach accuracy
  obtain ⟨above, below⟩ := roundedMantissa_bounds em
  obtain ⟨least, most⟩ := isFull_iff.mp full
  obtain ⟨em', e₂, second, full', lower', upper'⟩ := exists_shiftToTargetExponent_full
    (Nat.le_trans least above) (by omega : em.roundedMantissa < 0x40000000000000)
    (Int.le_trans reach lower) .exact
  refine ⟨em'.mantissa, e₂, full', by omega, by omega, ?_⟩
  unfold roundWithAccuracy
  simp only [first, second]
  exact dif_neg full'.pos.ne'

/-! ## Dividing -/

section Dividing

variable {m₁ m₂ : Nat} {e₁ e₂ : Int} (full₁ : IsFull m₁) (full₂ : IsFull m₂)
include full₁ full₂

/-- The dividend is shifted by as many bits as a full mantissa has. -/
theorem divCore_full (reach : -1021 ≤ e₁ - e₂) :
    divCore .binary64 m₁ e₁ m₂ e₂ =
      (m₁ <<< 53 / m₂, e₁ - e₂ - 53, accuracyOfFraction (m₁ <<< 53 % m₂) m₂) := by
  have lowest : Format.binary64.minExponent = -1074 := by decide
  have width : (Format.binary64.mantissaBits : Int) = 53 := by decide
  have target : min (e₁ - e₂) (Format.binary64.targetExponent
      (totalExponent m₁ e₁ - totalExponent m₂ e₂)) = e₁ - e₂ - 53 := by
    rw [Format.targetExponent, totalExponent, totalExponent, full₁, full₂, lowest, width]
    omega
  have amount : (e₁ - e₂ - (e₁ - e₂ - 53)).toNat = 53 := by omega
  unfold divCore
  simp only [target, amount]

/-- So the quotient has a full mantissa or one bit more. -/
theorem quotient_bounds :
    0x10000000000000 ≤ m₁ <<< 53 / m₂ ∧ m₁ <<< 53 / m₂ < 0x40000000000000 := by
  obtain ⟨low₁, high₁⟩ := isFull_iff.mp full₁
  obtain ⟨low₂, high₂⟩ := isFull_iff.mp full₂
  rw [Nat.shiftLeft_eq, Nat.le_div_iff_mul_le full₂.pos, Nat.div_lt_iff_lt_mul full₂.pos]
  omega

theorem exists_div_full (sign₁ sign₂ : Sign) (low : -1021 ≤ e₁ - e₂) (high : e₁ - e₂ ≤ 1021) :
    ∃ m e, ∃ full : IsFull m, InReach e ∧
      UnpackedFloat.div .binary64 (.finite sign₁ m₁ e₁ full₁.pos) (.finite sign₂ m₂ e₂ full₂.pos) =
        .finite (sign₁ / sign₂) m e full.pos := by
  obtain ⟨least, most⟩ := quotient_bounds full₁ full₂
  obtain ⟨m, e, full, lower, upper, rounded⟩ := exists_roundWithAccuracy_full (sign₁ / sign₂)
    least most (by omega : -1074 ≤ e₁ - e₂ - 53) (accuracyOfFraction (m₁ <<< 53 % m₂) m₂)
  refine ⟨m, e, full, ⟨by omega, by omega⟩, ?_⟩
  rw [← rounded]
  unfold UnpackedFloat.div
  simp only [divCore_full full₁ full₂ low]

end Dividing

end InputGauge.Binary64
