import InputGauge.Binary64.Decimal
import InputGauge.Proofs.Binary64.Packing
import InputGauge.Proofs.Text.Numeral

/-!
# Higher doubles are not shorter in decimal

The value that is read off the bits of a double is the one that its comparisons work with
(`value_eq`). Its mantissa has all 53 bits unless its exponent is the lowest (`IsNormal`), so of two
doubles that are not negative the higher one has the larger value (`scaled_le_of_le`). Rounding
to the nearest keeps the order, also with ties to even (`nearest_le_nearest`), and so the higher one
is not written with fewer characters (`length_fixed_le`).
-/

namespace InputGauge.Binary64

open Float.Model Float.Model.UnpackedFloat Numeral

/-! ## Fields -/

section Fields

variable (b : BitVec Format.binary64.numBits)

theorem toNat_unpackMantissa : (unpackMantissa b).toNat = b.toNat % exponentWeight := by
  rw [unpackMantissa, BitVec.toNat_cast, BitVec.extractLsb_toNat]
  rfl

theorem toNat_unpackExponent :
    (unpackExponent b).toNat = b.toNat / exponentWeight % 0x800 := by
  rw [unpackExponent, BitVec.toNat_cast, BitVec.extractLsb_toNat, Nat.shiftRight_eq_div_pow]
  rfl

/-- Whether a sign is the one below zero. -/
def below : Sign → Bool
  | .negative => true
  | .positive => false

theorem below_unpackSign :
    below (Sign.ofBitVec (unpackSign b)) = decide (signWeight ≤ b.toNat) := by
  have bound : b.toNat < 2 * signWeight := b.isLt
  have bit : (unpackSign b).toNat = b.toNat / signWeight % 2 := by
    rw [unpackSign, BitVec.toNat_cast, BitVec.extractLsb_toNat, Nat.shiftRight_eq_div_pow]
    rfl
  have clear : unpackSign b = 0#1 ↔ ¬ signWeight ≤ b.toNat := by
    rw [← BitVec.toNat_inj, bit]
    unfold signWeight at *
    show _ = 0 ↔ _
    omega
  rw [Sign.ofBitVec]
  split
  · next positive => exact (decide_eq_false (clear.mp positive)).symm
  · next negative => exact (decide_eq_true (not_not.mp (mt clear.mpr negative))).symm

theorem unpackMantissa_eq_zero_iff : unpackMantissa b = 0#52 ↔ b.toNat % exponentWeight = 0 := by
  rw [← BitVec.toNat_inj, toNat_unpackMantissa]
  rfl

theorem unpackExponent_eq_zero_iff :
    unpackExponent b = 0#11 ↔ b.toNat / exponentWeight % 0x800 = 0 := by
  rw [← BitVec.toNat_inj, toNat_unpackExponent]
  rfl

theorem unpackExponent_eq_ones_iff :
    unpackExponent b = -1#11 ↔ b.toNat / exponentWeight % 0x800 = 0x7ff := by
  rw [← BitVec.toNat_inj, toNat_unpackExponent]
  rfl

/-- With the bit that is not stored in front, a fraction is a whole mantissa. -/
theorem toNat_append_unpackMantissa :
    (1#1 ++ unpackMantissa b).toNat = exponentWeight + b.toNat % exponentWeight := by
  rw [BitVec.toNat_append, ← Nat.shiftLeft_add_eq_or_of_lt (BitVec.isLt _), toNat_unpackMantissa]
  rfl

end Fields

/-! ## Values -/

/-- What a number that is not packed stands for. -/
def valueOf : UnpackedFloat → Value
  | .notANumber => .nan
  | .infinity s => .infinite (below s)
  | .zero s => .finite (below s) 0 (-1074)
  | .finite s m e _ => .finite (below s) m e

/-- A mantissa has all 53 bits unless its exponent is the lowest. -/
def IsNormal (m : Nat) (e : Int) : Prop :=
  m < 0x20000000000000 ∧ -1074 ≤ e ∧ (e = -1074 ∨ 0x10000000000000 ≤ m)

/-- The value read off the bits of a double is that of the number that they pack. -/
theorem value_eq (x : Float) : value x = valueOf x.toModel.unpack := by
  show value x = valueOf (UnpackedFloat.unpack .binary64 x.toModel.toBits.toBitVec)
  have bits : x.toBits.toNat = x.toModel.toBits.toBitVec.toNat := rfl
  rw [value, UnpackedFloat.unpack, bits]
  generalize x.toModel.toBits.toBitVec = b
  have ones := unpackExponent_eq_ones_iff b
  have zero := unpackExponent_eq_zero_iff b
  have clear := unpackMantissa_eq_zero_iff b
  dsimp only
  split
  · next highest =>
    rw [if_pos (ones.mpr highest)]
    split
    · next none => rw [if_pos (clear.mpr none), valueOf, below_unpackSign]
    · next some => rw [if_neg (mt clear.mp some), valueOf]
  · next notHighest =>
    rw [if_neg (mt ones.mp notHighest)]
    split
    · next lowest =>
      rw [if_pos (zero.mpr lowest)]
      split
      · next none => rw [valueOf, below_unpackSign, clear.mp none]
      · rw [valueOf, below_unpackSign, toNat_unpackMantissa, toNat_unpackExponent, lowest]
        rfl
    · next notLowest =>
      rw [if_neg (mt zero.mp notLowest), valueOf, below_unpackSign, toNat_append_unpackMantissa,
        toNat_unpackExponent]
      rfl

/-- A number that a double packs is normal. -/
theorem isNormal_of_unpack {x : Float} {s : Sign} {m : Nat} {e : Int} {h : 0 < m}
    (unpacked : x.toModel.unpack = .finite s m e h) : IsNormal m e := by
  have read := value_eq x
  rw [unpacked, valueOf, value] at read
  have fraction := Nat.mod_lt x.toBits.toNat (show 0 < exponentWeight by decide)
  unfold exponentWeight at *
  split at read
  · split at read <;> cases read
  · split at read
    · obtain ⟨-, rfl, rfl⟩ := Value.finite.inj read
      exact ⟨by omega, by omega, .inl rfl⟩
    · obtain ⟨-, rfl, rfl⟩ := Value.finite.inj read
      exact ⟨by omega, by omega, .inr (by omega)⟩

/-! ## Rounding keeps the order -/

theorem tie_of_double {num den half : Nat} (pos : 0 < den)
    (double : 2 * num = (2 * half + 1) * den) : 2 * (num % den) = den := by
  have whole : (2 * half + 1) * den = 2 * (half * den) + den := by ring
  have split : num = (num - half * den) + half * den := by omega
  have rest : num % den = num - half * den := by
    rw [split, Nat.add_mul_mod_self_right, Nat.mod_eq_of_lt (by omega), ← split]
  omega

/-- Of two fractions, the larger one is not rounded to a smaller whole number. -/
theorem nearest_le_nearest {num den num' den' : Nat} (pos : 0 < den) (pos' : 0 < den')
    (le : num * den' ≤ num' * den) : nearest .even num den ≤ nearest .even num' den' := by
  by_contra notBelow
  have further := Nat.not_le.mp notBelow
  have ⟨above, _⟩ := nearest_within_half .even num pos
  have ⟨_, below⟩ := nearest_within_half .even num' pos'
  have evens := @nearest_even_of_tie num den
  have evens' := @nearest_even_of_tie num' den'
  generalize nearest .even num den = n at *
  generalize nearest .even num' den' = n' at *
  -- Both fractions are squeezed to one and the same value halfway between the two results.
  have upper : 2 * (n * (den * den')) ≤ 2 * (num * den') + den * den' := by
    linarith [Nat.mul_le_mul_right den' above]
  have lower : 2 * (num' * den) ≤ 2 * (n' * (den * den')) + den * den' := by
    linarith [Nat.mul_le_mul_right den below]
  have step : (n' + 1) * (den * den') ≤ n * (den * den') := Nat.mul_le_mul_right _ further
  have both : 0 < den * den' := Nat.mul_pos pos pos'
  rw [Nat.add_mul, Nat.one_mul] at step
  have next : n = n' + 1 := by
    refine Nat.le_antisymm (Nat.le_of_mul_le_mul_right (c := den * den') ?_ both) further
    rw [Nat.add_mul, Nat.one_mul]
    omega
  have tie : 2 * num = (2 * n' + 1) * den := by
    refine Nat.eq_of_mul_eq_mul_right pos' ?_
    linarith
  have tie' : 2 * num' = (2 * n' + 1) * den' := by
    refine Nat.eq_of_mul_eq_mul_right pos ?_
    linarith
  have even := evens (tie_of_double pos tie)
  have even' := evens' (tie_of_double pos' tie')
  omega

/-! ## Amounts -/

/-- A number from zero up. -/
def IsAmount (x : Float) : Prop := ∃ m e, value x = .finite false m e

theorem isAmount_zero : IsAmount 0.0 := ⟨0, -1074, by decide⟩

theorem isAmount_of_unpack {x : Float} {m : Nat} {e : Int} {h : 0 < m}
    (unpacked : x.toModel.unpack = .finite .positive m e h) : IsAmount x :=
  ⟨m, e, by rw [value_eq, unpacked]; rfl⟩

/-- The number that an amount packs is zero or above. -/
theorem unpack_of_value {x : Float} {m : Nat} {e : Int} (amount : value x = .finite false m e) :
    (m = 0 ∧ e = -1074 ∧ x.toModel.unpack = .zero .positive) ∨
      ∃ h, x.toModel.unpack = .finite .positive m e h := by
  rw [value_eq] at amount
  rcases unpacked : x.toModel.unpack with (_ | _) | _ | (_ | _) | ⟨_ | _, m', e', h⟩ <;>
    rw [unpacked] at amount <;> simp [valueOf, below] at amount
  · obtain ⟨rfl, rfl⟩ := amount
    exact .inl ⟨rfl, rfl, rfl⟩
  · obtain ⟨rfl, rfl⟩ := amount
    exact .inr ⟨h, rfl⟩

/-- Of two amounts the higher one has no smaller exponent, and with the same exponent no smaller
mantissa. -/
theorem exists_apart_of_le {x y : Float} {m m' : Nat} {e e' : Int}
    (hx : value x = .finite false m e) (hy : value y = .finite false m' e') (le : x ≤ y) :
    ∃ k : Nat, e' = e + k ∧ m ≤ m' * 2 ^ k := by
  have ordered : placeOf x.toModel.unpack ≤ placeOf y.toModel.unpack := (le_iff.mp le).2.2
  rcases unpack_of_value hy with ⟨rfl, rfl, unpacked'⟩ | ⟨pos', unpacked'⟩
  · rcases unpack_of_value hx with ⟨rfl, rfl, -⟩ | ⟨pos, unpacked⟩
    · exact ⟨0, by decide, by decide⟩
    · rw [unpacked, unpacked', placeOf, placeOf, Prod.Lex.toLex_le_toLex] at ordered
      omega
  · obtain ⟨short', least', full'⟩ := isNormal_of_unpack unpacked'
    rcases unpack_of_value hx with ⟨rfl, rfl, -⟩ | ⟨pos, unpacked⟩
    · exact ⟨(e' + 1074).toNat, by omega, Nat.zero_le _⟩
    · obtain ⟨short, least, full⟩ := isNormal_of_unpack unpacked
      rw [unpacked, unpacked', placeOf, placeOf, Prod.Lex.toLex_le_toLex,
        Prod.Lex.toLex_le_toLex] at ordered
      rcases ordered with less | ⟨-, larger | ⟨same, mantissas⟩⟩
      · exact absurd less (Int.lt_irrefl 1)
      · have larger : e < e' := larger
        have double : m ≤ m' * 2 := by omega
        have power : 2 ≤ 2 ^ (e' - e).toNat := Nat.le_self_pow (by omega) 2
        exact ⟨(e' - e).toNat, by omega, double.trans (Nat.mul_le_mul_left _ power)⟩
      · have same : e = e' := same
        have mantissas : m ≤ m' := Int.ofNat_le.mp mantissas
        exact ⟨0, by omega, by omega⟩

theorem scaled_le_scaled (places : Nat) {m m' : Nat} {e e' : Int} {k : Nat} (apart : e' = e + k)
    (le : m ≤ m' * 2 ^ k) : scaled .even places m e ≤ scaled .even places m' e' := by
  refine nearest_le_nearest (by simp) (by simp) ?_
  simp only [Nat.shiftLeft_eq, Nat.one_mul, Nat.pow_eq]
  have exponents : e'.toNat + (-e).toNat = k + (e.toNat + (-e').toNat) := by omega
  calc m * 10 ^ places * 2 ^ e.toNat * 2 ^ (-e').toNat
      = m * (10 ^ places * 2 ^ (e.toNat + (-e').toNat)) := by ring
    _ ≤ m' * 2 ^ k * (10 ^ places * 2 ^ (e.toNat + (-e').toNat)) := Nat.mul_le_mul_right _ le
    _ = m' * 10 ^ places * 2 ^ (k + (e.toNat + (-e').toNat)) := by ring
    _ = m' * 10 ^ places * 2 ^ e'.toNat * 2 ^ (-e).toNat := by rw [← exponents]; ring

/-- Of two amounts, the higher one does not have fewer units of the last place. -/
theorem scaled_le_of_le (places : Nat) {x y : Float} {m m' : Nat} {e e' : Int}
    (hx : value x = .finite false m e) (hy : value y = .finite false m' e') (le : x ≤ y) :
    scaled .even places m e ≤ scaled .even places m' e' := by
  obtain ⟨k, apart, mantissas⟩ := exists_apart_of_le hx hy le
  exact scaled_le_scaled places apart mantissas

/-! ## Characters -/

/-- A number with a point has as many characters as its whole part, its places and the point. -/
theorem length_withPoint {places : Nat} (pos : 0 < places) (units : Nat) :
    (withPoint places units).length = (units / 10 ^ places).repr.length + 1 + places := by
  have fits : (Nat.toDigits 10 (units % 10 ^ places)).length ≤ places :=
    (Nat.length_toDigits_le_iff (by decide) pos).mpr (Nat.mod_lt _ (Nat.pow_pos (by decide)))
  have padded : (String.ofList ((Nat.toDigits 10 (units % 10 ^ places)).leftpad places '0')).length
      = places := by
    rw [String.length_ofList, List.length_leftpad, Nat.max_eq_left fits]
  rw [withPoint]
  simp only [Nat.pow_eq]
  rw [if_neg (Nat.ne_of_gt pos), String.length_append, String.length_append, padded]
  rfl

theorem length_withPoint_le_length_withPoint (places : Nat) {units units' : Nat}
    (le : units ≤ units') :
    (withPoint places units).length ≤ (withPoint places units').length := by
  rcases Nat.eq_zero_or_pos places with rfl | pos
  · simpa [withPoint] using length_repr_le_length_repr le
  · have wholes := length_repr_le_length_repr (Nat.div_le_div_right (c := 10 ^ places) le)
    rw [length_withPoint pos, length_withPoint pos]
    omega

/-- Of two amounts, the higher one is not written with fewer characters. -/
theorem length_fixed_le (places : Nat) {x y : Float} (hx : IsAmount x) (hy : IsAmount y)
    (le : x ≤ y) : (fixed places x).length ≤ (fixed places y).length := by
  obtain ⟨m, e, hx⟩ := hx
  obtain ⟨m', e', hy⟩ := hy
  have units := scaled_le_of_le places hx hy le
  rw [fixed, fixed, hx, hy]
  simpa using length_withPoint_le_length_withPoint places units

end InputGauge.Binary64
