import InputGauge.Proofs.Binary64.Packing

/-!
# Whole numbers as doubles

Every whole number below 2⁵³ is a double: its mantissa is the number shifted left until it has 53
bits, and its exponent undoes the shift (`whole`). Rounding changes nothing as long as no bit that
is lost was set (`round_shifted`), so converting such numbers, comparing them in either order and
subtracting the smaller of two from the larger are exact. Dividing them is not, but it gives a
positive number that is neither infinite nor zero (`exists_unpack_div`).
-/

namespace InputGauge.Binary64

open Float.Model Float.Model.UnpackedFloat

/-- The whole numbers up to here have at most 53 bits. -/
def wholeBound : Nat := 0x20000000000000

/-- How far a number has to be shifted to have 53 bits. -/
def spare (n : Nat) : Nat := 52 - n.log2

theorem shiftLeft_pos {n : Nat} (pos : 0 < n) (k : Nat) : 0 < n <<< k := by
  rw [Nat.shiftLeft_eq]
  exact Nat.mul_pos pos (Nat.two_pow_pos k)

/-- A whole number as a number that is not packed. -/
def whole (n : Nat) : UnpackedFloat :=
  if pos : 0 < n then .finite .positive (n <<< spare n) (-spare n) (shiftLeft_pos pos _)
  else .zero .positive

theorem whole_zero : whole 0 = .zero .positive := rfl

theorem whole_of_pos {n : Nat} (pos : 0 < n) :
    whole n = .finite .positive (n <<< spare n) (-spare n) (shiftLeft_pos pos _) :=
  dif_pos pos

theorem log2_lt_of_lt_wholeBound {n : Nat} (small : n < wholeBound) : n.log2 < 53 := by
  rcases Nat.eq_zero_or_pos n with rfl | pos
  · decide
  · exact (Nat.log2_lt pos.ne').mpr small

theorem log2_shiftLeft {n : Nat} (pos : 0 < n) (k : Nat) : (n <<< k).log2 = n.log2 + k := by
  induction k with
  | zero => rfl
  | succ k ih =>
    rw [Nat.shiftLeft_succ, Nat.log2_two_mul (shiftLeft_pos pos k).ne', ih]
    rfl

/-! ## Rounding -/

/-- A whole number, shifted, asks for the exponent of its place, however far it is shifted. -/
theorem targetExponent_shifted {n : Nat} (pos : 0 < n) (small : n < wholeBound) (k : Nat) :
    Format.binary64.targetExponent (totalExponent (n <<< k) (-k)) = -(spare n : Int) := by
  have bound := log2_lt_of_lt_wholeBound small
  have lowest : Format.binary64.minExponent = -1074 := by decide
  have bits : (Format.binary64.mantissaBits : Int) = 53 := by decide
  rw [Format.targetExponent, totalExponent, log2_shiftLeft pos, lowest, bits, spare]
  omega

/-- Shifting zeros out of a mantissa loses nothing. -/
theorem shiftRight_shifted (n k j : Nat) :
    (⟨n <<< (k + j), false, false⟩ : ExtendedMantissa) >>> j = ⟨n <<< k, false, false⟩ := by
  show j.repeat ExtendedMantissa.shiftRightOne _ = _
  induction j generalizing k with
  | zero => rfl
  | succ j ih =>
    rw [Nat.repeat, ← Nat.add_assoc, Nat.add_right_comm, ih (k + 1)]
    have even : (n <<< (k + 1)) % 2 = 0 := by
      rw [Nat.shiftLeft_succ]
      exact Nat.mul_mod_right 2 _
    have half : (n <<< (k + 1)) / 2 = n <<< k := by
      rw [Nat.shiftLeft_succ]
      exact Nat.mul_div_cancel_left _ (by decide)
    simp [ExtendedMantissa.shiftRightOne, even, half]

theorem shiftToTargetExponent_shifted {n : Nat} (pos : 0 < n) (small : n < wholeBound) (j : Nat) :
    shiftToTargetExponent .binary64 (n <<< (spare n + j)) (-((spare n + j : Nat) : Int))
      .exact =
      (⟨n <<< spare n, false, false⟩, -(spare n : Int)) := by
  have amount : (-(spare n : Int) - -((spare n + j : Nat) : Int)).toNat = j := by omega
  have back : -((spare n + j : Nat) : Int) + j = -spare n := by omega
  have start (m : Nat) : ExtendedMantissa.ofMantissaAndAccuracy m .exact = ⟨m, false, false⟩ := rfl
  rw [shiftToTargetExponent, targetExponent_shifted pos small, shiftToExponent, amount, start,
    shiftRight_shifted, back]

/-- A mantissa that is too short is shifted left to its place, and a longer one stays. -/
theorem decreaseExponent_shifted (n k : Nat) :
    decreaseExponent (n <<< k) (-k) (-spare n) =
      (n <<< (spare n + (k - spare n)), -((spare n + (k - spare n) : Nat) : Int)) := by
  have amount : (-(k : Int) - -(spare n : Int)).toNat = spare n - k := by omega
  have total : k + (spare n - k) = spare n + (k - spare n) := by omega
  have exponent : -(k : Int) - (spare n - k : Nat) = -((spare n + (k - spare n) : Nat) : Int) := by
    omega
  show (_ <<< _, _ - _) = _
  rw [amount, ← Nat.shiftLeft_add, total, exponent]

theorem roundWithAccuracy_shifted {n : Nat} (pos : 0 < n) (small : n < wholeBound) (j : Nat) :
    roundWithAccuracy .binary64 .positive (n <<< (spare n + j)) (-((spare n + j : Nat) : Int))
      .exact = whole n := by
  have mantissa : (⟨n <<< spare n, false, false⟩ : ExtendedMantissa).roundedMantissa =
      n <<< spare n := rfl
  have again := shiftToTargetExponent_shifted pos small 0
  rw [Nat.add_zero] at again
  unfold roundWithAccuracy
  rw [shiftToTargetExponent_shifted pos small]
  simp only [mantissa, again]
  rw [whole_of_pos pos]
  exact dif_neg (shiftLeft_pos pos _).ne'

/-- A whole number below the bound is rounded to itself, however far it is shifted. -/
theorem round_shifted {n : Nat} (pos : 0 < n) (small : n < wholeBound) (k : Nat) :
    UnpackedFloat.round .binary64 .positive (n <<< k) (-k) = whole n := by
  rw [UnpackedFloat.round, targetExponent_shifted pos small, decreaseExponent_shifted]
  exact roundWithAccuracy_shifted pos small _

theorem normalize_shifted {n : Nat} (pos : 0 < n) (small : n < wholeBound) (k : Nat)
    (sign : Sign) : UnpackedFloat.normalize .binary64 (n <<< k : Nat) (-k) sign = whole n := by
  have above : compare ((n <<< k : Nat) : Int) 0 = .gt :=
    Int.compare_eq_gt.mpr (Int.natCast_pos.mpr (shiftLeft_pos pos k))
  rw [UnpackedFloat.normalize, above]
  exact round_shifted pos small k

/-- A conversion gives the number itself. -/
theorem ofNat_eq_whole {n : Nat} (small : n < wholeBound) :
    UnpackedFloat.ofNat .binary64 n = whole n := by
  rcases Nat.eq_zero_or_pos n with rfl | pos
  · rfl
  · exact normalize_shifted pos small 0 .positive

/-! ## Subtracting -/

theorem spare_le_spare {a b : Nat} (pos : 0 < a) (le : a ≤ b) : spare b ≤ spare a := by
  have logs : a.log2 ≤ b.log2 :=
    (Nat.le_log2 (Nat.lt_of_lt_of_le pos le).ne').mpr
      (Nat.le_trans (Nat.log2_self_le pos.ne') le)
  unfold spare
  omega

/-- A number that is shifted to its place, shifted on to the place of a smaller one. -/
theorem decreaseExponent_whole {n k : Nat} (le : spare n ≤ k) :
    (decreaseExponent (n <<< spare n) (-spare n) (-k)).1 = n <<< k := by
  have amount : (-(spare n : Int) - -(k : Int)).toNat = k - spare n := by omega
  show _ <<< _ = _
  rw [amount, ← Nat.shiftLeft_add, Nat.add_sub_cancel' le]

/-- The larger minus the smaller. -/
theorem sub_whole {a b : Nat} (below : a < b) (small : b < wholeBound) :
    UnpackedFloat.sub .binary64 (whole b) (whole a) = whole (b - a) := by
  have posb : 0 < b := Nat.zero_lt_of_lt below
  -- Both are shifted to the place of the smaller one, where no bit of either is lost.
  rcases Nat.eq_zero_or_pos a with rfl | posa
  · rw [whole_zero, whole_of_pos posb, Nat.sub_zero, whole_of_pos posb]
    rfl
  · have order := spare_le_spare posa below.le
    have smaller : min (-(spare b : Int)) (-(spare a : Int)) = -(spare a : Int) := by omega
    have difference : ((b <<< spare a : Nat) : Int) - (a <<< spare a : Nat) =
        ((b - a) <<< spare a : Nat) := by
      rw [Nat.shiftLeft_eq, Nat.shiftLeft_eq, Nat.shiftLeft_eq, Nat.sub_mul,
        Int.ofNat_sub (Nat.mul_le_mul_right _ below.le)]
    rw [whole_of_pos posb, whole_of_pos posa]
    show UnpackedFloat.normalize _
      (((decreaseExponent (b <<< spare b) (-spare b) (min (-spare b) (-spare a))).1 : Int) -
        (decreaseExponent (a <<< spare a) (-spare a) (min (-spare b) (-spare a))).1)
      (min (-spare b) (-spare a)) _ = _
    rw [smaller, decreaseExponent_whole order, decreaseExponent_whole (Nat.le_refl _), difference]
    exact normalize_shifted (Nat.sub_pos_of_lt below) (Nat.lt_of_le_of_lt (Nat.sub_le b a) small)
      _ _

/-! ## Packing -/

/-- A shifted number has 53 bits. -/
theorem isFull_shifted {n : Nat} (pos : 0 < n) (small : n < wholeBound) :
    IsFull (n <<< spare n) := by
  have bound := log2_lt_of_lt_wholeBound small
  rw [IsFull, log2_shiftLeft pos, spare]
  omega

theorem inReach_spare (n : Nat) : InReach (-spare n) := by
  unfold InReach spare
  omega

theorem pack_whole {n : Nat} (pos : 0 < n) (small : n < wholeBound) :
    UnpackedFloat.pack .binary64 (whole n) =
      packComponents .binary64 .positive (field (-spare n)) (BitVec.ofNat 52 (n <<< spare n)) := by
  rw [whole_of_pos pos]
  exact pack_full .positive (isFull_shifted pos small) (inReach_spare n)

theorem unpack_pack_whole {n : Nat} (small : n < wholeBound) :
    (Float.Model.pack (whole n)).unpack = whole n := by
  rcases Nat.eq_zero_or_pos n with rfl | pos
  · rfl
  · rw [whole_of_pos pos]
    exact unpack_pack_full .positive (isFull_shifted pos small) (inReach_spare n)

/-! ## Dividing -/

theorem exists_div_whole {a b : Nat} (posa : 0 < a) (smalla : a < wholeBound) (posb : 0 < b)
    (smallb : b < wholeBound) : ∃ m e, ∃ full : IsFull m, InReach e ∧
      UnpackedFloat.div .binary64 (whole a) (whole b) = .finite .positive m e full.pos := by
  have near (n : Nat) : 0 ≤ spare n ∧ spare n ≤ 52 := ⟨Nat.zero_le _, Nat.sub_le _ _⟩
  have neara := near a
  have nearb := near b
  rw [whole_of_pos posa, whole_of_pos posb]
  exact exists_div_full (isFull_shifted posa smalla) (isFull_shifted posb smallb)
    .positive .positive (by omega) (by omega)

/-! ## Doubles -/

section Doubles

variable {a b n : UInt64}

theorem toModel_toFloat (small : n.toNat < wholeBound) :
    n.toFloat.toModel = Float.Model.pack (whole n.toNat) :=
  congrArg Float.Model.pack (ofNat_eq_whole small)

theorem unpack_toFloat (small : n.toNat < wholeBound) :
    n.toFloat.toModel.unpack = whole n.toNat := by
  rw [toModel_toFloat small, unpack_pack_whole small]

theorem isNaN_toFloat (small : n.toNat < wholeBound) : n.toFloat.isNaN = false := by
  show n.toFloat.toModel.unpack.isNaN = false
  rw [unpack_toFloat small]
  unfold whole
  split <;> rfl

theorem shiftLeft_lt_shiftLeft {m n : Nat} (k : Nat) (below : m < n) : m <<< k < n <<< k := by
  rw [Nat.shiftLeft_eq, Nat.shiftLeft_eq]
  exact Nat.mul_lt_mul_of_pos_right below (Nat.two_pow_pos k)

theorem placeOf_whole_lt {m n : Nat} (below : m < n) : placeOf (whole m) < placeOf (whole n) := by
  have posn : 0 < n := Nat.zero_lt_of_lt below
  rw [whole_of_pos posn]
  rcases Nat.eq_zero_or_pos m with rfl | posm
  · rw [whole_zero, placeOf, placeOf, Prod.Lex.toLex_lt_toLex]
    exact .inl Int.one_pos
  · rw [whole_of_pos posm, placeOf, placeOf, Prod.Lex.toLex_lt_toLex]
    refine .inr ⟨rfl, ?_⟩
    rw [Prod.Lex.toLex_lt_toLex]
    rcases (spare_le_spare posm below.le).lt_or_eq with further | same
    · exact .inl (by simpa using further)
    · refine .inr ⟨by rw [same], ?_⟩
      rw [same]
      exact Int.ofNat_lt.mpr (shiftLeft_lt_shiftLeft _ below)

/-- Comparing whole numbers as doubles is exact. -/
theorem toFloat_lt_toFloat_iff (smalla : a.toNat < wholeBound) (smallb : b.toNat < wholeBound) :
    a.toFloat < b.toFloat ↔ a < b := by
  have mono {m n : Nat} (below : m < n) := placeOf_whole_lt below
  rw [lt_iff, place, place, unpack_toFloat smalla, unpack_toFloat smallb, UInt64.lt_iff_toNat_lt]
  constructor
  · rintro ⟨_, _, below⟩
    by_contra notBelow
    rcases (Nat.not_lt.mp notBelow).lt_or_eq with above | same
    · exact (below.trans (mono above)).false
    · exact (same ▸ below).false
  · exact fun below => ⟨isNaN_toFloat smalla, isNaN_toFloat smallb, mono below⟩

/-- Subtracting whole numbers as doubles is exact. -/
theorem toFloat_sub_toFloat (below : a < b) (small : b.toNat < wholeBound) :
    b.toFloat - a.toFloat = (b - a).toFloat := by
  have belowNat := UInt64.lt_iff_toNat_lt.mp below
  have difference : (b - a).toNat = b.toNat - a.toNat :=
    UInt64.toNat_sub_of_le b a (UInt64.le_of_lt below)
  have smallDifference : (b - a).toNat < wholeBound := by omega
  show Float.ofModel (Float.Model.pack (UnpackedFloat.sub .binary64 b.toFloat.toModel.unpack
    a.toFloat.toModel.unpack)) = Float.ofModel (b - a).toFloat.toModel
  rw [unpack_toFloat small, unpack_toFloat (Nat.lt_trans belowNat small),
    sub_whole belowNat small, toModel_toFloat smallDifference, difference]

/-- The bits of a whole number, all fields together. -/
def wholeBits (n : Nat) : Nat :=
  if 0 < n then (1022 + n.log2) * exponentWeight + n <<< spare n else 0

theorem toNat_toBits_toFloat (small : n.toNat < wholeBound) :
    n.toFloat.toBits.toNat = wholeBits n.toNat := by
  show n.toFloat.toModel.toBits.toNat = _
  rw [toModel_toFloat small]
  show (UnpackedFloat.pack .binary64 (whole n.toNat)).toNat = _
  rcases Nat.eq_zero_or_pos n.toNat with zero | pos
  · rw [zero]
    rfl
  · have full := isFull_shifted pos small
    have bounds := isFull_iff.mp full
    have bound := log2_lt_of_lt_wholeBound small
    have exponent : (-(spare n.toNat : Int) + 1075).toNat = 1023 + n.toNat.log2 := by
      rw [spare]
      omega
    rw [pack_whole pos small, wholeBits, if_pos pos, packComponents, BitVec.toNat_append,
      BitVec.toNat_append, ← Nat.shiftLeft_add_eq_or_of_lt (BitVec.isLt _), toNat_mantissa full,
      ← Nat.shiftLeft_add_eq_or_of_lt (BitVec.isLt _), toNat_field (inReach_spare _), exponent,
      Nat.shiftLeft_eq]
    show (0 <<< 11 + _) * 0x10000000000000 + _ = _ * 0x10000000000000 + _
    omega

theorem wholeBits_lt_wholeBits {m n : Nat} (below : m < n) (small : n < wholeBound) :
    wholeBits m < wholeBits n := by
  have posn : 0 < n := Nat.zero_lt_of_lt below
  have boundn := isFull_iff.mp (isFull_shifted posn small)
  rw [wholeBits, wholeBits, if_pos posn, exponentWeight]
  split
  · next posm =>
    have boundm := isFull_iff.mp (isFull_shifted posm (Nat.lt_trans below small))
    have bound := log2_lt_of_lt_wholeBound small
    -- A longer number has the larger exponent, and among equally long ones the mantissa decides.
    rcases (spare_le_spare posm below.le).lt_or_eq with longer | same
    · have logs : m.log2 + 1 ≤ n.log2 := by
        unfold spare at longer
        omega
      omega
    · have mantissas := shiftLeft_lt_shiftLeft (spare m) below
      have logs : m.log2 ≤ n.log2 := by
        have bound' := log2_lt_of_lt_wholeBound (Nat.lt_trans below small)
        unfold spare at same
        omega
      rw [same]
      omega
  · omega

theorem wholeBits_lt_signWeight {n : Nat} (small : n < wholeBound) :
    wholeBits n < signWeight := by
  rw [wholeBits, exponentWeight, signWeight]
  split
  · next pos =>
    have bounds := isFull_iff.mp (isFull_shifted pos small)
    have bound := log2_lt_of_lt_wholeBound small
    omega
  · decide

theorem rank_toFloat (small : n.toNat < wholeBound) : rank n.toFloat = wholeBits n.toNat := by
  rw [rank, toNat_toBits_toFloat small]
  exact if_pos (wholeBits_lt_signWeight small)

/-- The total order on whole numbers as doubles is theirs. -/
theorem atMost_toFloat (smalla : a.toNat < wholeBound) (smallb : b.toNat < wholeBound) :
    atMost a.toFloat b.toFloat = decide (a ≤ b) := by
  rw [atMost, rank_toFloat smalla, rank_toFloat smallb]
  refine decide_eq_decide.mpr ?_
  rw [UInt64.le_iff_toNat_le, Int.ofNat_le]
  constructor
  · intro le
    by_contra above
    exact Nat.not_lt.mpr le (wholeBits_lt_wholeBits (Nat.not_le.mp above) smalla)
  · intro le
    rcases le.lt_or_eq with below | same
    · exact (wholeBits_lt_wholeBits below smallb).le
    · rw [same]

/-- Of two positive whole numbers the quotient is a positive number, whatever it is rounded to. -/
theorem exists_unpack_div {x : Float} {m : Nat} (posm : 0 < m) (smallm : m < wholeBound)
    (unpacked : x.toModel.unpack = whole m) (pos : 0 < n) (small : n.toNat < wholeBound) :
    ∃ k e h, (x / n.toFloat).toModel.unpack = .finite .positive k e h := by
  have posn : 0 < n.toNat := UInt64.lt_iff_toNat_lt.mp pos
  obtain ⟨k, e, full, reach, quotient⟩ := exists_div_whole posm smallm posn small
  refine ⟨k, e, full.pos, ?_⟩
  show (Float.Model.pack (UnpackedFloat.div .binary64 x.toModel.unpack
    n.toFloat.toModel.unpack)).unpack = _
  rw [unpacked, unpack_toFloat small, quotient]
  exact unpack_pack_full .positive full reach

end Doubles

end InputGauge.Binary64
