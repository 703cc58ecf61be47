import InputGauge.Text.Numeral

/-!
# Numbers in decimal

What a whole number looks like when it is written: digits, and a `-` if it is negative. And what
is read as a number: digits after an optional sign. `Denotes` says which numeral stands for which
number; those that are read are the ones that stand for a number in range. A number that is written
stands for itself (`denotes_repr`). On one side of zero a number farther from it is not shorter
(`length_repr_le_of_farther`).
-/

namespace InputGauge.Numeral

theorem isDigit_of_mem_repr {n : Nat} {c : Char} (h : c ∈ n.repr.toList) : c.isDigit := by
  rw [Nat.toList_repr] at h
  exact Nat.isDigit_of_mem_toDigits (by decide) (Nat.le_refl 10) h

theorem eq_dash_or_isDigit_of_mem_repr {n : Int} {c : Char} (h : c ∈ n.repr.toList) :
    c = '-' ∨ c.isDigit := by
  rw [Int.repr_eq_if] at h
  split at h
  · exact .inr (isDigit_of_mem_repr h)
  · rw [String.toList_append, List.mem_append] at h
    rcases h with sign | digit
    · exact .inl (List.mem_singleton.mp sign)
    · exact .inr (isDigit_of_mem_repr digit)

/-! ## Numerals that are read -/

/-- One or more digits. -/
def IsDigits (cs : List Char) : Prop := cs ≠ [] ∧ ∀ c ∈ cs, c.isDigit

/-- The number that a numeral stands for. -/
inductive Denotes : List Char → Int → Prop where
  | plain {cs} : IsDigits cs → Denotes cs (Nat.ofDigitChars 10 cs 0)
  | plus {cs} : IsDigits cs → Denotes ('+' :: cs) (Nat.ofDigitChars 10 cs 0)
  | minus {cs} : IsDigits cs → Denotes ('-' :: cs) (-(Nat.ofDigitChars 10 cs 0 : Int))

theorem digits?_eq_some_iff {cs : List Char} {n : Nat} :
    digits? cs = some n ↔ IsDigits cs ∧ Nat.ofDigitChars 10 cs 0 = n := by
  simp [digits?, IsDigits]

theorem not_isDigits_sign {sign : Char} (cs : List Char) (h : sign.isDigit = false) :
    ¬ IsDigits (sign :: cs) := by
  intro digits
  have digit := digits.2 sign (List.mem_cons_self ..)
  rw [h] at digit
  cases digit

theorem unsigned?_eq_some_iff {cs : List Char} {n : Nat} :
    unsigned? cs = some n ↔
      ∃ ds, (cs = ds ∨ cs = '+' :: ds) ∧ IsDigits ds ∧ Nat.ofDigitChars 10 ds 0 = n := by
  constructor
  · intro h
    unfold unsigned? at h
    split at h
    · exact ⟨_, .inr rfl, digits?_eq_some_iff.1 h⟩
    · exact ⟨_, .inl rfl, digits?_eq_some_iff.1 h⟩
  · rintro ⟨ds, rfl | rfl, read⟩
    · unfold unsigned?
      split
      · exact absurd read.1 (not_isDigits_sign _ rfl)
      · exact digits?_eq_some_iff.2 read
    · exact digits?_eq_some_iff.2 read

/-- The number that digits after an optional `+` stand for. -/
def Counts (cs : List Char) (n : Nat) : Prop :=
  ∃ ds, (cs = ds ∨ cs = '+' :: ds) ∧ IsDigits ds ∧ Nat.ofDigitChars 10 ds 0 = n

/-- The characters of such a numeral. -/
def isCounting (c : Char) : Bool := c == '+' || c.isDigit

theorem Counts.isCounting_of_mem {cs : List Char} {n : Nat} (counts : Counts cs n) {c : Char}
    (mem : c ∈ cs) : isCounting c := by
  obtain ⟨ds, spelled, digits, _⟩ := counts
  have digit (mem : c ∈ ds) : isCounting c := by
    rw [isCounting, digits.2 c mem, Bool.or_true]
  rcases spelled with rfl | rfl
  · exact digit mem
  · rcases List.mem_cons.1 mem with rfl | mem
    · rfl
    · exact digit mem

theorem Counts.ne_nil {cs : List Char} {n : Nat} (counts : Counts cs n) : cs ≠ [] := by
  obtain ⟨ds, rfl | rfl, digits, _⟩ := counts
  · exact digits.1
  · exact List.cons_ne_nil _ _

/-- The numerals of 16 bits are those that stand for a number of 16 bits. -/
theorem uint16?_eq_some_iff {s : String} {n : UInt16} :
    uint16? s = some n ↔ Counts s.toList n.toNat := by
  rw [uint16?, Option.bind_eq_some_iff]
  constructor
  · rintro ⟨k, read, within⟩
    split at within
    · next fits =>
      cases within
      rw [UInt16.toNat_ofNat_of_lt' fits]
      exact unsigned?_eq_some_iff.1 read
    · cases within
  · intro counts
    refine ⟨n.toNat, unsigned?_eq_some_iff.2 counts, ?_⟩
    rw [if_pos n.toNat_lt, UInt16.ofNat_toNat]

theorem Counts.unique {cs : List Char} {m n : Nat} (h : Counts cs m) (h' : Counts cs n) :
    m = n :=
  Option.some.inj ((unsigned?_eq_some_iff.2 h).symm.trans (unsigned?_eq_some_iff.2 h'))

theorem signed?_dash (cs : List Char) :
    signed? ('-' :: cs) = (digits? cs).map fun n : Nat => -(n : Int) := by
  cases h : digits? cs <;> simp [signed?, h]

theorem signed?_of_not_dash {cs : List Char} (h : ∀ ds, cs ≠ '-' :: ds) :
    signed? cs = (unsigned? cs).map fun n : Nat => (n : Int) := by
  unfold signed?
  split
  · exact absurd rfl (h _)
  · cases h : unsigned? cs <;> simp

theorem signed?_eq_some_iff {cs : List Char} {n : Int} : signed? cs = some n ↔ Denotes cs n := by
  constructor
  · intro h
    by_cases negative : ∃ ds, cs = '-' :: ds
    · obtain ⟨ds, rfl⟩ := negative
      rw [signed?_dash] at h
      obtain ⟨k, read, rfl⟩ := Option.map_eq_some_iff.1 h
      obtain ⟨digits, rfl⟩ := digits?_eq_some_iff.1 read
      exact .minus digits
    · rw [signed?_of_not_dash (not_exists.1 negative)] at h
      obtain ⟨k, read, rfl⟩ := Option.map_eq_some_iff.1 h
      obtain ⟨ds, rfl | rfl, digits, rfl⟩ := unsigned?_eq_some_iff.1 read
      · exact .plain digits
      · exact .plus digits
  · intro h
    cases h with
    | minus digits => rw [signed?_dash, digits?_eq_some_iff.2 ⟨digits, rfl⟩, Option.map_some]
    | plus digits =>
      rw [signed?_of_not_dash (by simp), unsigned?_eq_some_iff.2 ⟨_, .inr rfl, digits, rfl⟩,
        Option.map_some]
    | plain digits =>
      rw [signed?_of_not_dash, unsigned?_eq_some_iff.2 ⟨_, .inl rfl, digits, rfl⟩, Option.map_some]
      rintro ds rfl
      exact not_isDigits_sign ds rfl digits

/-- A number that is written can be read back. -/
theorem denotes_repr (n : Int) : Denotes n.repr.toList n := by
  have digits (k : Nat) : IsDigits k.repr.toList :=
    ⟨by rw [Nat.toList_repr]; exact Nat.toDigits_ne_nil, fun _ => isDigit_of_mem_repr⟩
  have value (k : Nat) : Nat.ofDigitChars 10 k.repr.toList 0 = k := by
    rw [Nat.toList_repr, Nat.ofDigitChars_ten_toDigits]
  rw [Int.repr_eq_if]
  split
  · next positive =>
    have read := Denotes.plain (digits n.toNat)
    rwa [value, Int.toNat_of_nonneg positive] at read
  · next negative =>
    have read := Denotes.minus (digits (-n).toNat)
    rw [value, Int.toNat_of_nonneg (by omega), Int.neg_neg] at read
    rw [String.toList_append]
    exact read

/-- Different numbers are written differently. -/
theorem eq_of_repr_eq {m n : Int} (h : m.repr = n.repr) : m = n := by
  have read := signed?_eq_some_iff.2 (denotes_repr m)
  rw [h, signed?_eq_some_iff.2 (denotes_repr n)] at read
  exact (Option.some.inj read).symm

/-- The numerals of 32 bits are those that stand for a number of 32 bits. -/
theorem int32?_eq_some_iff {s : String} {n : Int32} :
    int32? s = some n ↔ Denotes s.toList n.toInt := by
  rw [int32?, Option.bind_eq_some_iff]
  constructor
  · rintro ⟨k, read, within⟩
    split at within
    · next bounds =>
      cases within
      rw [Int32.toInt_ofInt_of_le bounds.1 (Int.lt_add_one_of_le bounds.2)]
      exact signed?_eq_some_iff.1 read
    · cases within
  · intro h
    refine ⟨n.toInt, signed?_eq_some_iff.2 h, ?_⟩
    rw [if_pos ⟨n.minValue_le_toInt, n.toInt_le⟩, Int32.ofInt_toInt]

/-! ## How long a number is -/

theorem length_repr_le_length_repr {m n : Nat} (le : m ≤ n) : m.repr.length ≤ n.repr.length := by
  have pos : 0 < n.repr.length := Nat.length_repr_pos
  have fits : n < 10 ^ n.repr.length := (Nat.length_repr_le_iff pos).mp (Nat.le_refl _)
  exact (Nat.length_repr_le_iff pos).mpr (Nat.lt_of_le_of_lt le fits)

theorem length_repr_of_nonneg {n : Int} (nonneg : 0 ≤ n) :
    n.repr.length = n.natAbs.repr.length := by
  obtain ⟨k, rfl⟩ := Int.eq_ofNat_of_zero_le nonneg
  rfl

theorem length_repr_of_neg {n : Int} (negative : n < 0) :
    n.repr.length = n.natAbs.repr.length + 1 := by
  obtain ⟨k, rfl⟩ := Int.eq_negSucc_of_lt_zero negative
  show ("-" ++ (k + 1).repr).length = _
  rw [String.length_append]
  exact Nat.add_comm 1 _

/-- A number farther from zero, on the same side of it, is not shorter. -/
theorem length_repr_le_of_farther {m n : Int} (farther : 0 ≤ m ∧ m ≤ n ∨ n ≤ m ∧ m ≤ 0) :
    m.repr.length ≤ n.repr.length := by
  have digits : m.natAbs.repr.length ≤ n.natAbs.repr.length :=
    length_repr_le_length_repr (by omega)
  rcases Int.lt_or_le m 0 with negative | nonneg
  · rw [length_repr_of_neg negative, length_repr_of_neg (by omega)]
    exact Nat.succ_le_succ digits
  · rw [length_repr_of_nonneg nonneg]
    rcases Int.lt_or_le n 0 with negative' | nonneg'
    · rw [length_repr_of_neg negative']
      exact Nat.le_succ_of_le digits
    · rwa [length_repr_of_nonneg nonneg']

theorem length_column (width : Nat) (s : String) :
    (column width s).length = max width s.length := by
  rw [column, String.length_ofList, List.length_leftpad, String.length_toList]

theorem mem_column {width : Nat} {s : String} {c : Char} (mem : c ∈ (column width s).toList) :
    c = ' ' ∨ c ∈ s.toList := by
  rw [column, String.toList_ofList, List.leftpad, List.mem_append] at mem
  exact mem.imp_left List.eq_of_mem_replicate

end InputGauge.Numeral
