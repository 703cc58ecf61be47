import InputGauge.Text.Utf8

/-!
# What the decoder reads is what a text is written as

Bytes are read as a text exactly when they are the bytes of that text (`decode?_eq_some_iff`).

A character is one to four bytes. For each number of them, one lemma says which bytes with which
bounds are a character and which one it is (`encode_one` to `encode_four`), and another how the
decoder goes on after the first of them (`first_one` to `first_four`). The bounds are the same, so
the decoder reads a character off the front just where there is one.

The lossy reading of any bytes begins with `-` exactly if the bytes do (`head?_lossy_iff`).
-/

namespace InputGauge.Utf8

open String (utf8EncodeChar)

/-! ## The bytes of a character -/

section

variable {c : Char} {b₀ b₁ b₂ b₃ : UInt8}

theorem encode_one : utf8EncodeChar c = [b₀] ↔ b₀ < 0x80 ∧ c.toNat = b₀.toNat := by
  have lt₀ := b₀.toNat_lt
  have value : c.val.toNat = c.toNat := rfl
  simp only [utf8EncodeChar, UInt8.lt_iff_toNat_lt]
  repeat' split
  all_goals simp only [List.cons.injEq, ← UInt8.toNat_inj, UInt8.toNat_ofNat', UInt8.reduceToNat,
    reduceCtorEq, and_true, and_false, false_iff]
  all_goals omega

theorem encode_two : utf8EncodeChar c = [b₀, b₁] ↔
    (0xc2 ≤ b₀ ∧ b₀ < 0xe0) ∧ (0x80 ≤ b₁ ∧ b₁ ≤ 0xbf) ∧
      c.toNat = (b₀.toNat - 0xc0) * 64 + b₁.toNat % 64 := by
  have lt₀ := b₀.toNat_lt
  have lt₁ := b₁.toNat_lt
  have value : c.val.toNat = c.toNat := rfl
  simp only [utf8EncodeChar, UInt8.le_iff_toNat_le, UInt8.lt_iff_toNat_lt]
  repeat' split
  all_goals simp only [List.cons.injEq, ← UInt8.toNat_inj, UInt8.toNat_ofNat', UInt8.reduceToNat,
    reduceCtorEq, and_true, and_false, false_iff]
  all_goals omega

theorem encode_three : utf8EncodeChar c = [b₀, b₁, b₂] ↔
    (0xe0 ≤ b₀ ∧ b₀ < 0xf0) ∧
      ((if b₀ = 0xe0 then 0xa0 else 0x80) ≤ b₁ ∧ b₁ ≤ if b₀ = 0xed then 0x9f else 0xbf) ∧
      (0x80 ≤ b₂ ∧ b₂ ≤ 0xbf) ∧
      c.toNat = ((b₀.toNat - 0xe0) * 64 + b₁.toNat % 64) * 64 + b₂.toNat % 64 := by
  have lt₀ := b₀.toNat_lt
  have lt₁ := b₁.toNat_lt
  have lt₂ := b₂.toNat_lt
  have value : c.val.toNat = c.toNat := rfl
  have valid := c.valid
  simp only [UInt32.isValidChar, Nat.isValidChar] at valid
  simp only [utf8EncodeChar, UInt8.le_iff_toNat_le, UInt8.lt_iff_toNat_lt, ← UInt8.toNat_inj,
    UInt8.reduceToNat, apply_ite UInt8.toNat]
  repeat' split
  all_goals simp only [List.cons.injEq, ← UInt8.toNat_inj, UInt8.toNat_ofNat',
    reduceCtorEq, and_true, and_false, false_iff]
  all_goals omega

theorem encode_four : utf8EncodeChar c = [b₀, b₁, b₂, b₃] ↔
    (0xf0 ≤ b₀ ∧ b₀ ≤ 0xf4) ∧
      ((if b₀ = 0xf0 then 0x90 else 0x80) ≤ b₁ ∧ b₁ ≤ if b₀ = 0xf4 then 0x8f else 0xbf) ∧
      (0x80 ≤ b₂ ∧ b₂ ≤ 0xbf) ∧ (0x80 ≤ b₃ ∧ b₃ ≤ 0xbf) ∧
      c.toNat = (((b₀.toNat - 0xf0) * 64 + b₁.toNat % 64) * 64 + b₂.toNat % 64) * 64 +
        b₃.toNat % 64 := by
  have lt₀ := b₀.toNat_lt
  have lt₁ := b₁.toNat_lt
  have lt₂ := b₂.toNat_lt
  have lt₃ := b₃.toNat_lt
  have value : c.val.toNat = c.toNat := rfl
  have valid := c.valid
  simp only [UInt32.isValidChar, Nat.isValidChar] at valid
  simp only [utf8EncodeChar, UInt8.le_iff_toNat_le, ← UInt8.toNat_inj, UInt8.reduceToNat,
    apply_ite UInt8.toNat]
  repeat' split
  all_goals simp only [List.cons.injEq, ← UInt8.toNat_inj, UInt8.toNat_ofNat',
    reduceCtorEq, and_true, and_false, false_iff]
  all_goals omega

end

/-! ## The first byte of a character -/

section

variable {b : UInt8}

theorem first_one (h : b < 0x80) : first b = ([.char (Char.ofNat b.toNat)], .boundary) := by
  simp [first, h]

theorem first_two (h : 0xc2 ≤ b ∧ b < 0xe0) :
    first b = ([], .inside 0 0x80 0xbf (b.toNat - 0xc0)) := by
  grind [first]

theorem first_three (h : 0xe0 ≤ b ∧ b < 0xf0) :
    first b = ([], .inside 1 (if b = 0xe0 then 0xa0 else 0x80) (if b = 0xed then 0x9f else 0xbf)
      (b.toNat - 0xe0)) := by
  by_cases lowest : b = 0xe0
  · subst lowest
    rfl
  by_cases surrogates : b = 0xed
  · subst surrogates
    rfl
  grind [first]

theorem first_four (h : 0xf0 ≤ b ∧ b ≤ 0xf4) :
    first b = ([], .inside 2 (if b = 0xf0 then 0x90 else 0x80) (if b = 0xf4 then 0x8f else 0xbf)
      (b.toNat - 0xf0)) := by
  by_cases lowest : b = 0xf0
  · subst lowest
    rfl
  grind [first]

/-- No character begins with any other byte. -/
theorem first_none (one : ¬ b < 0x80) (two : ¬ (0xc2 ≤ b ∧ b < 0xe0))
    (three : ¬ (0xe0 ≤ b ∧ b < 0xf0)) (four : ¬ (0xf0 ≤ b ∧ b ≤ 0xf4)) :
    first b = ([.illFormed], .boundary) := by
  grind [first]

end

/-! ## The characters after a phase -/

/-- What the bytes after a phase are read as, if they are well-formed. -/
def charsFrom (phase : Phase) (bytes : Bytes) : Option (List Char) :=
  (piecesFrom phase bytes).mapM Piece.char?

section

variable {b low high : UInt8} {bytes : Bytes} {more bits : Nat} {cs : List Char}

theorem piecesFrom_cons (phase : Phase) (b : UInt8) (bytes : Bytes) :
    piecesFrom phase (b :: bytes) = (step phase b).1 ++ piecesFrom (step phase b).2 bytes := by
  cases phase <;> rfl

theorem charsFrom_cons (phase : Phase) (b : UInt8) (bytes : Bytes) :
    charsFrom phase (b :: bytes) = ((step phase b).1.mapM Piece.char?).bind fun cs =>
      (charsFrom (step phase b).2 bytes).map (cs ++ ·) := by
  rw [charsFrom, piecesFrom_cons, List.mapM_append]
  cases h : (step phase b).1.mapM Piece.char? with
  | none => rfl
  | some cs => cases h' : charsFrom (step phase b).2 bytes <;> simp_all [charsFrom]

theorem charsFrom_one (h : b < 0x80) : charsFrom .boundary (b :: bytes) =
    (charsFrom .boundary bytes).map (Char.ofNat b.toNat :: ·) := by
  rw [charsFrom_cons, step, first_one h]
  rfl

theorem charsFrom_lead {phase : Phase} (h : first b = ([], phase)) :
    charsFrom .boundary (b :: bytes) = charsFrom phase bytes := by
  rw [charsFrom_cons, step, h]
  simp

theorem charsFrom_none (h : first b = ([.illFormed], .boundary)) :
    charsFrom .boundary (b :: bytes) = none := by
  rw [charsFrom_cons, step, h]
  rfl

theorem charsFrom_last (h : low ≤ b ∧ b ≤ high) :
    charsFrom (.inside 0 low high bits) (b :: bytes) =
      (charsFrom .boundary bytes).map (Char.ofNat (bits * 64 + b.toNat % 64) :: ·) := by
  rw [charsFrom_cons, step, if_pos h]
  rfl

theorem charsFrom_more (h : low ≤ b ∧ b ≤ high) :
    charsFrom (.inside (more + 1) low high bits) (b :: bytes) =
      charsFrom (.inside more 0x80 0xbf (bits * 64 + b.toNat % 64)) bytes := by
  rw [charsFrom_cons, step, if_pos h]
  simp

theorem charsFrom_outside (h : ¬ (low ≤ b ∧ b ≤ high)) :
    charsFrom (.inside more low high bits) (b :: bytes) = none := by
  rw [charsFrom_cons, step.eq_def]
  simp only [if_neg h]
  rfl

end

/-! ## Reading what is written -/

theorem charsFrom_encode_append (c : Char) (bytes : Bytes) :
    charsFrom .boundary (utf8EncodeChar c ++ bytes) =
      (charsFrom .boundary bytes).map (c :: ·) := by
  rcases Char.utf8Size_eq c with size | size | size | size
  · have shape := String.utf8EncodeChar_eq_singleton size
    obtain ⟨lead, value⟩ := encode_one.1 shape
    rw [shape, List.singleton_append, charsFrom_one lead, ← value, Char.ofNat_toNat]
  · have shape := String.utf8EncodeChar_eq_cons_cons size
    obtain ⟨lead, second, value⟩ := encode_two.1 shape
    rw [shape, List.cons_append, List.cons_append, List.nil_append,
      charsFrom_lead (first_two lead), charsFrom_last second, ← value, Char.ofNat_toNat]
  · have shape := String.utf8EncodeChar_eq_cons_cons_cons size
    obtain ⟨lead, second, third, value⟩ := encode_three.1 shape
    rw [shape, List.cons_append, List.cons_append, List.cons_append, List.nil_append,
      charsFrom_lead (first_three lead), charsFrom_more second, charsFrom_last third, ← value,
      Char.ofNat_toNat]
  · have shape := String.utf8EncodeChar_eq_cons_cons_cons_cons size
    obtain ⟨lead, second, third, fourth, value⟩ := encode_four.1 shape
    rw [shape, List.cons_append, List.cons_append, List.cons_append, List.cons_append,
      List.nil_append, charsFrom_lead (first_four lead), charsFrom_more second,
      charsFrom_more third, charsFrom_last fourth, ← value, Char.ofNat_toNat]

theorem charsFrom_encode (cs : List Char) :
    charsFrom .boundary (cs.flatMap utf8EncodeChar) = some cs := by
  induction cs with
  | nil => rfl
  | cons c cs ih => rw [List.flatMap_cons, charsFrom_encode_append, ih, Option.map_some]

/-! ## Writing what was read -/

section

variable {bytes : Bytes} {more bits : Nat} {low high : UInt8} {cs : List Char}

/-- Inside a character, the next byte is within its bounds. -/
theorem exists_of_charsFrom_inside (h : charsFrom (.inside more low high bits) bytes = some cs) :
    ∃ b rest, bytes = b :: rest ∧ (low ≤ b ∧ b ≤ high) := by
  cases bytes with
  | nil => cases h
  | cons b rest =>
    by_cases within : low ≤ b ∧ b ≤ high
    · exact ⟨b, rest, rfl, within⟩
    · rw [charsFrom_outside within] at h
      cases h

theorem toNat_ofNat {n : Nat} (h : n < 0xd800 ∨ 0xdfff < n ∧ n < 0x110000) :
    (Char.ofNat n).toNat = n := by
  have valid : n.isValidChar := h
  rw [Char.ofNat, dif_pos valid]
  rfl

/-- What is read begins with a character, whose bytes come first. -/
theorem exists_char_of_charsFrom {b : UInt8}
    (h : charsFrom .boundary (b :: bytes) = some cs) :
    ∃ c cs' rest, b :: bytes = utf8EncodeChar c ++ rest ∧
      charsFrom .boundary rest = some cs' ∧ cs = c :: cs' := by
  by_cases one : b < 0x80
  · rw [charsFrom_one one, Option.map_eq_some_iff] at h
    obtain ⟨cs', read, rfl⟩ := h
    have value := toNat_ofNat (.inl (show b.toNat < 0xd800 by have := b.toNat_lt; omega))
    exact ⟨_, cs', bytes, by rw [encode_one.2 ⟨one, value⟩]; rfl, read, rfl⟩
  by_cases two : 0xc2 ≤ b ∧ b < 0xe0
  · rw [charsFrom_lead (first_two two)] at h
    obtain ⟨b₁, rest, rfl, second⟩ := exists_of_charsFrom_inside h
    rw [charsFrom_last second, Option.map_eq_some_iff] at h
    obtain ⟨cs', read, rfl⟩ := h
    have value := toNat_ofNat (n := (b.toNat - 0xc0) * 64 + b₁.toNat % 64) (by
      have := UInt8.lt_iff_toNat_lt.1 two.2
      simp only [UInt8.reduceToNat] at this
      omega)
    exact ⟨_, cs', rest, by rw [encode_two.2 ⟨two, second, value⟩]; rfl, read, rfl⟩
  by_cases three : 0xe0 ≤ b ∧ b < 0xf0
  · rw [charsFrom_lead (first_three three)] at h
    obtain ⟨b₁, rest₁, rfl, second⟩ := exists_of_charsFrom_inside h
    rw [charsFrom_more second] at h
    obtain ⟨b₂, rest, rfl, third⟩ := exists_of_charsFrom_inside h
    rw [charsFrom_last third, Option.map_eq_some_iff] at h
    obtain ⟨cs', read, rfl⟩ := h
    have value := toNat_ofNat
      (n := ((b.toNat - 0xe0) * 64 + b₁.toNat % 64) * 64 + b₂.toNat % 64) (by
        have lt₁ := b₁.toNat_lt
        simp only [UInt8.le_iff_toNat_le, UInt8.lt_iff_toNat_lt, ← UInt8.toNat_inj,
          apply_ite UInt8.toNat, UInt8.reduceToNat] at three second
        obtain ⟨least, most⟩ := second
        split at least <;> split at most <;> omega)
    exact ⟨_, cs', rest, by rw [encode_three.2 ⟨three, second, third, value⟩]; rfl, read, rfl⟩
  by_cases four : 0xf0 ≤ b ∧ b ≤ 0xf4
  · rw [charsFrom_lead (first_four four)] at h
    obtain ⟨b₁, rest₁, rfl, second⟩ := exists_of_charsFrom_inside h
    rw [charsFrom_more second] at h
    obtain ⟨b₂, rest₂, rfl, third⟩ := exists_of_charsFrom_inside h
    rw [charsFrom_more third] at h
    obtain ⟨b₃, rest, rfl, fourth⟩ := exists_of_charsFrom_inside h
    rw [charsFrom_last fourth, Option.map_eq_some_iff] at h
    obtain ⟨cs', read, rfl⟩ := h
    have value := toNat_ofNat
      (n := (((b.toNat - 0xf0) * 64 + b₁.toNat % 64) * 64 + b₂.toNat % 64) * 64 +
        b₃.toNat % 64) (by
        have lt₁ := b₁.toNat_lt
        simp only [UInt8.le_iff_toNat_le, ← UInt8.toNat_inj, apply_ite UInt8.toNat,
          UInt8.reduceToNat] at four second
        obtain ⟨least, most⟩ := second
        split at least <;> split at most <;> omega)
    exact ⟨_, cs', rest, by rw [encode_four.2 ⟨four, second, third, fourth, value⟩]; rfl, read, rfl⟩
  · rw [charsFrom_none (first_none one two three four)] at h
    cases h

theorem flatMap_encode_of_charsFrom {bytes : Bytes} {cs : List Char}
    (h : charsFrom .boundary bytes = some cs) : cs.flatMap utf8EncodeChar = bytes := by
  cases bytes with
  | nil =>
    cases h
    rfl
  | cons b bytes =>
    obtain ⟨c, cs', rest, bytes_eq, read, rfl⟩ := exists_char_of_charsFrom h
    have shorter : rest.length < bytes.length + 1 := by
      have total := congrArg List.length bytes_eq
      have pos := c.utf8Size_pos
      simp only [List.length_cons, List.length_append, String.length_utf8EncodeChar] at total
      omega
    rw [bytes_eq, List.flatMap_cons, flatMap_encode_of_charsFrom read]
termination_by bytes.length

end

/-- Bytes are read as a text just when they are what the text is written as. -/
theorem decode?_eq_some_iff {bytes : Bytes} {s : String} :
    decode? bytes = some s ↔ Bytes.ofString s = bytes := by
  have written : Bytes.ofString s = s.toList.flatMap utf8EncodeChar := by
    rw [Bytes.ofString, String.toUTF8, ← String.utf8Encode_toList]
    exact List.toList_data_toByteArray
  have read : decode? bytes = (charsFrom .boundary bytes).map String.ofList := rfl
  rw [written, read, Option.map_eq_some_iff]
  constructor
  · rintro ⟨cs, h, rfl⟩
    rw [String.toList_ofList]
    exact flatMap_encode_of_charsFrom h
  · rintro rfl
    exact ⟨s.toList, charsFrom_encode _, String.ofList_toList⟩

/-! ## The first character of a lossy reading -/

/-- Whether the character that a phase is inside of is none of ASCII's, however it goes on. -/
def Phase.IsBeyond : Phase → Prop
  | .boundary => False
  | .inside more low high bits => 2 ≤ bits ∨ 1 ≤ more ∧ (1 ≤ bits ∨ 0x90 ≤ low ∧ high ≤ 0xbf)

theorem first_beyond {b : UInt8} (h : ¬ b < 0x80) :
    first b = ([.illFormed], .boundary) ∨ ∃ phase, first b = ([], phase) ∧ phase.IsBeyond := by
  by_cases two : 0xc2 ≤ b ∧ b < 0xe0
  · exact .inr ⟨_, first_two two, .inl (Nat.le_sub_of_add_le (UInt8.le_iff_toNat_le.1 two.1))⟩
  by_cases three : 0xe0 ≤ b ∧ b < 0xf0
  · refine .inr ⟨_, first_three three, .inr ⟨Nat.le_refl 1, ?_⟩⟩
    by_cases lowest : b = 0xe0
    · subst lowest
      exact .inr (by decide)
    · have above := UInt8.lt_of_le_of_ne three.1 (Ne.symm lowest)
      exact .inl (Nat.sub_pos_of_lt (UInt8.lt_iff_toNat_lt.1 above))
  by_cases four : 0xf0 ≤ b ∧ b ≤ 0xf4
  · refine .inr ⟨_, first_four four, .inr ⟨Nat.le_succ 1, ?_⟩⟩
    by_cases lowest : b = 0xf0
    · subst lowest
      exact .inr (by decide)
    · have above := UInt8.lt_of_le_of_ne four.1 (Ne.symm lowest)
      exact .inl (Nat.sub_pos_of_lt (UInt8.lt_iff_toNat_lt.1 above))
  · exact .inl (first_none h two three four)

/-- A number from 128 on is not the number of a `-`, nor is it read as one. -/
theorem ofNat_ne_dash {n : Nat} (large : 0x80 ≤ n) : Char.ofNat n ≠ '-' := by
  intro same
  by_cases valid : n.isValidChar
  · have value := toNat_ofNat valid
    rw [same] at value
    subst value
    exact absurd large (by decide)
  · rw [Char.ofNat, dif_neg valid] at same
    exact absurd same (by decide)

/-- By induction on the bytes: as long as the character goes on, the phase stays beyond ASCII. -/
theorem head?_shown_ne_dash {phase : Phase} (beyond : phase.IsBeyond) (bytes : Bytes) :
    ((piecesFrom phase bytes).map Piece.shown).head? ≠ some '-' := by
  induction bytes generalizing phase with
  | nil =>
    cases phase with
    | boundary => exact beyond.elim
    | inside more low high bits => exact ne_of_beq_false rfl
  | cons b rest ih =>
    cases phase with
    | boundary => exact beyond.elim
    | inside more low high bits =>
      rw [piecesFrom_cons, step.eq_def]
      by_cases within : low ≤ b ∧ b ≤ high
      · simp only [if_pos within]
        cases more with
        | zero =>
          -- The character ends with this byte, and its number is too large for a `-`.
          have large : 0x80 ≤ bits * 64 + b.toNat % 64 := by
            rcases beyond with two_le | ⟨none_more, _⟩
            · omega
            · exact absurd none_more (by decide)
          exact fun same => ofNat_ne_dash large (Option.some.inj same)
        | succ more =>
          -- It goes on, and from here on its payload alone is large enough.
          have two_le : 2 ≤ bits * 64 + b.toNat % 64 := by
            rcases beyond with two_le | ⟨_, one_le | ⟨low_le, high_le⟩⟩
            · omega
            · omega
            · have least := UInt8.le_iff_toNat_le.1 (UInt8.le_trans low_le within.1)
              have most := UInt8.le_iff_toNat_le.1 (UInt8.le_trans within.2 high_le)
              simp only [UInt8.reduceToNat] at least most
              omega
          exact ih (.inl two_le)
      · simp only [if_neg within]
        exact ne_of_beq_false rfl

/-- The lossy reading begins with `-` just if the bytes do. -/
theorem head?_lossy_iff {bytes : Bytes} :
    (lossy bytes).toList.head? = some '-' ↔ bytes.head? = some Bytes.dash := by
  rw [lossy, String.toList_ofList, pieces]
  cases bytes with
  | nil => simp [piecesFrom]
  | cons b rest =>
    rw [List.head?_cons, piecesFrom_cons, step]
    by_cases one : b < 0x80
    · have small := UInt8.lt_iff_toNat_lt.1 one
      rw [first_one one, List.map_append, List.map_cons, List.head?_append]
      constructor
      · intro same
        have read : Char.ofNat b.toNat = '-' := Option.some.inj same
        have value := toNat_ofNat (.inl (Nat.lt_trans small (by decide)))
        rw [read] at value
        have byte : b.toNat = Bytes.dash.toNat := value.symm
        rw [UInt8.toNat_inj.1 byte]
      · intro same
        rw [Option.some.inj same]
        rfl
    · have notDash : some b ≠ some Bytes.dash := by
        intro same
        rw [Option.some.inj same] at one
        exact one (by decide)
      rw [iff_false_right notDash]
      rcases first_beyond one with illFormed | ⟨phase, lead, beyond⟩
      · rw [illFormed]
        exact ne_of_beq_false rfl
      · rw [lead]
        exact head?_shown_ne_dash beyond rest

end InputGauge.Utf8
