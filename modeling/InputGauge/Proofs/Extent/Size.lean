import InputGauge.Proofs.Extent.Report

/-!
# When a size can be told

The length of an axis takes two steps in 32 bits, and either may leave them: the difference of the
bounds, and the quotient of the least number and `-1`. A length that comes out is exact
(`AxisRange.size_of_not_overflows`), but one that would fit is lost where the difference does not
(`AxisRange.size_eq_quotient_iff`). The report needs the size, so one such axis keeps all of it
away, the measured bounds included (`Extent.report_unless_overflows`).
-/

namespace InputGauge

namespace AxisRange

/-- The difference of the bounds. -/
def span (r : AxisRange) : Int := r.maximum.toInt - r.minimum.toInt

/-- Whether a step towards the length of an axis leaves 32 bits. -/
def Overflows (r : AxisRange) : Prop :=
  r.resolution ≠ 0 ∧
    (¬ fits r.span ∨ r.span = Int32.minValue.toInt ∧ r.resolution.toInt = -1)

instance (r : AxisRange) : Decidable r.Overflows := inferInstanceAs (Decidable (_ ∧ _))

theorem fits_iff {n : Int} : fits n ↔ -2147483648 ≤ n ∧ n ≤ 2147483647 := by
  rw [fits, Bool.and_eq_true, decide_eq_true_eq, decide_eq_true_eq]
  rfl

/-- Of numbers that fit, one quotient does not. -/
theorem fits_tdiv_iff {n k : Int} (within : fits n) (known : k ≠ 0) :
    fits (n.tdiv k) ↔ ¬ (n = Int32.minValue.toInt ∧ k = -1) := by
  have least : Int32.minValue.toInt = -2147483648 := rfl
  rw [fits_iff] at within ⊢
  rw [least]
  rcases Nat.lt_or_ge k.natAbs 2 with unit | large
  · obtain rfl | rfl : k = 1 ∨ k = -1 := by omega
    · rw [Int.tdiv_one]
      omega
    · rw [Int.tdiv_neg, Int.tdiv_one]
      omega
  · -- The quotient is at most half as large, and so fits.
    have half : (n.tdiv k).natAbs ≤ n.natAbs / 2 := by
      rw [Int.natAbs_tdiv]
      exact Nat.div_le_div_left large Nat.two_pos
    omega

section

variable {r : AxisRange}

theorem toInt_resolution_ne_zero (known : r.resolution ≠ 0) : r.resolution.toInt ≠ 0 :=
  fun zero => known (Int32.toInt_inj.1 zero)

theorem size_of_known (known : r.resolution ≠ 0) :
    r.size =
      if !fits r.span then .error .subtract
      else if !fits (r.span.tdiv r.resolution.toInt) then .error .divide
      else .ok (some (r.span.tdiv r.resolution.toInt)) :=
  if_neg known

/-- A length is the exact quotient, rounded toward zero, unless a step overflows. -/
theorem size_of_not_overflows (known : r.resolution ≠ 0) (exact : ¬ r.Overflows) :
    r.size = .ok (some (r.span.tdiv r.resolution.toInt)) := by
  have steps := not_or.1 fun step => exact ⟨known, step⟩
  have within : fits r.span := Decidable.not_not.1 steps.1
  have kept := (fits_tdiv_iff within (toInt_resolution_ne_zero known)).2 steps.2
  rw [size_of_known known, within, kept]
  rfl

/-- A step that overflows leaves no length. -/
theorem size_of_overflows (overflows : r.Overflows) : ∃ step, r.size = .error step := by
  obtain ⟨known, tooLong | least⟩ := overflows
  · rw [Bool.not_eq_true] at tooLong
    refine ⟨.subtract, ?_⟩
    rw [size_of_known known, tooLong]
    rfl
  · have within : fits r.span := least.1 ▸ rfl
    have lost : fits (r.span.tdiv r.resolution.toInt) = false := by
      rw [← Bool.not_eq_true, fits_tdiv_iff within (toInt_resolution_ne_zero known)]
      exact not_not_intro least
    refine ⟨.divide, ?_⟩
    rw [size_of_known known, within, lost]
    rfl

/-- What becomes of a length, by the resolution and by whether a step overflows. -/
theorem size_cases (r : AxisRange) :
    r.resolution = 0 ∧ r.size = .ok none ∨
      r.Overflows ∧ (∃ step, r.size = .error step) ∨
      (r.resolution ≠ 0 ∧ ¬ r.Overflows) ∧
        r.size = .ok (some (r.span.tdiv r.resolution.toInt)) := by
  by_cases known : r.resolution = 0
  · exact .inl ⟨known, if_pos known⟩
  by_cases overflows : r.Overflows
  · exact .inr (.inl ⟨overflows, size_of_overflows overflows⟩)
  · exact .inr (.inr ⟨⟨known, overflows⟩, size_of_not_overflows known overflows⟩)

theorem exists_size_eq_error_iff : (∃ step, r.size = .error step) ↔ r.Overflows := by
  rcases r.size_cases with ⟨unknown, size⟩ | ⟨overflows, lost⟩ | ⟨⟨_, exact⟩, size⟩
  · simp [size, Overflows, unknown]
  · exact iff_of_true lost overflows
  · simp [size, exact]

/-- A quotient that fits is the length just if the difference fits too. -/
theorem size_eq_quotient_iff (known : r.resolution ≠ 0)
    (kept : fits (r.span.tdiv r.resolution.toInt)) :
    r.size = .ok (some (r.span.tdiv r.resolution.toInt)) ↔ fits r.span := by
  rw [size_of_known known, kept]
  cases fits r.span <;> simp

end

end AxisRange

namespace Capabilities

variable {c : Capabilities}

/-- Whether a step towards the size of a device leaves 32 bits. The height is not computed if the
width is unknown. -/
def Overflows (c : Capabilities) : Prop :=
  ∃ x ∈ c.x, x.Overflows ∨ x.resolution ≠ 0 ∧ ∃ y ∈ c.y, y.Overflows

instance (c : Capabilities) : Decidable c.Overflows := inferInstanceAs (Decidable (∃ x ∈ c.x, _))

/-- The size is lost with the width, or with the height where there is a width. -/
theorem size_eq_error_iff {x : AxisRange} (horizontal : c.x = some x) {step : Overflow} :
    c.size = .error step ↔
      x.size = .error step ∨
        ∃ width, x.size = .ok (some width) ∧ ∃ y ∈ c.y, y.size = .error step := by
  simp only [size, horizontal]
  rcases x.size with first | _ | width
  · simp [Bind.bind, Except.bind]
  · simp [Bind.bind, Except.bind, pure, Except.pure]
  · rcases c.y with _ | y
    · simp [Bind.bind, Except.bind, pure, Except.pure]
    · cases height : y.size <;> simp [Bind.bind, Except.bind, pure, Except.pure, height]

/-- The size cannot be told if a step overflows that is taken for it. -/
theorem exists_size_eq_error_iff : (∃ step, c.size = .error step) ↔ c.Overflows := by
  cases horizontal : c.x with
  | none => simp [size, Overflows, horizontal]
  | some x =>
    have overflows : c.Overflows ↔
        x.Overflows ∨ x.resolution ≠ 0 ∧ ∃ y ∈ c.y, y.Overflows := by
      simp [Overflows, horizontal]
    simp only [overflows, size_eq_error_iff horizontal]
    rcases x.size_cases with ⟨unknown, width⟩ | ⟨first, step, lost⟩ | ⟨⟨known, exact⟩, width⟩
    · simp [width, unknown, AxisRange.Overflows]
    · exact iff_of_true ⟨step, .inl lost⟩ (.inl first)
    · have height : (∃ step, ∃ y ∈ c.y, y.size = .error step) ↔ ∃ y ∈ c.y, y.Overflows := by
        simp only [← AxisRange.exists_size_eq_error_iff]
        exact ⟨fun ⟨step, y, mem, lost⟩ => ⟨y, mem, step, lost⟩,
          fun ⟨y, mem, step, lost⟩ => ⟨step, y, mem, lost⟩⟩
      simpa [width, known, exact] using height

end Capabilities

namespace Extent

/-- Only the size can keep a report away. -/
theorem report_eq_error_iff (d : Extent) (c : Capabilities) (machine : String) (step : Overflow) :
    d.report c machine = .error step ↔ c.size = .error step := by
  cases known : c.size with
  | error lost =>
    have told : d.report c machine = .error lost := by
      rw [report, Capabilities.sizeLine, known]
      rfl
    rw [told, Except.error.injEq, Except.error.injEq]
  | ok size =>
    rw [report, Capabilities.sizeLine_of_size known]
    constructor
    · intro told
      cases told
    · intro told
      cases told

/-- A report is given unless a step towards the size overflows. A length that is given is the exact
quotient; where that fits, it is given just if the difference of the bounds fits too. -/
theorem report_unless_overflows (d : Extent) (c : Capabilities) (machine : String)
    (r : AxisRange) :
    ((∃ text, d.report c machine = .ok text) ↔ ¬ c.Overflows) ∧
    (r.resolution ≠ 0 → ¬ r.Overflows →
      r.size = .ok (some (r.span.tdiv r.resolution.toInt))) ∧
    (r.resolution ≠ 0 → AxisRange.fits (r.span.tdiv r.resolution.toInt) →
      (r.size = .ok (some (r.span.tdiv r.resolution.toInt)) ↔ AxisRange.fits r.span)) := by
  refine ⟨?_, AxisRange.size_of_not_overflows, AxisRange.size_eq_quotient_iff⟩
  rw [← Capabilities.exists_size_eq_error_iff]
  cases told : d.report c machine with
  | error step =>
    have lost := (d.report_eq_error_iff c machine step).1 told
    exact iff_of_false nofun fun exact => exact ⟨step, lost⟩
  | ok text =>
    refine iff_of_true ⟨text, rfl⟩ ?_
    rintro ⟨step, lost⟩
    rw [(d.report_eq_error_iff c machine step).2 lost] at told
    cases told

/-- The longest axis whose length is told, in millimetres that run the other way. -/
def longest : AxisRange := { minimum := -1, maximum := 2147483646, resolution := -1 }

/-- A touchpad with such an axis can be reported on. -/
theorem report_unless_overflows_longest :
    (∃ text, report ⟨1, 2, 3, 4⟩ { ExtentGauge.touchpad with x := some longest } "" = .ok text) ∧
      longest.size = .ok (some (-2147483647)) := by
  obtain ⟨reports, lengths, _⟩ := report_unless_overflows ⟨1, 2, 3, 4⟩
    { ExtentGauge.touchpad with x := some longest } "" longest
  exact ⟨reports.2 (by decide), lengths (by decide) (by decide)⟩

/-- A touchpad whose horizontal axis runs from zero to the least number, in millimetres that run
the other way. -/
def folded : Capabilities :=
  { ExtentGauge.touchpad with x := some { minimum := 0, maximum := -2147483648, resolution := -1 }, y := none }

/-- An axis with all numbers that there are. -/
def allNumbers : AxisRange :=
  { minimum := -2147483648, maximum := 2147483647, resolution := 1000 }

/-- There is no report on the one, and for the other a length that would fit is lost. -/
theorem report_folded :
    report ⟨1, 2, 3, 4⟩ folded "" = .error .divide ∧
      allNumbers.span.tdiv allNumbers.resolution.toInt = 4294967 ∧
      AxisRange.fits 4294967 ∧ allNumbers.size = .error .subtract :=
  ⟨(report_eq_error_iff _ _ _ _).2 rfl, rfl, rfl, rfl⟩

end Extent

end InputGauge
