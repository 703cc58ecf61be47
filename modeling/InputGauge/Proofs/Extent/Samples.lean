import InputGauge.Extent.Basic

/-!
# The extent of some samples

After any events the bounds of an axis are the smallest and the largest of its samples, and without
a sample they are the wrong way round (`extent_observeAll`). So the order of the bounds tells
whether there was one, also if all samples are the largest number or all are the smallest
(`bounds_ordered_iff`), and where there was one, their distance is never negative and fits 32 bits
(`distance_bounds`).
-/

namespace InputGauge

namespace Event

/-- The positions that some events report with either of two codes. -/
def positions (pointer contact : UInt16) (events : List Event) : List Int32 :=
  events.filterMap fun e =>
    if e.kind = .absolute ∧ (e.code = pointer ∨ e.code = contact) then some e.value else none

/-- The horizontal and the vertical positions among some events. -/
def samplesX (events : List Event) : List Int32 := positions positionX contactX events
def samplesY (events : List Event) : List Int32 := positions positionY contactY events

theorem positions_append {pointer contact : UInt16} (a b : List Event) :
    positions pointer contact (a ++ b) =
      positions pointer contact a ++ positions pointer contact b :=
  List.filterMap_append

end Event

namespace Extent

open Event

/-- The smallest and the largest of some samples; without samples, the wrong way round. -/
def least (samples : List Int32) : Int32 := samples.min?.getD Int32.maxValue
def greatest (samples : List Int32) : Int32 := samples.max?.getD Int32.minValue

theorem min_eq (a b : Int32) : min a b = if a ≤ b then a else b := rfl

theorem max_eq (a b : Int32) : max a b = if a ≤ b then b else a := rfl

instance : Std.LawfulOrderMax Int32 where
  max_eq_or a b := by
    rw [max_eq]
    split
    · exact .inr rfl
    · exact .inl rfl
  max_le_iff a b c := by
    rw [max_eq]
    split
    · next h => exact ⟨fun bc => ⟨Int32.le_trans h bc, bc⟩, And.right⟩
    · next h =>
      have ba : b ≤ a := (Int32.le_total a b).resolve_left h
      exact ⟨fun ac => ⟨ac, Int32.le_trans ba ac⟩, And.left⟩

theorem foldl_min (samples : List Int32) :
    samples.foldl min Int32.maxValue = least samples := by
  rw [List.foldl_min, min_eq]
  split
  · next past => exact Int32.le_antisymm past (Int32.le_maxValue _)
  · rfl

theorem foldl_max (samples : List Int32) :
    samples.foldl max Int32.minValue = greatest samples := by
  rw [List.foldl_max, max_eq, if_pos (Int32.minValue_le _), greatest]

theorem least_le {samples : List Int32} {v : Int32} (mem : v ∈ samples) : least samples ≤ v := by
  cases h : samples.min? with
  | none => simp_all
  | some a =>
    rw [least, h]
    exact (List.min?_eq_some_iff.mp h).2 v mem

theorem le_greatest {samples : List Int32} {v : Int32} (mem : v ∈ samples) :
    v ≤ greatest samples := by
  cases h : samples.max? with
  | none => simp_all
  | some a =>
    rw [greatest, h]
    exact (List.max?_eq_some_iff.mp h).2 v mem

/-- The order of the bounds tells whether there was a sample. -/
theorem bounds_ordered_iff (samples : List Int32) :
    least samples ≤ greatest samples ↔ samples ≠ [] := by
  constructor
  · rintro ordered rfl
    exact absurd ordered (by decide)
  · intro some
    obtain ⟨v, rest, rfl⟩ := List.exists_cons_of_ne_nil some
    exact Int32.le_trans (least_le List.mem_cons_self) (le_greatest List.mem_cons_self)

theorem distance_bounds {lower upper : Int32} (ordered : lower ≤ upper) :
    0 ≤ upper.toInt - lower.toInt ∧ upper.toInt - lower.toInt ≤ 4294967295 := by
  have := Int32.le_iff_toInt_le.mp ordered
  have := lower.le_toInt
  have := upper.toInt_lt
  omega

end Extent

namespace ExtentGauge

open Event

theorem extent_observe (g : ExtentGauge) (e : Event) :
    (g.observe e).1.extent =
      { left := (samplesX [e]).foldl min g.extent.left
        right := (samplesX [e]).foldl max g.extent.right
        top := (samplesY [e]).foldl min g.extent.top
        bottom := (samplesY [e]).foldl max g.extent.bottom } := by
  unfold observe
  split
  · next kind => simp [samplesX, samplesY, positions, kind]
  · next kind =>
    unfold sample
    by_cases x : e.code = positionX ∨ e.code = contactX
    · have notY : ¬ (e.code = positionY ∨ e.code = contactY) := by
        rcases x with code | code <;> rw [code] <;> decide
      simp [samplesX, samplesY, positions, kind, x, notY, Extent.addX]
    · by_cases y : e.code = positionY ∨ e.code = contactY
      · simp [samplesX, samplesY, positions, kind, x, y, Extent.addY]
      · simp [samplesX, samplesY, positions, kind, x, y]
  · next other =>
    have none (pointer contact : UInt16) : positions pointer contact [e] = [] := by
      have notAbsolute : e.kind ≠ .absolute := other
      simp [positions, notAbsolute]
    simp [samplesX, samplesY, none]

theorem extent_foldl (g : ExtentGauge) (events : List Event) :
    (Gauge.observeAll g events).extent =
      { left := (samplesX events).foldl min g.extent.left
        right := (samplesX events).foldl max g.extent.right
        top := (samplesY events).foldl min g.extent.top
        bottom := (samplesY events).foldl max g.extent.bottom } := by
  induction events generalizing g with
  | nil => rfl
  | cons e rest ih =>
    have x : samplesX (e :: rest) = samplesX [e] ++ samplesX rest := positions_append [e] rest
    have y : samplesY (e :: rest) = samplesY [e] ++ samplesY rest := positions_append [e] rest
    show (Gauge.observeAll (g.observe e).1 rest).extent = _
    rw [ih, extent_observe, x, y]
    simp only [List.foldl_append]

/-- After any events, the bounds are those of the samples. -/
theorem extent_observeAll (events : List Event) :
    (Gauge.observeAll start events).extent =
      { left := Extent.least (samplesX events), right := Extent.greatest (samplesX events)
        top := Extent.least (samplesY events), bottom := Extent.greatest (samplesY events) } := by
  rw [extent_foldl, ← Extent.foldl_min, ← Extent.foldl_min, ← Extent.foldl_max,
    ← Extent.foldl_max]
  rfl

end ExtentGauge

end InputGauge
