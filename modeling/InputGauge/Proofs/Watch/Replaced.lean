import InputGauge.Proofs.Extent.Width
import InputGauge.Proofs.Motion.Width

/-!
# Which redraws leave something of the line before

A line takes the place of the one before it just when its numbers take as much room
(`redraws_replace_iff`). The display of an extent settles once the extent spans zero, and that of
motion is settled between two pauses as long as the distance fits its column. But the first samples
make the display of an extent much shorter, and the way back the display of a long distance, and
then the end of the old line stays (`redraws_leave_rest`).
-/

namespace InputGauge.Watch

open Event Extent History MotionGauge Terminal

/-- The text that a drain sends on behalf of a new gauge is the lines of the syncs, one typed over
the other. Each takes the place of the one before it just when it is not shorter, which is when its
numbers take no fewer characters. They take no fewer after an extent that spans zero, and until a
pause ends, as long as times are below 2⁵³ and the distance fits its column. -/
theorem redraws_replace_iff {σ : Type} [EventSource σ] {s s' : σ} {events : List Event}
    {ended : Except Fault Unit} (yields : DrainYields s events ended s') :
    ((live ExtentGauge s).drain.2.terminal.text? =
        some (redrawnText (Gauge.lines ExtentGauge.start events)) ∧
      (Replaces (Gauge.lines ExtentGauge.start events) ↔
        ∀ pair ∈ successive (Gauge.lines ExtentGauge.start events),
          pair.1.length ≤ pair.2.length) ∧
      (Replaces (Gauge.lines ExtentGauge.start events) ↔
        ∀ pair ∈ successive (syncs [] events),
          (ofEvents pair.1.1).shownLength ≤ (ofEvents pair.2.1).shownLength) ∧
      ∀ pair ∈ successive (syncs [] events), (ofEvents pair.1.1).SpansZero →
        (ofEvents pair.1.1).shownLength ≤ (ofEvents pair.2.1).shownLength) ∧
    ((live MotionGauge s).drain.2.terminal.text? =
        some (redrawnText (Gauge.lines MotionGauge.start events)) ∧
      (Replaces (Gauge.lines MotionGauge.start events) ↔
        ∀ pair ∈ successive (Gauge.lines MotionGauge.start events),
          pair.1.length ≤ pair.2.length) ∧
      (Replaces (Gauge.lines MotionGauge.start events) ↔
        ∀ pair ∈ successive (syncs [] events),
          (shownMotion pair.1).shownLength ≤ (shownMotion pair.2).shownLength) ∧
      ((∀ time ∈ syncTimes events, time.toNat < Binary64.wholeBound) →
        ∀ pair ∈ successive (syncs [] events), ¬ EndsPause pair.2.1 pair.2.2 →
          (shownMotion pair.1).distance.toNat < 100000000 →
          (shownMotion pair.1).shownLength ≤ (shownMotion pair.2).shownLength)) := by
  have extent := ExtentGauge.return_not_mem_lines events
  have motion := MotionGauge.return_not_mem_lines events
  refine ⟨⟨text?_live yields, replaces_iff extent, ?_, fun pair mem => ?_⟩,
    text?_live yields, replaces_iff motion, ?_, ?_⟩
  · exact replaces_iff_of_lengths extent (ExtentGauge.lengths_lines events)
  · exact ExtentGauge.shownLength_le_of_spansZero mem
  · exact replaces_iff_of_lengths motion (MotionGauge.lengths_lines events)
  · exact fun exactly pair mem => MotionGauge.shownLength_le_of_goesOn exactly mem

/-- Touches on both sides of zero and a short way, shown, and then a touch farther out and the way
back. -/
def settledRun : List Event :=
  [⟨.absolute, positionX, -1, 0⟩, ⟨.absolute, positionX, 1, 0⟩, ⟨.absolute, positionY, -1, 0⟩,
    ⟨.absolute, positionY, 1, 0⟩, ⟨.relative, motionX, 70, 0⟩, ⟨.sync, 0, 0, 8000⟩,
    ⟨.absolute, positionX, 10, 8000⟩, ⟨.relative, motionX, -70, 8000⟩, ⟨.sync, 0, 0, 16000⟩]

theorem redraws_replace_iff_settledRun :
    DrainYields (Script.ofEvents settledRun) settledRun (.ok ()) (Script.ofEvents []) ∧
      Replaces (Gauge.lines ExtentGauge.start settledRun) ∧
      Replaces (Gauge.lines MotionGauge.start settledRun) :=
  have yields := Script.yields_ofEvents settledRun
  have exactly : Exact (syncTimes settledRun) := by decide +kernel
  have ⟨⟨_, _, extent, spans⟩, _, _, motion, goesOn⟩ := redraws_replace_iff yields
  ⟨yields, extent.mpr fun pair mem => spans pair mem (by revert pair; decide +kernel),
    motion.mpr fun pair mem => goesOn exactly pair mem (by revert pair; decide +kernel)
      (by revert pair; decide +kernel)⟩

/-- A display before the first touch and after it. -/
def firstTouch : List Event :=
  [⟨.sync, 0, 0, 0⟩, ⟨.absolute, positionX, 5, 0⟩, ⟨.absolute, positionY, 6, 0⟩, ⟨.sync, 0, 0, 0⟩]

def firstTouchLines : List String :=
  ["Touchpad sends:\tx [2147483647..-2147483648], y [2147483647..-2147483648] |",
    "Touchpad sends:\tx [5..5], y [6..6] /"]

/-- A long way, shown, and the way back. -/
def thereAndBack : List Event :=
  [⟨.relative, motionX, 2147483647, 0⟩, ⟨.sync, 0, 0, 0⟩, ⟨.relative, motionX, -2147483647, 0⟩,
    ⟨.sync, 0, 0, 0⟩]

def thereAndBackLines : List String :=
  ["Covered distance in device units: 2147483647 at frequency 0.0Hz \t|",
    "Covered distance in device units:        0 at frequency 0.0Hz \t/"]

/-- The first touch makes the display of an extent shorter, and the way back that of a distance.
What the new line does not reach stays behind it. -/
theorem redraws_leave_rest :
    ((live ExtentGauge (Script.ofEvents firstTouch)).drain.2.terminal.text? =
        some (redrawnText firstTouchLines) ∧
      ¬ (∀ pair ∈ successive firstTouchLines, pair.1.length ≤ pair.2.length) ∧
      String.ofList (shown firstTouchLines) =
        "Touchpad sends:\tx [5..5], y [6..6] /" ++ "483648], y [2147483647..-2147483648] |") ∧
    (live MotionGauge (Script.ofEvents thereAndBack)).drain.2.terminal.text? =
        some (redrawnText thereAndBackLines) ∧
      ¬ (∀ pair ∈ successive thereAndBackLines, pair.1.length ≤ pair.2.length) ∧
      String.ofList (shown thereAndBackLines) =
        "Covered distance in device units:        0 at frequency 0.0Hz \t/" ++ "\t|" := by
  have touched := Script.yields_ofEvents firstTouch
  have moved := Script.yields_ofEvents thereAndBack
  refine ⟨⟨?_, by decide +kernel, by decide +kernel⟩, ?_, by decide +kernel, by decide +kernel⟩
  · exact (text?_live touched).trans (congrArg (some ∘ redrawnText) (by decide +kernel))
  · exact (text?_live moved).trans (congrArg (some ∘ redrawnText) (by decide +kernel))

end InputGauge.Watch
