import InputGauge.Extent.Report
import InputGauge.Proofs.Extent.Samples
import InputGauge.Proofs.Text.Parting

/-!
# From positions to the report

The report on the extent of some events, written out (`report_of_events`). Its rule carries the
extremes of the samples, and there is a rule just when both axes have samples.

The name of a device and the identity of a machine are free text, so a line of the rule is told
from them by where it stands. That there is no rule at all can be told by one letter: the text
before the rule and the hint in its place have no capital `S`.
-/

namespace InputGauge

namespace Capabilities

/-- The size of the device in words. -/
def sizeText : Option (Int × Int) → String
  | some (width, height) =>
    "Touchpad size as listed by the kernel: " ++ toString width ++ "x" ++ toString height ++ "mm\n"
  | none => "Touchpad has no resolution, size unknown\n"

theorem sizeLine_of_size {c : Capabilities} {size : Option (Int × Int)} (known : c.size = .ok size) :
    c.sizeLine = .ok (sizeText size) := by
  rw [sizeLine, known]
  cases size <;> rfl

theorem capitalS_not_mem_sizeText (size : Option (Int × Int)) : 'S' ∉ (sizeText size).toList := by
  have number (n : Int) : 'S' ∉ n.repr.toList :=
    Numeral.not_mem_repr (by decide) (by decide) n
  unfold sizeText
  split
  · simp [number]
  · simp

end Capabilities

namespace Extent

open Event

/-- The settings of an axis in a rule, as they are printed. -/
def settings (axis : String) (lower upper : Int32) (resolution : String) : String :=
  " EVDEV_ABS_" ++ axis ++ "=" ++ toString lower.toInt ++ ":" ++ toString upper.toInt ++ ":<" ++
    resolution ++ " resolution>\n"

/-- The measured widths, as they are printed before a rule. -/
def widthText (width height : Int) : String :=
  "Calculate resolution as:\n" ++
  "\tx axis: " ++ toString width ++ "/<width in mm>\n" ++
  "\ty axis: " ++ toString height ++ "/<height in mm>\n" ++
  "\n"

/-- A rule for some bounds, as it is printed. -/
def ruleText (left right top bottom : Int32) (key : String) (contacts : Prop)
    [Decidable contacts] : String :=
  widthText (right.toInt - left.toInt) (bottom.toInt - top.toInt) ++
  "Suggested udev rule:\n" ++
  ("# <Laptop model description goes here>\n" ++
    "evdev:" ++ key ++ "*\n" ++
    settings "00" left right "x" ++ settings "01" top bottom "y" ++
    if contacts then settings "35" left right "x" ++ settings "36" top bottom "y" else "")

theorem rule_eq (d : Extent) (c : Capabilities) (machine : String) :
    d.rule c machine =
      ruleText d.left d.right d.top d.bottom (c.matchKey machine)
        (c.contactX.isSome ∧ c.contactY.isSome) := by
  unfold rule ruleText widthText ruleLines Capabilities.hasContacts
  simp only [Bool.and_eq_true, String.append_assoc]
  rfl

theorem capitalS_not_mem_retryHint : 'S' ∉ retryHint.toList := by
  unfold retryHint
  simp

/-- Whether a text suggests a rule. -/
def Suggests (text : String) : Prop :=
  ∃ before after, text = before ++ "Suggested udev rule:\n" ++ after

theorem capitalS_mem_of_suggests {text : String} (h : Suggests text) : 'S' ∈ text.toList := by
  obtain ⟨before, after, rfl⟩ := h
  simp

theorem suggests_append (size before after : String) :
    Suggests (size ++ (before ++ "Suggested udev rule:\n" ++ after)) :=
  ⟨size ++ before, after, by simp only [String.append_assoc]⟩

/-- A report on no positions on some axis is the size and the hint, and suggests no rule. -/
theorem not_suggests_hint (size : Option (Int × Int)) :
    ¬ Suggests (Capabilities.sizeText size ++ retryHint) := by
  intro suggests
  have mem := capitalS_mem_of_suggests suggests
  rw [String.toList_append, List.mem_append] at mem
  exact mem.elim (Capabilities.capitalS_not_mem_sizeText size) capitalS_not_mem_retryHint

end Extent

namespace ExtentGauge

open Event Extent

/-- After any events, a gauge of extents has the smallest and the largest of the horizontal and of
the vertical positions, and tells for each axis whether there was one. The report on it suggests a
rule just when there was one on both axes. The rule has the distances of these extremes, which fit
32 bits, and the extremes themselves, once more for the axes of contacts if the device has both.
Without a position on some axis there is the hint and nothing else. -/
theorem report_of_events (events : List Event) (c : Capabilities) (machine : String)
    {size : Option (Int × Int)} (known : c.size = .ok size) :
    let d := (Gauge.observeAll start events).extent
    let left := least (samplesX events)
    let right := greatest (samplesX events)
    let top := least (samplesY events)
    let bottom := greatest (samplesY events)
    d = { left, right, top, bottom } ∧
    (d.hasX = true ↔ samplesX events ≠ []) ∧ (d.hasY = true ↔ samplesY events ≠ []) ∧
    (samplesX events ≠ [] → 0 ≤ d.width ∧ d.width ≤ 4294967295) ∧
    (samplesY events ≠ [] → 0 ≤ d.height ∧ d.height ≤ 4294967295) ∧
    ∃ text, d.report c machine = .ok text ∧
      (Suggests text ↔ samplesX events ≠ [] ∧ samplesY events ≠ []) ∧
      text = Capabilities.sizeText size ++
        if samplesX events ≠ [] ∧ samplesY events ≠ [] then
          ruleText left right top bottom (c.matchKey machine)
            (c.contactX.isSome ∧ c.contactY.isSome)
        else retryHint := by
  intro d left right top bottom
  have extent : d = { left, right, top, bottom } := extent_observeAll events
  have hasX : d.hasX = true ↔ samplesX events ≠ [] := by
    rw [extent, Extent.hasX, decide_eq_true_iff]
    exact bounds_ordered_iff _
  have hasY : d.hasY = true ↔ samplesY events ≠ [] := by
    rw [extent, Extent.hasY, decide_eq_true_iff]
    exact bounds_ordered_iff _
  refine ⟨extent, hasX, hasY, fun some => ?_, fun some => ?_, _, ?_, ?_, rfl⟩
  · rw [extent]
    exact distance_bounds ((bounds_ordered_iff _).mpr some)
  · rw [extent]
    exact distance_bounds ((bounds_ordered_iff _).mpr some)
  · rw [Extent.report, Capabilities.sizeLine_of_size known, rule_eq]
    simp only [Bool.and_eq_true, hasX, hasY]
    rw [extent]
    rfl
  · split
    · next both => exact iff_of_true (suggests_append _ _ _) both
    · next missing => exact iff_of_false (not_suggests_hint size) missing

/-- A touchpad of 110 by 66 millimetres. -/
def touchpad : Capabilities :=
  { name := "Pad", bus := .other 24, vendor := 2, product := 7
    x := some ⟨1266, 5676, 40⟩, y := some ⟨1096, 4758, 55⟩, contactX := some ⟨0, 1, 0⟩
    contactY := none }

/-- One horizontal position at the lowest number, and one vertical position, are enough. -/
theorem report_of_events_lowest :
    touchpad.size = .ok (some (110, 66)) ∧
      ∃ text, (Gauge.observeAll start
          [⟨.absolute, 0x35, -2147483648, 0⟩, ⟨.absolute, 0x01, 7, 0⟩]).extent.report touchpad "" =
            .ok text ∧ Suggests text := by
  have known : touchpad.size = .ok (some (110, 66)) := rfl
  obtain ⟨-, -, -, -, -, text, report, suggests, -⟩ := report_of_events
    [⟨.absolute, 0x35, -2147483648, 0⟩, ⟨.absolute, 0x01, 7, 0⟩] touchpad "" known
  exact ⟨known, text, report, suggests.mpr ⟨by decide, by decide⟩⟩

end ExtentGauge

end InputGauge
