import InputGauge.Proofs.Extent.Live
import InputGauge.Proofs.Watch.Row

/-!
# How wide the display of an extent is

A status line is as long as its words and its four numbers. A bound that moves away from zero takes
no fewer characters, and as samples come in, the lower bounds only fall and the upper ones only
rise. So once an extent reaches across zero both ways, no line is shorter than the one before it
(`shownLength_le_of_spansZero`). Until then a bound may move towards zero, and the line may lose
characters.
-/

namespace InputGauge

open Extent

namespace Extent

/-- The characters that the bounds take. -/
def shownLength (d : Extent) : Nat :=
  d.left.toInt.repr.length + d.right.toInt.repr.length + d.top.toInt.repr.length +
    d.bottom.toInt.repr.length

/-- The extent reaches from zero or below to zero or above, on both axes. -/
def SpansZero (d : Extent) : Prop := (d.left ≤ 0 ∧ 0 ≤ d.right) ∧ d.top ≤ 0 ∧ 0 ≤ d.bottom

instance (d : Extent) : Decidable d.SpansZero := inferInstanceAs (Decidable (_ ∧ _))

/-- An extent within another one. -/
def Within (d d' : Extent) : Prop :=
  (d'.left ≤ d.left ∧ d.right ≤ d'.right) ∧ d'.top ≤ d.top ∧ d.bottom ≤ d'.bottom

/-- An extent that spans zero is no wider in print than one that it is within. -/
theorem shownLength_le_of_within {d d' : Extent} (spans : d.SpansZero) (within : d.Within d') :
    d.shownLength ≤ d'.shownLength := by
  have lower {v v' : Int32} (below : v ≤ 0) (falls : v' ≤ v) :
      v.toInt.repr.length ≤ v'.toInt.repr.length :=
    Numeral.length_repr_le_of_farther
      (.inr ⟨Int32.le_iff_toInt_le.mp falls, Int32.le_iff_toInt_le.mp below⟩)
  have upper {v v' : Int32} (above : 0 ≤ v) (rises : v ≤ v') :
      v.toInt.repr.length ≤ v'.toInt.repr.length :=
    Numeral.length_repr_le_of_farther
      (.inl ⟨Int32.le_iff_toInt_le.mp above, Int32.le_iff_toInt_le.mp rises⟩)
  have left := lower spans.1.1 within.1.1
  have right := upper spans.1.2 within.1.2
  have top := lower spans.2.1 within.2.1
  have bottom := upper spans.2.2 within.2.2
  unfold shownLength
  omega

theorem least_append_le (samples more : List Int32) : least (samples ++ more) ≤ least samples := by
  cases found : samples.min? with
  | none =>
    rw [least, least, found]
    exact Int32.le_maxValue _
  | some v =>
    have same : least samples = v := by rw [least, found, Option.getD_some]
    rw [same]
    exact least_le (List.mem_append_left _ (List.min?_mem found))

theorem le_greatest_append (samples more : List Int32) :
    greatest samples ≤ greatest (samples ++ more) := by
  cases found : samples.max? with
  | none =>
    rw [greatest, greatest, found]
    exact Int32.minValue_le _
  | some v =>
    have same : greatest samples = v := by rw [greatest, found, Option.getD_some]
    rw [same]
    exact le_greatest (List.mem_append_left _ (List.max?_mem found))

/-- As events come in, an extent only grows. -/
theorem within_ofEvents (events more : List Event) :
    (ofEvents events).Within (ofEvents (events ++ more)) := by
  have x : Event.samplesX (events ++ more) = Event.samplesX events ++ Event.samplesX more :=
    Event.positions_append events more
  have y : Event.samplesY (events ++ more) = Event.samplesY events ++ Event.samplesY more :=
    Event.positions_append events more
  rw [ofEvents, ofEvents, x, y]
  exact ⟨⟨least_append_le _ _, le_greatest_append _ _⟩,
    least_append_le _ _, le_greatest_append _ _⟩

end Extent

namespace ExtentGauge

open Event Terminal

theorem length_statusLine (g : ExtentGauge) : g.statusLine.length = 32 + g.extent.shownLength := by
  have length (n : Int) : n.repr.toList.length = n.repr.length := String.length_toList
  rw [← String.length_toList, toList_statusLine, Extent.shownLength]
  simp [length]
  omega

theorem lengths_lines (events : List Event) :
    (Gauge.lines start events).map String.length =
      (syncs [] events).map fun p => 32 + (ofEvents p.1).shownLength := by
  rw [lines_eq_mapIdx]
  refine List.ext_getElem (by simp) fun i _ _ => ?_
  simp only [List.getElem_map, List.getElem_mapIdx, length_statusLine]

/-- Once the extent spans zero, a line is not shorter than the one before. -/
theorem shownLength_le_of_spansZero {events : List Event}
    {pair : (List Event × Event) × (List Event × Event)}
    (mem : pair ∈ successive (syncs [] events)) (spans : (ofEvents pair.1.1).SpansZero) :
    (ofEvents pair.1.1).shownLength ≤ (ofEvents pair.2.1).shownLength := by
  obtain ⟨between, more, -⟩ := exists_between_of_mem_successive mem
  rw [more]
  exact shownLength_le_of_within spans (within_ofEvents _ _)

end ExtentGauge

end InputGauge
