import InputGauge.Binary64.Value
import InputGauge.Ring

/-!
# The report interval

How long a device takes from one report to the next, estimated from the times of its last
reports. The ring of times is read slot by slot, so its one seam between the newest and the
oldest time is a pair like any other; it falls out because time does not rise across it.

The representative interval is not the shortest or the mean but the one in the middle of the
sorted intervals, which a minority of early or late reports does not move.
-/

namespace InputGauge

/-- The times of the last 32 reports, in microseconds. -/
abbrev ReportTimes := Ring Float 32

namespace ReportTimes

/-- No times yet; the slots hold zeros. -/
def start : ReportTimes := Ring.empty (Nat.succ_pos 31) 0.0

/-- The place of the representative among the sorted intervals. -/
def middle : Nat := 16

/-- The differences of neighbouring times, where they rise. At most one pair fewer than there
are slots can rise. -/
def intervals (times : ReportTimes) : List Float :=
  ((times.cyclicPairs.filter fun pair => pair.1 < pair.2).map fun pair => pair.2 - pair.1).take 31

/-- The interval in the middle of the sorted intervals, if there are enough of them. -/
def representative (times : ReportTimes) : Option Float :=
  (times.intervals.mergeSort Binary64.atMost)[middle]?

/-- Reports per second at the representative interval. -/
def frequency (times : ReportTimes) : Option Float :=
  times.representative.map (1000000.0 / ·)

end ReportTimes

end InputGauge
