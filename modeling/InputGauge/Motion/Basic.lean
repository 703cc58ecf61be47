import InputGauge.Binary64.Decimal
import InputGauge.Gauge
import InputGauge.Motion.Interval
import InputGauge.Spinner
import InputGauge.Text.Numeral

/-!
# Motion

The measurement of a pointing device that reports relative motion: how far it travelled along
the x axis and how often it reports. Both start again after a pause of more than three seconds,
so that a user can repeat the movement without restarting.

The pause is judged between two syncs that follow each other. The sync that ends it starts the
new measurement and is not one of its reports.
-/

namespace InputGauge

/-- What was measured since the last pause. -/
structure Motion where
  /-- The signed sum of the horizontal motion, in two's complement. -/
  net : Int32
  /-- The highest frequency seen, in reports per second. -/
  peak : Float
  /-- The time of the last sync. -/
  lastSync : Option UInt64
  deriving DecidableEq

namespace Motion

/-- Nothing measured yet. -/
def zero : Motion := { net := 0, peak := 0.0, lastSync := none }

/-- The travel in device units, without its direction. -/
def distance (m : Motion) : UInt32 := UInt32.ofNat m.net.toInt.natAbs

end Motion

/-- A pause longer than this, in microseconds, starts a new measurement. -/
def longestPause : Nat := 3000000

/-- The measurement of motion while it is taken. -/
structure MotionGauge where
  motion : Motion
  times : ReportTimes
  spinner : Spinner
  deriving DecidableEq

namespace MotionGauge

/-- The gauge before any event. -/
def start : MotionGauge :=
  { motion := .zero, times := ReportTimes.start, spinner := .start }

/-- Whether a sync at `time` ends a pause. The end of the longest pause after the last sync stays
at the largest time instead of going past it. -/
def endsPause (g : MotionGauge) (time : UInt64) : Bool :=
  match g.motion.lastSync with
  | none => false
  | some last => UInt64.ofNatClamp (last.toNat + longestPause) < time

/-- The measurement after a sync that ends a pause. -/
def restart (g : MotionGauge) (time : UInt64) : MotionGauge :=
  { g with
    motion := { net := 0, peak := 0.0, lastSync := some time }
    times := g.times.clear }

/-- The higher of a peak and the frequency of the times, once the times fill their ring. -/
def raisedPeak (peak : Float) (times : ReportTimes) : Float :=
  match if times.filled then times.frequency else none with
  | none => peak
  | some frequency => if peak < frequency then frequency else peak

/-- The measurement after a sync that is one of its reports. -/
def report (g : MotionGauge) (time : UInt64) : MotionGauge :=
  let times := g.times.push time.toFloat
  { g with
    motion := { g.motion with peak := raisedPeak g.motion.peak times, lastSync := some time }
    times }

/-- The measurement after a sync. -/
def sync (g : MotionGauge) (time : UInt64) : MotionGauge :=
  if g.endsPause time then g.restart time else g.report time

/-- The measurement after some horizontal motion. -/
def move (g : MotionGauge) (delta : Int32) : MotionGauge :=
  { g with motion := { g.motion with net := g.motion.net + delta } }

/-- The line that shows the measurement. -/
def statusLine (g : MotionGauge) : String :=
  "Covered distance in device units: " ++ Numeral.column 8 (toString g.motion.distance.toNat) ++
    " at frequency " ++ Numeral.column 3 (Binary64.fixed 1 g.motion.peak) ++ "Hz \t" ++
    String.singleton g.spinner.glyph

/-- One more event. Only a sync is shown; only horizontal motion and syncs count. -/
def observe (g : MotionGauge) (e : Event) : MotionGauge × Option String :=
  match e.kind with
  | .sync =>
    let g := g.sync e.time
    ({ g with spinner := g.spinner.next }, some g.statusLine)
  | .relative => (if e.code = Event.motionX then g.move e.value else g, none)
  | _ => (g, none)

theorem observe_shows_iff (g : MotionGauge) (e : Event) :
    (g.observe e).2.isSome ↔ e.kind = .sync := by
  unfold observe
  split <;> simp_all

instance : Gauge MotionGauge where
  fresh := start
  observe := observe
  shows_iff := observe_shows_iff

end MotionGauge

end InputGauge
