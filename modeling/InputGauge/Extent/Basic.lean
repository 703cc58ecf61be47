import InputGauge.Gauge
import InputGauge.Spinner

/-!
# Extents

The measurement of a device that reports positions: the smallest and the largest coordinate on
each axis. Pointer and contact positions count alike, so a device that sends only one of them is
measured too.

An axis without a sample has its bounds the wrong way round, the largest number below the
smallest: every sample then moves both bounds, and the order of the bounds tells whether there
was one.
-/

namespace InputGauge

/-- The range of coordinates on each axis. -/
structure Extent where
  left : Int32
  right : Int32
  top : Int32
  bottom : Int32
  deriving DecidableEq, Repr

namespace Extent

/-- The extent of no samples. -/
def unseen : Extent :=
  { left := Int32.maxValue, right := Int32.minValue,
    top := Int32.maxValue, bottom := Int32.minValue }

/-- Whether the x axis has a sample. -/
def hasX (d : Extent) : Bool := d.left ≤ d.right

/-- Whether the y axis has a sample. -/
def hasY (d : Extent) : Bool := d.top ≤ d.bottom

/-- The extent with one more sample on the x axis. -/
def addX (d : Extent) (x : Int32) : Extent :=
  { d with left := min d.left x, right := max d.right x }

/-- The extent with one more sample on the y axis. -/
def addY (d : Extent) (y : Int32) : Extent :=
  { d with top := min d.top y, bottom := max d.bottom y }

/-- The distance of the bounds of the x axis, which need not fit the coordinates' type. -/
def width (d : Extent) : Int := d.right.toInt - d.left.toInt

/-- The distance of the bounds of the y axis, which need not fit the coordinates' type. -/
def height (d : Extent) : Int := d.bottom.toInt - d.top.toInt

end Extent

/-- The measurement of an extent while it is taken. -/
structure ExtentGauge where
  extent : Extent
  spinner : Spinner
  deriving DecidableEq, Repr

namespace ExtentGauge

/-- The gauge before any event. -/
def start : ExtentGauge := { extent := .unseen, spinner := .start }

/-- The line that shows the measurement. -/
def statusLine (g : ExtentGauge) : String :=
  "Touchpad sends:\tx [" ++ toString g.extent.left.toInt ++ ".." ++
    toString g.extent.right.toInt ++ "], y [" ++ toString g.extent.top.toInt ++ ".." ++
    toString g.extent.bottom.toInt ++ "] " ++ String.singleton g.spinner.glyph

/-- The extent with the sample that an event carries, if it carries one. -/
def sample (d : Extent) (code : UInt16) (value : Int32) : Extent :=
  if code = Event.positionX ∨ code = Event.contactX then d.addX value
  else if code = Event.positionY ∨ code = Event.contactY then d.addY value
  else d

/-- One more event. Only a sync is shown; only positions count. -/
def observe (g : ExtentGauge) (e : Event) : ExtentGauge × Option String :=
  match e.kind with
  | .sync => ({ g with spinner := g.spinner.next }, some g.statusLine)
  | .absolute => ({ g with extent := sample g.extent e.code e.value }, none)
  | _ => (g, none)

theorem observe_shows_iff (g : ExtentGauge) (e : Event) :
    (g.observe e).2.isSome ↔ e.kind = .sync := by
  unfold observe
  split <;> simp_all

instance : Gauge ExtentGauge where
  fresh := start
  observe := observe
  shows_iff := observe_shows_iff

end ExtentGauge

end InputGauge
