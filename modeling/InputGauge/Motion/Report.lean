import InputGauge.Device.Capabilities
import InputGauge.Motion.Basic

/-!
# The report on motion

A device's resolution is the travel in device units over the travel on the desk, which only the
user can measure. So the report tabulates what the desk travel would be at common resolutions,
and gives an entry for the hardware database with the resolution left to fill in.
-/

namespace InputGauge

/-- What a travel would come to on the desk at some resolution. -/
structure TravelRow where
  /-- Device units per inch. -/
  resolution : UInt32
  inches : Float
  millimetres : Int
  deriving DecidableEq

namespace TravelRow

/-- The row of a distance in device units at a resolution. -/
def of (distance resolution : UInt32) : TravelRow :=
  let inches := distance.toFloat / resolution.toFloat
  { resolution, inches, millimetres := Binary64.round (inches * 25.4) }

/-- A row of the printed table. -/
def line (r : TravelRow) : String :=
  Numeral.column 8 (toString r.millimetres) ++ "mm\t" ++
    Numeral.column 8 (Binary64.fixed 2 r.inches) ++ "in\t" ++
    Numeral.column 8 (toString r.resolution.toNat) ++ "dpi\n"

end TravelRow

/-- The resolutions in the table. Above them, makers usually state the value anyway. -/
def commonResolutions : List UInt32 :=
  [400, 600, 800, 1000, 1200, 1400, 1600, 1800, 2000, 2200, 2400]

/-- What a distance in device units would come to on the desk at the common resolutions. -/
def travelTable (distance : UInt32) : List TravelRow :=
  commonResolutions.map (TravelRow.of distance)

namespace Motion

/-- The peak frequency in whole reports per second. -/
def hertz (m : Motion) : String := toString (Binary64.round m.peak)

/-- The measurement in words, with the table of resolutions. -/
def summary (m : Motion) : String :=
  let distance := toString m.distance.toNat
  "Estimated sampling frequency: " ++ m.hertz ++ "Hz\n" ++
    "To calculate resolution, measure physical distance covered\n" ++
    "and look up the matching resolution in the table below\n" ++
    String.join ((travelTable m.distance).map TravelRow.line) ++
    "If your resolution is not in the list, calculate it with:\n" ++
    "\tresolution=" ++ distance ++ "/inches, or\n" ++
    "\tresolution=" ++ distance ++ " * 25.4/mm\n"

/-- The entry for the hardware database. -/
def databaseEntry (m : Motion) (c : Capabilities) : String :=
  "Entry for hwdb match (replace XXX with the resolution in DPI):\n" ++
    "mouse:" ++ c.bus.name ++ ":v" ++ Numeral.hex c.vendor ++ "p" ++ Numeral.hex c.product ++
    ":name:" ++ c.name ++ ":\n MOUSE_DPI=XXX@" ++ m.hertz ++ "\n"

end Motion

end InputGauge
