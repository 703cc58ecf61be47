import InputGauge.CommandLine.Device
import InputGauge.Extent.Report
import InputGauge.Host
import InputGauge.Motion.Report
import InputGauge.Tool.Outcome
import InputGauge.Watch

/-!
# Tools that measure

A measuring tool opens a device, makes sure that it can be measured and that nobody else holds it,
watches it with a gauge until the user asks to stop, and prints a report. The two tools differ in
the gauge, in the devices that they can measure, and in the texts.

A fault before the watch ends the tool at once. A fault during the watch ends only the watch: what
was measured up to then is still reported. Only a number that does not fit leaves no report.
-/

namespace InputGauge.Tool

/-- What makes a measuring tool out of a gauge. -/
structure Measuring (γ : Type) where
  name : String
  /-- What the tool does, for the usage. -/
  about : String
  /-- Whether a device can be measured. -/
  admits : Capabilities → Except Fault Unit
  /-- What the user is told first, about the device and its path. -/
  introduction : Capabilities → String → String
  /-- The report, from the device, the identity of the machine and what was measured. -/
  report : Capabilities → String → γ → Except Overflow String

namespace Measuring

variable {γ : Type} [Gauge γ]

/-- Makes sure that a device can be measured and that nobody else holds it. -/
def prepare (m : Measuring γ) (s : Session) : Except Fault Capabilities × Session :=
  match s.capabilities with
  | .error fault => (.error fault, s)
  | .ok c =>
    match m.admits c with
    | .error fault => (.error fault, s)
    | .ok () =>
      match s.checkGrab with
      | (.error fault, s') => (.error fault, s')
      | (.ok (), s') => (.ok c, s')

/-- The identity of the machine, where a report on a device needs it. -/
def identity (h : Host) (c : Capabilities) : String :=
  if c.bus.hasIds then "" else machineIdentity h.identity

/-- What a watch that has ended leaves behind: the report, and the fault that ended it. -/
def conclude (m : Measuring γ) (h : Host) (c : Capabilities)
    (ended : Except Fault Unit × Watch Attended γ) : Outcome :=
  let terminal := ended.2.terminal.print "\n"
  let node := some ended.2.source.session.node
  let finish (exit : UInt8) (errors : String) : Outcome :=
    match m.report c (identity h c) ended.2.gauge with
    | .error step => .ofOverflow step terminal.written errors node
    | .ok report => { exit, output := (terminal.print report).written, errors, node }
  match ended.1 with
  | .ok () => finish Outcome.success ""
  | .error (.overflow step) => .ofOverflow step ended.2.terminal.written "" node
  | .error fault => finish Outcome.failure ("\n" ++ fault.message ++ "\n")

/-- Measures an open device. -/
def measure (m : Measuring γ) (h : Host) (s : Session) : Outcome :=
  match m.prepare s with
  | (.error fault, s) => .ofFault fault .empty (some s.node)
  | (.ok c, s) =>
    let terminal := Terminal.endless.print (m.introduction c s.path)
    match h.armInterrupt with
    | .error fault => .ofFault fault terminal.written (some s.node)
    | .ok () =>
      let source : Attended := { session := s, waits := h.waits }
      m.conclude h c (Watch.run { source, gauge := Gauge.fresh, terminal })

/-- Runs a measuring tool. -/
def run (m : Measuring γ) (h : Host) (argv : List Bytes) : Outcome :=
  match CommandLine.device? argv with
  | none => .ofUsage (CommandLine.usage (startedAs m.name argv) m.about)
  | some path =>
    match h.openSession path with
    | .error fault => .ofFault fault .empty none
    | .ok s => m.measure h s

/-- The tool that measures how far and how often a mouse reports. -/
def ofMotion : Measuring MotionGauge where
  name := "mouse-dpi-tool"
  about :=
    "This tool reads relative events from the kernel and calculates\n" ++
      "the distance covered and maximum frequency of the incoming events.\n" ++
      "Some mouse devices provide dynamic frequencies, it is\n" ++
      "recommended to measure multiple times to obtain the highest value."
  admits _ := .ok ()
  introduction c path :=
    "Mouse " ++ c.name ++ " on " ++ path ++ "\n" ++
      "Move the device 250mm/10in or more along the x-axis.\n" ++
      "Pause 3 seconds before movement to reset, Ctrl+C to exit.\n"
  report c _ g := .ok (g.motion.summary ++ "\n" ++ g.motion.databaseEntry c)

/-- The tool that finds the edges of a touchpad. -/
def ofExtent : Measuring ExtentGauge where
  name := "touchpad-edge-detector"
  about :=
    "This tool reads the touchpad events from the kernel and calculates\n" ++
      "the minimum and maximum for the x and y coordinates, respectively."
  admits c := if c.hasPosition then .ok () else .error .noPositionAxes
  introduction c path :=
    "Touchpad " ++ c.name ++ " on " ++ path ++ "\n" ++
      "Move one finger around the touchpad to detect the actual edges\n" ++
      c.kernelRanges ++ "\n"
  report c machine g := g.extent.report c machine

end Measuring

end InputGauge.Tool
