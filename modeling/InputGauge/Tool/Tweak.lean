import InputGauge.CommandLine.Tweak
import InputGauge.Host
import InputGauge.Tool.Outcome

/-!
# The tool that changes a device

It makes one change and says nothing unless something goes wrong. The names on the command line
are settled before the device is opened.
-/

namespace InputGauge.Tool

/-- The tool's own name. -/
def tweakName : String := "evdev-tweak-device"

/-- Makes the change that options ask for. -/
def adjust (h : Host) (options : CommandLine.TweakOptions) : Outcome :=
  match options.adjustment with
  | .error fault => .ofFault fault .empty none
  | .ok adjustment =>
    match h.openSession (options.device.getD []) with
    | .error fault => .ofFault fault .empty none
    | .ok s =>
      match adjustment.apply s with
      | (.error fault, s) => .ofFault fault .empty (some s.node)
      | (.ok (), s) =>
        { exit := Outcome.success, output := .empty, errors := "", node := some s.node }

/-- Runs the tool that changes a device. -/
def runTweak (h : Host) (argv : List Bytes) : Outcome :=
  match CommandLine.TweakOptions.parse? argv with
  | none => .ofUsage (CommandLine.tweakUsage (startedAs tweakName argv))
  | some options => adjust h options

end InputGauge.Tool
