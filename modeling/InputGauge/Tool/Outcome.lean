import InputGauge.CommandLine.Usage
import InputGauge.Fault
import InputGauge.Node
import InputGauge.Text.Utf8

/-!
# Outcomes

What a tool leaves behind: what it printed, how it ended, and the device as it then is.
-/

namespace InputGauge.Tool

/-- What a tool leaves behind. -/
structure Outcome where
  exit : UInt8
  output : ByteArray
  /-- The messages of what went wrong. The log is no part of them, where a tool also says that a
  device was not given back or that the identity of the machine cannot be read. -/
  errors : String
  /-- The device, if one was opened. -/
  node : Option Node

namespace Outcome

/-- Success is zero, as everywhere. -/
def success : UInt8 := 0
def failure : UInt8 := 1

/-- A number did not fit. -/
def overflow : UInt8 := 101

/-- The usage is the output of a tool, but not what it was to do. -/
def ofUsage (usage : String) : Outcome :=
  { exit := failure, output := usage.toUTF8, errors := "", node := none }

/-- A fault ends a tool with its message, after what was printed already. -/
def ofFault (f : Fault) (output : ByteArray) (node : Option Node) : Outcome :=
  { exit := failure, output, errors := f.message ++ "\n", node }

/-- A number that does not fit ends a tool on the spot: what it has not printed by then, it does
not print any more. -/
def ofOverflow (step : Overflow) (output : ByteArray) (errors : String) (node : Option Node) :
    Outcome :=
  { exit := overflow, output, errors := errors ++ step.message ++ "\n", node }

end Outcome

/-- The path under which a tool was started, or its own name if it was not told. -/
def startedAs (name : String) (argv : List Bytes) : String :=
  (argv.head?.map Utf8.lossy).getD name

end InputGauge.Tool
