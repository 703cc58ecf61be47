import InputGauge.Tool

/-!
# The program

All tools in one program: the first argument is the path under which a tool is started, and its
last component says which. This layer opens the file that the command line names, reads the
identity of the machine, and prints what the tool leaves behind.

It cannot put a question to a device, so a file that opens is here always one that is no device.
-/

namespace InputGauge.Program

/-- Why an attempt to reach a file failed. -/
def causeOf : IO.Error → Cause
  | .alreadyExists _ code _ | .otherError code _ | .resourceBusy code _
  | .resourceVanished code _ | .unsupportedOperation code _ | .hardwareFault code _
  | .unsatisfiedConstraints code _ | .illegalOperation code _ | .protocolError code _
  | .timeExpired code _ | .interrupted _ code _ | .noFileOrDirectory _ code _
  | .invalidArgument _ code _ | .permissionDenied _ code _ | .resourceExhausted _ code _
  | .inappropriateType _ code _ | .noSuchThing _ code _ => .system ⟨code.toInt32⟩
  | .unexpectedEof => .described "unexpected end of file"
  | .userError text => .described text

/-- Opens the file at a path. -/
def probe (path : String) : IO (Except Cause (Option Node)) := do
  try
    let _ ← IO.FS.Handle.mk path .read
    return .ok none
  catch e => return .error (causeOf e)

/-- The file that holds the identity of the machine. -/
def identity : IO (Option Bytes) := do
  try return some (← IO.FS.readBinFile "/sys/class/dmi/id/modalias").data.toList
  catch _ => return none

/-- Runs a tool on this machine. -/
def run (tool : Tool) (argv : List Bytes) : IO UInt32 := do
  let found ← match tool.path? argv with
    | some path => probe (Utf8.lossy path)
    | none => pure (.ok none)
  let outcome := tool.run { device? := fun _ => found, identity := ← identity } argv
  (← IO.getStdout).write outcome.output
  (← IO.getStderr).putStr outcome.errors
  return outcome.exit.toUInt32

end InputGauge.Program

open InputGauge in
/-- Runs the tool that the first argument names. -/
def main (args : List String) : IO UInt32 :=
  match (args.head?.map CommandLine.programName).bind Tool.ofName? with
  | some tool => Program.run tool (args.map Bytes.ofString)
  | none => do
    (← IO.getStderr).putStr (String.join (Tool.all.map fun tool => tool.name ++ "\n"))
    return 1
