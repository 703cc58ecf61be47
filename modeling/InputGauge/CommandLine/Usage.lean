/-!
# Usage

What a tool prints when its command line makes no sense. The tool calls itself by the last part of
the path under which it was started.
-/

namespace InputGauge.CommandLine

/-- The components of a path. An empty component and `.` are none. -/
def components (path : String) : List String :=
  ((path.toList.splitOn '/').map String.ofList).filter fun part => part != "" && part != "."

/-- The name by which a program calls itself: the last component of its path, or all of it if it
ends in no name. -/
def programName (argv0 : String) : String :=
  match (components argv0).getLast? with
  | none | some ".." => argv0
  | some name => name

/-- The usage of a tool that measures; `about` says what. -/
def usage (argv0 about : String) : String :=
  "Usage: " ++ programName argv0 ++ " /dev/input/event0\n\n" ++ about ++ "\n"

/-- The usage of the tool that changes a device. -/
def tweakUsage (argv0 : String) : String :=
  let program := programName argv0
  "Usage: " ++ program ++ " --abs <axis> [--min min] [--max max] [--res res] [--fuzz fuzz] " ++
    "[--flat flat] /dev/input/eventXYZ\n" ++
    "\tChange the absinfo struct for the named axis\n" ++
    program ++ " --led <led> --on|--off /dev/input/eventXYZ\n" ++
    "\tEnable or disable the named LED\n"

end InputGauge.CommandLine
