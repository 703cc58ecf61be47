import InputGauge.Tool.Measure
import InputGauge.Tool.Tweak

/-!
# Tools

The three tools by name, and what it means to run one.
-/

namespace InputGauge

/-- A tool. -/
inductive Tool where
  /-- Measures how far and how often a mouse reports. -/
  | motion
  /-- Finds the edges of a touchpad. -/
  | extent
  /-- Changes a device. -/
  | tweak
  deriving DecidableEq, Repr

namespace Tool

/-- All tools. -/
def all : List Tool := [motion, extent, tweak]

/-- The name of a tool. -/
def name : Tool → String
  | motion => Measuring.ofMotion.name
  | extent => Measuring.ofExtent.name
  | tweak => tweakName

/-- The tool with a name. -/
def ofName? (s : String) : Option Tool := all.find? fun tool => tool.name == s

/-- The path of the device that a command line names, if it makes sense. -/
def path? (tool : Tool) (argv : List Bytes) : Option Bytes :=
  match tool with
  | motion | extent => CommandLine.device? argv
  | tweak => (CommandLine.TweakOptions.parse? argv).bind CommandLine.TweakOptions.device

/-- Runs a tool on a host with a command line, the program's own name first. -/
def run (tool : Tool) (h : Host) (argv : List Bytes) : Outcome :=
  match tool with
  | motion => Measuring.ofMotion.run h argv
  | extent => Measuring.ofExtent.run h argv
  | tweak => runTweak h argv

end Tool

end InputGauge
