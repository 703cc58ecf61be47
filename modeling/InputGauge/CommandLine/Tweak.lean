import InputGauge.Adjustment
import InputGauge.CommandLine.Device
import InputGauge.Text.Numeral

/-!
# Command lines that change a device

The command line of the tool that changes a device: options, in any order, and the device. It is
read in two steps. The arguments are first cut into words, which settles where a value belongs;
then each word is put into its place, which no other word may have taken.

* `--name=value` and `--name value` are the same, but a value on its own may not begin with `-`
  unless it is `-` alone or a negative number.
* `--` ends the options; after it every argument is a device.
* Either an axis or a light is named. A light must be switched one way.
* Options of the other kind are allowed and have no effect.
-/

namespace InputGauge.CommandLine

/-! ## Words -/

/-- The options that take a value. -/
inductive Key where
  | axis
  | led
  | minimum
  | maximum
  | resolution
  | fuzz
  | flat
  deriving DecidableEq, Repr

namespace Key

/-- How the options are written. -/
def names : List (Bytes × Key) :=
  [(.ofString "abs", .axis), (.ofString "led", .led), (.ofString "min", .minimum),
    (.ofString "max", .maximum), (.ofString "res", .resolution), (.ofString "fuzz", .fuzz),
    (.ofString "flat", .flat)]

/-- Whether the value of an option is a number. -/
def isNumeric : Key → Bool
  | axis | led => false
  | minimum | maximum | resolution | fuzz | flat => true

/-- Whether a value may stand on its own after an option. A numeric option takes any argument: one
that begins with `-` and is no number is refused with all others that are no number. -/
def admits (key : Key) (value : Bytes) : Bool :=
  key.isNumeric || !value.startsWithDash || value == [Bytes.dash]

end Key

/-- How the switches of a light are written. -/
def switchOn : Bytes := .ofString "on"
def switchOff : Bytes := .ofString "off"

/-- A part of a command line. -/
inductive Word where
  /-- An option and its value. -/
  | value (key : Key) (bytes : Bytes)
  /-- One of the two switches of a light. -/
  | switch (on : Bool)
  | device (path : Bytes)
  deriving DecidableEq, Repr

namespace Word

/-- Cuts arguments into words; none if an argument is no word. -/
def scan : List Bytes → Option (List Word)
  | [] => some []
  | arg :: rest =>
    match Argument.of arg with
    | .endOfOptions => some (rest.map device)
    | .plain path => (scan rest).map (device path :: ·)
    | .unknown => none
    | .option name given =>
      if name = switchOn ∧ given = none then (scan rest).map (switch true :: ·)
      else if name = switchOff ∧ given = none then (scan rest).map (switch false :: ·)
      else
        match Key.names.lookup name, given, rest with
        | none, _, _ => none
        | some key, some bytes, rest => (scan rest).map (value key bytes :: ·)
        | some _, none, [] => none
        | some key, none, bytes :: rest =>
          if key.admits bytes then (scan rest).map (value key bytes :: ·) else none

end Word

/-! ## Options -/

/-- The options read so far. -/
structure TweakOptions where
  axis : Option String := none
  led : Option String := none
  overrides : AxisOverrides := {}
  on : Bool := false
  off : Bool := false
  device : Option Bytes := none
  deriving DecidableEq, Repr

namespace TweakOptions

/-- Fills a place that nothing has taken yet. -/
def fill {α : Type} (place : Option α) (a : α) : Option (Option α) :=
  match place with
  | none => some (some a)
  | some _ => none

/-- The number that a value stands for. -/
def number? (bytes : Bytes) : Option Int32 := (Utf8.decode? bytes).bind Numeral.int32?

/-- Puts one more word into its place. -/
def add (o : TweakOptions) : Word → Option TweakOptions
  | .value .axis bytes => do
    return { o with axis := ← fill o.axis (← Utf8.decode? bytes) }
  | .value .led bytes => do
    return { o with led := ← fill o.led (← Utf8.decode? bytes) }
  | .value .minimum bytes => do
    return { o with overrides.minimum := ← fill o.overrides.minimum (← number? bytes) }
  | .value .maximum bytes => do
    return { o with overrides.maximum := ← fill o.overrides.maximum (← number? bytes) }
  | .value .resolution bytes => do
    return { o with overrides.resolution := ← fill o.overrides.resolution (← number? bytes) }
  | .value .fuzz bytes => do
    return { o with overrides.fuzz := ← fill o.overrides.fuzz (← number? bytes) }
  | .value .flat bytes => do
    return { o with overrides.flat := ← fill o.overrides.flat (← number? bytes) }
  | .switch true => if o.on then none else some { o with on := true }
  | .switch false => if o.off then none else some { o with off := true }
  | .device path => do
    return { o with device := ← fill o.device path }

/-- Whether options are complete and do not contradict each other. -/
def isComplete (o : TweakOptions) : Bool :=
  o.device.any isDevice && (o.axis.isSome != o.led.isSome) && !(o.on && o.off) &&
    (o.led.isNone || o.on || o.off)

/-- The options on a command line. -/
def parse? (argv : List Bytes) : Option TweakOptions := do
  let words ← Word.scan argv.tail
  let options ← words.foldlM add {}
  if options.isComplete then some options else none

/-- The change that the options ask for. -/
def adjustment (o : TweakOptions) : Except Fault Adjustment :=
  match o.axis with
  | some name =>
    match Axis.parse? name with
    | some axis => .ok (.axis axis o.overrides)
    | none => .error (.unknownAxis name)
  | none =>
    let name := o.led.getD ""
    match Led.parse? name with
    | some led => .ok (.led led o.on)
    | none => .error (.unknownLed name)

end TweakOptions

end InputGauge.CommandLine
