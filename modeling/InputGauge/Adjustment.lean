import InputGauge.Session

/-!
# Adjustments

Changes to an open device: new settings for one axis, or a light switched on or off. Only the
settings that are named change; the others, the current value among them, keep what the kernel
holds at that moment.
-/

namespace InputGauge

/-- New settings for an axis; those that are none keep their value. -/
structure AxisOverrides where
  minimum : Option Int32 := none
  maximum : Option Int32 := none
  resolution : Option Int32 := none
  fuzz : Option Int32 := none
  flat : Option Int32 := none
  deriving DecidableEq, Repr

namespace AxisOverrides

/-- The settings with every override in place. -/
def apply (o : AxisOverrides) (current : AxisSettings) : AxisSettings :=
  { value := current.value
    minimum := o.minimum.getD current.minimum
    maximum := o.maximum.getD current.maximum
    fuzz := o.fuzz.getD current.fuzz
    flat := o.flat.getD current.flat
    resolution := o.resolution.getD current.resolution }

end AxisOverrides

/-- A change to a device. -/
inductive Adjustment where
  | axis (which : Axis) (overrides : AxisOverrides)
  | led (which : Led) (on : Bool)
  deriving DecidableEq, Repr

namespace Adjustment

/-- Makes the change, if the device has what is to be changed. -/
def apply (a : Adjustment) (s : Session) : Except Fault Unit × Session :=
  match a with
  | .axis x overrides =>
    match s.axisSettings x with
    | .error fault => (.error fault, s)
    | .ok none => (.error (.missingAxis s.name x.name), s)
    | .ok (some current) =>
      match s.setAxis x (overrides.apply current) with
      | (.ok (), s') => (.ok (), s')
      | (.error errno, s') => (.error (.cannotSetAxis x.name (.system errno)), s')
  | .led l on =>
    if s.hasLed l then
      match s.setLed l on with
      | (.ok (), s') => (.ok (), s')
      | (.error errno, s') => (.error (.cannotSetLed l.name (.system errno)), s')
    else (.error (.missingLed s.name l.name), s)

end Adjustment

end InputGauge
