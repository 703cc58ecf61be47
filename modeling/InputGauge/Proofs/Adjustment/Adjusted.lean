import InputGauge.Proofs.Adjustment.Overrides

/-!
# What adjustments leave behind

`Adjusted us s s'` says what the adjustments `us`, all of them made, turn a session into: each
field of each axis holds what was given for it last, else what it held before; the events of the
lights are sent after what was sent before; all else is as it was. One adjustment that succeeds
leaves the session so adjusted, and one that is refused leaves it as it was. A history in which
some succeed, some are refused and other calls fail each time leaves it adjusted by those that
succeeded.
-/

namespace InputGauge

namespace Adjustment

variable {s s' s'' : Session}

/-! ## What an adjustment asks for -/

/-- The new setting for a field of an axis. -/
def given? (a : Axis) (f : AxisField) : Adjustment → Option Int32
  | axis which overrides => if which = a then overrides.given? f else none
  | led _ _ => none

/-- The events by which a light is switched: its own, and the end of the report. -/
def events : Adjustment → List SentEvent
  | axis _ _ => []
  | led l on =>
    [{ type := 17, code := l.number, value := if on then 1 else 0 },
      { type := 0, code := 0, value := 0 }]

/-- The last new setting for a field of an axis. -/
def lastGiven? (us : List Adjustment) (a : Axis) (f : AxisField) : Option Int32 :=
  us.reverse.findSome? (given? a f)

theorem lastGiven?_append (us vs : List Adjustment) (a : Axis) (f : AxisField) :
    lastGiven? (us ++ vs) a f = (lastGiven? vs a f).or (lastGiven? us a f) := by
  simp [lastGiven?, List.findSome?_append]

theorem lastGiven?_singleton (u : Adjustment) (a : Axis) (f : AxisField) :
    lastGiven? [u] a f = u.given? a f := by
  cases h : u.given? a f <;> simp [lastGiven?, h]

/-! ## Adjusted sessions -/

/-- `s'` is `s` after these adjustments were made, one after the other. Which calls of the node
fail has nothing to do with it. -/
structure Adjusted (us : List Adjustment) (s s' : Session) : Prop where
  rest : s' = { s with node := { s.node with
    axes := s'.node.axes, sent := s'.node.sent, failures := s'.node.failures } }
  axes : ∀ a f, s'.node.axes.field? a f =
    (s.node.axes.field? a f).map fun old => (lastGiven? us a f).getD old
  sent : s'.node.sent = s.node.sent ++ us.flatMap events

namespace Adjusted

variable {us vs : List Adjustment}

theorem refl (s : Session) : Adjusted [] s s where
  rest := rfl
  axes a f := by simp [lastGiven?]
  sent := by simp

theorem trans (first : Adjusted us s s') (second : Adjusted vs s' s'') :
    Adjusted (us ++ vs) s s'' where
  rest := by rw [second.rest, first.rest]
  axes a f := by
    rw [second.axes, first.axes, lastGiven?_append, Option.map_map]
    cases lastGiven? vs a f <;> rfl
  sent := by rw [second.sent, first.sent, List.flatMap_append, List.append_assoc]

end Adjusted

/-! ## One adjustment -/

/-- When an adjustment can be made. -/
def Possible (s : Session) : Adjustment → Prop
  | axis a _ => s.node.axes.contains a ∧ s.node.failures.readAxes = none ∧
      s.node.failures.setAxis = none
  | led l _ => s.hasLed l ∧ s.node.failures.write = none

/-- Why an adjustment is refused: the device lacks what is to be changed, or a call on it fails. -/
inductive Refused (s : Session) : Adjustment → Fault → Prop where
  | missingAxis {a o} : s.node.axes.contains a = false →
      Refused s (axis a o) (.missingAxis s.name a.name)
  | unreadable {a o errno} : s.node.axes.contains a → s.node.failures.readAxes = some errno →
      Refused s (axis a o) (.noDeviceInfo (.system errno.lookedUp))
  | unsettable {a o errno} : s.node.axes.contains a → s.node.failures.readAxes = none →
      s.node.failures.setAxis = some errno →
      Refused s (axis a o) (.cannotSetAxis a.name (.system errno))
  | missingLed {l on} : s.hasLed l = false → Refused s (led l on) (.missingLed s.name l.name)
  | unwritable {l on errno} : s.hasLed l → s.node.failures.write = some errno →
      Refused s (led l on) (.cannotSetLed l.name (.system errno))

end Adjustment

namespace AxisTable

theorem isEmpty_of_contains {t : AxisTable} {a : Axis} (h : t.contains a) : t.isEmpty = false := by
  have within := number_lt_of_contains h
  simp only [contains, get?, Vector.getElem?_eq_getElem within] at h
  simp only [isEmpty, Bool.not_eq_false', Vector.any_eq_true]
  exact ⟨_, within, h⟩

end AxisTable

namespace Session

variable {s : Session} {a : Axis}

/-- The settings of the axes are read, unless there are none, and the read may fail. -/
theorem readAxes_eq (s : Session) :
    s.readAxes = match s.node.axes.isEmpty, s.node.failures.readAxes with
      | false, some errno => .error (.noDeviceInfo (.system errno.lookedUp))
      | _, _ => .ok s.node.axes := by
  unfold readAxes Node.readAxes
  cases s.node.failures.readAxes with
  | none => cases s.node.axes.isEmpty <;> rfl
  | some errno => cases s.node.axes.isEmpty <;> rfl

/-- The settings of an axis are read together with all others, but only if the device has it. -/
theorem axisSettings_of_contains (present : s.node.axes.contains a) :
    s.axisSettings a = match s.node.failures.readAxes with
      | none => .ok (s.node.axes.get? a)
      | some errno => .error (.noDeviceInfo (.system errno.lookedUp)) := by
  simp only [axisSettings, present, if_true, readAxes_eq, AxisTable.isEmpty_of_contains present]
  cases s.node.failures.readAxes <;> rfl

/-- The kernel is asked to change just the axis that is meant. -/
theorem setAxis_of_contains (present : s.node.axes.contains a) (settings : AxisSettings) :
    s.setAxis a settings = match s.node.failures.setAxis with
      | none => (.ok (), { s with node.axes := s.node.axes.replace a settings })
      | some errno => (.error errno, s) := by
  have within := AxisTable.number_lt_of_contains present
  simp only [setAxis, Node.setAxis, AxisRequest.axis?_number a within]
  cases s.node.failures.setAxis <;> rfl

end Session

namespace Adjustment

variable {s s' : Session} {a : Axis}

/-- An adjustment of an axis, with everything it depends on in sight. -/
theorem apply_axis (s : Session) (a : Axis) (o : AxisOverrides) :
    (axis a o).apply s =
      match s.node.axes.get? a, s.node.failures.readAxes, s.node.failures.setAxis with
      | none, _, _ => (.error (.missingAxis s.name a.name), s)
      | some _, some errno, _ => (.error (.noDeviceInfo (.system errno.lookedUp)), s)
      | some _, none, some errno => (.error (.cannotSetAxis a.name (.system errno)), s)
      | some current, none, none =>
        (.ok (), { s with node.axes := s.node.axes.replace a (o.apply current) }) := by
  cases h : s.node.axes.get? a with
  | none =>
    have absent := AxisTable.contains_of_none h
    simp [apply, Session.axisSettings, absent]
  | some current =>
    have present := AxisTable.contains_of_some h
    simp only [apply, Session.axisSettings_of_contains present, h,
      Session.setAxis_of_contains present]
    cases s.node.failures.readAxes with
    | some errno => rfl
    | none => cases s.node.failures.setAxis <;> rfl

theorem apply_led (s : Session) (l : Led) (on : Bool) :
    (led l on).apply s =
      match s.hasLed l, s.node.failures.write with
      | false, _ => (.error (.missingLed s.name l.name), s)
      | true, some errno => (.error (.cannotSetLed l.name (.system errno)), s)
      | true, none => (.ok (), { s with node.sent := s.node.sent ++ (led l on).events }) := by
  cases h : s.hasLed l with
  | false => simp [apply, h]
  | true =>
    simp only [apply, h, if_true, Session.setLed, Node.send]
    cases s.node.failures.write <;> rfl

end Adjustment

end InputGauge
