import InputGauge.Proofs.Adjustment.Adjusted

/-!
# Histories of adjustments

Adjustments are made one after the other on an open device, and each may meet other failing calls
than the ones before it. One adjustment either succeeds, and then changes what it names and
nothing else, or is refused, and then changes nothing (`made_or_refused`). By induction over the
history, the session is in the end adjusted by exactly those that succeeded, in their order
(`adjusted_after`); so no failure leaves half an adjustment behind.
-/

namespace InputGauge

namespace Adjustment

variable {s s' : Session} {us : List Adjustment}

/-! ## One adjustment -/

theorem adjusted_axis {a : Axis} {o : AxisOverrides} {current : AxisSettings}
    (h : s.node.axes.get? a = some current) :
    Adjusted [axis a o] s
      { s with node.axes := s.node.axes.replace a (o.apply current) } where
  rest := rfl
  axes b f := by
    have present := AxisTable.contains_of_some h
    have field : s.node.axes.field? a f = some (current.get f) := by simp [AxisTable.field?, h]
    rw [AxisTable.field?_replace present, lastGiven?_singleton]
    by_cases own : a = b
    · subst own
      simp [given?, field, AxisOverrides.get_apply]
    · simp [given?, own]
  sent := by simp [events]

theorem adjusted_led (s : Session) (l : Led) (on : Bool) :
    Adjusted [led l on] s { s with node.sent := s.node.sent ++ (led l on).events } where
  rest := rfl
  axes b f := by simp [lastGiven?_singleton, given?]
  sent := by simp

/-- An adjustment that can be made is made; any other is refused and leaves no trace. -/
theorem made_or_refused (u : Adjustment) (s : Session) :
    (u.Possible s ∧ ∃ s', u.apply s = (.ok (), s') ∧ Adjusted [u] s s' ∧
      s'.node.failures = s.node.failures) ∨
      ∃ fault, u.Refused s fault ∧ u.apply s = (.error fault, s) := by
  cases u with
  | axis a o =>
    cases present : s.node.axes.get? a with
    | none => exact .inr ⟨_, .missingAxis (AxisTable.contains_of_none present),
        by rw [apply_axis, present]⟩
    | some current =>
      have contains := AxisTable.contains_of_some present
      cases readable : s.node.failures.readAxes with
      | some errno => exact .inr ⟨_, .unreadable contains readable,
          by rw [apply_axis, present, readable]⟩
      | none =>
        cases settable : s.node.failures.setAxis with
        | some errno => exact .inr ⟨_, .unsettable contains readable settable,
            by rw [apply_axis, present, readable, settable]⟩
        | none => exact .inl ⟨⟨contains, readable, settable⟩, _,
            by rw [apply_axis, present, readable, settable], adjusted_axis present, rfl⟩
  | led l on =>
    cases present : s.hasLed l with
    | false => exact .inr ⟨_, .missingLed present, by rw [apply_led, present]⟩
    | true =>
      cases writable : s.node.failures.write with
      | some errno => exact .inr ⟨_, .unwritable present writable,
          by rw [apply_led, present, writable]⟩
      | none => exact .inl ⟨⟨present, writable⟩, _,
          by rw [apply_led, present, writable], adjusted_led s l on, rfl⟩

/-! ## Two adjustments of one axis -/

/-- Whether they succeed or not, two adjustments of an axis are one. If one of them fails, all
fail alike: neither changes the reasons for which they fail. -/
theorem apply_axis_axis (s : Session) (a : Axis) (earlier later : AxisOverrides) :
    (axis a later).apply ((axis a earlier).apply s).2 =
      (axis a (later.onto earlier)).apply s := by
  rw [apply_axis s a earlier, apply_axis s a (later.onto earlier)]
  cases present : s.node.axes.get? a with
  | none => simp [apply_axis, present]
  | some current =>
    cases readable : s.node.failures.readAxes with
    | some errno => simp [apply_axis, present, readable]
    | none =>
      cases settable : s.node.failures.setAxis with
      | some errno => simp [apply_axis, present, readable, settable]
      | none =>
        have contains := AxisTable.contains_of_some present
        have now : (s.node.axes.replace a (earlier.apply current)).get? a =
            some (earlier.apply current) := by
          simp [AxisTable.get?_replace, contains]
        simp only [apply_axis, now, readable, settable, AxisTable.replace_replace,
          AxisOverrides.apply_onto]

/-! ## Any number of adjustments -/

/-- An adjustment, and the calls of the node that fail when it is made. -/
structure Attempt where
  adjustment : Adjustment
  failures : Failures

namespace Attempt

/-- Makes the adjustment while these calls fail. -/
def make (t : Attempt) (s : Session) : Except Fault Unit × Session :=
  t.adjustment.apply { s with node.failures := t.failures }

theorem adjusted_failures (t : Attempt) (s : Session) :
    Adjusted [] s { s with node.failures := t.failures } where
  rest := rfl
  axes a f := by simp [lastGiven?]
  sent := by simp

end Attempt

/-- A session after attempts at adjustments. -/
def after (attempts : List Attempt) (s : Session) : Session :=
  attempts.foldl (fun s t => (t.make s).2) s

/-- The adjustments among the attempts that succeed. -/
def made : List Attempt → Session → List Adjustment
  | [], _ => []
  | t :: rest, s =>
    match t.make s with
    | (.ok (), s') => t.adjustment :: made rest s'
    | (.error _, s') => made rest s'

theorem adjusted_after (attempts : List Attempt) (s : Session) :
    Adjusted (made attempts s) s (after attempts s) := by
  induction attempts generalizing s with
  | nil => exact .refl s
  | cons t rest ih =>
    have failing := t.adjusted_failures s
    rw [after, List.foldl_cons, made]
    rcases made_or_refused t.adjustment { s with node.failures := t.failures } with
      ⟨_, s', h, adjusted, _⟩ | ⟨fault, _, h⟩
    · simp only [Attempt.make, h]
      exact failing.trans (adjusted.trans (ih s'))
    · simp only [Attempt.make, h]
      exact failing.trans (ih _)

/-! ## What the device says of itself afterwards -/

/-- The range of an axis after adjustments. -/
def rangeAfter (us : List Adjustment) (a : Axis) (r : AxisRange) : AxisRange where
  minimum := (lastGiven? us a .minimum).getD r.minimum
  maximum := (lastGiven? us a .maximum).getD r.maximum
  resolution := (lastGiven? us a .resolution).getD r.resolution

/-- Capabilities after adjustments. -/
def capabilitiesAfter (us : List Adjustment) (c : Capabilities) : Capabilities :=
  { c with
    x := c.x.map (rangeAfter us .x)
    y := c.y.map (rangeAfter us .y)
    contactX := c.contactX.map (rangeAfter us .contactX)
    contactY := c.contactY.map (rangeAfter us .contactY) }

theorem Adjusted.range (adjusted : Adjusted us s s') (a : Axis) :
    (s'.node.axes.get? a).map AxisSettings.range =
      ((s.node.axes.get? a).map AxisSettings.range).map (rangeAfter us a) := by
  have fields := adjusted.axes a
  simp only [AxisTable.field?] at fields
  cases before : s.node.axes.get? a with
  | none =>
    have still : s'.node.axes.get? a = none := by simpa [before] using fields .value
    rw [still]
    rfl
  | some settings =>
    obtain ⟨settings', now⟩ : ∃ settings', s'.node.axes.get? a = some settings' := by
      have value := fields .value
      rw [before, Option.map_some, Option.map_some, Option.map_eq_some_iff] at value
      exact value.imp fun _ h => h.1
    simp only [before, now, Option.map_some, Option.some.injEq] at fields
    have minimum : settings'.minimum = _ := fields .minimum
    have maximum : settings'.maximum = _ := fields .maximum
    have resolution : settings'.resolution = _ := fields .resolution
    rw [now, Option.map_some, AxisSettings.range, minimum, maximum, resolution]
    rfl

theorem capabilities_of_ok {c : Capabilities} (h : s.capabilities = .ok c) :
    c = {
      name := s.name
      bus := .ofNumber s.node.bus
      vendor := s.node.vendor
      product := s.node.product
      x := (s.node.axes.get? .x).map AxisSettings.range
      y := (s.node.axes.get? .y).map AxisSettings.range
      contactX := (s.node.axes.get? .contactX).map AxisSettings.range
      contactY := (s.node.axes.get? .contactY).map AxisSettings.range } := by
  rw [Session.capabilities, s.readAxes_eq] at h
  split at h
  · cases h
  · cases h
    rfl

theorem Adjusted.capabilities (adjusted : Adjusted us s s') {c c' : Capabilities}
    (h : s.capabilities = .ok c) (h' : s'.capabilities = .ok c') : c' = capabilitiesAfter us c := by
  rw [capabilities_of_ok h, capabilities_of_ok h', capabilitiesAfter]
  simp only [adjusted.range]
  rw [adjusted.rest]
  rfl

/-! ## The whole history -/

/-- Each adjustment is made in full or refused without a trace; of two for one axis the later has
the first word, so one made again changes nothing; and after a history of them, the session and
what its device says of itself are adjusted by those that were made. -/
theorem history_frame (s : Session) :
    (∀ u : Adjustment,
      (u.Possible s ∧ ∃ s', u.apply s = (.ok (), s') ∧ Adjusted [u] s s' ∧
        s'.node.failures = s.node.failures) ∨
        ∃ fault, u.Refused s fault ∧ u.apply s = (.error fault, s)) ∧
    (∀ a earlier later, (axis a later).apply ((axis a earlier).apply s).2 =
      (axis a (later.onto earlier)).apply s) ∧
    (∀ a o, (axis a o).apply ((axis a o).apply s).2 = (axis a o).apply s) ∧
    ∀ attempts, Adjusted (made attempts s) s (after attempts s) ∧
      ∀ c c', s.capabilities = .ok c → (after attempts s).capabilities = .ok c' →
        c' = capabilitiesAfter (made attempts s) c := by
  refine ⟨fun u => made_or_refused u s, apply_axis_axis s, ?_, ?_⟩
  · intro a o
    rw [apply_axis_axis, AxisOverrides.onto_self]
  · intro attempts
    have adjusted := adjusted_after attempts s
    exact ⟨adjusted, fun c c' before now => adjusted.capabilities before now⟩

end Adjustment

end InputGauge
