import InputGauge.Proofs.Adjustment.History
import InputGauge.Proofs.CommandLine.Grammar
import InputGauge.Proofs.Host
import InputGauge.Tool.Tweak

/-!
# What the tool that changes a device does

`TweakLeaves h argv` is the whole of it, one rule for each way a run can end: the command line
makes no sense, it names nothing that there is, the device cannot be opened, the change is refused,
or it is made. What a run leaves behind is exactly what the rules say (`runTweak_eq_iff`). Only the
last rule is a success, and only there the device is not as it was.

What a command line asks for is read off its words, in whatever order they stand (`Asks`,
`AsksInVain`), and what a change makes of a device off its single settings (`Changed`).
-/

namespace InputGauge

open CommandLine

/-! ## The device -/

namespace Adjustment

/-- The device after one change: each field that is given anew holds what is given, the events of
the light, if any, are sent after those sent before, and all else is as it was. -/
structure Changed (u : Adjustment) (n n' : Node) : Prop where
  rest : n' = { n with axes := n'.axes, sent := n'.sent }
  axes : ∀ a f, n'.axes.field? a f = (n.axes.field? a f).map fun old => (u.given? a f).getD old
  sent : n'.sent = n.sent ++ u.events

variable {u : Adjustment} {n n' n'' : Node} {s : Session} {fault : Fault}

theorem Changed.unique (h : Changed u n n') (h' : Changed u n n'') : n' = n'' := by
  have axes : n'.axes = n''.axes :=
    AxisTable.eq_of_field? fun a f => (h.axes a f).trans (h'.axes a f).symm
  rw [h.rest, h'.rest, axes, h.sent, h'.sent]

/-- A change that is possible is made, and the device is then changed by just that. -/
theorem apply_of_possible (possible : u.Possible s) :
    ∃ s', u.apply s = (.ok (), s') ∧ Changed u s.node s'.node := by
  rcases made_or_refused u s with ⟨-, s', made, adjusted, failures⟩ | ⟨fault, refused, -⟩
  · refine ⟨s', made, ?_, fun a f => ?_, ?_⟩
    · rw [adjusted.rest, failures]
    · rw [adjusted.axes, lastGiven?_singleton]
    · simpa using adjusted.sent
  · cases refused with
    | missingAxis absent => cases absent.symm.trans possible.1
    | unreadable _ fails => cases fails.symm.trans possible.2.1
    | unsettable _ _ fails => cases fails.symm.trans possible.2.2
    | missingLed absent => cases absent.symm.trans possible.1
    | unwritable _ fails => cases fails.symm.trans possible.2

/-- A change that is refused leaves the device as it was. -/
theorem apply_of_refused (refused : u.Refused s fault) : u.apply s = (.error fault, s) := by
  cases refused with
  | missingAxis absent => simp [apply, Session.axisSettings, absent]
  | unreadable present fails =>
    obtain ⟨settings, current⟩ := Option.isSome_iff_exists.mp present
    rw [apply_axis, current, fails]
  | unsettable present readable fails =>
    obtain ⟨settings, current⟩ := Option.isSome_iff_exists.mp present
    rw [apply_axis, current, readable, fails]
  | missingLed absent => rw [apply_led, absent]
  | unwritable present fails => rw [apply_led, present, fails]

end Adjustment

/-! ## The command line -/

/-- The option that gives a field anew. Nothing gives the current value. -/
def AxisField.key? : AxisField → Option Key
  | .value => none
  | .minimum => some .minimum
  | .maximum => some .maximum
  | .fuzz => some .fuzz
  | .flat => some .flat
  | .resolution => some .resolution

namespace CommandLine

/-- A command line that is accepted, and its words. -/
def Accepted (argv : List Bytes) (ws : List Word) : Prop :=
  ∃ program args, argv = program :: args ∧ Reads args ws ∧ Permitted ws

/-- What words ask for: the axis that is named, with the fields that options give, each with the
number that stands there; or the light that is named, the way that its switch says. -/
inductive Asks (ws : List Word) : Adjustment → Prop where
  | axis {name : String} {a : Axis} {o : AxisOverrides} :
      .value .axis (.ofString name) ∈ ws → Axis.parse? name = some a →
      (∀ f n, o.given? f = some n ↔ ∃ key ∈ f.key?, ∃ bytes : Bytes,
        .value key bytes ∈ ws ∧ (Word.value key bytes).Means (.number n)) →
      Asks ws (.axis a o)
  | led {name : String} {l : Led} {on : Bool} :
      .value .led (.ofString name) ∈ ws → Led.parse? name = some l → .switch on ∈ ws →
      Asks ws (.led l on)

/-- Words that name an axis or a light that there is not. -/
inductive AsksInVain (ws : List Word) : Fault → Prop where
  | axis {name : String} : .value .axis (.ofString name) ∈ ws → Axis.parse? name = none →
      AsksInVain ws (.unknownAxis name)
  | led {name : String} : .value .led (.ofString name) ∈ ws → Led.parse? name = none →
      AsksInVain ws (.unknownLed name)

variable {ws : List Word} {o : TweakOptions}

namespace Holds

/-- The options give a field anew just when a number for it stands among the words. -/
theorem given?_iff (holds : Holds o ws) (f : AxisField) (n : Int32) :
    o.overrides.given? f = some n ↔ ∃ key ∈ f.key?, ∃ bytes : Bytes,
      .value key bytes ∈ ws ∧ (Word.value key bytes).Means (.number n) := by
  have place : o.overrides.given? f = some n ↔
      ∃ key ∈ f.key?, o.at? (.value key) = some (.number n) := by
    cases f <;> simp [AxisOverrides.given?, AxisField.key?, TweakOptions.at?]
  rw [place]
  refine exists_congr fun key => and_congr_right fun _ => ?_
  rw [holds]
  constructor
  · rintro ⟨w, mem, at_, meant⟩
    cases meant with
    | number numeric numeral =>
      cases at_
      exact ⟨_, mem, .number numeric numeral⟩
  · rintro ⟨bytes, mem, meant⟩
    exact ⟨_, mem, rfl, meant⟩

end Holds

/-- The options of a command line ask for what its words ask for. -/
theorem adjustment_of_asks {u : Adjustment} (permitted : Permitted ws) (holds : Holds o ws)
    (asks : Asks ws u) : o.adjustment = .ok u := by
  cases asks with
  | @axis name a overrides named known given =>
    have same : o.overrides = overrides := by
      apply AxisOverrides.eq_of_given?
      intro f
      exact Option.ext fun n => (holds.given?_iff f n).trans (given f n).symm
    simp only [TweakOptions.adjustment, (holds.axis_eq_some_iff name).mpr named, known, same]
  | @led name l on named known switched =>
    have way : o.on = on := by
      have isOn := holds.on_iff permitted.meaning
      cases on with
      | true => exact isOn.mpr switched
      | false => exact Bool.eq_false_iff.mpr fun h => permitted.oneWay ⟨isOn.mp h, switched⟩
    simp only [TweakOptions.adjustment, holds.axis_eq_none_of_led permitted ⟨_, named⟩,
      (holds.led_eq_some_iff name).mpr named, Option.getD_some, known, way]

theorem adjustment_of_asksInVain {fault : Fault} (permitted : Permitted ws) (holds : Holds o ws)
    (vain : AsksInVain ws fault) : o.adjustment = .error fault := by
  cases vain with
  | @axis name named unknown =>
    simp only [TweakOptions.adjustment, (holds.axis_eq_some_iff name).mpr named, unknown]
  | @led name named unknown =>
    simp only [TweakOptions.adjustment, holds.axis_eq_none_of_led permitted ⟨_, named⟩,
      (holds.led_eq_some_iff name).mpr named, Option.getD_some, unknown]

/-- An acceptable command line asks for something, be it in vain. -/
theorem asks_or_asksInVain (permitted : Permitted ws) (holds : Holds o ws) :
    (∃ u, Asks ws u) ∨ ∃ fault, AsksInVain ws fault := by
  by_cases light : ∃ name, .value .led name ∈ ws
  · obtain ⟨name, isLed⟩ := holds.exists_led permitted.meaning light
    have named := (holds.led_eq_some_iff name).mp isLed
    cases known : Led.parse? name with
    | none => exact .inr ⟨_, .led named known⟩
    | some l =>
      rcases permitted.switched light with on | off
      · exact .inl ⟨_, .led named known on⟩
      · exact .inl ⟨_, .led named known off⟩
  · obtain ⟨name, isAxis⟩ := holds.exists_axis permitted.meaning (permitted.either.mpr light)
    have named := (holds.axis_eq_some_iff name).mp isAxis
    cases known : Axis.parse? name with
    | none => exact .inr ⟨_, .axis named known⟩
    | some a => exact .inl ⟨_, .axis named known holds.given?_iff⟩

/-- A command line that is read has words that are acceptable, and the options hold what they
mean. -/
theorem exists_accepted {argv : List Bytes} (h : TweakOptions.parse? argv = some o) :
    ∃ ws, Accepted argv ws ∧ Permitted ws ∧ Holds o ws := by
  cases argv with
  | nil => cases h
  | cons program args =>
    obtain ⟨ws, reads, permitted, holds⟩ := TweakOptions.parse?_eq_some_iff.mp h
    exact ⟨ws, ⟨program, args, rfl, reads, permitted⟩, permitted, holds⟩

theorem Accepted.exists_options {argv : List Bytes} (accepted : Accepted argv ws) :
    ∃ o, TweakOptions.parse? argv = some o ∧ Permitted ws ∧ Holds o ws := by
  obtain ⟨program, args, rfl, reads, permitted⟩ := accepted
  obtain ⟨o, read, holds⟩ := TweakOptions.exists_parse?_of_permitted reads permitted
  exact ⟨o, read, permitted, holds⟩

theorem Accepted.exists_device {argv : List Bytes} (accepted : Accepted argv ws) :
    ∃ path, .device path ∈ ws := by
  obtain ⟨_, _, _, _, permitted⟩ := accepted
  obtain ⟨path, named, -⟩ := permitted.device
  exact ⟨path, named⟩

end CommandLine

/-! ## The tool -/

namespace Tool

/-- What the tool leaves behind: how it ends, what it prints, what it reports as an error, and the
device, if it was opened. -/
inductive TweakLeaves (h : Host) (argv : List Bytes) : Outcome → Prop where
  | usage : (¬ ∃ ws, Accepted argv ws) →
      TweakLeaves h argv
        { exit := 1, output := (tweakUsage (startedAs tweakName argv)).toUTF8, errors := "",
          node := none }
  /-- Whether the device could have been opened does not matter. -/
  | unknown {ws fault} : Accepted argv ws → AsksInVain ws fault →
      TweakLeaves h argv
        { exit := 1, output := .empty, errors := fault.message ++ "\n", node := none }
  | unopened {ws u path fault} : Accepted argv ws → Asks ws u → .device path ∈ ws →
      h.Unopened path fault →
      TweakLeaves h argv
        { exit := 1, output := .empty, errors := fault.message ++ "\n", node := none }
  | refused {ws u path n fault} : Accepted argv ws → Asks ws u → .device path ∈ ws →
      h.Opens path n → u.Refused (.opened n path) fault →
      TweakLeaves h argv
        { exit := 1, output := .empty, errors := fault.message ++ "\n", node := some n }
  | made {ws u path n n'} : Accepted argv ws → Asks ws u → .device path ∈ ws →
      h.Opens path n → u.Possible (.opened n path) → u.Changed n n' →
      TweakLeaves h argv { exit := 0, output := .empty, errors := "", node := some n' }

variable {h : Host} {argv : List Bytes} {ws : List Word} {u : Adjustment} {path : Bytes}

/-- A command line that is accepted comes to the change that it asks for. -/
theorem runTweak_of_asks (accepted : Accepted argv ws) (asks : Asks ws u)
    (named : .device path ∈ ws) :
    runTweak h argv =
      match h.openSession path with
      | .error fault => .ofFault fault .empty none
      | .ok s =>
        match u.apply s with
        | (.error fault, s) => .ofFault fault .empty (some s.node)
        | (.ok (), s) => { exit := 0, output := .empty, errors := "", node := some s.node } := by
  obtain ⟨o, read, permitted, holds⟩ := accepted.exists_options
  simp only [runTweak, read, adjust, adjustment_of_asks permitted holds asks,
    (holds.device_iff path).mpr named, Option.getD_some]
  rfl

/-- Every rule describes a run. -/
theorem runTweak_of_leaves {out : Outcome} (leaves : TweakLeaves h argv out) :
    runTweak h argv = out := by
  cases leaves with
  | usage senseless =>
    have none : TweakOptions.parse? argv = none := by
      refine Option.eq_none_iff_forall_ne_some.mpr fun o read => ?_
      obtain ⟨ws, accepted, -⟩ := exists_accepted read
      exact senseless ⟨ws, accepted⟩
    rw [runTweak, none]
    rfl
  | unknown accepted vain =>
    obtain ⟨o, read, permitted, holds⟩ := accepted.exists_options
    simp only [runTweak, read, adjust, adjustment_of_asksInVain permitted holds vain]
    rfl
  | unopened accepted asks named unopened =>
    rw [runTweak_of_asks accepted asks named, Host.openSession_of_unopened unopened]
    rfl
  | refused accepted asks named opens refused =>
    rw [runTweak_of_asks accepted asks named, Host.openSession_of_opens opens]
    simp only [Adjustment.apply_of_refused refused]
    rfl
  | @made _ _ _ n n' accepted asks named opens possible changed =>
    obtain ⟨s', made, changed'⟩ := Adjustment.apply_of_possible possible
    rw [runTweak_of_asks accepted asks named, Host.openSession_of_opens opens]
    simp only [made, changed.unique changed']

/-- Every run is described by a rule. -/
theorem exists_leaves (h : Host) (argv : List Bytes) : ∃ out, TweakLeaves h argv out := by
  -- The steps in the order in which they are taken; the first that fails decides.
  by_cases sensible : ∃ ws, Accepted argv ws
  · obtain ⟨ws, accepted⟩ := sensible
    obtain ⟨o, -, permitted, holds⟩ := accepted.exists_options
    obtain ⟨path, named⟩ := accepted.exists_device
    rcases asks_or_asksInVain permitted holds with ⟨u, asks⟩ | ⟨fault, vain⟩
    · rcases h.opens_or_unopened path with ⟨n, opens⟩ | ⟨fault, unopened⟩
      · rcases Adjustment.made_or_refused u (.opened n path) with
          ⟨possible, -⟩ | ⟨fault, refused, -⟩
        · obtain ⟨s', -, changed⟩ := Adjustment.apply_of_possible possible
          exact ⟨_, .made accepted asks named opens possible changed⟩
        · exact ⟨_, .refused accepted asks named opens refused⟩
      · exact ⟨_, .unopened accepted asks named unopened⟩
    · exact ⟨_, .unknown accepted vain⟩
  · exact ⟨_, .usage sensible⟩

/-- A run leaves behind what one of the rules says, for every command line and whatever can be
opened and fails. It succeeds just when the command line makes sense, what it names exists, the
device can be opened and the change can be made, and otherwise ends with one. -/
theorem runTweak_eq_iff (h : Host) (argv : List Bytes) :
    (∀ out, runTweak h argv = out ↔ TweakLeaves h argv out) ∧
    ((runTweak h argv).exit = 0 ↔ ∃ ws u path n, Accepted argv ws ∧ Asks ws u ∧
      .device path ∈ ws ∧ h.Opens path n ∧ u.Possible (.opened n path)) ∧
    ((runTweak h argv).exit = 0 ∨ (runTweak h argv).exit = 1) := by
  obtain ⟨left, leaves⟩ := exists_leaves h argv
  have ran := runTweak_of_leaves leaves
  have rules : ∀ out, runTweak h argv = out ↔ TweakLeaves h argv out :=
    fun out => ⟨fun same => same ▸ ran ▸ leaves, runTweak_of_leaves⟩
  refine ⟨rules, ⟨fun success => ?_, ?_⟩, ?_⟩
  · rw [ran] at success
    cases leaves with
    | made accepted asks named opens possible _ =>
      exact ⟨_, _, _, _, accepted, asks, named, opens, possible⟩
    | usage => cases success
    | unknown => cases success
    | unopened => cases success
    | refused => cases success
  · rintro ⟨ws, u, path, n, accepted, asks, named, opens, possible⟩
    obtain ⟨s', -, changed⟩ := Adjustment.apply_of_possible possible
    rw [runTweak_of_leaves (.made accepted asks named opens possible changed)]
  · rw [ran]
    cases leaves with
    | made => exact .inl rfl
    | usage => exact .inr rfl
    | unknown => exact .inr rfl
    | unopened => exact .inr rfl
    | refused => exact .inr rfl

end Tool

end InputGauge
