import InputGauge.Proofs.Adjustment.History
import InputGauge.Proofs.Extent.Size
import InputGauge.Proofs.Host
import InputGauge.Proofs.Session.Course
import InputGauge.Proofs.Session.Holding
import InputGauge.Tool.Measure

/-!
# What the tools that measure do

`Leaves m h argv` is the whole of what a measuring tool does, one rule for each way it can end.
The command line may make no sense; the device may not open; one of the checks may object
(`Objects`, in the order in which they are made); the user's interrupt may not be waited for. If
none of this happens, the tool runs, and prints its introduction, the line for each sync that the
run took, and the report on exactly what it took, also where the run ended with a fault. Two things
keep it from its report: a time that is beyond the clock, and a size that is.

A tool leaves behind exactly what the rules say (`run_eq_iff`). For the two tools that there are,
`outcomes` also says what the checks and the reports ask of a device, and what a run takes from one
whose times can all be told.
-/

namespace InputGauge

open CommandLine

/-! ## The device before the run -/

namespace Session

variable {s : Session} {errno : Errno}

/-- A device with axes whose settings cannot be read does not say what it is; any other does. -/
theorem capabilities_of_unreadable (axes : s.node.axes.isEmpty = false)
    (fails : s.node.failures.readAxes = some errno) :
    s.capabilities = .error (.noDeviceInfo (.system errno.lookedUp)) := by
  rw [capabilities, readAxes_eq, axes, fails]
  rfl

theorem capabilities_cases (s : Session) :
    (∃ c, s.capabilities = .ok c) ∨
      ∃ errno, s.node.axes.isEmpty = false ∧ s.node.failures.readAxes = some errno := by
  rw [capabilities, readAxes_eq]
  split
  · next errno axes fails => exact .inr ⟨errno, axes, fails⟩
  · exact .inl ⟨_, rfl⟩

end Session

namespace Tool.Measuring

variable {γ : Type} {m : Measuring γ} {s : Session} {c : Capabilities} {fault : Fault}

/-- Why a device is not measured, and the device then: the first of the checks that objects. -/
inductive Objects (m : Measuring γ) (s : Session) : Fault → Node → Prop where
  | unreadable {errno : Errno} :
      s.node.axes.isEmpty = false → s.node.failures.readAxes = some errno →
      Objects m s (.noDeviceInfo (.system errno.lookedUp)) s.node
  | unfit {c : Capabilities} {fault : Fault} :
      s.capabilities = .ok c → m.admits c = .error fault → Objects m s fault s.node
  | held {c : Capabilities} {errno : Errno} : s.capabilities = .ok c → m.admits c = .ok () →
      s.node.failures.grab = some errno →
      Objects m s (.cannotGrab s.path (.system errno.lookedUp))
        { s.node with grabs := s.node.grabs ++ [true] }

/-- No check objects to a device, which says of itself that it is `c`. -/
structure Passes (m : Measuring γ) (s : Session) (c : Capabilities) : Prop where
  described : s.capabilities = .ok c
  admitted : m.admits c = .ok ()
  free : s.node.failures.grab = none

theorem prepare_of_objects {n : Node} (fresh : s.grabbed = false) (objects : m.Objects s fault n) :
    ∃ s', m.prepare s = (.error fault, s') ∧ s'.node = n := by
  cases objects with
  | unreadable axes fails =>
    exact ⟨s, by rw [prepare, Session.capabilities_of_unreadable axes fails], rfl⟩
  | unfit described unfit => exact ⟨s, by simp only [prepare, described, unfit], rfl⟩
  | held described admitted held =>
    exact ⟨{ s with node := { s.node with grabs := s.node.grabs ++ [true] } },
      by simp only [prepare, described, admitted, Session.checkGrab_of_held fresh held], rfl⟩

theorem prepare_of_passes (fresh : s.grabbed = false) (passes : m.Passes s c) :
    m.prepare s = (.ok c, s.probed) := by
  simp only [prepare, passes.described, passes.admitted, Session.checkGrab_of_free fresh passes.free]

theorem passes_or_objects (m : Measuring γ) (s : Session) :
    (∃ c, m.Passes s c) ∨ ∃ fault n, m.Objects s fault n := by
  rcases s.capabilities_cases with ⟨c, described⟩ | ⟨errno, axes, fails⟩
  · cases admitted : m.admits c with
    | error fault => exact .inr ⟨fault, _, .unfit described admitted⟩
    | ok =>
      cases free : s.node.failures.grab with
      | some errno => exact .inr ⟨_, _, .held described admitted free⟩
      | none => exact .inl ⟨c, described, admitted, free⟩
  · exact .inr ⟨_, _, .unreadable axes fails⟩

/-! ## The run and what follows -/

/-- What a run is on: a device that passed the checks, and the user in front of it. -/
def attended (h : Host) (s : Session) : Attended := { session := s.probed, waits := h.waits }

/-- How a tool exits whose run ended so. -/
def status : Except Fault Unit → UInt8
  | .ok () => 0
  | .error _ => 1

/-- What a tool reports as an error if its run ended so. -/
def complaint : Except Fault Unit → String
  | .ok () => ""
  | .error fault => "\n" ++ fault.message ++ "\n"

/-- A device that a command line names is open and passes the checks. -/
structure Starts (m : Measuring γ) (h : Host) (argv : List Bytes) (path : Bytes) (n : Node)
    (c : Capabilities) : Prop where
  named : device? argv = some path
  opens : h.Opens path n
  passes : m.Passes (.opened n path) c

variable [Gauge γ]

/-- What a measuring tool leaves behind: how it ends, what it prints, what it reports as an error,
and the device, if it was opened. -/
inductive Leaves (m : Measuring γ) (h : Host) (argv : List Bytes) : Outcome → Prop where
  | usage : device? argv = none →
      Leaves m h argv
        { exit := 1, output := (CommandLine.usage (startedAs m.name argv) m.about).toUTF8,
          errors := "", node := none }
  | unopened {path : Bytes} {fault : Fault} :
      device? argv = some path → h.Unopened path fault →
      Leaves m h argv
        { exit := 1, output := .empty, errors := fault.message ++ "\n", node := none }
  | objected {path : Bytes} {n n' : Node} {fault : Fault} :
      device? argv = some path → h.Opens path n → m.Objects (.opened n path) fault n' →
      Leaves m h argv
        { exit := 1, output := .empty, errors := fault.message ++ "\n", node := some n' }
  /-- The user is told already what to do, but could not stop the run. -/
  | unarmed {path n c} {errno : Errno} :
      m.Starts h argv path n c → h.holdInterrupt.or h.interruptDescriptor = some errno →
      Leaves m h argv
        { exit := 1
          output := (m.introduction c (Utf8.lossy path)).toUTF8
          errors := (Fault.cannotWait (.system errno)).message ++ "\n"
          node := some (Session.opened n path).probed.node }
  /-- The run may have ended with a fault; what it took before is reported on. -/
  | reported {path n c es ended a} {report : String} :
      m.Starts h argv path n c → h.holdInterrupt.or h.interruptDescriptor = none →
      RunYields (attended h (.opened n path)) es ended a →
      (∀ step, ended ≠ .error (.overflow step)) →
      m.report c (identity h c) (Gauge.observeAll Gauge.fresh es) = .ok report →
      Leaves m h argv
        { exit := status ended
          output := (m.introduction c (Utf8.lossy path)).toUTF8 ++
            Terminal.redrawn (Gauge.lines (Gauge.fresh : γ) es) ++ "\n".toUTF8 ++ report.toUTF8
          errors := complaint ended
          node := some a.session.node }
  /-- A size in the report is beyond its type. -/
  | unreported {path n c es ended a} {step : Overflow} :
      m.Starts h argv path n c → h.holdInterrupt.or h.interruptDescriptor = none →
      RunYields (attended h (.opened n path)) es ended a →
      (∀ step, ended ≠ .error (.overflow step)) →
      m.report c (identity h c) (Gauge.observeAll Gauge.fresh es) = .error step →
      Leaves m h argv
        { exit := 101
          output := (m.introduction c (Utf8.lossy path)).toUTF8 ++
            Terminal.redrawn (Gauge.lines (Gauge.fresh : γ) es) ++ "\n".toUTF8
          errors := complaint ended ++ step.message ++ "\n"
          node := some a.session.node }
  /-- A time is beyond the clock. -/
  | broken {path n c es a} {step : Overflow} :
      m.Starts h argv path n c → h.holdInterrupt.or h.interruptDescriptor = none →
      RunYields (attended h (.opened n path)) es (.error (.overflow step)) a →
      Leaves m h argv
        { exit := 101
          output := (m.introduction c (Utf8.lossy path)).toUTF8 ++
            Terminal.redrawn (Gauge.lines (Gauge.fresh : γ) es)
          errors := step.message ++ "\n"
          node := some a.session.node }

variable {h : Host} {argv : List Bytes} {path : Bytes} {n : Node} {es : List Event}
  {ended : Except Fault Unit} {a : Attended}

theorem armInterrupt_eq (h : Host) :
    h.armInterrupt =
      match h.holdInterrupt.or h.interruptDescriptor with
      | some errno => .error (.cannotWait (.system errno))
      | none => .ok () := by
  unfold Host.armInterrupt
  cases h.holdInterrupt <;> cases h.interruptDescriptor <;> rfl

/-- A terminal that takes everything, with some bytes on it. -/
def printed (bytes : ByteArray) : Terminal := { written := bytes, room := none, flushes := none }

theorem print_printed (bytes : ByteArray) (text : String) :
    (printed bytes).print text = printed (bytes ++ text.toUTF8) := rfl

theorem print_endless (text : String) : Terminal.endless.print text = printed text.toUTF8 := by
  have nothing : Terminal.endless = printed .empty := rfl
  rw [nothing, print_printed, ByteArray.empty_append]

/-- With the device open and all checks passed, the signal setup and the run are left. -/
theorem run_of_starts (starts : m.Starts h argv path n c) :
    m.run h argv =
      match h.holdInterrupt.or h.interruptDescriptor with
      | some errno =>
        .ofFault (.cannotWait (.system errno)) (m.introduction c (Utf8.lossy path)).toUTF8
          (some (Session.opened n path).probed.node)
      | none =>
        m.conclude h c (Watch.run
          { source := attended h (.opened n path), gauge := Gauge.fresh
            terminal := printed (m.introduction c (Utf8.lossy path)).toUTF8 }) := by
  simp only [run, starts.named, Host.openSession_of_opens starts.opens, measure,
    prepare_of_passes rfl starts.passes, armInterrupt_eq, print_endless]
  cases h.holdInterrupt.or h.interruptDescriptor <;> rfl

/-- The run leaves the gauge and the terminal after just the events that it took. -/
theorem run_of_yields (starts : m.Starts h argv path n c)
    (armed : h.holdInterrupt.or h.interruptDescriptor = none)
    (yields : RunYields (attended h (.opened n path)) es ended a) :
    m.run h argv = m.conclude h c
      (ended,
        { source := a, gauge := Gauge.observeAll Gauge.fresh es
          terminal := printed ((m.introduction c (Utf8.lossy path)).toUTF8 ++
            Terminal.redrawn (Gauge.lines (Gauge.fresh : γ) es)) }) := by
  let w : Watch Attended γ :=
    { source := attended h (.opened n path), gauge := Gauge.fresh
      terminal := printed (m.introduction c (Utf8.lossy path)).toUTF8 }
  have shows : w.Shows es := ⟨nofun, nofun⟩
  have ran : w.run = _ := Watch.run_of_yields yields shows
  rw [run_of_starts starts, armed]
  exact congrArg (m.conclude h c) ran

omit [Gauge γ] in
/-- Unless a time was beyond the clock, the report follows the run, however the run ended. -/
theorem conclude_eq {g : γ} {written : ByteArray}
    (whole : ∀ step, ended ≠ .error (.overflow step)) :
    m.conclude h c (ended, { source := a, gauge := g, terminal := printed written }) =
      match m.report c (identity h c) g with
      | .error step =>
        { exit := 101, output := written ++ "\n".toUTF8,
          errors := complaint ended ++ step.message ++ "\n", node := some a.session.node }
      | .ok report =>
        { exit := status ended, output := written ++ "\n".toUTF8 ++ report.toUTF8,
          errors := complaint ended, node := some a.session.node } := by
  cases ended with
  | ok => rfl
  | error fault =>
    cases fault with
    | overflow step => exact absurd rfl (whole step)
    | _ => rfl

/-- Every rule describes a run. -/
theorem run_of_leaves {out : Outcome} (leaves : m.Leaves h argv out) : m.run h argv = out := by
  cases leaves with
  | usage senseless =>
    rw [run, senseless]
    rfl
  | unopened named unopened =>
    simp only [run, named, Host.openSession_of_unopened unopened]
    rfl
  | objected named opens objects =>
    obtain ⟨s', prepared, rfl⟩ := prepare_of_objects rfl objects
    simp only [run, named, Host.openSession_of_opens opens, measure, prepared]
    rfl
  | unarmed starts fails =>
    rw [run_of_starts starts, fails]
    rfl
  | reported starts armed yields whole reports =>
    rw [run_of_yields starts armed yields, conclude_eq whole, reports]
  | unreported starts armed yields whole fails =>
    rw [run_of_yields starts armed yields, conclude_eq whole, fails]
  | broken starts armed yields =>
    rw [run_of_yields starts armed yields]
    rfl

/-- Every run is described by a rule. -/
theorem exists_leaves (m : Measuring γ) (h : Host) (argv : List Bytes) :
    ∃ out, m.Leaves h argv out := by
  -- The checks in the order in which they are made; the first that objects decides.
  cases named : device? argv with
  | none => exact ⟨_, .usage named⟩
  | some path =>
    rcases h.opens_or_unopened path with ⟨n, opens⟩ | ⟨fault, unopened⟩
    · rcases passes_or_objects m (.opened n path) with ⟨c, passes⟩ | ⟨fault, n', objects⟩
      · have starts : m.Starts h argv path n c := ⟨named, opens, passes⟩
        cases armed : h.holdInterrupt.or h.interruptDescriptor with
        | some errno => exact ⟨_, .unarmed starts armed⟩
        | none =>
          obtain ⟨es, ended, a, yields⟩ := exists_runYields (attended h (.opened n path))
          by_cases whole : ∀ step, ended ≠ .error (.overflow step)
          · cases reports : m.report c (identity h c) (Gauge.observeAll Gauge.fresh es) with
            | ok report => exact ⟨_, .reported starts armed yields whole reports⟩
            | error step => exact ⟨_, .unreported starts armed yields whole reports⟩
          · rw [Classical.not_forall] at whole
            obtain ⟨step, overflows⟩ := whole
            obtain rfl := Classical.not_not.mp overflows
            exact ⟨_, .broken starts armed yields⟩
      · exact ⟨_, .objected named opens objects⟩
    · exact ⟨_, .unopened named unopened⟩

/-- A run leaves behind exactly what the rules say. -/
theorem run_eq_iff (m : Measuring γ) (h : Host) (argv : List Bytes) (out : Outcome) :
    m.run h argv = out ↔ m.Leaves h argv out := by
  obtain ⟨left, leaves⟩ := exists_leaves m h argv
  exact ⟨fun same => same ▸ run_of_leaves leaves ▸ leaves, run_of_leaves⟩

/-! ## The two tools -/

theorem ofExtent_admits (c : Capabilities) :
    ofExtent.admits c = if c.x.isSome ∧ c.y.isSome then .ok () else .error .noPositionAxes := by
  show (if c.hasPosition then _ else _) = _
  simp only [Capabilities.hasPosition, Bool.and_eq_true]

/-- Only a size can keep the report on an extent away. -/
theorem ofExtent_report_eq_error_iff (c : Capabilities) (machine : String) (g : ExtentGauge)
    (step : Overflow) : ofExtent.report c machine g = .error step ↔ c.size = .error step :=
  g.extent.report_eq_error_iff c machine step

/-- The two tools, for every command line and whatever can be opened and fails: each leaves behind
exactly what its rules say. A mouse is always admitted, and the report on it never fails. A touchpad
is admitted if it has both axes of the pointer, and the report on it fails only if its size does.
Where all times in the queue can be told, the run takes what its course says, and no time ends it.
-/
theorem outcomes (h : Host) (argv : List Bytes) :
    ((∀ out, ofMotion.run h argv = out ↔ ofMotion.Leaves h argv out) ∧
      (∀ c, ofMotion.admits c = .ok ()) ∧
      ∀ c machine g step, ofMotion.report c machine g ≠ .error step) ∧
    ((∀ out, ofExtent.run h argv = out ↔ ofExtent.Leaves h argv out) ∧
      (∀ c, ofExtent.admits c =
        if c.x.isSome ∧ c.y.isSome then .ok () else .error .noPositionAxes) ∧
      ∀ c machine g step, ofExtent.report c machine g = .error step ↔ c.size = .error step) ∧
    ∀ path n es ended a, n.torn = false → (∀ raw ∈ n.queue, raw.Timely) →
      RunYields (attended h (.opened n path)) es ended a →
        (Session.opened n path).feed.course h.waits = (es, ended) ∧
          ∀ step, ended ≠ .error (.overflow step) := by
  refine ⟨⟨run_eq_iff ofMotion h argv, fun c => rfl, fun c machine g step => nofun⟩,
    ⟨run_eq_iff ofExtent h argv, ofExtent_admits, ofExtent_report_eq_error_iff⟩, ?_⟩
  intro path n es ended a whole timely yields
  have course : (Session.opened n path).feed.course h.waits = (es, ended) :=
    Attended.course_of_yields yields ⟨whole, timely⟩ rfl
  refine ⟨course, fun step overflows => ?_⟩
  have never := Feed.course_ne_overflow (Session.opened n path).feed h.waits step
  rw [course] at never
  exact never overflows

/-- A mouse that moves once, overruns, and moves again. -/
def overrun : Node :=
  { name := "Mouse", bus := 3, vendor := 1, product := 2, axes := .ofFn fun _ => none, leds := []
    queue := [⟨1, 0, 2, 0, 5⟩, ⟨1, 0, 0, 0, 0⟩, ⟨1, 7, 0, 3, 0⟩, ⟨1, 9, 2, 0, 5⟩] }

/-- It is all that can be opened, and the first wait is interrupted. -/
def overrunHost : Host := { device? := fun _ => .ok (some overrun), waits := [some .interrupted] }

theorem outcomes_overrun :
    overrun.torn = false ∧ (∀ raw ∈ overrun.queue, raw.Timely) ∧
      ∃ a, RunYields (attended overrunHost (.opened overrun []))
        [⟨.relative, 0, 5, 1000000⟩, ⟨.sync, 0, 0, 1000000⟩] (.error .cannotKeepUp) a := by
  have timely : ∀ raw ∈ overrun.queue, raw.Timely := by decide
  obtain ⟨es, ended, a, yields⟩ := exists_runYields (attended overrunHost (.opened overrun []))
  have course := ((outcomes overrunHost []).2.2 [] overrun es ended a rfl timely yields).1
  obtain ⟨rfl, rfl⟩ := Prod.mk.inj course
  exact ⟨rfl, timely, a, yields⟩

/-- A mouse with a record of the second before the epoch. -/
def earlyMouse : Node := { overrun with queue := [⟨-1, 0, 2, 0, 5⟩, ⟨1, 0, 0, 0, 0⟩] }

/-- It is not reported on: after the introduction nothing more is printed. -/
theorem run_earlyMouse :
    let out := ofMotion.run { device? := fun _ => .ok (some earlyMouse) }
      (["mouse-dpi-tool", "/dev/input/event0"].map Bytes.ofString)
    out.exit = 101 ∧
      out.output = (
        "Mouse Mouse on /dev/input/event0\n" ++
        "Move the device 250mm/10in or more along the x-axis.\n" ++
        "Pause 3 seconds before movement to reset, Ctrl+C to exit.\n").toUTF8 := by
  intro out
  let h : Host := { device? := fun _ => .ok (some earlyMouse) }
  let argv := ["mouse-dpi-tool", "/dev/input/event0"].map Bytes.ofString
  let path := Bytes.ofString "/dev/input/event0"
  have named : device? argv = some path := by decide +kernel
  have starts : ofMotion.Starts h argv path earlyMouse _ :=
    ⟨named, ⟨rfl, rfl, rfl⟩, ⟨rfl, rfl, rfl⟩⟩
  have yields :
      RunYields (attended h (.opened earlyMouse path)) [] (.error (.overflow .before)) _ :=
    .cut rfl (.failed rfl)
  have ran : out = _ := run_of_leaves (.broken starts rfl yields)
  have nothing : Terminal.redrawn (Gauge.lines (Gauge.fresh : MotionGauge) []) = .empty := rfl
  have shown : Utf8.lossy path = "/dev/input/event0" := by decide +kernel
  rw [ran, nothing, shown, ByteArray.append_empty]
  exact ⟨rfl, rfl⟩

end Tool.Measuring

end InputGauge
