import InputGauge.Proofs.CommandLine.Grammar

/-!
# Options of the other form

A command line changes an axis or it switches a light, and every option but the device belongs to
one of these forms. One would expect an option of the other form to be an error. It is not: it is
tolerated, as long as it is not the one that names what to change (`idle_accepted`).

What is tolerated is also idle. A command line is accepted just when its words of one form are
acceptable by themselves and the others are tolerated, and it asks for the same change to the same
device as the words of the form alone (`accepted_iff_own`).
-/

namespace InputGauge.CommandLine

/-- What a command line changes. -/
inductive Form where
  | axis
  | led
  deriving DecidableEq

/-- The option that names what is changed. -/
def Form.key : Form → Key
  | axis => .axis
  | led => .led

def Form.other : Form → Form
  | axis => led
  | led => axis

/-- Whether a command line of a form looks at a place. -/
def Place.serves (form : Form) : Place → Bool
  | value key =>
    match form with
    | .axis => key != .led
    | .led => key == .led
  | switch _ => form == .led
  | device => true

/-- The words that a command line of a form looks at. -/
def own (form : Form) (ws : List Word) : List Word := ws.filter fun w => w.place.serves form

/-- The words that it does not look at. -/
def idle (form : Form) (ws : List Word) : List Word := ws.filter fun w => !w.place.serves form

/-- What the words have to be that a command line of a form does not look at. -/
structure Tolerated (form : Form) (ws : List Word) : Prop where
  once : (ws.map Word.place).Nodup
  meaning : ∀ w ∈ ws, ∃ c, w.Means c
  /-- Nothing of the other form is named. -/
  unnamed : ∀ name, .value form.other.key name ∉ ws
  oneWay : ¬ (.switch true ∈ ws ∧ .switch false ∈ ws)

/-- The options without what a command line of a form does not look at. -/
def TweakOptions.only (o : TweakOptions) : Form → TweakOptions
  | .axis => { o with led := none, on := false, off := false }
  | .led => { o with axis := none, overrides := {} }

variable {form : Form} {ws : List Word}

theorem mem_own {w : Word} : w ∈ own form ws ↔ w ∈ ws ∧ w.place.serves form :=
  List.mem_filter

theorem mem_idle {w : Word} : w ∈ idle form ws ↔ w ∈ ws ∧ w.place.serves form = false := by
  rw [idle, List.mem_filter, Bool.not_eq_true']

theorem own_append_idle_perm (form : Form) (ws : List Word) :
    (own form ws ++ idle form ws).Perm ws :=
  List.filter_append_perm _ ws

/-! ## Which words are permitted -/

theorem exists_form_named (permitted : Permitted ws) :
    ∃ form : Form, ∃ name, .value form.key name ∈ ws := by
  by_cases led : ∃ name, .value .led name ∈ ws
  · exact ⟨.led, led⟩
  · exact ⟨.axis, permitted.either.mpr led⟩

/-- Only one thing is named. -/
theorem not_named_other (permitted : Permitted ws) (named : ∃ name, .value form.key name ∈ ws)
    (name : Bytes) : .value form.other.key name ∉ ws := by
  intro other
  cases form with
  | axis => exact permitted.either.mp named ⟨name, other⟩
  | led => exact permitted.either.mp ⟨name, other⟩ named

/-- Words of a form that are permitted by themselves name something of this form. -/
theorem named_of_permitted_own (permitted : Permitted (own form ws)) :
    ∃ name, .value form.key name ∈ ws := by
  obtain ⟨form', name, named⟩ := exists_form_named permitted
  obtain ⟨mem, looked⟩ := mem_own.mp named
  have same : form' = form := by
    cases form <;> cases form' <;> first | rfl | cases looked
  exact ⟨name, same ▸ mem⟩

theorem permitted_own (permitted : Permitted ws) (named : ∃ name, .value form.key name ∈ ws) :
    Permitted (own form ws) := by
  have part {w : Word} (mem : w ∈ own form ws) : w ∈ ws := (mem_own.mp mem).1
  obtain ⟨name, mem⟩ := named
  have stays : .value form.key name ∈ own form ws :=
    mem_own.mpr ⟨mem, by cases form <;> rfl⟩
  have otherGone : ¬ ∃ name, .value form.other.key name ∈ own form ws := by
    rintro ⟨name', other⟩
    exact not_named_other permitted ⟨name, mem⟩ name' (part other)
  exact {
    once := permitted.once.sublist (List.filter_sublist.map _)
    meaning := fun w mem => permitted.meaning w (part mem)
    device := by
      obtain ⟨path, mem, good⟩ := permitted.device
      exact ⟨path, mem_own.mpr ⟨mem, rfl⟩, good⟩
    either := by
      cases form with
      | axis => exact ⟨fun _ => otherGone, fun _ => ⟨name, stays⟩⟩
      | led => exact ⟨fun axis => absurd axis otherGone, fun none => absurd ⟨name, stays⟩ none⟩
    oneWay := fun both => permitted.oneWay ⟨part both.1, part both.2⟩
    switched := by
      rintro ⟨name', led⟩
      obtain ⟨mem', serves⟩ := mem_own.mp led
      cases form with
      | axis => cases serves
      | led =>
        exact (permitted.switched ⟨name', mem'⟩).imp (fun on => mem_own.mpr ⟨on, rfl⟩)
          fun off => mem_own.mpr ⟨off, rfl⟩ }

theorem tolerated_idle (permitted : Permitted ws) (named : ∃ name, .value form.key name ∈ ws) :
    Tolerated form (idle form ws) where
  once := permitted.once.sublist (List.filter_sublist.map _)
  meaning w mem := permitted.meaning w (mem_idle.mp mem).1
  unnamed name mem := not_named_other permitted named name (mem_idle.mp mem).1
  oneWay both := permitted.oneWay ⟨(mem_idle.mp both.1).1, (mem_idle.mp both.2).1⟩

theorem permitted_of_own (permitted : Permitted (own form ws))
    (tolerated : Tolerated form (idle form ws)) : Permitted ws := by
  have one (w : Word) (mem : w ∈ ws) : w ∈ own form ws ∨ w ∈ idle form ws :=
    List.mem_append.mp ((own_append_idle_perm form ws).mem_iff.mpr mem)
  have named := named_of_permitted_own permitted
  have otherGone : ¬ ∃ name, .value form.other.key name ∈ ws := by
    rintro ⟨name, mem⟩
    refine tolerated.unnamed name (mem_idle.mpr ⟨mem, ?_⟩)
    cases form <;> rfl
  refine {
    once := ?_
    meaning := fun w mem => (one w mem).elim (permitted.meaning w) (tolerated.meaning w)
    device := permitted.device.imp fun path good => ⟨(mem_own.mp good.1).1, good.2⟩
    either := ?_
    oneWay := ?_
    switched := ?_ }
  · refine ((own_append_idle_perm form ws).map Word.place).nodup ?_
    rw [List.map_append, List.nodup_append]
    refine ⟨permitted.once, tolerated.once, fun p first q second same => ?_⟩
    -- A place is looked at or not, so the two kinds of words have no place in common.
    obtain ⟨w, mem, rfl⟩ := List.mem_map.mp first
    obtain ⟨v, mem', rfl⟩ := List.mem_map.mp second
    have looked := (mem_own.mp mem).2
    rw [same, (mem_idle.mp mem').2] at looked
    cases looked
  · cases form with
    | axis => exact ⟨fun _ => otherGone, fun _ => named⟩
    | led => exact ⟨fun axis => absurd axis otherGone, fun none => absurd named none⟩
  · rintro ⟨on, off⟩
    cases form with
    | axis => exact tolerated.oneWay ⟨mem_idle.mpr ⟨on, rfl⟩, mem_idle.mpr ⟨off, rfl⟩⟩
    | led => exact permitted.oneWay ⟨mem_own.mpr ⟨on, rfl⟩, mem_own.mpr ⟨off, rfl⟩⟩
  · rintro ⟨name, led⟩
    cases form with
    | axis => exact absurd ⟨name, led⟩ otherGone
    | led =>
      exact (permitted.switched ⟨name, mem_own.mpr ⟨led, rfl⟩⟩).imp
        (fun on => (mem_own.mp on).1) fun off => (mem_own.mp off).1

/-! ## What the words ask for -/

namespace TweakOptions

theorem at?_only (o : TweakOptions) (form : Form) (p : Place) :
    (o.only form).at? p = if p.serves form then o.at? p else none := by
  cases form <;> rcases p with (_ | _ | _ | _ | _ | _ | _) | (_ | _) | _ <;> rfl

end TweakOptions

theorem Holds.only {o : TweakOptions} (holds : Holds o ws) (form : Form) :
    Holds (o.only form) (own form ws) := by
  intro p c
  rw [TweakOptions.at?_only]
  split
  · next looked =>
    rw [holds p c]
    refine exists_congr fun w => ?_
    rw [mem_own, and_assoc]
    refine and_congr_right fun _ => ⟨fun held => ⟨held.1 ▸ looked, held⟩, fun held => held.2⟩
  · next notLooked =>
    refine ⟨nofun, ?_⟩
    rintro ⟨w, mem, rfl, -⟩
    exact absurd (mem_own.mp mem).2 notLooked

namespace TweakOptions

variable {o : TweakOptions}

/-- The words of a form ask for the change that all the words ask for. -/
theorem adjustment_only (permitted : Permitted ws) (holds : Holds o ws)
    (named : ∃ name, .value form.key name ∈ ws) : (o.only form).adjustment = o.adjustment := by
  cases form with
  | axis =>
    obtain ⟨name, axis⟩ := holds.exists_axis permitted.meaning named
    simp only [adjustment, only, axis]
  | led => simp only [adjustment, only, holds.axis_eq_none_of_led permitted named]

/-- A command line is accepted if its words of one form are permitted by themselves and the others
are tolerated. It then asks for what its words of that form ask for by themselves, of the same
device. -/
theorem accepted_iff_own {args : List Bytes} {ws : List Word} (reads : Reads args ws)
    (program : Bytes) :
    ((parse? (program :: args)).isSome ↔
      ∃ form, Permitted (own form ws) ∧ Tolerated form (idle form ws)) ∧
    ∀ o form, parse? (program :: args) = some o → Permitted (own form ws) →
      (o.only form).adjustment = o.adjustment ∧ (o.only form).device = o.device ∧
      ∀ program' args', Reads args' (own form ws) →
        parse? (program' :: args') = some (o.only form) := by
  refine ⟨?_, fun o form accepted permittedOwn => ?_⟩
  · rw [Option.isSome_iff_exists]
    constructor
    · rintro ⟨o, accepted⟩
      obtain ⟨permitted, -⟩ := (parse?_of_reads reads).mp accepted
      obtain ⟨form, named⟩ := exists_form_named permitted
      exact ⟨form, permitted_own permitted named, tolerated_idle permitted named⟩
    · rintro ⟨form, permittedOwn, tolerated⟩
      obtain ⟨o, accepted, -⟩ :=
        exists_parse?_of_permitted reads (permitted_of_own permittedOwn tolerated)
      exact ⟨o, accepted⟩
  · obtain ⟨permitted, holds⟩ := (parse?_of_reads reads).mp accepted
    refine ⟨adjustment_only permitted holds (named_of_permitted_own permittedOwn), ?_, ?_⟩
    · cases form <;> rfl
    · intro program' args' reads'
      exact (parse?_of_reads reads').mpr ⟨permittedOwn, holds.only form⟩

/-- A light that is switched off, and a minimum for an axis that nobody named. -/
def strayMinimum : List Bytes :=
  ["--min", "3", "--led", "LED_NUML", "--off", "/dev/x"].map Bytes.ofString

/-- Its words. -/
def strayWords : List Word :=
  [.value .minimum (.ofString "3"), .value .led (.ofString "LED_NUML"), .switch false,
    .device (.ofString "/dev/x")]

theorem accepted_iff_own_strayMinimum :
    Reads strayMinimum strayWords ∧
      ∃ form, Permitted (own form strayWords) ∧ Tolerated form (idle form strayWords) := by
  have reads : Reads strayMinimum strayWords := scan_eq_some_iff.mp (by decide +kernel)
  have accepted : (parse? (.ofString "tweak" :: strayMinimum)).isSome := by decide +kernel
  exact ⟨reads, (accepted_iff_own reads (.ofString "tweak")).1.mp accepted⟩

/-- A light can be switched where an axis is named, and a range be given where a light is. -/
theorem idle_accepted :
    (∃ o, parse? (["tweak", "--abs", "ABS_X", "--on", "/dev/x"].map Bytes.ofString) = some o ∧
      o.on = true ∧ o.led = none) ∧
    ∃ o, parse? (.ofString "tweak" :: strayMinimum) = some o ∧
      o.overrides.minimum = some 3 ∧ o.axis = none := by
  let on : TweakOptions :=
    { axis := some "ABS_X", on := true, device := some (.ofString "/dev/x") }
  let minimum : TweakOptions :=
    { led := some "LED_NUML", overrides := { minimum := some 3 }, off := true,
      device := some (.ofString "/dev/x") }
  exact ⟨⟨on, by decide +kernel, rfl, rfl⟩, ⟨minimum, by decide +kernel, rfl, rfl⟩⟩

end TweakOptions

end InputGauge.CommandLine
