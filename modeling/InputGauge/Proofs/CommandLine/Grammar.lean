import InputGauge.Proofs.CommandLine.Options

/-!
# Which command lines are accepted

Which words make a command line is said here without regard to their order (`Permitted`), and so
is what the options hold then (`Holds`). A command line is accepted if and only if its arguments
are such words, and the options read off it hold what the words mean
(`accepted_iff_permitted`). In particular, the order of the words never matters.
-/

namespace InputGauge.CommandLine

/-- The words of an acceptable command line. -/
structure Permitted (ws : List Word) : Prop where
  /-- Each option, each switch and the device stands there at most once. -/
  once : (ws.map Word.place).Nodup
  /-- Each value is one that its option can have. -/
  meaning : ∀ w ∈ ws, ∃ c, w.Means c
  device : ∃ path : Bytes, .device path ∈ ws ∧ path ≠ [] ∧ path.startsWithDash = false
  /-- Either an axis or a light. -/
  either : (∃ name, .value .axis name ∈ ws) ↔ ¬ ∃ name, .value .led name ∈ ws
  /-- A light one way or the other; the switches may also stand with an axis, but not both. -/
  oneWay : ¬ (.switch true ∈ ws ∧ .switch false ∈ ws)
  switched : (∃ name, .value .led name ∈ ws) → .switch true ∈ ws ∨ .switch false ∈ ws

theorem Permitted.perm {ws ws' : List Word} (perm : ws.Perm ws') (h : Permitted ws) :
    Permitted ws' := by
  have mem (w : Word) : w ∈ ws' ↔ w ∈ ws := perm.mem_iff.symm
  exact {
    once := (perm.map Word.place).nodup h.once
    meaning := fun w hw => h.meaning w ((mem w).1 hw)
    device := by simpa only [mem] using h.device
    either := by simpa only [mem] using h.either
    oneWay := by simpa only [mem] using h.oneWay
    switched := by simpa only [mem] using h.switched }

/-- Each place of the options holds what a word means that belongs there, and no other place holds
anything. -/
def Holds (o : TweakOptions) (ws : List Word) : Prop :=
  ∀ p c, o.at? p = some c ↔ ∃ w ∈ ws, w.place = p ∧ w.Means c

theorem Holds.unique {o o' : TweakOptions} {ws : List Word} (h : Holds o ws) (h' : Holds o' ws) :
    o = o' :=
  TweakOptions.eq_of_at? fun p => Option.ext fun c => (h p c).trans (h' p c).symm

theorem Holds.perm {o : TweakOptions} {ws ws' : List Word} (perm : ws.Perm ws') (h : Holds o ws) :
    Holds o ws' := by
  intro p c
  simpa only [perm.mem_iff] using h p c

/-! ## From the options back to the words -/

namespace Holds

variable {o : TweakOptions} {ws : List Word}

/-- A place of the options is taken if a word belongs there. -/
theorem isSome_iff (holds : Holds o ws) (meaning : ∀ w ∈ ws, ∃ c, w.Means c) (p : Place) :
    (o.at? p).isSome ↔ ∃ w ∈ ws, w.place = p := by
  rw [Option.isSome_iff_exists]
  constructor
  · rintro ⟨c, held⟩
    obtain ⟨w, mem, place, _⟩ := (holds p c).1 held
    exact ⟨w, mem, place⟩
  · rintro ⟨w, mem, place⟩
    obtain ⟨c, meant⟩ := meaning w mem
    exact ⟨c, (holds p c).2 ⟨w, mem, place, meant⟩⟩

theorem value_iff (holds : Holds o ws) (meaning : ∀ w ∈ ws, ∃ c, w.Means c) (key : Key) :
    (o.at? (.value key)).isSome ↔ ∃ bytes, .value key bytes ∈ ws := by
  rw [holds.isSome_iff meaning]
  constructor
  · rintro ⟨w, mem, place⟩
    cases w with
    | value key' bytes =>
      cases place
      exact ⟨bytes, mem⟩
    | switch on => cases place
    | device path => cases place
  · rintro ⟨bytes, mem⟩
    exact ⟨_, mem, rfl⟩

theorem axis_iff (holds : Holds o ws) (meaning : ∀ w ∈ ws, ∃ c, w.Means c) :
    o.axis.isSome ↔ ∃ name, .value .axis name ∈ ws := by
  simpa [TweakOptions.at?] using holds.value_iff meaning .axis

theorem led_iff (holds : Holds o ws) (meaning : ∀ w ∈ ws, ∃ c, w.Means c) :
    o.led.isSome ↔ ∃ name, .value .led name ∈ ws := by
  simpa [TweakOptions.at?] using holds.value_iff meaning .led

theorem exists_axis (holds : Holds o ws) (meaning : ∀ w ∈ ws, ∃ c, w.Means c)
    (named : ∃ name, .value .axis name ∈ ws) : ∃ name, o.axis = some name :=
  Option.isSome_iff_exists.mp ((holds.axis_iff meaning).mpr named)

theorem exists_led (holds : Holds o ws) (meaning : ∀ w ∈ ws, ∃ c, w.Means c)
    (named : ∃ name, .value .led name ∈ ws) : ∃ name, o.led = some name :=
  Option.isSome_iff_exists.mp ((holds.led_iff meaning).mpr named)

/-- Where a light is named, no axis is. -/
theorem axis_eq_none_of_led (holds : Holds o ws) (permitted : Permitted ws)
    (named : ∃ name, .value .led name ∈ ws) : o.axis = none := by
  rw [← Option.not_isSome_iff_eq_none, holds.axis_iff permitted.meaning]
  exact fun axis => permitted.either.mp axis named

/-- The options hold a name just when it stands among the words. -/
theorem text_iff (holds : Holds o ws) {key : Key} (named : key.isNumeric = false) (s : String) :
    o.at? (.value key) = some (.text s) ↔ .value key (.ofString s) ∈ ws := by
  rw [holds]
  constructor
  · rintro ⟨w, mem, place, meant⟩
    cases meant
    cases place
    exact mem
  · intro mem
    exact ⟨_, mem, rfl, .name s named⟩

theorem axis_eq_some_iff (holds : Holds o ws) (name : String) :
    o.axis = some name ↔ .value .axis (.ofString name) ∈ ws := by
  rw [← holds.text_iff rfl]
  simp [TweakOptions.at?]

theorem led_eq_some_iff (holds : Holds o ws) (name : String) :
    o.led = some name ↔ .value .led (.ofString name) ∈ ws := by
  rw [← holds.text_iff rfl]
  simp [TweakOptions.at?]

theorem switch_iff (holds : Holds o ws) (meaning : ∀ w ∈ ws, ∃ c, w.Means c) (on : Bool) :
    (o.at? (.switch on)).isSome ↔ .switch on ∈ ws := by
  rw [holds.isSome_iff meaning]
  constructor
  · rintro ⟨w, mem, place⟩
    cases w with
    | switch on' =>
      cases place
      exact mem
    | value key bytes => cases place
    | device path => cases place
  · intro mem
    exact ⟨_, mem, rfl⟩

theorem on_iff (holds : Holds o ws) (meaning : ∀ w ∈ ws, ∃ c, w.Means c) :
    o.on ↔ .switch true ∈ ws := by
  have switch := holds.switch_iff meaning true
  cases on : o.on <;> simpa [TweakOptions.at?, on] using switch

theorem off_iff (holds : Holds o ws) (meaning : ∀ w ∈ ws, ∃ c, w.Means c) :
    o.off ↔ .switch false ∈ ws := by
  have switch := holds.switch_iff meaning false
  cases off : o.off <;> simpa [TweakOptions.at?, off] using switch

theorem device_iff (holds : Holds o ws) (path : Bytes) :
    o.device = some path ↔ .device path ∈ ws := by
  have content : o.device = some path ↔ o.at? .device = some (.path path) := by
    simp [TweakOptions.at?]
  rw [content, holds]
  constructor
  · rintro ⟨w, mem, _, meant⟩
    cases meant
    exact mem
  · intro mem
    exact ⟨_, mem, rfl, .device path⟩

end Holds

theorem isDevice_iff (path : Bytes) :
    isDevice path ↔ path ≠ [] ∧ path.startsWithDash = false := by
  simp [isDevice]

namespace TweakOptions

theorem isComplete_iff {o : TweakOptions} : o.isComplete ↔
    (∃ path, o.device = some path ∧ path ≠ [] ∧ path.startsWithDash = false) ∧
      (o.axis.isSome ↔ ¬ o.led.isSome) ∧ ¬ (o.on ∧ o.off) ∧ (o.led.isSome → o.on ∨ o.off) := by
  have device : o.device.any isDevice ↔
      ∃ path, o.device = some path ∧ path ≠ [] ∧ path.startsWithDash = false := by
    cases o.device <;> simp [isDevice_iff]
  rw [← device]
  unfold isComplete
  cases o.device.any isDevice <;> cases o.axis <;> cases o.led <;> cases o.on <;> cases o.off <;>
    simp

/-- Words fill the empty options if each has a place of its own and means something. -/
theorem foldlM_add_eq_some_iff {ws : List Word} {o : TweakOptions} :
    ws.foldlM add {} = some o ↔
      (ws.map Word.place).Nodup ∧ (∀ w ∈ ws, ∃ c, w.Means c) ∧ Holds o ws := by
  have holds_of {o : TweakOptions} (filled : ws.foldlM add {} = some o) : Holds o ws := by
    intro p c
    simpa [at?_empty] using (of_foldlM_add filled).2.2.2 p c
  constructor
  · intro filled
    obtain ⟨once, _, meaning, _⟩ := of_foldlM_add filled
    exact ⟨once, meaning, holds_of filled⟩
  · rintro ⟨once, meaning, holds⟩
    obtain ⟨o', filled⟩ := exists_foldlM_add once (fun w _ => at?_empty w.place) meaning
    rw [filled, holds.unique (holds_of filled)]

/-- Words that fill the options are permitted just when the options are complete. -/
theorem isComplete_iff_permitted {ws : List Word} {o : TweakOptions}
    (once : (ws.map Word.place).Nodup) (meaning : ∀ w ∈ ws, ∃ c, w.Means c) (holds : Holds o ws) :
    o.isComplete ↔ Permitted ws := by
  rw [isComplete_iff, holds.axis_iff meaning, holds.led_iff meaning, holds.on_iff meaning,
    holds.off_iff meaning]
  simp only [holds.device_iff]
  constructor
  · rintro ⟨device, either, oneWay, switched⟩
    exact ⟨once, meaning, device, either, oneWay, switched⟩
  · intro permitted
    exact ⟨permitted.device, permitted.either, permitted.oneWay, permitted.switched⟩

theorem parse?_eq_some_iff {program : Bytes} {args : List Bytes} {o : TweakOptions} :
    parse? (program :: args) = some o ↔ ∃ ws, Reads args ws ∧ Permitted ws ∧ Holds o ws := by
  have steps : parse? (program :: args) = some o ↔
      ∃ ws, Word.scan args = some ws ∧ ws.foldlM add {} = some o ∧ o.isComplete := by
    simp only [parse?, List.tail_cons, Option.bind_eq_bind, Option.bind_eq_some_iff]
    constructor
    · rintro ⟨ws, scanned, o', filled, complete⟩
      split at complete
      · next done =>
        cases complete
        exact ⟨ws, scanned, filled, done⟩
      · cases complete
    · rintro ⟨ws, scanned, filled, done⟩
      exact ⟨ws, scanned, o, filled, by rw [if_pos done]⟩
  rw [steps]
  constructor
  · rintro ⟨ws, scanned, filled, complete⟩
    obtain ⟨once, meaning, holds⟩ := foldlM_add_eq_some_iff.1 filled
    exact ⟨ws, scan_eq_some_iff.1 scanned, (isComplete_iff_permitted once meaning holds).1 complete,
      holds⟩
  · rintro ⟨ws, reads, permitted, holds⟩
    exact ⟨ws, scan_eq_some_iff.2 reads,
      foldlM_add_eq_some_iff.2 ⟨permitted.once, permitted.meaning, holds⟩,
      (isComplete_iff_permitted permitted.once permitted.meaning holds).2 permitted⟩

theorem parse?_of_reads {program : Bytes} {args : List Bytes} {ws : List Word} {o : TweakOptions}
    (reads : Reads args ws) : parse? (program :: args) = some o ↔ Permitted ws ∧ Holds o ws := by
  rw [parse?_eq_some_iff]
  constructor
  · rintro ⟨ws', reads', permitted, holds⟩
    obtain rfl := reads.unique reads'
    exact ⟨permitted, holds⟩
  · rintro ⟨permitted, holds⟩
    exact ⟨ws, reads, permitted, holds⟩

/-- A command line of permitted words is accepted. -/
theorem exists_parse?_of_permitted {program : Bytes} {args : List Bytes} {ws : List Word}
    (reads : Reads args ws) (permitted : Permitted ws) :
    ∃ o, parse? (program :: args) = some o ∧ Holds o ws := by
  obtain ⟨o, filled⟩ := exists_foldlM_add permitted.once (fun w _ => at?_empty w.place)
    permitted.meaning
  have holds := (foldlM_add_eq_some_iff.1 filled).2.2
  exact ⟨o, (parse?_of_reads reads).2 ⟨permitted, holds⟩, holds⟩

/-- A command line is accepted if its arguments are words that are permitted, in whatever order,
and then the options hold what the words mean. -/
theorem accepted_iff_permitted (program : Bytes) (args : List Bytes) :
    (∀ o, parse? (program :: args) = some o ↔
      ∃ ws, Reads args ws ∧ Permitted ws ∧ Holds o ws) ∧
    ((parse? (program :: args)).isSome ↔ ∃ ws, Reads args ws ∧ Permitted ws) ∧
    (∀ ws ws', Reads args ws → Reads args ws' → ws = ws') ∧
    ∀ ws program' args' ws', Reads args ws → Reads args' ws' → ws.Perm ws' →
      parse? (program' :: args') = parse? (program :: args) := by
  refine ⟨fun o => parse?_eq_some_iff, ?_, ?_, ?_⟩
  · rw [Option.isSome_iff_exists]
    constructor
    · rintro ⟨o, accepted⟩
      obtain ⟨ws, reads, permitted, _⟩ := parse?_eq_some_iff.1 accepted
      exact ⟨ws, reads, permitted⟩
    · rintro ⟨ws, reads, permitted⟩
      obtain ⟨o, filled⟩ := exists_foldlM_add permitted.once (fun w _ => at?_empty w.place)
        permitted.meaning
      exact ⟨o, parse?_eq_some_iff.2 ⟨ws, reads, permitted, (foldlM_add_eq_some_iff.1 filled).2.2⟩⟩
  · intro ws ws' reads reads'
    exact reads.unique reads'
  · intro ws program' args' ws' reads reads' perm
    apply Option.ext
    intro o
    rw [parse?_of_reads reads, parse?_of_reads reads']
    constructor
    · rintro ⟨permitted, holds⟩
      exact ⟨permitted.perm perm.symm, holds.perm perm.symm⟩
    · rintro ⟨permitted, holds⟩
      exact ⟨permitted.perm perm, holds.perm perm⟩

example : parse? (["tweak", "--min", "-20", "/dev/x", "--abs=ABS_X"].map Bytes.ofString) =
    some {
      axis := some "ABS_X"
      overrides := { minimum := some (-20) }
      device := some (.ofString "/dev/x") } := by
  decide +kernel

end TweakOptions

end InputGauge.CommandLine
