import InputGauge.Event

/-!
# Records and their events

What event a kernel record stands for, without the arithmetic of clocks: the class of its type, its
code and value, and its time, which counts as the epoch where it lies before it (`told`).

The arithmetic gives that event just when the time is one that a clock can tell
(`event_of_timely`, `event_of_not_timely`). From the epoch on that is every time within the clock's
reach. Before the epoch it is the earliest time of all and no other, since the seconds have lost
their sign when they are subtracted.
-/

namespace InputGauge.RawEvent

/-- Whether a clock can tell the time of a record. -/
def Timely (raw : RawEvent) : Prop :=
  if 0 ≤ raw.seconds.toInt then raw.seconds.toInt.toNat + raw.microseconds / 1000000 < reach
  else raw.seconds.toInt = -reach ∧ raw.microseconds = 0

instance (raw : RawEvent) : Decidable raw.Timely := by
  unfold Timely
  infer_instance

/-- The event that a record stands for. -/
def told (raw : RawEvent) : Event :=
  { kind := raw.kind
    code := raw.code
    value := raw.value
    time :=
      if 0 ≤ raw.seconds.toInt then
        UInt64.ofNat (raw.seconds.toInt.toNat * 1000000 + raw.microseconds)
      else 0 }

variable {raw : RawEvent} {raws : List RawEvent}

/-! ## The time of a record -/

/-- Seconds before the epoch stand for how far they lie from the end of the count. -/
theorem toNat_seconds_of_neg (h : raw.seconds.toInt < 0) :
    (raw.seconds.toUInt64.toNat : Int) = raw.seconds.toInt + longest := by
  have bound := raw.seconds.toUInt64.toNat_lt
  have signed : raw.seconds.toInt = (raw.seconds.toUInt64.toNat : Int).bmod 0x10000000000000000 :=
    BitVec.toInt_eq_toNat_bmod _
  rw [signed] at h ⊢
  rw [Int.bmod_def] at h ⊢
  unfold longest
  omega

theorem neg_reach_le_seconds (raw : RawEvent) : -(reach : Int) ≤ raw.seconds.toInt :=
  raw.seconds.le_toInt

theorem time_of_timely (h : raw.Timely) : raw.time = .ok raw.told.time := by
  unfold Timely at h
  split at h
  · next since =>
    have near : (raw.seconds.toInt.toNat * 1000000 + raw.microseconds) / 1000000 < reach := by
      omega
    rw [time_of_lt_reach since near, told, if_pos since]
  · next before =>
    obtain ⟨earliest, none⟩ := h
    have seconds := toNat_seconds_of_neg (Int.not_le.mp before)
    have length : raw.length = .ok (reach * 1000000) := by
      have exact : raw.seconds.toUInt64.toNat * 1000000 + raw.microseconds = reach * 1000000 := by
        unfold longest reach at *
        omega
      rw [RawEvent.length, exact]
      rfl
    rw [time, length, told, if_neg before]
    exact (if_neg before).trans (if_pos (Nat.le_refl _))

theorem time_of_not_timely (h : ¬ raw.Timely) : ∃ step, raw.time = .error step := by
  unfold Timely at h
  rw [time]
  cases length : raw.length with
  | error step => exact ⟨step, rfl⟩
  | ok micros =>
    have exact : raw.seconds.toUInt64.toNat * 1000000 + raw.microseconds = micros := by
      rw [RawEvent.length] at length
      split at length
      · exact Except.ok.inj length
      · cases length
    split at h
    · next since =>
      rw [toNat_seconds since] at exact
      have far : ¬ micros / 1000000 < reach := by omega
      exact ⟨.after, (if_pos since).trans (if_neg far)⟩
    · next before =>
      have seconds := toNat_seconds_of_neg (Int.not_le.mp before)
      have bound := neg_reach_le_seconds raw
      have far : ¬ micros ≤ reach * 1000000 := by
        unfold longest reach at *
        omega
      exact ⟨.before, (if_neg before).trans (if_neg far)⟩

/-! ## The event of a record -/

theorem event_of_timely (h : raw.Timely) : raw.event = .ok raw.told := by
  rw [event, time_of_timely h]
  rfl

theorem event_of_not_timely (h : ¬ raw.Timely) : ∃ step, raw.event = .error step := by
  obtain ⟨step, time⟩ := time_of_not_timely h
  exact ⟨step, by rw [event, time]; rfl⟩

/-- A batch of records whose times can all be told gives their events, in order. -/
theorem events_of_timely (h : ∀ raw ∈ raws, raw.Timely) : events raws = .ok (raws.map told) := by
  induction raws with
  | nil => rfl
  | cons raw rest ih =>
    rw [events_cons, event_of_timely (h raw List.mem_cons_self),
      ih fun later mem => h later (List.mem_cons_of_mem _ mem)]
    rfl

theorem events_of_not_timely (h : ∃ raw ∈ raws, ¬ raw.Timely) :
    ∃ step, events raws = .error step := by
  induction raws with
  | nil => simp at h
  | cons raw rest ih =>
    rw [events_cons]
    by_cases first : raw.Timely
    · have later : ∃ raw ∈ rest, ¬ raw.Timely := by simpa [first] using h
      obtain ⟨step, spoilt⟩ := ih later
      rw [event_of_timely first, spoilt]
      exact ⟨step, rfl⟩
    · obtain ⟨step, spoilt⟩ := event_of_not_timely first
      rw [spoilt]
      exact ⟨step, rfl⟩

end InputGauge.RawEvent
