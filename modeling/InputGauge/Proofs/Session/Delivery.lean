import InputGauge.Extent.Basic
import InputGauge.Proofs.Event
import InputGauge.Proofs.Watch.Mirror
import InputGauge.Session.Attended

/-!
# What a session gives out

A session reads the events that a device has queued in portions of whatever size the kernel likes,
and keeps what it has read but not yet given out. Seen from outside that does not show: a session
is a `Feed`, a plain list of the events that are still to come, with the answer for ever after
them. `mirror_feed` says that one request for an event agrees with this view, and so every number
of requests and of drains does, also where a drain failed midway.

A time that a clock cannot tell spoils the read that takes its record. So the answers are those of
the queue just when all times in it can be told (`delivers_iff_timely`).

A session would block only when it has nothing left and the kernel has not either
(`empty_of_blocks`). So a run that waits again after a drain has left nothing behind
(`empty_of_waitsAt`).
-/

namespace InputGauge

/-- The answer that a record calls for. -/
def RawEvent.reading (raw : RawEvent) : Reading :=
  if raw.type = 0 ∧ raw.code = 3 then .dropped else .event raw.told

theorem Reading.of_told (raw : RawEvent) : Reading.of raw.told = raw.reading := by
  have sync : raw.kind = .sync ↔ raw.type = 0 := by
    unfold RawEvent.kind
    split
    · next h => simp [h]
    · next h =>
      refine ⟨fun kind => ?_, fun type => absurd type h⟩
      split at kind
      · cases kind
      · split at kind <;> cases kind
  have dropped : raw.told.isDropped = true ↔ raw.type = 0 ∧ raw.code = 3 := by
    rw [← sync, Event.isDropped, Bool.and_eq_true, beq_iff_eq, beq_iff_eq]
    rfl
  unfold Reading.of RawEvent.reading
  split
  · next h => rw [if_pos (dropped.mp h)]
  · next h => rw [if_neg fun both => h (dropped.mpr both)]

theorem Reading.of_ne_wouldBlock (e : Event) : Reading.of e ≠ .wouldBlock := by
  unfold Reading.of
  split <;> exact nofun

/-- Events one after the other. When they are used up, reading fails, or there is nothing to read
for now, and so for ever. -/
structure Feed where
  events : List Event
  failure : Option Cause

namespace Feed

/-- The answer when the events are used up. -/
def ending (f : Feed) : Except Fault Reading :=
  match f.failure with
  | none => .ok .wouldBlock
  | some cause => .error (.cannotRead cause)

/-- Takes the next answer. -/
def next (f : Feed) : Except Fault Reading × Feed :=
  match f.events with
  | e :: rest => (.ok (.of e), { f with events := rest })
  | [] => (f.ending, f)

theorem length_next {f f' : Feed} {e : Event} (h : f.next = (.ok (.event e), f')) :
    f'.events.length < f.events.length := by
  unfold next at h
  split at h
  · next e' rest events =>
    obtain ⟨-, rfl⟩ := Prod.mk.inj h
    simp [events]
  · unfold ending at h
    split at h <;> cases h

instance : EventSource Feed where
  next := next
  backlog f := f.events.length
  backlog_next := length_next

/-- A feed answers with its events in order, and then as it ends. -/
theorem answers_eq (f : Feed) (n : Nat) :
    EventSource.answers n f =
      (f.events.map fun e => .ok (.of e)).take n ++
        List.replicate (n - f.events.length) f.ending := by
  induction n generalizing f with
  | zero => simp [EventSource.answers]
  | succ n ih =>
    obtain ⟨events, failure⟩ := f
    cases events with
    | nil =>
      show ending ⟨[], failure⟩ :: EventSource.answers n (⟨[], failure⟩ : Feed) = _
      rw [ih]
      simp [List.replicate_succ]
    | cons e rest =>
      show Except.ok (Reading.of e) :: EventSource.answers n (⟨rest, failure⟩ : Feed) = _
      rw [ih]
      simp [ending]

end Feed

/-- The node after a read that takes the front of its queue. -/
def Node.afterRead (n : Node) : Node :=
  { n with queue := n.queue.drop n.readSize, readSizes := n.readSizes.tail }

namespace Session

open EventSource (answers after)

/-- Why reading fails when nothing is left. An error number without a description reads as success,
and the one that stands for "not now" is no failure. -/
def failure (s : Session) : Option Cause :=
  match s.node.failures.read with
  | none => none
  | some errno => if errno = .wouldBlock then none else some (.system errno.lookedUp)

/-- A session as a plain list of the events that it is still to give out. -/
def feed (s : Session) : Feed :=
  { events := s.pending ++ s.node.queue.map RawEvent.told, failure := s.failure }

/-- No read comes away with half an event, and no time that is queued is beyond the clock. -/
structure Legible (s : Session) : Prop where
  whole : s.node.torn = false
  timely : ∀ raw ∈ s.node.queue, raw.Timely

variable {s s' : Session}

/-! ## One request -/

theorem next_of_pending {e : Event} {rest : List Event} (pending : s.pending = e :: rest) :
    s.next = (.ok (.of e), { s with pending := rest }) := by
  simp only [next, pending]

theorem next_of_empty (whole : s.node.torn = false) (pending : s.pending = [])
    (queue : s.node.queue = []) : s.next = (s.feed.ending, s) := by
  obtain ⟨node, path, grabbed, buffered⟩ := s
  obtain rfl : buffered = [] := pending
  have read : node.read = (.error (node.failures.read.getD .wouldBlock), node) := by
    rw [Node.read, if_neg (by simpa using whole), if_pos (List.isEmpty_iff.mpr queue)]
  simp only [next, read, Feed.ending, feed, failure]
  cases node.failures.read with
  | none => rfl
  | some errno =>
    rw [Option.getD_some]
    by_cases later : errno = .wouldBlock
    · simp only [if_pos later]
    · simp only [if_neg later]

theorem next_of_queue (whole : s.node.torn = false) (pending : s.pending = [])
    (queue : s.node.queue ≠ []) :
    s.next =
      match RawEvent.events (s.node.queue.take s.node.readSize) with
      | .error step => (.error (.overflow step), { s with node := s.node.afterRead })
      | .ok [] => (.ok .wouldBlock, { s with node := s.node.afterRead })
      | .ok (e :: rest) =>
        (.ok (.of e), { s with node := s.node.afterRead, pending := rest }) := by
  obtain ⟨node, path, grabbed, buffered⟩ := s
  obtain rfl : buffered = [] := pending
  have read : node.read = (.ok (node.queue.take node.readSize), node.afterRead) := by
    rw [Node.read, if_neg (by simpa using whole), if_neg (by simpa using queue), Node.afterRead]
  rcases events : RawEvent.events (node.queue.take node.readSize) with step | _ | ⟨e, rest⟩ <;>
    simp only [next, read, events]

/-- A read of records whose times can all be told gives out the first and keeps the others. -/
theorem next_of_timely (whole : s.node.torn = false) (pending : s.pending = []) {raw : RawEvent}
    {more : List RawEvent} (queue : s.node.queue = raw :: more)
    (timely : ∀ raw ∈ s.node.queue.take s.node.readSize, raw.Timely) :
    s.next =
      (.ok (.of raw.told),
        { s with
          node := s.node.afterRead
          pending := (more.take (s.node.readSize - 1)).map RawEvent.told }) := by
  have some : s.node.queue ≠ [] := by simp [queue]
  have taken : s.node.queue.take s.node.readSize = raw :: more.take (s.node.readSize - 1) := by
    obtain ⟨size, one⟩ := Nat.exists_eq_succ_of_ne_zero (Nat.ne_of_gt s.node.readSize_pos)
    rw [queue, one, List.take_succ_cons, Nat.succ_sub_one]
  rw [next_of_queue whole pending some, RawEvent.events_of_timely timely, taken]
  rfl

theorem mem_of_mem_afterRead {raw : RawEvent} (mem : raw ∈ s.node.afterRead.queue) :
    raw ∈ s.node.queue :=
  List.mem_of_mem_drop mem

/-- A session and the plain list of what it is to give out answer alike. -/
theorem mirror_feed : Mirror Legible feed := by
  have both (s : Session) (legible : s.Legible) :
      s.feed.next = (s.next.1, s.next.2.feed) ∧ s.next.2.Legible := by
    obtain ⟨whole, timely⟩ := legible
    cases pending : s.pending with
    | cons e rest =>
      rw [next_of_pending pending, feed, pending]
      exact ⟨rfl, whole, timely⟩
    | nil =>
      cases queue : s.node.queue with
      | nil =>
        rw [next_of_empty whole pending queue]
        refine ⟨?_, whole, timely⟩
        rw [Feed.next, feed, pending, queue]
        rfl
      | cons raw more =>
        have front : ∀ raw ∈ s.node.queue.take s.node.readSize, raw.Timely := fun raw mem =>
          timely raw (List.mem_of_mem_take mem)
        rw [next_of_timely whole pending queue front]
        refine ⟨?_, whole, fun raw mem => timely raw (mem_of_mem_afterRead mem)⟩
        -- What was read and what is still queued are the queue again.
        have rest : more.take (s.node.readSize - 1) ++ s.node.afterRead.queue = more := by
          have left : s.node.afterRead.queue = more.drop (s.node.readSize - 1) := by
            obtain ⟨size, one⟩ := Nat.exists_eq_succ_of_ne_zero (Nat.ne_of_gt s.node.readSize_pos)
            rw [Node.afterRead, queue, one]
            rfl
          rw [left, List.take_append_drop]
        rw [feed, pending, queue, feed]
        simp only
        rw [← List.map_append, rest]
        rfl
  exact ⟨fun legible => (both _ legible).1, fun legible => (both _ legible).2⟩

theorem torn_next (whole : s.node.torn = false) : s.next.2.node.torn = false := by
  cases pending : s.pending with
  | cons e rest =>
    rw [next_of_pending pending]
    exact whole
  | nil =>
    by_cases queue : s.node.queue = []
    · rw [next_of_empty whole pending queue]
      exact whole
    · rw [next_of_queue whole pending queue]
      split <;> exact whole

/-- A session would block only when nothing is left, neither with it nor with the kernel. -/
theorem empty_of_blocks (whole : s.node.torn = false) (blocks : s.next.1 = .ok .wouldBlock) :
    s.pending = [] ∧ s.node.queue = [] ∧ s.next.2 = s := by
  cases pending : s.pending with
  | cons e rest =>
    rw [next_of_pending pending] at blocks
    exact absurd (Except.ok.inj blocks) (Reading.of_ne_wouldBlock e)
  | nil =>
    by_cases queue : s.node.queue = []
    · rw [next_of_empty whole pending queue]
      exact ⟨rfl, queue, rfl⟩
    · rw [next_of_queue whole pending queue] at blocks
      split at blocks
      · cases blocks
      · next events =>
        -- A read takes at least one record, and as many events come of it.
        have none : (s.node.queue.take s.node.readSize).length = 0 :=
          (RawEvent.length_events events).symm
        have pos := s.node.readSize_pos
        rw [List.length_take, Nat.min_eq_zero_iff, List.length_eq_zero_iff] at none
        rcases none with none | none
        · omega
        · exact absurd none queue
      · next e rest events => exact absurd (Except.ok.inj blocks) (Reading.of_ne_wouldBlock e)

/-! ## Many requests -/

theorem torn_after (whole : s.node.torn = false) (n : Nat) : (after n s).node.torn = false := by
  induction n generalizing s with
  | zero => exact whole
  | succ n ih => exact ih (torn_next whole)

/-- A time that cannot be told comes to light, at the latest when all before it is given out. -/
theorem exists_overflow (whole : s.node.torn = false) (spoilt : ∃ raw ∈ s.node.queue, ¬ raw.Timely) :
    ∃ n step, .error (.overflow step) ∈ answers n s := by
  induction ahead : s.pending.length + s.node.queue.length using Nat.strongRecOn
    generalizing s with
  | ind size ih =>
    have one (later : ∃ n step, .error (.overflow step) ∈ answers n s.next.2) :
        ∃ n step, .error (.overflow step) ∈ answers n s := by
      obtain ⟨n, step, mem⟩ := later
      exact ⟨n + 1, step, List.mem_cons_of_mem _ mem⟩
    cases pending : s.pending with
    | cons e rest =>
      refine one ?_
      rw [next_of_pending pending]
      refine ih _ ?_ whole spoilt rfl
      rw [pending, List.length_cons] at ahead
      simp only
      omega
    | nil =>
      have some : s.node.queue ≠ [] := List.ne_nil_of_mem spoilt.choose_spec.1
      by_cases front : ∃ raw ∈ s.node.queue.take s.node.readSize, ¬ raw.Timely
      · obtain ⟨step, events⟩ := RawEvent.events_of_not_timely front
        have answer : s.next.1 = .error (.overflow step) := by
          rw [next_of_queue whole pending some, events]
        exact ⟨1, step, answer ▸ List.mem_cons_self⟩
      · have timely : ∀ raw ∈ s.node.queue.take s.node.readSize, raw.Timely := by
          simpa using front
        have later : ∃ raw ∈ s.node.afterRead.queue, ¬ raw.Timely := by
          obtain ⟨raw, mem, untimely⟩ := spoilt
          rw [← List.take_append_drop s.node.readSize s.node.queue, List.mem_append] at mem
          exact ⟨raw, mem.resolve_left fun early => untimely (timely raw early), untimely⟩
        obtain ⟨raw, more, queue⟩ := List.exists_cons_of_ne_nil some
        refine one ?_
        rw [next_of_timely whole pending queue timely]
        refine ih _ ?_ whole later rfl
        have pos := s.node.readSize_pos
        rw [pending, queue] at ahead
        simp only [Node.afterRead, queue, List.length_map, List.length_take, List.length_drop,
          List.length_cons, List.length_nil] at ahead ⊢
        omega

end Session

/-! ## Drains -/

namespace Watch

variable {σ γ : Type} [Gauge γ]

theorem gauge_answer_of (w : Watch σ γ) (e : Event) :
    (w.answer (.ok (.of e))).2.gauge =
      Gauge.observeAll w.gauge ([e].filter fun e => !e.isDropped) := by
  unfold Reading.of
  by_cases dropped : e.isDropped
  · rw [if_pos dropped, List.filter_cons_of_neg (by simpa using dropped)]
    rfl
  · rw [if_neg dropped, List.filter_cons_of_pos (by simpa using dropped), gauge_answer_event]
    rfl

/-- What a drain takes it folds, in order, but for what only says that events were lost. -/
theorem drain_feed (w : Watch Feed γ) :
    ∃ taken, w.source.events = taken ++ w.drain.2.source.events ∧
      w.drain.2.gauge = Gauge.observeAll w.gauge (taken.filter fun e => !e.isDropped) := by
  induction events : w.source.events generalizing w with
  | nil =>
    have taken : EventSource.next w.source = (w.source.ending, w.source) := by
      show w.source.next = _
      rw [Feed.next, events]
    refine ⟨[], ?_⟩
    rw [drain_of_next taken, Feed.ending]
    cases w.source.failure <;> exact ⟨events.symm, rfl⟩
  | cons e rest ih =>
    obtain ⟨left, rfl, taken⟩ : ∃ left : Feed,
        left.events = rest ∧ EventSource.next w.source = (.ok (.of e), left) := by
      refine ⟨{ w.source with events := rest }, rfl, ?_⟩
      show w.source.next = _
      rw [Feed.next, events]
    have source := source_answer (w.withSource left) (.ok (.of e))
    have gauge := gauge_answer_of (w.withSource left) e
    rw [drain_of_next taken]
    rcases answered : (w.withSource left).answer (.ok (.of e)) with ⟨_ | result, w'⟩
    · rw [answered] at source gauge
      obtain ⟨more, split, folded⟩ := ih w' (congrArg Feed.events source)
      have both : (e :: more).filter (fun e => !e.isDropped) =
          [e].filter (fun e => !e.isDropped) ++ more.filter (fun e => !e.isDropped) :=
        List.filter_append [e] more
      refine ⟨e :: more, congrArg (e :: ·) split, folded.trans ?_⟩
      rw [gauge, both]
      exact List.foldl_append.symm
    · rw [answered] at source gauge
      exact ⟨[e], congrArg (e :: Feed.events ·) source.symm, gauge⟩

theorem drains_feed (w : Watch Feed γ) (n : Nat) :
    ∃ taken, w.source.events = taken ++ (w.drains n).2.source.events ∧
      (w.drains n).2.gauge = Gauge.observeAll w.gauge (taken.filter fun e => !e.isDropped) := by
  induction n generalizing w with
  | zero => exact ⟨[], rfl, rfl⟩
  | succ n ih =>
    obtain ⟨first, split, folded⟩ := drain_feed w
    obtain ⟨more, split', folded'⟩ := ih w.drain.2
    refine ⟨first ++ more, ?_, folded'.trans ?_⟩
    · rw [split, split', List.append_assoc]
      rfl
    · rw [folded, List.filter_append]
      exact List.foldl_append.symm

/-! ## Waiting -/

/-- A run of `w` comes to wait at `w'`, after `n` drains. -/
inductive WaitsAt [Waitable σ] (w : Watch σ γ) : Nat → Watch σ γ → Prop
  | start : WaitsAt w 0 w
  | again {n : Nat} {w' : Watch σ γ} {s : σ} :
      WaitsAt w n w' → Waitable.wait w'.source = (.failed .interrupted, s) →
      WaitsAt w n (w'.withSource s)
  | drained {n : Nat} {w' w'' : Watch σ γ} {s : σ} :
      WaitsAt w n w' → Waitable.wait w'.source = (.ready, s) →
      (w'.withSource s).drain = (.ok (), w'') → WaitsAt w (n + 1) w''

/-- Where a run waits it has no memory of how it came there. -/
theorem run_of_waitsAt [Waitable σ] {w w' : Watch σ γ} {n : Nat} (h : w.WaitsAt n w') :
    w.run = w'.run := by
  induction h with
  | start => rfl
  | @again n w' s _ waited ih => rw [ih, run_of_wait waited, woken, if_pos rfl]
  | @drained n w' w'' s _ waited drained ih => rw [ih, run_of_wait waited, woken, drained]

end Watch

namespace Attended

theorem session_wait (a : Attended) : (wait a).2.session = a.session := by
  unfold wait
  split <;> rfl

/-- A session read until it would block has nothing left. -/
theorem empty_of_drained {a a' : Attended} (drained : Drained a a')
    (whole : a.session.node.torn = false) :
    a'.session.node.torn = false ∧ a'.session.pending = [] ∧ a'.session.node.queue = [] := by
  induction drained with
  | @block a a' taken =>
    obtain ⟨answer, -⟩ := session_next taken
    have blocks : a.session.next.1 = .ok .wouldBlock := by rw [answer]
    obtain ⟨pending, queue, kept⟩ := Session.empty_of_blocks whole blocks
    have same : a'.session = a.session := by
      rw [answer] at kept
      exact kept
    rw [same]
    exact ⟨whole, pending, queue⟩
  | @event a a₁ a' e taken _ ih =>
    obtain ⟨answer, -⟩ := session_next taken
    have whole' := Session.torn_next whole
    rw [answer] at whole'
    exact ih whole'

variable {γ : Type} [Gauge γ]

/-- After a drain a run never waits with an event that is not given out. -/
theorem empty_of_waitsAt {w w' : Watch Attended γ} {n : Nat} (waits : w.WaitsAt n w')
    (whole : w.source.session.node.torn = false) :
    w'.source.session.node.torn = false ∧
      (0 < n → w'.source.session.pending = [] ∧ w'.source.session.node.queue = []) := by
  induction waits with
  | start => exact ⟨whole, fun none => absurd none (Nat.lt_irrefl 0)⟩
  | @again n w' a _ waited ih =>
    have same := session_wait w'.source
    rw [show wait w'.source = _ from waited] at same
    rw [Watch.source_withSource, same]
    exact ih
  | @drained n w' w'' a _ waited drained ih =>
    have same := session_wait w'.source
    rw [show wait w'.source = _ from waited] at same
    have left := empty_of_drained (Watch.drained_of_drain drained) (by
      rw [Watch.source_withSource, same]
      exact ih.1)
    exact ⟨left.1, fun _ => left.2⟩

end Attended

/-! ## In order, once each -/

namespace Session

open EventSource (answers after)

/-- What the first so many answers of a session have to be: what its events and the records in the
queue call for, in order, and then the failure, or that there is nothing to read for now. -/
def promised (s : Session) (n : Nat) : List (Except Fault Reading) :=
  let calledFor := s.pending.map (fun e => .ok (.of e)) ++
    s.node.queue.map fun raw => .ok raw.reading
  calledFor.take n ++ List.replicate (n - calledFor.length) s.feed.ending

theorem promised_eq (s : Session) (n : Nat) : s.promised n = answers n s.feed := by
  have calledFor : s.feed.events.map (fun e => Except.ok (ε := Fault) (Reading.of e)) =
      s.pending.map (fun e => .ok (.of e)) ++ s.node.queue.map fun raw => .ok raw.reading := by
    rw [feed, List.map_append, List.map_map]
    simp only [Function.comp_def, Reading.of_told]
  have length := congrArg List.length calledFor
  rw [List.length_map] at length
  rw [promised, Feed.answers_eq, calledFor, length]

theorem overflow_not_mem_promised (s : Session) (n : Nat) (step : Overflow) :
    .error (.overflow step) ∉ s.promised n := by
  intro mem
  rw [promised_eq, Feed.answers_eq, List.mem_append] at mem
  rcases mem with early | late
  · obtain ⟨e, -, h⟩ := List.mem_map.mp (List.mem_of_mem_take early)
    cases h
  · have ending := List.eq_of_mem_replicate late
    rw [Feed.ending] at ending
    split at ending <;> cases ending

/-- A session gives out what is queued, each record once and in order, however the kernel portions
the queue: just when all times in it can be told. Then any number of drains come to what they would
come to on the plain list of events: each goes on where the one before it ended, and what they took
was folded in order, also where they failed midway. A session would block only when neither it nor
the kernel has an event left, so a run that waits after a drain has left none behind. -/
theorem delivers_iff_timely {γ : Type} [Gauge γ] (s : Session) (whole : s.node.torn = false) :
    ((∀ n, answers n s = s.promised n) ↔ ∀ raw ∈ s.node.queue, raw.Timely) ∧
    ((∀ raw ∈ s.node.queue, raw.Timely) → ∀ (gauge : γ) (terminal : Terminal) (n : Nat),
      let w : Watch Session γ := { source := s, gauge, terminal }
      let w' := (w.drains n).2
      (w.withSource s.feed).drains n = ((w.drains n).1, w'.withSource w'.source.feed) ∧
      ∃ taken, s.feed.events = taken ++ w'.source.feed.events ∧
        w'.gauge = Gauge.observeAll gauge (taken.filter fun e => !e.isDropped)) ∧
    (∀ n, (after n s).next.1 = .ok .wouldBlock →
      (after n s).pending = [] ∧ (after n s).node.queue = []) ∧
    ∀ (w w' : Watch Attended γ) (n : Nat), w.source.session = s → w.WaitsAt (n + 1) w' →
      w.run = w'.run ∧ w'.source.session.pending = [] ∧ w'.source.session.node.queue = [] := by
  refine ⟨⟨fun promised => ?_, fun timely n => ?_⟩, fun timely gauge terminal n => ?_,
    fun n blocks => ?_, fun w w' n same waits => ?_⟩
  · intro raw mem
    refine Decidable.byContradiction fun untimely => ?_
    obtain ⟨n, step, overflows⟩ := exists_overflow whole ⟨raw, mem, untimely⟩
    rw [promised n] at overflows
    exact overflow_not_mem_promised s n step overflows
  · rw [promised_eq, mirror_feed.answers_eq ⟨whole, timely⟩]
  · obtain ⟨drained, -⟩ := mirror_feed.drains_eq
      (w := ({ source := s, gauge, terminal } : Watch Session γ)) ⟨whole, timely⟩ n
    obtain ⟨taken, split, folded⟩ := Watch.drains_feed
      (({ source := s, gauge, terminal } : Watch Session γ).withSource s.feed) n
    refine ⟨drained, taken, ?_⟩
    rw [drained] at split folded
    exact ⟨split, folded⟩
  · obtain ⟨pending, queue, -⟩ := empty_of_blocks (torn_after whole n) blocks
    exact ⟨pending, queue⟩
  · rw [← same] at whole
    exact ⟨Watch.run_of_waitsAt waits,
      (Attended.empty_of_waitsAt waits whole).2 (Nat.succ_pos n)⟩

/-- A touchpad that overruns between two reads and is then unplugged. -/
def unplugged : Session :=
  { node :=
      { name := "Pad", bus := 24, vendor := 2, product := 7, axes := .ofFn fun _ => none, leds := []
        queue := [⟨1, 0, 3, 0, 40⟩, ⟨1, 7, 0, 3, 0⟩, ⟨1, 9, 17, 1, -1⟩]
        readSizes := [2]
        failures := { read := some ⟨19⟩ } }
    path := "event0"
    grabbed := false
    pending := [] }

theorem delivers_iff_timely_unplugged :
    unplugged.node.torn = false ∧ (∀ raw ∈ unplugged.node.queue, raw.Timely) ∧
      answers 5 unplugged =
        [.ok (.event ⟨.absolute, 0, 40, 1000000⟩), .ok .dropped,
          .ok (.event ⟨.other 17, 1, -1, 1000009⟩), .error (.cannotRead (.system ⟨19⟩)),
          .error (.cannotRead (.system ⟨19⟩))] := by
  have timely : ∀ raw ∈ unplugged.node.queue, raw.Timely := by decide
  exact ⟨rfl, timely, ((@delivers_iff_timely ExtentGauge _ unplugged rfl).1.mpr timely) 5⟩

/-- A device with a record of the second before the epoch. -/
def beforeEpoch : Session :=
  { unplugged with node := { unplugged.node with queue := [⟨-1, 0, 3, 0, 5⟩], readSizes := [] } }

/-- A record from before the epoch is not given out as one from the epoch. -/
theorem answers_beforeEpoch :
    answers 1 beforeEpoch = [.error (.overflow .before)] ∧
      beforeEpoch.promised 1 = [.ok (.event ⟨.absolute, 0, 5, 0⟩)] ∧
      answers 1 beforeEpoch ≠ beforeEpoch.promised 1 := by
  have overflows : answers 1 beforeEpoch = [.error (.overflow .before)] := rfl
  have promised : beforeEpoch.promised 1 = [.ok (.event ⟨.absolute, 0, 5, 0⟩)] := rfl
  refine ⟨overflows, promised, ?_⟩
  rw [overflows, promised]
  exact nofun

end Session

end InputGauge
