import InputGauge.Proofs.Watch.Answer
import InputGauge.Source.Batches

/-!
# A run over batches

How the items of a source are batched does not matter to a run: it goes as one drain over all of
them would, without those that only say that there is nothing to read for now. A request to stop
while an item is taken does not matter to the drain that takes it: what counts is the items of the
drains up to that one, and of nothing after it (`run_batches`).

`drains` is how a run cuts batches up, and `reached` are the drains that it gets to if nothing
fails. One drain of a run is like the drain on its own items (`drain_sameOutcome`), and leaves the
source at the next (`past_of_drained`); an induction over the drains makes them one
(`run_sameOutcome`).
-/

namespace InputGauge

namespace Batches

/-- The items of a batch, drain by drain: each ends where there is nothing to read for now, or
with the batch. -/
def cut : List Item → List (List Item)
  | [] => [[]]
  | item :: rest =>
    if item = .block then [.block] :: cut rest else (cut rest).modifyHead (item :: ·)

/-- The items of all batches, drain by drain. -/
def drains (batches : List (List Item)) : List (List Item) := batches.flatMap cut

/-- The drains up to the one that contains an item, counted from one over all of them. -/
def through : Nat → List (List Item) → List (List Item)
  | _, [] => []
  | k, drain :: later => drain :: if k ≤ drain.length then [] else through (k - drain.length) later

/-- The drains that are reached when the user asks to stop at an item, or never. -/
def reached : Option Nat → List (List Item) → List (List Item)
  | none, drains => drains
  | some k, drains => through k drains

/-- The items that are more than a pause. -/
def plain (items : List Item) : List Item := items.filter (· ≠ .block)

theorem cut_ne_nil (batch : List Item) : cut batch ≠ [] := by
  induction batch with
  | nil => exact List.cons_ne_nil _ _
  | cons item rest ih =>
    rw [cut]
    split
    · exact List.cons_ne_nil _ _
    · obtain ⟨drain, later, h⟩ := List.exists_cons_of_ne_nil ih
      rw [h]
      exact List.cons_ne_nil _ _

theorem flatten_cut (batch : List Item) : (cut batch).flatten = batch := by
  induction batch with
  | nil => rfl
  | cons item rest ih =>
    rw [cut]
    split
    · next block => rw [List.flatten_cons, ih, block]; rfl
    · obtain ⟨drain, later, h⟩ := List.exists_cons_of_ne_nil (cut_ne_nil rest)
      rw [h] at ih ⊢
      rw [List.modifyHead_cons, List.flatten_cons, List.cons_append, ← List.flatten_cons, ih]

/-- Cutting loses nothing. -/
theorem flatten_drains (batches : List (List Item)) :
    (drains batches).flatten = batches.flatten := by
  induction batches with
  | nil => rfl
  | cons batch rest ih =>
    rw [drains, List.flatMap_cons, List.flatten_append, flatten_cut, List.flatten_cons]
    exact congrArg (batch ++ ·) ih

theorem plain_append (a b : List Item) : plain (a ++ b) = plain a ++ plain b := List.filter_append ..

theorem plain_cons {item : Item} (h : item ≠ .block) (rest : List Item) :
    plain (item :: rest) = item :: plain rest :=
  List.filter_cons_of_pos (by simpa using h)

theorem reached_cons (stopAt : Option Nat) (drain : List Item) (later : List (List Item)) :
    reached stopAt (drain :: later) =
      drain :: if ∃ k ∈ stopAt, k ≤ drain.length then [] else
        reached (stopAt.map (· - drain.length)) later := by
  cases stopAt with
  | none => simp [reached]
  | some k => simp [reached, through]

example : reached (some 2) (drains [[.block, .dropped], [.dropped]]) = [[.block], [.dropped]] := by
  decide

theorem reached_nil (stopAt : Option Nat) : reached stopAt [] = [] := by
  cases stopAt <;> rfl

/-- The drains still to come. -/
def pending (b : Batches) : List (List Item) := cut b.current ++ drains b.later

/-- The batches after a drain, when `later` are the drains that follow it. -/
structure Past (b b' : Batches) (drain : List Item) (later : List (List Item)) : Prop where
  stopAt : b'.stopAt = b.stopAt
  taken : b'.taken = b.taken + drain.length
  stopped : b'.stopped = true ↔ b.stopped = true ∨ later = [] ∨
    ∃ k ∈ b.stopAt, b.taken < k ∧ k ≤ b.taken + drain.length
  pending : later ≠ [] → b'.pending = later

theorem Past.running {b b' : Batches} {drain : List Item} {later : List (List Item)}
    (past : Past b b' drain later) (running : b.stopped = false) (more : later ≠ [])
    (goesOn : ¬ ∃ k ∈ b.stopAt, b.taken < k ∧ k ≤ b.taken + drain.length) :
    b'.stopped = false := by
  rw [Bool.eq_false_iff]
  intro stopped
  rcases past.stopped.mp stopped with before | last | now
  · rw [running] at before
    cases before
  · exact more last
  · exact goesOn now

theorem Past.notYet {b b' : Batches} {drain : List Item} {later : List (List Item)}
    (past : Past b b' drain later) (notYet : ∀ k ∈ b.stopAt, b.taken < k)
    (goesOn : ¬ ∃ k ∈ b.stopAt, b.taken < k ∧ k ≤ b.taken + drain.length) :
    ∀ k ∈ b'.stopAt, b'.taken < k := by
  intro k stop
  rw [past.stopAt] at stop
  rw [past.taken]
  exact Nat.not_le.mp fun below => goesOn ⟨k, stop, notYet k stop, below⟩

/-- How many items are still to be taken until the user asks to stop. -/
def untilStop (b : Batches) : Option Nat := b.stopAt.map (· - b.taken)

theorem untilStop_le_iff {b : Batches} (notYet : ∀ k ∈ b.stopAt, b.taken < k) (n : Nat) :
    (∃ k ∈ b.untilStop, k ≤ n) ↔ ∃ k ∈ b.stopAt, b.taken < k ∧ k ≤ b.taken + n := by
  unfold untilStop
  cases stopAt : b.stopAt with
  | none => simp
  | some k =>
    have after := notYet k stopAt
    simp only [Option.map_some, Option.mem_def, Option.some.injEq, exists_eq_left']
    omega

theorem Past.untilStop {b b' : Batches} {drain : List Item} {later : List (List Item)}
    (past : Past b b' drain later) : b'.untilStop = b.untilStop.map (· - drain.length) := by
  rw [Batches.untilStop, Batches.untilStop, past.stopAt, past.taken, Option.map_map]
  congr 1
  funext k
  exact (Nat.sub_sub ..).symm

/-! ## The source -/

theorem pending_cons (b : Batches) : ∃ drain later, b.pending = drain :: later :=
  List.exists_cons_of_ne_nil fun none => cut_ne_nil _ (List.append_eq_nil_iff.mp none).1

/-- An item that ends no drain is the first of the drain that is left. -/
theorem pending_of_item {b : Batches} {item : Item} {rest : List Item}
    (current : b.current = item :: rest) (h : item ≠ .block) :
    b.pending = ({ b with current := rest } : Batches).pending.modifyHead (item :: ·) := by
  obtain ⟨drain, later, whole⟩ := List.exists_cons_of_ne_nil (cut_ne_nil rest)
  rw [pending, pending, current, cut, if_neg h, whole]
  rfl

theorem next_of_item {b : Batches} {item : Item} {rest : List Item}
    (current : b.current = item :: rest) :
    EventSource.next b =
      (item.reading,
        { b with current := rest, taken := b.taken + 1,
                 stopped := b.stopped || b.stopAt == some (b.taken + 1) }) := by
  show b.next = _
  rw [next, current]

theorem eq_block_of_reading {item : Item} (h : item.reading = .ok .wouldBlock) :
    item = .block := by
  cases item with
  | event e => cases h
  | block => rfl
  | dropped => cases h
  | failure cause => cases h

/-- The end of a drain leads to the next one. After the last drain the user asks to stop. -/
theorem past_of_block {b b' : Batches} {drain : List Item} {later : List (List Item)}
    (taken : EventSource.next b = (.ok .wouldBlock, b')) (h : b.pending = drain :: later) :
    Past b b' drain later := by
  replace taken : b.next = (.ok .wouldBlock, b') := taken
  unfold next at taken
  split at taken
  · next item rest current =>
    -- A pause within a batch.
    obtain ⟨reading, rfl⟩ := Prod.mk.inj taken
    obtain rfl := eq_block_of_reading reading
    rw [pending, current, cut, if_pos rfl, List.cons_append] at h
    obtain ⟨rfl, rfl⟩ := List.cons.inj h
    have more : cut rest ++ drains b.later ≠ [] := fun none =>
      cut_ne_nil rest (List.append_eq_nil_iff.mp none).1
    refine ⟨rfl, rfl, ?_, fun _ => rfl⟩
    simp only [Bool.or_eq_true, beq_iff_eq, more, false_or, List.length_singleton]
    refine or_congr_right ⟨fun now => ⟨_, now, by omega, Nat.le_refl _⟩, ?_⟩
    rintro ⟨k, stop, above, below⟩
    rw [stop, Nat.le_antisymm below above]
  · next current =>
    rw [pending, current, cut, List.cons_append, List.nil_append] at h
    obtain ⟨rfl, rfl⟩ := List.cons.inj h
    have noneHere : ¬ ∃ k ∈ b.stopAt, b.taken < k ∧ k ≤ b.taken + ([] : List Item).length := by
      rintro ⟨k, _, above, below⟩
      exact absurd below (Nat.not_le.mpr above)
    split at taken
    · next batch rest later =>
      -- The end of a batch after which another one comes.
      obtain ⟨-, rfl⟩ := Prod.mk.inj taken
      have more : drains b.later ≠ [] := by
        rw [later]
        exact fun none => cut_ne_nil batch (List.append_eq_nil_iff.mp none).1
      refine ⟨rfl, rfl, ?_, fun _ => ?_⟩
      · simp only [noneHere, more, or_false]
      · rw [later]
        rfl
    · next later =>
      -- The end of the last batch.
      obtain ⟨-, rfl⟩ := Prod.mk.inj taken
      have none : drains b.later = [] := by
        rw [later]
        rfl
      exact ⟨rfl, rfl, by simp [none], fun some => absurd none some⟩

theorem next_of_nil {b : Batches} (current : b.current = []) :
    ∃ b', EventSource.next b = (.ok .wouldBlock, b') := by
  show ∃ b', b.next = (.ok .wouldBlock, b')
  unfold next
  split
  · next h =>
    rw [current] at h
    cases h
  · split <;> exact ⟨_, rfl⟩

/-- One more item before the end of a drain. -/
theorem Past.of_item {b b₁ b' : Batches} {item : Item} {drain : List Item}
    {later : List (List Item)} (past : Past b₁ b' drain later) (stopAt : b₁.stopAt = b.stopAt)
    (taken : b₁.taken = b.taken + 1)
    (stopped : b₁.stopped = (b.stopped || b.stopAt == some (b.taken + 1))) :
    Past b b' (item :: drain) later := by
  have stops : (b.stopAt = some (b.taken + 1) ∨
      ∃ k ∈ b.stopAt, b.taken + 1 < k ∧ k ≤ b.taken + 1 + drain.length) ↔
      ∃ k ∈ b.stopAt, b.taken < k ∧ k ≤ b.taken + (item :: drain).length := by
    cases b.stopAt with
    | none => simp
    | some k =>
      simp only [Option.mem_def, Option.some.injEq, exists_eq_left', List.length_cons]
      omega
  refine ⟨past.stopAt.trans stopAt, ?_, ?_, past.pending⟩
  · rw [past.taken, taken, List.length_cons, Nat.add_assoc, Nat.add_comm 1]
  · rw [past.stopped, stopAt, taken, stopped, ← stops, Bool.or_eq_true, beq_iff_eq]
    exact or_assoc.trans (or_congr_right or_left_comm)

/-- A drain leaves the batches at the one after it. -/
theorem past_of_drained {b b' : Batches} (drained : Drained b b') {drain : List Item}
    {later : List (List Item)} (h : b.pending = drain :: later) : Past b b' drain later := by
  induction drained generalizing drain with
  | block taken => exact past_of_block taken h
  | @event b b₁ b' e taken _ ih =>
    cases current : b.current with
    | nil =>
      obtain ⟨_, blocked⟩ := next_of_nil current
      rw [blocked] at taken
      cases taken
    | cons item rest =>
      rw [next_of_item current] at taken
      obtain ⟨reading, rfl⟩ := Prod.mk.inj taken
      have notBlock : item ≠ .block := by
        rintro rfl
        cases reading
      obtain ⟨drain₁, later₁, whole⟩ := pending_cons { b with current := rest }
      rw [pending_of_item current notBlock, whole, List.modifyHead_cons] at h
      obtain ⟨rfl, rfl⟩ := List.cons.inj h
      exact (ih whole).of_item rfl rfl rfl

end Batches

namespace Watch

open Batches

variable {γ : Type} [Gauge γ]

/-- A run over some items has come to the same as one drain on those that are more than a pause.
If it succeeded it took all of them, and if not, none after the one at which it failed. -/
structure SameOutcome (taken : Nat) (items : List Item)
    (once : Except Fault Unit × Watch Script γ) (ran : Except Fault Unit × Watch Batches γ) :
    Prop where
  result : ran.1 = once.1
  gauge : ran.2.gauge = once.2.gauge
  terminal : ran.2.terminal = once.2.terminal
  /-- Both took the same items. -/
  items : ∃ seen left, items = seen ++ left ∧ ran.2.source.taken = taken + seen.length ∧
    once.2.source.items = plain left ∧ (ran.1 = .ok () → left = []) ∧
    (ran.1 ≠ .ok () → ∃ last ∈ seen.getLast?, last ≠ .block)

omit [Gauge γ] in
/-- Items that the run took before. -/
theorem SameOutcome.prepend {taken taken' : Nat} {items : List Item}
    {once : Except Fault Unit × Watch Script γ} {ran : Except Fault Unit × Watch Batches γ}
    (same : SameOutcome taken' items once ran) (before : List Item)
    (earlier : taken' = taken + before.length) : SameOutcome taken (before ++ items) once ran := by
  obtain ⟨result, gauge, terminal, seen, left, rfl, count, ahead, ok, failed⟩ := same
  refine ⟨result, gauge, terminal, before ++ seen, left, (List.append_assoc ..).symm, ?_, ahead, ok,
    fun notOk => ?_⟩
  · rw [count, earlier, List.length_append, Nat.add_assoc]
  · obtain ⟨last, mem, notBlock⟩ := failed notOk
    refine ⟨last, ?_, notBlock⟩
    rw [Option.mem_def, List.getLast?_append, Option.mem_def.mp mem, Option.some_or]

/-! ## One drain -/

theorem sameOutcome_of_block {w : Watch Batches γ} {b' : Batches} {drain : List Item}
    {later : List (List Item)} (taken : EventSource.next w.source = (.ok .wouldBlock, b'))
    (h : w.source.pending = drain :: later) (none : plain drain = []) :
    SameOutcome w.source.taken drain (w.drainOf (plain drain)) w.drain := by
  have past := Batches.past_of_block taken h
  rw [none, drainOf_nil, drain_of_next taken]
  exact ⟨rfl, rfl, rfl, drain, [], (List.append_nil _).symm, past.taken, rfl, fun _ => rfl,
    fun notOk => absurd rfl notOk⟩

/-- A drain of a run is like the drain on its own items. -/
theorem drain_sameOutcome {w : Watch Batches γ} {drain : List Item} {later : List (List Item)}
    (h : w.source.pending = drain :: later) :
    SameOutcome w.source.taken drain (w.drainOf (plain drain)) w.drain := by
  induction current : w.source.current generalizing w drain with
  | nil =>
    obtain ⟨b', taken⟩ := Batches.next_of_nil current
    have first : w.source.pending = [] :: drains w.source.later := by
      rw [Batches.pending, current]
      rfl
    obtain ⟨rfl, rfl⟩ := List.cons.inj (first.symm.trans h)
    exact sameOutcome_of_block taken h rfl
  | cons item rest ih =>
    have taken := Batches.next_of_item current
    by_cases block : item = .block
    · have first : w.source.pending = [.block] :: (cut rest ++ drains w.source.later) := by
        rw [Batches.pending, current, cut, if_pos block]
        rfl
      obtain ⟨rfl, rfl⟩ := List.cons.inj (first.symm.trans h)
      rw [block] at taken
      exact sameOutcome_of_block taken h rfl
    · obtain ⟨drain₁, later₁, whole⟩ := Batches.pending_cons { w.source with current := rest }
      rw [Batches.pending_of_item current block, whole, List.modifyHead_cons] at h
      obtain ⟨rfl, rfl⟩ := List.cons.inj h
      have notOk := answer_ne_ok (w := w) block
      rw [plain_cons block, drainOf_cons, drain_of_next taken, answer_withSource]
      rcases answered : w.answer item.reading with ⟨_ | result, w₁⟩
      · have same := ih (w := w₁.withSource
          { w.source with
            current := rest
            taken := w.source.taken + 1
            stopped := w.source.stopped || w.source.stopAt == some (w.source.taken + 1) }) whole rfl
        exact same.prepend [item] rfl
      · rw [answered] at notOk
        have failed : result ≠ .ok () := fun ok => notOk (congrArg some ok)
        exact ⟨rfl, rfl, rfl, [item], drain₁, rfl, rfl, rfl, fun ok => absurd ok failed,
          fun _ => ⟨item, rfl, block⟩⟩

/-! ## A run -/

theorem run_of_stopped {w : Watch Batches γ} (h : w.source.stopped = true) :
    w.run = (.ok (), w) := by
  have waited : Waitable.wait w.source = (.interrupt, w.source) := by
    show w.source.wait = _
    rw [Batches.wait, h]
    rfl
  rw [run_of_wait waited]
  rfl

theorem run_of_running {w : Watch Batches γ} (h : w.source.stopped = false) :
    w.run =
      match w.drain with
      | (.error fault, w') => (.error fault, w')
      | (.ok (), w') => w'.run := by
  have waited : Waitable.wait w.source = (.ready, w.source) := by
    show w.source.wait = _
    rw [Batches.wait, h]
    rfl
  rw [run_of_wait waited, withSource_self, woken]
  split
  · next drained => rw [show w.drain = _ from drained]
  · next drained => rw [show w.drain = _ from drained]

theorem sameOutcome_of_error {w w' : Watch Batches γ} {drain : List Item}
    {later : List (List Item)} {fault : Fault} (running : w.source.stopped = false)
    (h : w.source.pending = drain :: later) (drained : w.drain = (.error fault, w'))
    (more : List Item) :
    SameOutcome w.source.taken (drain ++ more) (w.drainOf (plain (drain ++ more))) w.run := by
  obtain ⟨result, gauge, terminal, seen, left, whole, count, ahead, -, failed⟩ :=
    drain_sameOutcome h
  rw [drained] at result gauge terminal count failed
  have once : w.drainOf (plain drain) = (.error fault, (w.drainOf (plain drain)).2) :=
    Prod.ext result.symm rfl
  rw [run_of_running running, drained, plain_append, drainOf_append_of_error once]
  refine ⟨rfl, gauge, terminal, seen, left ++ more, ?_, count, ?_, nofun, failed⟩
  · rw [whole, List.append_assoc]
  · rw [plain_append, ← ahead]
    rfl

theorem drainOf_of_ok {w w' : Watch Batches γ} {drain : List Item} {later : List (List Item)}
    (h : w.source.pending = drain :: later) (drained : w.drain = (.ok (), w'))
    (more : List Item) : w.drainOf (plain (drain ++ more)) = w'.drainOf (plain more) := by
  obtain ⟨result, gauge, terminal, -⟩ := drain_sameOutcome h
  rw [drained] at result gauge terminal
  have once : w.drainOf (plain drain) = (.ok (), (w.drainOf (plain drain)).2) :=
    Prod.ext result.symm rfl
  have noBlock : ∀ item ∈ plain drain, item ≠ .block := fun item mem =>
    of_decide_eq_true (List.mem_filter.mp mem).2
  rw [plain_append, drainOf_append_of_ok noBlock once]
  exact (drainOf_congr gauge terminal _).symm

theorem sameOutcome_of_stopped {w w' : Watch Batches γ} {drain : List Item}
    {later : List (List Item)} (running : w.source.stopped = false)
    (h : w.source.pending = drain :: later) (drained : w.drain = (.ok (), w'))
    (stopped : w'.source.stopped = true) :
    SameOutcome w.source.taken drain (w.drainOf (plain drain)) w.run := by
  have same := drain_sameOutcome h
  rw [run_of_running running, drained]
  rw [drained] at same
  simp only
  rw [run_of_stopped stopped]
  exact same

/-- The drains of a run from a running source are like one drain on the items of all of them. -/
theorem run_sameOutcome {ahead : List (List Item)} {w : Watch Batches γ}
    (running : w.source.stopped = false) (h : w.source.pending = ahead)
    (notYet : ∀ k ∈ w.source.stopAt, w.source.taken < k) :
    SameOutcome w.source.taken (reached w.source.untilStop ahead).flatten
      (w.drainOf (plain (reached w.source.untilStop ahead).flatten)) w.run := by
  induction ahead generalizing w with
  | nil =>
    obtain ⟨drain, later, some⟩ := w.source.pending_cons
    cases some.symm.trans h
  | cons drain later ih =>
    rw [reached_cons, List.flatten_cons]
    rcases drained : w.drain with ⟨fault | _, w'⟩
    · exact sameOutcome_of_error running h drained _
    · have past := Batches.past_of_drained (drained_of_drain drained) h
      -- The drain is the last one if no more follow, or if the user asked to stop meanwhile.
      split
      · next stops =>
        have stops := (Batches.untilStop_le_iff notYet _).mp stops
        rw [List.flatten_nil, List.append_nil]
        exact sameOutcome_of_stopped running h drained (past.stopped.mpr (.inr (.inr stops)))
      · next goesOn =>
        have goesOn := fun stops => goesOn ((Batches.untilStop_le_iff notYet _).mpr stops)
        by_cases last : later = []
        · rw [last, reached_nil, List.flatten_nil, List.append_nil]
          exact sameOutcome_of_stopped running h drained (past.stopped.mpr (.inr (.inl last)))
        · rw [← past.untilStop, drainOf_of_ok h drained, run_of_running running, drained]
          have same := ih (past.running running last goesOn) (past.pending last)
            (past.notYet notYet goesOn)
          exact same.prepend drain past.taken

/-- No batches are as good as an empty one. -/
theorem flatten_reached_start (batches : List (List Item)) (stopAt : Option Nat) :
    (reached stopAt (Batches.start batches stopAt).pending).flatten =
      (reached stopAt (drains batches)).flatten := by
  cases batches with
  | nil =>
    show (reached stopAt [[]]).flatten = (reached stopAt []).flatten
    rw [reached_cons, reached_nil, reached_nil, ite_self]
    rfl
  | cons batch later => rfl

/-- A run over batches, whenever the user asks to stop. If that was before the run, nothing happens
at all. Otherwise, up to the item while which is taken the user asks to stop, or to the end, the
run comes to what one drain comes to, on the items of all drains up to and including the one that
contains this item, without those that are only a pause. -/
theorem run_batches (batches : List (List Item)) (stopAt : Option Nat) (gauge : γ)
    (terminal : Terminal) :
    let w : Watch Batches γ := { source := .start batches stopAt, gauge, terminal }
    let items := (reached stopAt (drains batches)).flatten
    (drains batches).flatten = batches.flatten ∧
      if stopAt = some 0 then w.run = (.ok (), w)
      else SameOutcome 0 items (w.drainOf (plain items)) w.run := by
  intro w items
  refine ⟨flatten_drains batches, ?_⟩
  split
  · next before =>
    refine run_of_stopped ?_
    show (stopAt == some 0) = true
    rw [before]
    rfl
  · next notBefore =>
    have running : w.source.stopped = false := by
      show (stopAt == some 0) = false
      simpa using notBefore
    have notYet : ∀ k ∈ w.source.stopAt, w.source.taken < k := by
      intro k stop
      refine Nat.pos_of_ne_zero ?_
      rintro rfl
      exact notBefore stop
    have all : w.source.untilStop = stopAt := by
      show stopAt.map (· - 0) = stopAt
      simp
    have same := run_sameOutcome running rfl notYet
    rw [all, flatten_reached_start] at same
    exact same

end Watch

end InputGauge
