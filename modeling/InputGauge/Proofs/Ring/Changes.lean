import InputGauge.Proofs.Ring

/-!
# Rings under any pushes and clears

What a ring says about all that was ever done to it. Only what was pushed since the last clear
counts (`SinceClear`): a slot holds the last of those values whose turn fell on it, and what it held
at the clear if none did (`Records`). A filled ring, read from the slot whose turn is next, is
therefore the last of those values in the order in which they came, and its pairs of neighbouring
slots are, but for where they start, the pairs of values that came one after the other and the pair
of the newest and the oldest (`records_since_clear`).

The bounds of a ring's slots are part of its type. `Unchecked` is a ring without them, in which an
access may miss: run on it, the same pushes, clears and readings never do.
-/

namespace InputGauge.Ring

variable {α : Type} {n : Nat}

/-! ## Changes -/

/-- What can be done to a ring. -/
inductive Change (α : Type) where
  | push (a : α)
  | clear
  deriving Repr

/-- The ring after a change. -/
def change (r : Ring α n) : Change α → Ring α n
  | .push a => r.push a
  | .clear => r.clear

/-- The ring after some changes. -/
def changeAll (r : Ring α n) (changes : List (Change α)) : Ring α n := changes.foldl change r

/-- `values` were pushed since the last clear, at which the slots held `held`. Without a clear, they
were pushed since the start. -/
inductive SinceClear (start : Ring α n) : List (Change α) → Vector α n → List α → Prop
  | never (values : List α) : SinceClear start (values.map .push) start.slots values
  | cleared (earlier : List (Change α)) (values : List α) :
      SinceClear start (earlier ++ .clear :: values.map .push) (start.changeAll earlier).slots values

theorem changeAll_append (r : Ring α n) (earlier later : List (Change α)) :
    r.changeAll (earlier ++ later) = (r.changeAll earlier).changeAll later :=
  List.foldl_append

theorem SinceClear.push {start : Ring α n} {changes : List (Change α)} {held : Vector α n}
    {values : List α} (since : SinceClear start changes held values) (a : α) :
    SinceClear start (changes ++ [.push a]) held (values ++ [a]) := by
  cases since with
  | never =>
    have whole := @SinceClear.never _ _ start (values ++ [a])
    rwa [List.map_append] at whole
  | cleared earlier =>
    have whole := @SinceClear.cleared _ _ start earlier (values ++ [a])
    rwa [List.map_append, ← List.cons_append, ← List.append_assoc] at whole

theorem exists_sinceClear (start : Ring α n) (changes : List (Change α)) :
    ∃ held values, SinceClear start changes held values := by
  induction changes using List.reverseRecOn with
  | nil => exact ⟨_, [], .never []⟩
  | append_singleton changes c ih =>
    cases c with
    | push a =>
      obtain ⟨held, values, since⟩ := ih
      exact ⟨held, values ++ [a], since.push a⟩
    | clear => exact ⟨_, [], .cleared changes []⟩

theorem Holds.pushAll {r : Ring α n} {old seen : List α} (h : r.Holds old seen)
    (values : List α) : (r.changeAll (values.map .push)).Holds old (seen ++ values) := by
  induction values generalizing r seen with
  | nil => rwa [List.append_nil]
  | cons a rest ih =>
    have next := ih (h.push a)
    rwa [List.append_assoc] at next

/-- What came before the last clear is in what the slots held then, and nowhere else. -/
theorem SinceClear.holds {pos : 0 < n} {fill : α} {changes : List (Change α)} {held : Vector α n}
    {values : List α} (since : SinceClear (empty pos fill) changes held values) :
    ((empty pos fill).changeAll changes).Holds held.toList values := by
  cases since with
  | never =>
    have start : (empty pos fill).slots.toList = List.replicate n fill := Vector.toList_replicate
    rw [start]
    exact (holds_empty pos fill).pushAll values
  | cleared earlier =>
    rw [changeAll_append]
    exact ((empty pos fill).changeAll earlier).holds_clear.pushAll values

/-! ## What can be read off -/

/-- What a ring says about the values pushed since a clear, at which its slots held `held`. -/
structure Records (r : Ring α n) (held : Vector α n) (values : List α) : Prop where
  filled : r.filled = true ↔ n ≤ values.length
  size : r.size = min values.length n
  isEmpty : r.isEmpty = true ↔ values.length = 0
  /-- The turn goes round. A slot holds the last value whose turn fell on it. -/
  written (slot : Fin n) (j : Nat) (a : α) : values[j]? = some a → j % n = slot →
    (∀ later < values.length, j < later → later % n ≠ slot) → r.slots[slot] = a
  /-- A slot on which no turn fell holds what it held. -/
  untouched (slot : Fin n) : (∀ j < values.length, j % n ≠ slot) → r.slots[slot] = held[slot]
  /-- From the slot whose turn is next on, a filled ring is the last values in order. -/
  order : n ≤ values.length → r.slots.toList.rotate (values.length % n) = lastOf n values
  /-- The pairs of neighbouring slots of a filled ring, up to where they start. -/
  pairs : n ≤ values.length → ∃ oldest ∈ (lastOf n values).head?, ∃ newest ∈ values.getLast?,
    r.cyclicPairs.IsRotated (successive (lastOf n values) ++ [(newest, oldest)])

theorem Holds.size {r : Ring α n} {old values : List α} (h : r.Holds old values) :
    r.size = min values.length n := by
  rw [Ring.size, h.filled, h.cursor]
  split
  · next full => exact (Nat.min_eq_right (of_decide_eq_true full)).symm
  · next few =>
    have below : values.length < n := Nat.not_le.mp fun full => few (decide_eq_true full)
    rw [Nat.mod_eq_of_lt below, Nat.min_eq_left below.le]

/-- The slots, counted from the one whose turn is next. -/
theorem Holds.getElem?_slots {r : Ring α n} {old values : List α} (h : r.Holds old values)
    {d : Nat} (inside : d < n) :
    r.slots.toList[(values.length + d) % n]? = (old ++ values)[values.length + d]? := by
  have length : r.slots.toList.length = n := Vector.length_toList
  calc r.slots.toList[(values.length + d) % n]?
      = r.slots.toList[(d + r.cursor) % r.slots.toList.length]? := by
        rw [length, h.cursor, Nat.add_mod_mod, Nat.add_comm]
    _ = r.oldestFirst[d]? := (List.getElem?_rotate (length.symm ▸ inside)).symm
    _ = (old ++ values)[values.length + d]? := by rw [h.oldestFirst, List.getElem?_drop]

theorem Holds.written {r : Ring α n} {old values : List α} (h : r.Holds old values) {slot : Fin n}
    {j : Nat} {a : α} (value : values[j]? = some a) (turn : j % n = slot)
    (last : ∀ later < values.length, j < later → later % n ≠ slot) : r.slots[slot] = a := by
  obtain ⟨inside, -⟩ := List.getElem?_eq_some_iff.mp value
  -- One round after its last turn, the slot waits for the next one.
  have nextRound : values.length ≤ j + n := by
    by_contra before
    refine last (j + n) (Nat.not_le.mp before) (Nat.lt_add_of_pos_right slot.pos) ?_
    rw [Nat.add_mod_right, turn]
  obtain ⟨d, offset⟩ := Nat.exists_eq_add_of_le nextRound
  have read := h.getElem?_slots (d := d) (by omega)
  rw [← offset, Nat.add_mod_right, turn, List.getElem?_append_right (h.length_old ▸ Nat.le_add_left _ _),
    h.length_old, Nat.add_sub_cancel, value] at read
  simpa using read

theorem Holds.untouched {r : Ring α n} {held : Vector α n} {values : List α}
    (h : r.Holds held.toList values) {slot : Nat} (inside : slot < n)
    (never : ∀ j < values.length, j % n ≠ slot) : r.slots[slot] = held[slot] := by
  have still : values.length ≤ slot := by
    by_contra before
    exact never slot (Nat.not_le.mp before) (Nat.mod_eq_of_lt inside)
  obtain ⟨d, offset⟩ := Nat.exists_eq_add_of_le still
  have read := h.getElem?_slots (d := d) (by omega)
  rw [← offset, Nat.mod_eq_of_lt inside,
    List.getElem?_append_left (h.length_old.symm ▸ inside)] at read
  simpa [inside] using read

theorem Holds.pairs {r : Ring α n} {old values : List α} (h : r.Holds old values)
    (many : n ≤ values.length) :
    ∃ oldest ∈ (lastOf n values).head?, ∃ newest ∈ values.getLast?,
      r.cyclicPairs.IsRotated (successive (lastOf n values) ++ [(newest, oldest)]) := by
  have order := h.oldestFirst_filled many
  have nonempty : lastOf n values ≠ [] := by
    rw [← order, ← List.length_pos_iff, length_oldestFirst]
    exact r.cursor.pos
  refine ⟨_, List.head_mem_head? nonempty, (lastOf n values).getLast nonempty, ?_, r.cursor, ?_⟩
  · rw [← getLast?_lastOf r.cursor.pos]
    exact List.getLast_mem_getLast? nonempty
  · rw [cyclicPairs_eq, ← neighbours_rotate, ← neighbours_eq_successive nonempty, ← order]
    rfl

theorem Holds.records {r : Ring α n} {held : Vector α n} {values : List α}
    (h : r.Holds held.toList values) : r.Records held values where
  filled := by rw [h.filled, decide_eq_true_eq]
  size := h.size
  isEmpty := by
    rw [Ring.isEmpty, h.size, beq_iff_eq, Nat.min_eq_zero_iff]
    exact or_iff_left r.cursor.pos.ne'
  written _ _ _ := h.written
  untouched slot := h.untouched slot.isLt
  order many := by
    rw [← h.cursor]
    exact h.oldestFirst_filled many
  pairs := h.pairs

/-! ## Bounds -/

/-- A ring whose slots may be missed: the cursor can be any number, and an access to a slot that is
not there fails. -/
structure Unchecked (α : Type) where
  slots : List α
  cursor : Nat
  filled : Bool

namespace Unchecked

/-- A push that writes to the slot at the cursor and goes back to the first slot after the last. -/
def push? (r : Unchecked α) (a : α) : Option (Unchecked α) :=
  if r.cursor < r.slots.length then
    if r.cursor + 1 = r.slots.length then
      some { slots := r.slots.set r.cursor a, cursor := 0, filled := true }
    else
      some { slots := r.slots.set r.cursor a, cursor := r.cursor + 1, filled := r.filled }
  else none

/-- The ring after a change, if that misses no slot. -/
def change? (r : Unchecked α) : Change α → Option (Unchecked α)
  | .push a => r.push? a
  | .clear => some { r with cursor := 0, filled := false }

/-- The values in neighbouring slots, if reading them misses no slot. -/
def cyclicPairs? (r : Unchecked α) : Option (List (α × α)) :=
  (List.range r.slots.length).mapM fun i => do
    return (← r.slots[i]?, ← r.slots[(i + 1) % r.slots.length]?)

end Unchecked

/-- A ring without the bounds of its slots. -/
def unchecked (r : Ring α n) : Unchecked α :=
  { slots := r.slots.toList, cursor := r.cursor, filled := r.filled }

theorem length_unchecked (r : Ring α n) : r.unchecked.slots.length = n := Vector.length_toList

theorem unchecked_push (r : Ring α n) (a : α) : (r.push a).unchecked =
    { slots := r.unchecked.slots.set r.cursor a
      cursor := (r.cursor + 1) % n
      filled := r.filled || r.cursor.val + 1 == n } := by
  have slots : (r.push a).slots.toList = r.slots.toList.set r.cursor a :=
    Vector.toList_set r.cursor.isLt
  rw [unchecked, slots]
  rfl

theorem push?_unchecked (r : Ring α n) (a : α) :
    r.unchecked.push? a = some (r.push a).unchecked := by
  have inside : r.unchecked.cursor < n := r.cursor.isLt
  rw [Unchecked.push?, length_unchecked, if_pos inside, unchecked_push]
  rcases Nat.lt_or_eq_of_le r.cursor.isLt with before | last
  · have notLast : r.cursor.val + 1 ≠ n := before.ne
    rw [Nat.mod_eq_of_lt before, beq_false_of_ne notLast, Bool.or_false]
    exact if_neg notLast
  · have round : (r.cursor.val + 1) % n = 0 := (congrArg (· % n) last).trans (Nat.mod_self n)
    rw [round, beq_iff_eq.mpr last, Bool.or_true]
    exact if_pos last

theorem change?_unchecked (r : Ring α n) (c : Change α) :
    r.unchecked.change? c = some (r.change c).unchecked := by
  cases c with
  | push a => exact r.push?_unchecked a
  | clear => rfl

/-- No push misses a slot. -/
theorem foldlM_change?_unchecked (r : Ring α n) (changes : List (Change α)) :
    changes.foldlM Unchecked.change? r.unchecked = some (r.changeAll changes).unchecked := by
  induction changes generalizing r with
  | nil => rfl
  | cons c rest ih =>
    rw [List.foldlM_cons, change?_unchecked]
    exact ih (r.change c)

/-- No reading misses a slot. -/
theorem cyclicPairs?_unchecked (r : Ring α n) :
    r.unchecked.cyclicPairs? = some r.cyclicPairs := by
  have read (slot : Fin n) : r.unchecked.slots[slot.val]? = some r.slots[slot] := by simp [unchecked]
  rw [Unchecked.cyclicPairs?, length_unchecked, ← List.map_coe_finRange_eq_range, List.mapM_map]
  calc (List.finRange n).mapM (fun slot => do
        return (← r.unchecked.slots[slot.val]?, ← r.unchecked.slots[(after slot).val]?))
      = (List.finRange n).mapM fun slot => pure (r.slots[slot], r.slots[after slot]) := by
        simp only [read, Option.bind_eq_bind, Option.bind_some]
    _ = some r.cyclicPairs := List.mapM_pure

/-! ## Any changes -/

/-- After any pushes and clears, no access misses a slot, and the ring is what the values pushed
since the last clear make of it. -/
theorem records_since_clear (pos : 0 < n) (fill : α) (changes : List (Change α)) :
    let start := empty pos fill
    let r := start.changeAll changes
    changes.foldlM Unchecked.change? start.unchecked = some r.unchecked ∧
      r.unchecked.cyclicPairs? = some r.cyclicPairs ∧
      start.slots = Vector.replicate n fill ∧
      (∃ held values, SinceClear start changes held values) ∧
      ∀ held values, SinceClear start changes held values → r.Records held values := by
  intro start r
  refine ⟨foldlM_change?_unchecked start changes, r.cyclicPairs?_unchecked, rfl,
    exists_sinceClear start changes, fun held values since => ?_⟩
  exact since.holds.records

/-- Four values went round three slots, and two came after the clear. -/
def worn : List (Change Nat) :=
  [.push 10, .push 20, .push 30, .push 40, .clear, .push 50, .push 60]

theorem records_since_clear_worn :
    let start : Ring Nat 3 := empty (Nat.succ_pos 2) 0
    SinceClear start worn #v[40, 20, 30] [50, 60] ∧
      (start.changeAll worn).slots = #v[50, 60, 30] ∧
      (start.changeAll worn).Records #v[40, 20, 30] [50, 60] :=
  have since : SinceClear (empty (Nat.succ_pos 2) 0) worn #v[40, 20, 30] [50, 60] :=
    .cleared [.push 10, .push 20, .push 30, .push 40] [50, 60]
  ⟨since, by decide, (records_since_clear (Nat.succ_pos 2) 0 worn).2.2.2.2 _ _ since⟩

end InputGauge.Ring
