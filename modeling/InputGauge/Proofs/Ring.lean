import InputGauge.Ring
import Mathlib.Data.List.Rotate

/-!
# Rings against the history of pushes

A ring is filled slot by slot in the order of storage; a reader wants the order of arrival. Read
from the cursor on, once round, the slots are in that order, whatever the cursor is
(`Ring.oldestFirst`). A push drops the first of them and adds the new value at the end
(`oldestFirst_push`).

`Ring.Holds` says what a ring is after a clear and some pushes: where the cursor stands, whether
the ring is filled, and that its slots are the last of what they held at the clear followed by the
values pushed. A clear and a push keep it (`holds_clear`, `Holds.push`). Once as many values were
pushed as there are slots, nothing from before the clear is left (`Holds.oldestFirst_filled`).

The pairs of neighbouring slots are, but for their order, the pairs of neighbours in the order of
arrival, with the seam from the newest value back to the oldest (`cyclicPairs_perm`).
-/

namespace InputGauge

variable {α : Type}

/-- The pairs of neighbours in a list; the last value's neighbour is the first. -/
def neighbours (values : List α) : List (α × α) := values.zip (values.rotate 1)

/-- The pairs of values that follow each other directly. -/
def successive (values : List α) : List (α × α) := values.zip values.tail

/-- The last `n` values of a list, or all if there are fewer. -/
def lastOf (n : Nat) (values : List α) : List α := values.drop (values.length - n)

theorem neighbours_rotate (values : List α) (k : Nat) :
    neighbours (values.rotate k) = (neighbours values).rotate k := by
  unfold neighbours List.zip
  rw [List.zipWith_rotate_distrib _ _ _ _ (List.length_rotate ..).symm, List.rotate_rotate,
    List.rotate_rotate, Nat.add_comm]

theorem mem_successive_iff {values : List α} {pair : α × α} :
    pair ∈ successive values ↔
      ∃ i, values[i]? = some pair.1 ∧ values[i + 1]? = some pair.2 := by
  rw [List.mem_iff_getElem?]
  refine exists_congr fun i => ?_
  rw [successive, List.getElem?_zip_eq_some, List.getElem?_tail]

theorem zip_concat_eq_successive (first : α) (rest : List α) (next : α) :
    (first :: rest).zip (rest ++ [next]) =
      successive (first :: rest) ++ [((first :: rest).getLast (List.cons_ne_nil _ _), next)] := by
  induction rest generalizing first with
  | nil => rfl
  | cons second rest ih =>
    rw [List.cons_append, List.zip_cons_cons, ih second]
    rfl

/-- Going once round adds the pair of the last value and the first. -/
theorem neighbours_eq_successive {values : List α} (nonempty : values ≠ []) :
    neighbours values =
      successive values ++ [(values.getLast nonempty, values.head nonempty)] := by
  obtain ⟨first, rest, rfl⟩ := List.exists_cons_of_ne_nil nonempty
  rw [neighbours, List.rotate_cons_succ, List.rotate_zero]
  exact zip_concat_eq_successive first rest first

theorem successive_concat (values : List α) (next : α) :
    successive (values ++ [next]) =
      successive values ++ (values.getLast?.map fun last => (last, next)).toList := by
  rcases values with _ | ⟨first, rest⟩
  · rfl
  · have length : (first :: rest).length = (rest ++ [next]).length := by simp
    calc successive (first :: rest ++ [next])
        = (first :: rest ++ [next]).zip (rest ++ [next] ++ []) := by rw [List.append_nil]; rfl
      _ = (first :: rest).zip (rest ++ [next]) := by
          rw [List.zip_append length, List.zip_nil_right, List.append_nil]
      _ = _ := zip_concat_eq_successive first rest next

theorem successive_drop (values : List α) (k : Nat) :
    successive (values.drop k) = (successive values).drop k := by
  unfold successive List.zip
  rw [List.tail_drop_eq_drop_tail, List.drop_zipWith]

theorem successive_map {β : Type} (f : α → β) (values : List α) :
    successive (values.map f) = (successive values).map (Prod.map f f) := by
  rw [successive, successive, ← List.map_tail, List.zip_map]

theorem getLast?_lastOf {n : Nat} (pos : 0 < n) (values : List α) :
    (lastOf n values).getLast? = values.getLast? := by
  rcases List.eq_nil_or_concat values with rfl | ⟨earlier, last, rfl⟩
  · rw [lastOf, List.drop_nil]
  · have some : 0 < (earlier.concat last).length := by simp
    rw [lastOf, List.getLast?_drop, if_neg (Nat.not_le.mpr (Nat.sub_lt some pos))]

namespace Ring

variable {n : Nat}

/-- The slots from the cursor on, once round. -/
def oldestFirst (r : Ring α n) : List α := r.slots.toList.rotate r.cursor

@[simp] theorem length_oldestFirst (r : Ring α n) : r.oldestFirst.length = n := by
  simp [oldestFirst]

/-- A push drops the oldest of the slots and adds the new value as the newest. -/
theorem oldestFirst_push (r : Ring α n) (a : α) :
    (r.push a).oldestFirst = r.oldestFirst.tail ++ [a] := by
  have inside : r.cursor.val < r.slots.toList.length := by simp
  have fits : r.cursor.val + 1 ≤ (r.slots.toList.set r.cursor a).length := by
    rwa [List.length_set]
  have cursor : (r.push a).cursor.val = (r.cursor.val + 1) % n := rfl
  have slots : (r.push a).slots.toList = r.slots.toList.set r.cursor a :=
    Vector.toList_set r.cursor.isLt
  have length : (r.slots.toList.set r.cursor a).length = n := by simp
  calc (r.push a).oldestFirst
      = (r.slots.toList.set r.cursor a).rotate (r.cursor + 1) := by
        rw [oldestFirst, cursor, slots, ← List.rotate_mod _ (r.cursor.val + 1), length]
    _ = r.slots.toList.drop (r.cursor + 1) ++ (r.slots.toList.take r.cursor ++ [a]) := by
        rw [List.rotate_eq_drop_append_take fits, List.drop_set_of_lt (Nat.lt_succ_self _),
          List.take_succ_eq_append_getElem fits, List.take_set_of_le (Nat.le_refl _)]
        simp
    _ = r.oldestFirst.tail ++ [a] := by
        rw [oldestFirst, List.rotate_eq_drop_append_take (Nat.le_of_lt inside),
          List.tail_append_of_ne_nil (by simp), List.tail_drop, List.append_assoc]

/-- What a ring is when its slots held `old` at the last clear and `values` were pushed since. -/
structure Holds (r : Ring α n) (old values : List α) : Prop where
  length_old : old.length = n
  cursor : r.cursor.val = values.length % n
  filled : r.filled = decide (n ≤ values.length)
  oldestFirst : r.oldestFirst = (old ++ values).drop values.length

theorem holds_clear (r : Ring α n) : r.clear.Holds r.slots.toList [] where
  length_old := by simp
  cursor := (Nat.zero_mod n).symm
  filled := (decide_eq_false (Nat.not_le.mpr r.cursor.pos)).symm
  oldestFirst := by simp [Ring.oldestFirst, clear]

theorem holds_empty (pos : 0 < n) (fill : α) :
    (empty pos fill).Holds (List.replicate n fill) [] where
  length_old := List.length_replicate
  cursor := (Nat.zero_mod n).symm
  filled := (decide_eq_false (Nat.not_le.mpr pos)).symm
  oldestFirst := by simp [Ring.oldestFirst, empty]

/-- The cursor goes round exactly when the number of pushes becomes a multiple of the slots, so
the ring is filled from the first time on. -/
theorem Holds.push {r : Ring α n} {old values : List α} (h : r.Holds old values) (a : α) :
    (r.push a).Holds old (values ++ [a]) where
  length_old := h.length_old
  cursor := by
    show (r.cursor.val + 1) % n = _
    rw [h.cursor, List.length_append, List.length_singleton, Nat.mod_add_mod]
  filled := by
    show (r.filled || r.cursor.val + 1 == n) = _
    have pos := r.cursor.pos
    rw [h.filled, h.cursor, List.length_append, List.length_singleton, Bool.eq_iff_iff]
    simp only [Bool.or_eq_true, decide_eq_true_eq, beq_iff_eq]
    -- Before the first time round the cursor is the number of values; after it both sides are true.
    rcases Nat.lt_or_ge values.length n with few | many
    · rw [Nat.mod_eq_of_lt few]
      omega
    · omega
  oldestFirst := by
    have inside : values.length + 1 ≤ (old ++ values).length := by
      have pos := r.cursor.pos
      rw [List.length_append, h.length_old]
      omega
    rw [oldestFirst_push, h.oldestFirst, List.tail_drop, ← List.append_assoc, List.length_append,
      List.length_singleton, List.drop_append_of_le_length inside]

/-- A filled ring holds the last values pushed and nothing from before the clear. -/
theorem Holds.oldestFirst_filled {r : Ring α n} {old values : List α} (h : r.Holds old values)
    (many : n ≤ values.length) : r.oldestFirst = lastOf n values := by
  rw [h.oldestFirst, List.drop_append, List.drop_eq_nil_of_le (h.length_old ▸ many), h.length_old]
  rfl

theorem cyclicPairs_eq (r : Ring α n) : r.cyclicPairs = neighbours r.slots.toList := by
  apply List.ext_getElem
  · simp [cyclicPairs, neighbours]
  · intro i inside _
    simp [cyclicPairs, neighbours, after, List.getElem_rotate]

/-- The pairs of neighbouring slots, in the order of arrival. -/
theorem cyclicPairs_perm (r : Ring α n) : r.cyclicPairs.Perm (neighbours r.oldestFirst) := by
  rw [cyclicPairs_eq, oldestFirst, neighbours_rotate]
  exact (List.rotate_perm _ _).symm

end Ring

end InputGauge
