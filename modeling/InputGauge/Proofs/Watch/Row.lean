import InputGauge.Proofs.Ring
import InputGauge.Proofs.Watch.Redraws

/-!
# A row of the terminal

A redraw types over the line before it and erases nothing. So what a row shows after some redraws
is the last line, and behind it whatever reached further (`shown_concat`). Each line takes the place
of the one before it just when no line is shorter than that (`replaces_iff`).
-/

namespace InputGauge

/-- A row that never wraps: the characters in it from the left edge on, and the column that the next
one goes to. Columns count characters. -/
structure Row where
  cells : List Char
  column : Nat

namespace Row

/-- A row in which nothing stands. -/
def blank : Row := { cells := [], column := 0 }

/-- A carriage return goes back to the left edge. Every other character takes the place of the one
in its column. -/
def put (r : Row) (c : Char) : Row :=
  if c = '\r' then { r with column := 0 }
  else
    { cells := r.cells.take r.column ++ c :: r.cells.drop (r.column + 1)
      column := r.column + 1 }

/-- Puts the characters of a text one after the other. -/
def type (r : Row) (text : List Char) : Row := text.foldl put r

theorem type_append (r : Row) (text more : List Char) :
    r.type (text ++ more) = (r.type text).type more :=
  List.foldl_append

/-- A text without a carriage return takes the place of as much as it is long. -/
theorem type_plain {text : List Char} (plain : '\r' ∉ text) {r : Row}
    (inside : r.column ≤ r.cells.length) :
    r.type text =
      { cells := r.cells.take r.column ++ text ++ r.cells.drop (r.column + text.length)
        column := r.column + text.length } := by
  induction text generalizing r with
  | nil => simp [type]
  | cons c text ih =>
    have notReturn : c ≠ '\r' := fun same => plain (same ▸ List.mem_cons_self)
    have typed : r.put c =
        { cells := r.cells.take r.column ++ c :: r.cells.drop (r.column + 1)
          column := r.column + 1 } := if_neg notReturn
    have front : (r.cells.take r.column ++ [c]).length = r.column + 1 := by simp [inside]
    have cells : r.cells.take r.column ++ c :: r.cells.drop (r.column + 1) =
        (r.cells.take r.column ++ [c]) ++ r.cells.drop (r.column + 1) := by simp
    have more : '\r' ∉ text := fun mem => plain (List.mem_cons_of_mem _ mem)
    show (r.put c).type text = _
    rw [typed, cells, ih more (by simp [inside])]
    have taken : (r.cells.take r.column ++ [c] ++ r.cells.drop (r.column + 1)).take
        (r.column + 1) = r.cells.take r.column ++ [c] := List.take_left' front
    have behind : (r.cells.take r.column ++ [c] ++ r.cells.drop (r.column + 1)).drop
        (r.column + 1 + text.length) = r.cells.drop (r.column + (c :: text).length) := by
      rw [← List.drop_drop, List.drop_left' front, List.drop_drop, List.length_cons]
      congr 1
      omega
    rw [taken, behind]
    simp [Nat.add_comm, Nat.add_left_comm]

/-- A line after a carriage return hides as much of the row as it is long. -/
theorem type_line {line : List Char} (plain : '\r' ∉ line) (r : Row) :
    r.type ('\r' :: line) =
      { cells := line ++ r.cells.drop line.length, column := line.length } := by
  show ({ r with column := 0 } : Row).type line = _
  rw [type_plain plain (Nat.zero_le _)]
  simp

end Row

namespace Terminal

/-- What a blank row shows after some lines were drawn in it, each over the one before. -/
def shown (lines : List String) : List Char := (Row.blank.type (redrawnText lines).toList).cells

theorem shown_concat (lines : List String) {line : String} (plain : '\r' ∉ line.toList) :
    shown (lines ++ [line]) = line.toList ++ (shown lines).drop line.length := by
  have text : (redrawnText (lines ++ [line])).toList =
      (redrawnText lines).toList ++ '\r' :: line.toList := by
    simp [toList_redrawnText]
  rw [shown, text, Row.type_append, Row.type_line plain]
  rfl

/-- Whenever a line was drawn, the row shows that line and nothing else. -/
def Replaces (lines : List String) : Prop :=
  ∀ seen line, seen ++ [line] <+: lines → shown (seen ++ [line]) = line.toList

/-- The line drawn last is the only one to be seen if none before it was longer. -/
theorem replaces_concat {lines : List String} {line : String} (plain : '\r' ∉ line.toList) :
    Replaces (lines ++ [line]) ↔
      Replaces lines ∧ ∀ last ∈ lines.getLast?, last.length ≤ line.length := by
  have split : Replaces (lines ++ [line]) ↔
      Replaces lines ∧ shown (lines ++ [line]) = line.toList := by
    constructor
    · intro replaces
      exact ⟨fun seen shorter front => replaces seen shorter (front.trans (List.prefix_append ..)),
        replaces lines line (List.prefix_refl _)⟩
    · rintro ⟨replaces, last⟩ seen other front
      rcases List.prefix_concat_iff.mp front with same | earlier
      · obtain ⟨rfl, rfl⟩ := List.append_singleton_inj.mp same
        exact last
      · exact replaces seen other earlier
  rw [split]
  refine and_congr_right fun replaces => ?_
  rw [shown_concat lines plain, List.append_right_eq_self, List.drop_eq_nil_iff]
  rcases List.eq_nil_or_concat lines with rfl | ⟨seen, last, rfl⟩
  · simp [shown, redrawnText, Row.blank, Row.type]
  · rw [List.concat_eq_append] at replaces ⊢
    rw [replaces seen last (List.prefix_refl _), List.getLast?_concat, String.length_toList]
    simp

/-- Each line takes the place of the one before it just when no line is shorter than that. -/
theorem replaces_iff {lines : List String} (plain : ∀ line ∈ lines, '\r' ∉ line.toList) :
    Replaces lines ↔ ∀ pair ∈ successive lines, pair.1.length ≤ pair.2.length := by
  induction lines using List.reverseRecOn with
  | nil =>
    refine iff_of_true (fun seen line front => ?_) nofun
    exact absurd (List.prefix_nil.mp front) (by simp)
  | append_singleton lines line ih =>
    rw [replaces_concat (plain line (by simp)), successive_concat, List.forall_mem_append,
      ih fun earlier mem => plain earlier (List.mem_append_left _ mem)]
    refine and_congr_right fun _ => ?_
    cases lines.getLast? <;> simp

/-- The same for lines that are as long as some words and a width that depends on a value. -/
theorem replaces_iff_of_lengths {α : Type} {lines : List String} {values : List α} {words : Nat}
    {width : α → Nat} (plain : ∀ line ∈ lines, '\r' ∉ line.toList)
    (lengths : lines.map String.length = values.map fun value => words + width value) :
    Replaces lines ↔ ∀ pair ∈ successive values, width pair.1 ≤ width pair.2 := by
  have pairs := congrArg successive lengths
  rw [successive_map, successive_map] at pairs
  calc Replaces lines
      ↔ ∀ pair ∈ (successive lines).map (Prod.map String.length String.length),
          pair.1 ≤ pair.2 := by
        rw [replaces_iff plain, List.forall_mem_map]
        rfl
    _ ↔ _ := by
        rw [pairs, List.forall_mem_map]
        simp

end Terminal

end InputGauge
