import InputGauge.Terminal

/-!
# What a terminal takes

A write spends room, a flush spends a flush, and what goes beyond either is refused; but the bytes
that fit are written all the same. `after` is the terminal after some bytes and some flushes, and
every operation ends there, whether it succeeds or not (`write_eq`, `flush_eq`). Two writes are as
good as one of both texts (`write_append`), so the carriage return and the line of a redraw are one
text (`redraw_eq`).

A redraw succeeds just when there is room for that text and a flush is left (`redraw_of_fits`,
`redraw_of_not_fits`). `Fits` says this of any number of lines, and what fits a terminal on which
lines were shown already is what fits it together with these lines (`fits_append`).
-/

namespace InputGauge.Terminal

variable {t : Terminal} {a b : ByteArray} {shown lines : List String}

/-- The bytes that show some lines, each over the one before. -/
def redrawn (lines : List String) : ByteArray :=
  (String.join (lines.map fun line => "\r" ++ line)).toUTF8

/-- There is room for so many bytes. -/
def HasRoom (t : Terminal) (size : Nat) : Prop := ∀ room ∈ t.room, size ≤ room

/-- So many flushes will succeed. -/
def HasFlushes (t : Terminal) (count : Nat) : Prop := ∀ left ∈ t.flushes, count ≤ left

instance (t : Terminal) (size : Nat) : Decidable (t.HasRoom size) :=
  inferInstanceAs (Decidable (∀ room ∈ t.room, _))

instance (t : Terminal) (count : Nat) : Decidable (t.HasFlushes count) :=
  inferInstanceAs (Decidable (∀ left ∈ t.flushes, _))

/-- There is room for some lines, and a flush for each of them. -/
def Fits (t : Terminal) (lines : List String) : Prop :=
  t.HasRoom (redrawn lines).size ∧ t.HasFlushes lines.length

/-- As many of the bytes as there is room for. -/
def fitting (t : Terminal) (bytes : ByteArray) : ByteArray :=
  match t.room with
  | none => bytes
  | some room => bytes.extract 0 (min room bytes.size)

/-- The terminal after some bytes, as far as they fit, and some flushes. -/
def after (t : Terminal) (bytes : ByteArray) (flushes : Nat) : Terminal :=
  { written := t.written ++ t.fitting bytes
    room := t.room.map (· - bytes.size)
    flushes := t.flushes.map (· - flushes) }

/-- Why lines that do not fit are refused. -/
def refusal (t : Terminal) (lines : List String) : Errno :=
  if t.HasRoom (redrawn lines).size then .brokenPipe else .noSpace

theorem redrawn_append (shown lines : List String) :
    redrawn (shown ++ lines) = redrawn shown ++ redrawn lines := by
  rw [redrawn, List.map_append, String.join_append, String.toUTF8_eq_toByteArray,
    String.toByteArray_append]
  rfl

/-! ## Room -/

theorem hasRoom_iff {size room : Nat} (h : t.room = some room) : t.HasRoom size ↔ size ≤ room := by
  simp [HasRoom, h]

theorem fitting_of_hasRoom (h : t.HasRoom a.size) : t.fitting a = a := by
  unfold fitting
  split
  · rfl
  · next room limited =>
    rw [Nat.min_eq_right ((hasRoom_iff limited).mp h), ByteArray.extract_zero_size]

/-- What does not fit is cut off at the same byte, whatever would have followed it. -/
theorem fitting_append_of_not_hasRoom (h : ¬ t.HasRoom a.size) :
    t.fitting (a ++ b) = t.fitting a := by
  unfold fitting
  split
  · next endless => exact absurd (fun room limited => by simp [endless] at limited) h
  · next room limited =>
    have cut : room ≤ a.size := Nat.le_of_not_le fun enough => h ((hasRoom_iff limited).mpr enough)
    have size : (a ++ b).size = a.size + b.size := ByteArray.size_append
    rw [Nat.min_eq_left cut, Nat.min_eq_left (by omega), ByteArray.extract_append,
      Nat.zero_sub, Nat.sub_eq_zero_of_le cut, ByteArray.extract_same, ByteArray.append_empty]

theorem fitting_append_of_hasRoom (h : t.HasRoom a.size) (n : Nat) :
    t.fitting (a ++ b) = a ++ (t.after a n).fitting b := by
  unfold fitting
  split
  · next endless =>
    have none : (t.after a n).room = none := by rw [after, endless]; rfl
    rw [none]
  · next room limited =>
    have left : (t.after a n).room = some (room - a.size) := by rw [after, limited]; rfl
    have enough := (hasRoom_iff limited).mp h
    have size : (a ++ b).size = a.size + b.size := ByteArray.size_append
    have rest : min room (a.size + b.size) = a.size + min (room - a.size) b.size := by omega
    have front : (a ++ b).extract 0 a.size = a := ByteArray.extract_append_eq_left rfl
    have back (j : Nat) : (a ++ b).extract a.size (a.size + j) = b.extract 0 j :=
      ByteArray.extract_append_size_add (i := 0)
    rw [left, size, rest, ByteArray.extract_eq_extract_append_extract a.size (Nat.zero_le _)
      (Nat.le_add_right _ _), front, back]

/-- What a limit allows after some of it is spent is what it allows with that on top. -/
theorem forall_mem_map_sub_iff {limit : Option Nat} {spent : Nat} (h : ∀ left ∈ limit, spent ≤ left)
    (n : Nat) : (∀ left ∈ limit.map (· - spent), n ≤ left) ↔ ∀ left ∈ limit, spent + n ≤ left := by
  cases limited : limit with
  | none => simp
  | some left =>
    have enough := h left limited
    rw [Option.map_some]
    simp only [Option.mem_def, Option.some.injEq, forall_eq']
    omega

theorem hasRoom_after (h : t.HasRoom a.size) (n size : Nat) :
    (t.after a n).HasRoom size ↔ t.HasRoom (a.size + size) :=
  forall_mem_map_sub_iff h size

theorem hasFlushes_after {n : Nat} (h : t.HasFlushes n) (count : Nat) :
    (t.after a n).HasFlushes count ↔ t.HasFlushes (n + count) :=
  forall_mem_map_sub_iff h count

/-! ## One after the other -/

theorem after_after (h : t.HasRoom a.size) (m n : Nat) :
    (t.after a m).after b n = t.after (a ++ b) (m + n) := by
  have written : (t.after a m).written ++ (t.after a m).fitting b =
      t.written ++ t.fitting (a ++ b) := by
    rw [fitting_append_of_hasRoom h m, ← ByteArray.append_assoc]
    show _ ++ t.fitting a ++ _ = _
    rw [fitting_of_hasRoom h]
  have room : (t.after a m).room.map (· - b.size) = t.room.map (· - (a ++ b).size) := by
    simp [after, Function.comp_def, Nat.sub_sub]
  have flushes : (t.after a m).flushes.map (· - n) = t.flushes.map (· - (m + n)) := by
    simp [after, Function.comp_def, Nat.sub_sub]
  rw [after, written, room, flushes]
  rfl

theorem after_append_of_not_hasRoom (h : ¬ t.HasRoom a.size) (n : Nat) :
    t.after (a ++ b) n = t.after a n := by
  have room : t.room.map (· - (a ++ b).size) = t.room.map (· - a.size) := by
    cases limited : t.room with
    | none => rfl
    | some room =>
      have cut : room ≤ a.size :=
        Nat.le_of_not_le fun enough => h ((hasRoom_iff limited).mpr enough)
      rw [Option.map_some, Option.map_some, ByteArray.size_append, Nat.sub_eq_zero_of_le cut,
        Nat.sub_eq_zero_of_le (Nat.le_add_right_of_le cut)]
  rw [after, fitting_append_of_not_hasRoom h, room]
  rfl

theorem after_of_no_flush (h : ¬ t.HasFlushes 1) (n : Nat) : t.after a n = t.after a 0 := by
  have spent : t.flushes.map (· - n) = t.flushes.map (· - 0) := by
    unfold HasFlushes at h
    cases limited : t.flushes with
    | none => rfl
    | some left =>
      have none : left = 0 := by
        rw [limited] at h
        simpa using h
      rw [none]
      simp
  rw [after, spent]
  rfl

/-! ## The operations -/

theorem write_eq (t : Terminal) (bytes : ByteArray) :
    t.write bytes =
      (if t.HasRoom bytes.size then .ok () else .error .noSpace, t.after bytes 0) := by
  have kept : t.flushes.map (· - 0) = t.flushes := by simp
  rw [after, kept]
  unfold write
  split
  · next endless =>
    have enough : t.HasRoom bytes.size := fun room limited => by simp [endless] at limited
    rw [if_pos enough, fitting_of_hasRoom enough, endless]
    rfl
  · next room limited =>
    rw [limited, Option.map_some]
    split
    · next enough =>
      have enough := (hasRoom_iff limited).mpr enough
      rw [if_pos enough, fitting_of_hasRoom enough]
    · next cut =>
      have short := Nat.le_of_not_le cut
      rw [if_neg fun enough => cut ((hasRoom_iff limited).mp enough), fitting, limited,
        Nat.sub_eq_zero_of_le short]
      simp only [Nat.min_eq_left short]

theorem flush_eq (t : Terminal) :
    t.flush = (if t.HasFlushes 1 then .ok () else .error .brokenPipe, t.after .empty 1) := by
  obtain ⟨written, room, flushes⟩ := t
  have kept : room.map (· - ByteArray.empty.size) = room := by simp
  have nothing : written ++ fitting { written, room, flushes } .empty = written := by
    rw [fitting_of_hasRoom fun _ _ => Nat.zero_le _, ByteArray.append_empty]
  rw [flush, after, kept, nothing]
  rcases flushes with _ | _ | left
  · rfl
  · rfl
  · simp [HasFlushes]

/-- Two writes are as good as one of both texts. -/
theorem write_append (t : Terminal) (a b : ByteArray) :
    t.write (a ++ b) =
      match t.write a with
      | (.error errno, t) => (.error errno, t)
      | (.ok (), t) => t.write b := by
  rw [write_eq, write_eq, ByteArray.size_append]
  by_cases enough : t.HasRoom a.size
  · rw [if_pos enough]
    show _ = (t.after a 0).write b
    rw [write_eq, after_after enough]
    simp only [hasRoom_after enough]
  · have all : ¬ t.HasRoom (a.size + b.size) := fun all => enough fun room limited =>
      Nat.le_trans (Nat.le_add_right _ _) (all room limited)
    rw [if_neg enough, if_neg all, after_append_of_not_hasRoom enough]

theorem redrawn_singleton (line : String) :
    redrawn [line] = "\r".toUTF8 ++ line.toUTF8 := by
  rw [redrawn, List.map_singleton, String.join_cons, String.join_nil, String.append_empty]
  exact String.toByteArray_append

/-- A carriage return and a line are one text. -/
theorem redraw_eq (t : Terminal) (line : String) :
    t.redraw line =
      match t.write (redrawn [line]) with
      | (.error errno, t) => (.error errno, t)
      | (.ok (), t) => t.flush := by
  rw [redrawn_singleton, write_append, redraw]
  rcases t.write "\r".toUTF8 with ⟨_ | _, t⟩ <;> rfl

/-! ## Lines -/

theorem fits_nil (t : Terminal) : t.Fits [] :=
  ⟨fun _ _ => Nat.zero_le _, fun _ _ => Nat.zero_le _⟩

theorem after_nil (t : Terminal) : t.after (redrawn []) 0 = t := by
  have nothing : redrawn [] = .empty := rfl
  have fits : t.HasRoom (ByteArray.empty).size := t.fits_nil.1
  rw [nothing, after, fitting_of_hasRoom fits, ByteArray.append_empty]
  simp

theorem redraw_of_fits {line : String} (h : t.Fits [line]) :
    t.redraw line = (.ok (), t.after (redrawn [line]) 1) := by
  obtain ⟨room, flushes⟩ := h
  have left : (t.after (redrawn [line]) 0).HasFlushes 1 :=
    (hasFlushes_after (fun _ _ => Nat.zero_le _) 1).mpr (by simpa using flushes)
  rw [redraw_eq, write_eq, if_pos room]
  simp only
  rw [flush_eq, if_pos left, after_after room, ByteArray.append_empty]

/-- What fits of a line that is refused is written, and no flush is spent on it. -/
theorem redraw_of_not_fits {line : String} (h : ¬ t.Fits [line]) :
    t.redraw line = (.error (t.refusal [line]), t.after (redrawn [line]) 0) := by
  rw [redraw_eq, write_eq, refusal]
  by_cases room : t.HasRoom (redrawn [line]).size
  · have noFlush : ¬ t.HasFlushes 1 := fun flushes => h ⟨room, flushes⟩
    have noneLeft : ¬ (t.after (redrawn [line]) 0).HasFlushes 1 := fun flushes =>
      noFlush ((hasFlushes_after (fun _ _ => Nat.zero_le _) 1).mp flushes)
    -- The flush that fails had none to spend, so it is as if it had not been tried.
    rw [if_pos room, if_pos room]
    simp only
    rw [flush_eq, if_neg noneLeft, after_after room, ByteArray.append_empty,
      after_of_no_flush noFlush]
  · simp only [if_neg room]

theorem fits_append (h : t.Fits shown) :
    (t.after (redrawn shown) shown.length).Fits lines ↔ t.Fits (shown ++ lines) := by
  rw [Fits, hasRoom_after h.1, hasFlushes_after h.2, Fits, redrawn_append, ByteArray.size_append,
    List.length_append]

theorem fits_of_append (h : t.Fits (shown ++ lines)) : t.Fits shown := by
  obtain ⟨room, flushes⟩ := h
  rw [redrawn_append, ByteArray.size_append] at room
  rw [List.length_append] at flushes
  exact ⟨fun limit limited => Nat.le_of_add_right_le (room limit limited),
    fun limit limited => Nat.le_of_add_right_le (flushes limit limited)⟩

theorem refusal_append (h : t.Fits shown) :
    (t.after (redrawn shown) shown.length).refusal lines = t.refusal (shown ++ lines) := by
  simp only [refusal, hasRoom_after h.1, redrawn_append, ByteArray.size_append]

theorem after_append (h : t.Fits shown) (n : Nat) :
    (t.after (redrawn shown) shown.length).after (redrawn lines) n =
      t.after (redrawn (shown ++ lines)) (shown.length + n) := by
  rw [after_after h.1, redrawn_append]

end InputGauge.Terminal
