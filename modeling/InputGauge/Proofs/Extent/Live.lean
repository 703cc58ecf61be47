import InputGauge.Proofs.Extent.Samples
import InputGauge.Proofs.Text.Parting
import InputGauge.Proofs.Watch.Redraws

/-!
# The live display of an extent, read back

A status line has four numbers with words around them, and a glyph at its end. The numbers can be
read back from the line (`numbers?_statusLine`), so the text that a drain sends says what the bounds
were at each sync, and the glyph says how many syncs there were, up to a multiple of four. Nothing
else shows: the text is made of the bounds at each sync and of their place in the list
(`lines_eq_mapIdx`).
-/

namespace InputGauge

/-! ## Numbers in a line -/

namespace Numeral

/-- Whether a character can be part of a written number. -/
def isPart (c : Char) : Bool := c == '-' || c.isDigit

/-- The longest stretches of a text that could be numbers. -/
def stretches (text : List Char) : List (List Char) :=
  (text.splitOnP fun c => !isPart c).filter (· ≠ [])

/-- The numbers in a text from left to right, if each stretch that could be one is one. -/
def numbers? (text : List Char) : Option (List Int32) :=
  (stretches text).mapM fun numeral => int32? (String.ofList numeral)

theorem isPart_of_mem_repr {n : Int} {c : Char} (mem : c ∈ n.repr.toList) : isPart c = true := by
  rcases eq_dash_or_isDigit_of_mem_repr mem with rfl | digit
  · rfl
  · rw [isPart, digit, Bool.or_true]

theorem repr_ne_nil (n : Int) : n.repr.toList ≠ [] := by
  intro empty
  have denotes := denotes_repr n
  rw [empty] at denotes
  cases denotes with
  | plain digits => exact digits.1 rfl

theorem stretches_words {words : List Char} (plain : words.all (!isPart ·)) (rest : List Char) :
    stretches (words ++ rest) = stretches rest := by
  induction words with
  | nil => rfl
  | cons c words ih =>
    obtain ⟨notPart, more⟩ := Bool.and_eq_true_iff.mp plain
    rw [← ih more, List.cons_append, stretches, List.splitOnP_cons_eq_if_modifyHead, if_pos notPart]
    rfl

/-- A number with words behind it is one stretch. -/
theorem stretches_number (n : Int) {words : List Char} (some : words ≠ [])
    (plain : words.all (!isPart ·)) (rest : List Char) :
    stretches (n.repr.toList ++ (words ++ rest)) = n.repr.toList :: stretches rest := by
  obtain ⟨c, words, rfl⟩ := List.exists_cons_of_ne_nil some
  obtain ⟨notPart, more⟩ := Bool.and_eq_true_iff.mp plain
  have part : ∀ c ∈ n.repr.toList, (!isPart c) = false := fun c mem => by
    rw [isPart_of_mem_repr mem]
    rfl
  rw [← stretches_words more rest, List.cons_append, stretches,
    List.splitOnP_append_cons_of_forall_mem part c notPart, List.filter_cons,
    if_pos (by simpa using repr_ne_nil n)]
  rfl

theorem int32?_repr (n : Int32) : int32? n.toInt.repr = some n :=
  int32?_eq_some_iff.mpr (denotes_repr n.toInt)

end Numeral

/-! ## A status line -/

/-- The bounds in the order in which a status line has them. -/
def Extent.bounds (d : Extent) : List Int32 := [d.left, d.right, d.top, d.bottom]

theorem Extent.bounds_inj {d d' : Extent} : d.bounds = d'.bounds ↔ d = d' := by
  obtain ⟨left, right, top, bottom⟩ := d
  obtain ⟨left', right', top', bottom'⟩ := d'
  simp [bounds]

namespace ExtentGauge

open Event Extent Numeral

theorem toList_statusLine (g : ExtentGauge) :
    g.statusLine.toList =
      ("Touchpad sends:\tx [".toList ++ (g.extent.left.toInt.repr.toList ++ ("..".toList ++
        (g.extent.right.toInt.repr.toList ++ ("], y [".toList ++ (g.extent.top.toInt.repr.toList ++
          ("..".toList ++ (g.extent.bottom.toInt.repr.toList ++ ("] ".toList ++ []))))))))) ++
        [g.spinner.glyph] := by
  unfold statusLine
  simp

/-- The numbers in a status line are the bounds, each read back as it was. -/
theorem numbers?_statusLine (g : ExtentGauge) :
    numbers? g.statusLine.toList.dropLast = some g.extent.bounds := by
  rw [toList_statusLine, List.dropLast_concat, numbers?, stretches_words (by decide),
    stretches_number _ (by decide) (by decide), stretches_number _ (by decide) (by decide),
    stretches_number _ (by decide) (by decide), stretches_number _ (by decide) (by decide)]
  simp [int32?_repr, stretches, Extent.bounds]

theorem getLast?_statusLine (g : ExtentGauge) :
    g.statusLine.toList.getLast? = some g.spinner.glyph := by
  rw [toList_statusLine, List.getLast?_concat]

theorem return_not_mem_statusLine (g : ExtentGauge) : '\r' ∉ g.statusLine.toList := by
  have number (n : Int) : '\r' ∉ n.repr.toList := not_mem_repr (by decide) (by decide) n
  have glyph : '\r' ≠ g.spinner.glyph := g.spinner.return_ne_glyph
  rw [toList_statusLine]
  simp [number, glyph]

end ExtentGauge

/-! ## The lines of some events -/

/-- The position after some redraws. -/
def Spinner.after : Nat → Spinner
  | 0 => start
  | redraws + 1 => (after redraws).next

theorem Spinner.phase_after (redraws : Nat) : (after redraws).phase.val = redraws % 4 := by
  induction redraws with
  | zero => rfl
  | succ redraws ih =>
    rw [after, next, Fin.val_add, ih]
    exact Nat.mod_add_mod redraws 4 1

/-- The glyphs come round after four. -/
theorem Spinner.glyph_after (redraws : Nat) :
    some (after redraws).glyph = ['|', '/', '-', '\\'][redraws % 4]? := by
  rw [← phase_after]
  obtain ⟨phase⟩ := after redraws
  revert phase
  decide

/-- The bounds of the positions among some events. -/
def Extent.ofEvents (events : List Event) : Extent :=
  { left := least (Event.samplesX events), right := greatest (Event.samplesX events)
    top := least (Event.samplesY events), bottom := greatest (Event.samplesY events) }

namespace ExtentGauge

open Event Extent Numeral

theorem observe_of_sync {g : ExtentGauge} {e : Event} (sync : e.kind = .sync) :
    g.observe e = ({ g with spinner := g.spinner.next }, some g.statusLine) := by
  rw [observe, sync]

theorem spinner_observe_of_not_sync {g : ExtentGauge} {e : Event} (silent : e.kind ≠ .sync) :
    (g.observe e).1.spinner = g.spinner := by
  unfold observe
  split
  · next sync => exact absurd sync silent
  · rfl
  · rfl

theorem spinner_observeAll (events : List Event) :
    (Gauge.observeAll start events).spinner = .after (syncs [] events).length := by
  induction events using List.reverseRecOn with
  | nil => rfl
  | append_singleton events e ih =>
    rw [Gauge.observeAll_concat, syncs_concat]
    by_cases sync : e.kind = .sync
    · show ((Gauge.observeAll start events).observe e).1.spinner = _
      rw [observe_of_sync sync, if_pos sync, List.length_append, ih]
      rfl
    · rw [if_neg sync, List.append_nil, ← ih]
      exact spinner_observe_of_not_sync sync

/-- The lines of some events are made of the bounds at each sync and of its number. -/
theorem lines_eq_mapIdx (events : List Event) :
    Gauge.lines start events =
      ((syncs [] events).map fun p => ofEvents p.1).mapIdx fun i d =>
        statusLine { extent := d, spinner := .after i } := by
  induction events using List.reverseRecOn with
  | nil => rfl
  | append_singleton events e ih =>
    rw [Gauge.lines_append, ih, syncs_concat, List.map_append, List.mapIdx_append]
    congr 1
    by_cases sync : e.kind = .sync
    · have observed : Gauge.observe (Gauge.observeAll start events) e = _ := observe_of_sync sync
      have state : Gauge.observeAll start events =
          { extent := ofEvents events, spinner := .after (syncs [] events).length } := by
        rw [← spinner_observeAll, ofEvents, ← extent_observeAll]
      rw [Gauge.lines, observed, if_pos sync, state]
      simp [Gauge.lines]
    · rw [if_neg sync, List.map_nil, List.mapIdx_nil]
      exact Gauge.lines_singleton_of_not_sync _ sync

theorem return_not_mem_lines (events : List Event) :
    ∀ line ∈ Gauge.lines start events, '\r' ∉ line.toList := by
  intro line mem
  rw [lines_eq_mapIdx] at mem
  obtain ⟨i, inside, rfl⟩ := List.mem_mapIdx.mp mem
  exact return_not_mem_statusLine _

/-- The line of a sync has the bounds of the events before it, and the glyph of its number. -/
theorem getElem?_lines (before later : List Event) {e : Event} (sync : e.kind = .sync) :
    (Gauge.lines start (before ++ e :: later))[(syncs [] before).length]? =
      some (statusLine
        { extent := ofEvents before, spinner := .after (syncs [] before).length }) := by
  have split : syncs [] (before ++ e :: later) =
      syncs [] before ++ (before, e) :: syncs (before ++ [e]) later := by
    rw [syncs_append, syncs, if_pos sync]
    rfl
  rw [lines_eq_mapIdx, List.getElem?_mapIdx, split, List.map_append, List.map_cons]
  simp

/-- The numbers in the lines are the bounds at each sync. -/
theorem numbers?_lines (events : List Event) :
    (Gauge.lines start events).map (fun line => numbers? line.toList.dropLast) =
      ((syncs [] events).map fun p => ofEvents p.1).map fun d => some d.bounds := by
  rw [lines_eq_mapIdx]
  refine List.ext_getElem (by simp) fun i _ _ => ?_
  simp only [List.getElem_map, List.getElem_mapIdx, numbers?_statusLine]

/-- The bounds at each sync are all that the lines depend on, and can be read back from them. -/
theorem lines_inj {events events' : List Event} :
    Gauge.lines start events = Gauge.lines start events' ↔
      ((syncs [] events).map fun p => ofEvents p.1) =
        (syncs [] events').map fun p => ofEvents p.1 := by
  constructor
  · intro same
    have numbers := numbers?_lines events
    rw [same, numbers?_lines events'] at numbers
    have inj (d d' : Extent) (same : some d.bounds = some d'.bounds) : d = d' :=
      bounds_inj.mp (Option.some.inj same)
    exact ((List.map_inj_right inj).mp numbers).symm
  · intro same
    rw [lines_eq_mapIdx, lines_eq_mapIdx, same]

/-- What a drain sends on behalf of a new gauge is one line for each sync. The numbers in a line
are the bounds of just the events before the sync, and its glyph is that of the number of syncs
before. So two drains send the same bytes just when they take as many syncs and the bounds were the
same at each of them. -/
theorem live_read_back {σ τ : Type} [EventSource σ] [EventSource τ] {s s' : σ} {t t' : τ}
    {events events' : List Event} {ended ended' : Except Fault Unit}
    (yields : DrainYields s events ended s') (yields' : DrainYields t events' ended' t') :
    let syncCount (events : List Event) := (events.filter fun e => e.kind == .sync).length
    (∃ text lines, (Watch.live ExtentGauge s).drain.2.terminal.text? = some text ∧
      text.toList.splitOn '\r' = [] :: lines ∧ lines.length = syncCount events ∧
      ∀ before e later, events = before ++ e :: later → e.kind = .sync →
        ∃ line, lines[syncCount before]? = some line ∧
          line.getLast? = ['|', '/', '-', '\\'][syncCount before % 4]? ∧
          numbers? line.dropLast =
            some [least (samplesX before), greatest (samplesX before),
              least (samplesY before), greatest (samplesY before)]) ∧
    ((Watch.live ExtentGauge s).drain.2.terminal.written =
        (Watch.live ExtentGauge t).drain.2.terminal.written ↔
      ((syncs [] events).map fun p => ofEvents p.1) =
        (syncs [] events').map fun p => ofEvents p.1) := by
  intro syncCount
  have plain := return_not_mem_lines
  refine ⟨⟨_, _, Watch.text?_live yields, Terminal.splitOn_redrawnText (plain events), ?_, ?_⟩, ?_⟩
  · rw [List.length_map]
    exact Gauge.length_lines start events
  · rintro before e later rfl sync
    let shown : ExtentGauge := { extent := ofEvents before, spinner := .after (syncCount before) }
    have line : (Gauge.lines start (before ++ e :: later))[syncCount before]? =
        some shown.statusLine := by
      have line := getElem?_lines before later sync
      rwa [length_syncs] at line
    refine ⟨shown.statusLine.toList, ?_, ?_, numbers?_statusLine shown⟩
    · rw [List.getElem?_map]
      exact congrArg (Option.map String.toList) line
    · rw [getLast?_statusLine]
      exact Spinner.glyph_after _
  · rw [← lines_inj]
    exact Watch.written_live_inj yields yields' plain

/-- A touch at one place, told with one of the codes for it and at some time. -/
def touch (code : UInt16) (time : UInt64) : List Event :=
  [⟨.absolute, code, 5, time⟩, ⟨.sync, 0, 0, time⟩]

/-- Neither the code of a touch nor its time shows. -/
theorem live_read_back_touch :
    (Watch.live ExtentGauge (Script.ofEvents (touch positionX 7))).drain.2.terminal.written =
      (Watch.live ExtentGauge (Script.ofEvents (touch contactX 9))).drain.2.terminal.written :=
  have pointer := Script.yields_ofEvents (touch positionX 7)
  have contact := Script.yields_ofEvents (touch contactX 9)
  (live_read_back pointer contact).2.mpr (by decide)

end ExtentGauge

end InputGauge
