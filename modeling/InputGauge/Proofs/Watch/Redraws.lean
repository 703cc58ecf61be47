import InputGauge.Proofs.Ring
import InputGauge.Proofs.Text.Utf8
import InputGauge.Proofs.Watch.Course
import InputGauge.Spinner

/-!
# What a live display is sent

A terminal that takes everything is sent the lines of all syncs, each after a carriage return
(`Watch.written_live`). Where a line has no carriage return of its own, what was sent is the lines
again when it is cut at the carriage returns (`Terminal.splitOn_redrawnText`), so that it depends on
the lines and tells what they were (`Watch.written_live_inj`).
-/

namespace InputGauge

/-! ## Syncs -/

namespace Event

/-- The syncs among some events, each with all that came before it; some events came before the
first of these. -/
def syncs (before : List Event) : List Event → List (List Event × Event)
  | [] => []
  | e :: rest => (if e.kind = .sync then [(before, e)] else []) ++ syncs (before ++ [e]) rest

theorem syncs_append (before seen more : List Event) :
    syncs before (seen ++ more) = syncs before seen ++ syncs (before ++ seen) more := by
  induction seen generalizing before with
  | nil => rw [List.append_nil]; rfl
  | cons e rest ih =>
    rw [List.cons_append, syncs, syncs, ih, List.append_assoc, List.append_assoc]
    rfl

theorem syncs_concat (events : List Event) (e : Event) :
    syncs [] (events ++ [e]) =
      syncs [] events ++ if e.kind = .sync then [(events, e)] else [] := by
  rw [syncs_append, syncs, syncs, List.append_nil, List.nil_append]

theorem length_syncs (before events : List Event) :
    (syncs before events).length = (events.filter fun e => e.kind == .sync).length := by
  induction events generalizing before with
  | nil => rfl
  | cons e rest ih =>
    rw [syncs, List.length_append, ih, List.filter_cons]
    by_cases sync : e.kind = .sync <;> simp [sync, Nat.add_comm]

theorem kind_of_mem_syncs {before events : List Event} {p : List Event × Event}
    (mem : p ∈ syncs before events) : p.2.kind = .sync := by
  induction events generalizing before with
  | nil => cases mem
  | cons e rest ih =>
    rcases List.mem_append.mp mem with new | later
    · split at new
      · next sync =>
        rw [List.mem_singleton.mp new]
        exact sync
      · cases new
    · exact ih later

theorem prefix_of_mem_syncs {before events : List Event} {p : List Event × Event}
    (mem : p ∈ syncs before events) : p.1 ++ [p.2] <+: before ++ events := by
  induction events generalizing before with
  | nil => cases mem
  | cons e rest ih =>
    rcases List.mem_append.mp mem with new | later
    · split at new
      · rw [List.mem_singleton.mp new, List.append_cons before e rest]
        exact List.prefix_append _ _
      · cases new
    · rw [List.append_cons before e rest]
      exact ih later

/-- After the last sync there is none. -/
theorem exists_of_getLast?_syncs {events : List Event} {p : List Event × Event}
    (last : p ∈ (syncs [] events).getLast?) :
    ∃ between, events = p.1 ++ p.2 :: between ∧ ∀ e ∈ between, e.kind ≠ .sync := by
  induction events using List.reverseRecOn with
  | nil => cases last
  | append_singleton events e ih =>
    rw [syncs_concat] at last
    split at last
    · rw [List.getLast?_concat] at last
      obtain rfl := Option.some.inj last
      exact ⟨[], rfl, nofun⟩
    · next silent =>
      rw [List.append_nil] at last
      obtain ⟨between, rfl, none⟩ := ih last
      refine ⟨between ++ [e], by simp, fun e' mem => ?_⟩
      rcases List.mem_append.mp mem with earlier | new
      · exact none e' earlier
      · rwa [List.mem_singleton.mp new]

/-- Between two syncs that follow each other there is none. -/
theorem exists_between_of_mem_successive {events : List Event}
    {pair : (List Event × Event) × (List Event × Event)}
    (mem : pair ∈ successive (syncs [] events)) :
    ∃ between, pair.2.1 = pair.1.1 ++ pair.1.2 :: between ∧ ∀ e ∈ between, e.kind ≠ .sync := by
  induction events using List.reverseRecOn with
  | nil => cases mem
  | append_singleton events e ih =>
    rw [syncs_concat] at mem
    split at mem
    · rw [successive_concat] at mem
      rcases List.mem_append.mp mem with earlier | new
      · exact ih earlier
      · obtain ⟨last, found, rfl⟩ := Option.map_eq_some_iff.mp (Option.mem_toList.mp new)
        exact exists_of_getLast?_syncs found
    · rw [List.append_nil] at mem
      exact ih mem

end Event

namespace Gauge

variable {γ : Type} [Gauge γ]

/-- An event that is no sync has no line. -/
theorem lines_singleton_of_not_sync (g : γ) {e : Event} (silent : e.kind ≠ .sync) :
    lines g [e] = [] := by
  have shows := shows_iff g e
  have none : (observe g e).2 = none := by simpa [silent] using shows
  rw [lines, none]
  rfl

/-- The lines are those of the syncs, each after the events before it. -/
theorem map_some_lines (g : γ) (events : List Event) :
    (lines g events).map some =
      (Event.syncs [] events).map fun p => (observe (observeAll g p.1) p.2).2 := by
  induction events using List.reverseRecOn with
  | nil => rfl
  | append_singleton events e ih =>
    rw [lines_append, List.map_append, ih, Event.syncs_concat, List.map_append]
    congr 1
    split
    · next sync =>
      obtain ⟨line, shown⟩ := Option.isSome_iff_exists.mp
        ((shows_iff (observeAll g events) e).mpr sync)
      rw [lines, shown, List.map_singleton, shown]
      rfl
    · next silent =>
      rw [lines_singleton_of_not_sync _ silent]
      rfl

end Gauge

theorem Spinner.return_ne_glyph (s : Spinner) : '\r' ≠ s.glyph := by
  obtain ⟨phase⟩ := s
  revert phase
  decide

/-! ## Lines -/

namespace Terminal

/-- The text that shows some lines, each over the one before. -/
def redrawnText (lines : List String) : String := String.join (lines.map fun line => "\r" ++ line)

theorem toList_redrawnText (lines : List String) :
    (redrawnText lines).toList = ((lines.map String.toList).map ('\r' :: ·)).flatten := by
  have line (line : String) : ("\r" ++ line).toList = '\r' :: line.toList := by simp
  rw [redrawnText, String.toList_join, List.flatMap_map, List.map_map, List.flatMap_def]
  simp only [line]
  rfl

/-- Cut at the carriage returns, the text is what stood before the first and then the lines. -/
theorem splitOn_flatten {before : List Char} {lines : List (List Char)} (front : '\r' ∉ before)
    (plain : ∀ line ∈ lines, '\r' ∉ line) :
    (before ++ (lines.map ('\r' :: ·)).flatten).splitOn '\r' = before :: lines := by
  induction lines generalizing before with
  | nil =>
    rw [List.map_nil, List.flatten_nil, List.append_nil]
    exact List.splitOn_eq_singleton front
  | cons line rest ih =>
    rw [List.map_cons, List.flatten_cons, List.cons_append,
      List.splitOn_append_cons_self_of_not_mem front,
      ih (plain line List.mem_cons_self) fun later mem => plain later (List.mem_cons_of_mem _ mem)]

theorem splitOn_redrawnText {lines : List String} (plain : ∀ line ∈ lines, '\r' ∉ line.toList) :
    (redrawnText lines).toList.splitOn '\r' = [] :: lines.map String.toList := by
  rw [toList_redrawnText]
  exact splitOn_flatten List.not_mem_nil (by simpa using plain)

/-- Such lines can be told from their text. -/
theorem redrawnText_inj {lines lines' : List String} (plain : ∀ line ∈ lines, '\r' ∉ line.toList)
    (plain' : ∀ line ∈ lines', '\r' ∉ line.toList) :
    redrawnText lines = redrawnText lines' ↔ lines = lines' := by
  refine ⟨fun same => ?_, congrArg redrawnText⟩
  have cut := congrArg (fun text => text.toList.splitOn '\r') same
  simp only [splitOn_redrawnText plain, splitOn_redrawnText plain', List.cons.injEq,
    true_and] at cut
  exact (List.map_inj_right fun _ _ same => String.toList_inj.mp same).mp cut

/-- What was written, read as text. -/
def text? (t : Terminal) : Option String := Utf8.decode? t.written.data.toList

end Terminal

/-! ## The display -/

/-- A script of some events, after which there is nothing to read. -/
def Script.ofEvents (events : List Event) : Script := { items := events.map .event }

theorem Script.yields_ofEvents (events : List Event) :
    DrainYields (ofEvents events) events (.ok ()) (ofEvents []) := by
  induction events with
  | nil => exact .blocked rfl
  | cons e rest ih => exact .event rfl ih

namespace Watch

open Terminal

variable {σ γ : Type} [Gauge γ]

/-- A source before its first drain, watched with a gauge before any event, on a terminal that takes
everything. -/
def live (γ : Type) [Gauge γ] (source : σ) : Watch σ γ :=
  { source, gauge := Gauge.fresh, terminal := .endless }

/-- A drain sends the lines of the events that the source gives, all of them, and no more. -/
theorem written_live [EventSource σ] {s s' : σ} {events : List Event} {ended : Except Fault Unit}
    (yields : DrainYields s events ended s') :
    (live γ s).drain.2.terminal.written = redrawn (Gauge.lines (Gauge.fresh : γ) events) := by
  have shows : (live γ s).Shows events := ⟨nofun, nofun⟩
  have drained := drain_of_yields (w := live γ s) yields shows
  have same : (live γ s).withSource s = live γ s := rfl
  rw [same] at drained
  rw [drained]
  exact ByteArray.empty_append

/-- What it sends is text. -/
theorem text?_live [EventSource σ] {s s' : σ} {events : List Event} {ended : Except Fault Unit}
    (yields : DrainYields s events ended s') :
    (live γ s).drain.2.terminal.text? =
      some (redrawnText (Gauge.lines (Gauge.fresh : γ) events)) := by
  rw [text?, written_live yields]
  exact Utf8.decode?_eq_some_iff.mpr rfl

/-- Two drains send the same bytes just when the lines are the same. -/
theorem written_live_inj {τ : Type} [EventSource σ] [EventSource τ] {s s' : σ} {t t' : τ}
    {events events' : List Event} {ended ended' : Except Fault Unit}
    (yields : DrainYields s events ended s') (yields' : DrainYields t events' ended' t')
    (plain : ∀ events, ∀ line ∈ Gauge.lines (Gauge.fresh : γ) events, '\r' ∉ line.toList) :
    (live γ s).drain.2.terminal.written = (live γ t).drain.2.terminal.written ↔
      Gauge.lines (Gauge.fresh : γ) events = Gauge.lines (Gauge.fresh : γ) events' := by
  rw [← redrawnText_inj (plain events) (plain events')]
  constructor
  · intro same
    have texts := calc some (redrawnText (Gauge.lines (Gauge.fresh : γ) events))
      _ = (live γ s).drain.2.terminal.text? := (text?_live yields).symm
      _ = (live γ t).drain.2.terminal.text? := by rw [text?, same, text?]
      _ = some (redrawnText (Gauge.lines (Gauge.fresh : γ) events')) := text?_live yields'
    exact Option.some.inj texts
  · intro same
    rw [written_live yields, written_live yields']
    exact congrArg String.toUTF8 same

end Watch

end InputGauge
