import InputGauge.Proofs.Terminal
import InputGauge.Proofs.Watch.Answer
import Mathlib.Data.List.Induction

/-!
# How a drain ends

A drain folds the events that are ahead, and shows a line for each sync among them, until an item
that is not an event ends it or a line is refused. Which of the two it is depends on how many of
the lines fit the terminal, and everything else follows from that: what was folded, what was
written, to the byte, what was taken, and the result (`drain_script`).

`folded` is the watch after some events all of whose lines fit. A drain on events goes there
(`drainOf_events`), and from there the next answer decides.
-/

namespace InputGauge

namespace Script

/-- The events before the first item that is read as something else. -/
def eventsAhead : List Item → List Event
  | [] => []
  | item :: rest =>
    match item.reading with
    | .ok (.event e) => e :: eventsAhead rest
    | _ => []

/-- What a drain comes to at items of which the first is not read as an event. -/
def ending : List Item → Except Fault Unit
  | [] => .ok ()
  | item :: _ =>
    match item.reading with
    | .error fault => .error fault
    | .ok .dropped => .error .cannotKeepUp
    | .ok _ => .ok ()

theorem reading_event {item : Item} {e : Event} (h : item.reading = .ok (.event e)) :
    item = .event e := by
  cases item with
  | event e' => cases h; rfl
  | block => cases h
  | dropped => cases h
  | failure cause => cases h

theorem eventsAhead_append (items : List Item) :
    ((eventsAhead items).map Item.event ++ items.drop (eventsAhead items).length) = items := by
  induction items with
  | nil => rfl
  | cons item rest ih =>
    rw [eventsAhead]
    split
    · next e h =>
      rw [List.map_cons, List.length_cons, List.drop_succ_cons, List.cons_append, ih,
        reading_event h]
    · rfl

theorem eventsAhead_drop (items : List Item) :
    eventsAhead (items.drop (eventsAhead items).length) = [] := by
  induction items with
  | nil => rfl
  | cons item rest ih =>
    rw [eventsAhead]
    split
    · exact ih
    · next h =>
      rw [List.length_nil, List.drop_zero, eventsAhead]
      split
      · next e h' => exact absurd h' (h e)
      · rfl

end Script

namespace Watch

open Script Terminal

variable {σ γ : Type} [Gauge γ]

/-- There is room for the lines of some events, and a flush for each of them. -/
def Shows (w : Watch σ γ) (events : List Event) : Prop :=
  w.terminal.Fits (Gauge.lines w.gauge events)

/-- The watch after some events all of whose lines were shown. -/
def folded (w : Watch σ γ) (events : List Event) : Watch σ γ :=
  let lines := Gauge.lines w.gauge events
  { w with
    gauge := Gauge.observeAll w.gauge events
    terminal := w.terminal.after (redrawn lines) lines.length }

/-! ## One event -/

theorem lines_singleton_of_none {g : γ} {e : Event} (h : (Gauge.observe g e).2 = none) :
    Gauge.lines g [e] = [] := by
  rw [Gauge.lines, h]
  rfl

theorem lines_singleton_of_some {g : γ} {e : Event} {line : String}
    (h : (Gauge.observe g e).2 = some line) : Gauge.lines g [e] = [line] := by
  rw [Gauge.lines, h]
  rfl

theorem observe_of_none {w : Watch σ γ} {e : Event} (h : (Gauge.observe w.gauge e).2 = none) :
    w.observe e = (.ok (), w.folded [e]) := by
  have kept : w.terminal.after (redrawn []) ([] : List String).length = w.terminal :=
    w.terminal.after_nil
  rw [folded, lines_singleton_of_none h, kept, observe]
  split
  · next observed =>
    show _ = (_, { w with gauge := (Gauge.observe w.gauge e).1 })
    rw [observed]
  · next observed =>
    rw [observed] at h
    cases h

theorem observe_of_some {w : Watch σ γ} {e : Event} {line : String}
    (h : (Gauge.observe w.gauge e).2 = some line) :
    w.observe e =
      match w.terminal.redraw line with
      | (.ok (), terminal) =>
        (.ok (), { w with gauge := (Gauge.observe w.gauge e).1, terminal })
      | (.error errno, terminal) =>
        (.error (.cannotWrite (.system errno)),
          { w with gauge := (Gauge.observe w.gauge e).1, terminal }) := by
  rw [observe]
  split
  · next observed =>
    rw [observed] at h
    cases h
  · next observed =>
    rw [observed] at h ⊢
    obtain rfl := Option.some.inj h
    rfl

theorem observe_of_shows {w : Watch σ γ} {e : Event} (h : w.Shows [e]) :
    w.observe e = (.ok (), w.folded [e]) := by
  cases shown : (Gauge.observe w.gauge e).2 with
  | none => exact observe_of_none shown
  | some line =>
    rw [Shows, lines_singleton_of_some shown] at h
    rw [observe_of_some shown, redraw_of_fits h, folded, lines_singleton_of_some shown]
    rfl

/-- A line that is refused comes after the event was folded. -/
theorem observe_of_not_shows {w : Watch σ γ} {e : Event} (h : ¬ w.Shows [e]) :
    w.observe e =
      (.error (.cannotWrite (.system (w.terminal.refusal (Gauge.lines w.gauge [e])))),
        { w with
          gauge := Gauge.observeAll w.gauge [e]
          terminal := w.terminal.after (redrawn (Gauge.lines w.gauge [e])) 0 }) := by
  cases shown : (Gauge.observe w.gauge e).2 with
  | none =>
    rw [Shows, lines_singleton_of_none shown] at h
    exact absurd w.terminal.fits_nil h
  | some line =>
    rw [Shows, lines_singleton_of_some shown] at h
    rw [observe_of_some shown, redraw_of_not_fits h, lines_singleton_of_some shown]
    rfl

/-! ## Some events -/

theorem shows_nil (w : Watch σ γ) : w.Shows [] := w.terminal.fits_nil

theorem folded_nil (w : Watch σ γ) : w.folded [] = w := by
  have kept : w.terminal.after (redrawn []) ([] : List String).length = w.terminal :=
    w.terminal.after_nil
  rw [folded, Gauge.lines, kept]
  rfl

theorem shows_folded_iff {w : Watch σ γ} {seen : List Event} (h : w.Shows seen)
    (more : List Event) : (w.folded seen).Shows more ↔ w.Shows (seen ++ more) := by
  rw [Shows, Shows, Gauge.lines_append]
  exact fits_append h

theorem shows_of_append {w : Watch σ γ} {seen : List Event} (more : List Event)
    (h : w.Shows (seen ++ more)) : w.Shows seen := by
  rw [Shows, Gauge.lines_append] at h
  exact fits_of_append h

theorem folded_folded {w : Watch σ γ} {seen : List Event} (h : w.Shows seen) (more : List Event) :
    (w.folded seen).folded more = w.folded (seen ++ more) := by
  have gauge : Gauge.observeAll w.gauge (seen ++ more) =
      Gauge.observeAll (Gauge.observeAll w.gauge seen) more := List.foldl_append
  rw [folded, folded, folded, gauge, Gauge.lines_append, List.length_append]
  simp only [after_append h]

/-- The lines of events that cannot all be shown are refused at some sync, and at the first. -/
theorem exists_first_refused {w : Watch σ γ} {events : List Event} (h : ¬ w.Shows events) :
    ∃ seen e later, events = seen ++ e :: later ∧ w.Shows seen ∧ ¬ w.Shows (seen ++ [e]) := by
  induction events using List.reverseRecOn with
  | nil => exact absurd w.shows_nil h
  | append_singleton events e ih =>
    by_cases shows : w.Shows events
    · exact ⟨events, e, [], rfl, shows, h⟩
    · obtain ⟨seen, e', later, rfl, shown, refused⟩ := ih shows
      exact ⟨seen, e', later ++ [e], by simp, shown, refused⟩

theorem kind_of_refused {w : Watch σ γ} {seen : List Event} {e : Event} (shown : w.Shows seen)
    (refused : ¬ w.Shows (seen ++ [e])) : e.kind = .sync := by
  rw [← shows_folded_iff shown] at refused
  refine (Gauge.shows_iff (w.folded seen).gauge e).mp ?_
  by_contra silent
  rw [Shows, lines_singleton_of_none (by simpa using silent)] at refused
  exact refused (fits_nil _)

/-! ## A drain on items -/

/-- A drain folds events as long as their lines are shown. -/
theorem drainOf_events {w : Watch σ γ} {events : List Event} (h : w.Shows events)
    (rest : List Item) :
    w.drainOf (events.map Item.event ++ rest) = (w.folded events).drainOf rest := by
  induction events generalizing w with
  | nil => rw [folded_nil]; rfl
  | cons e events ih =>
    have first : w.Shows [e] := shows_of_append events h
    have others : (w.folded [e]).Shows events := (shows_folded_iff first events).mpr h
    rw [List.map_cons, List.cons_append, drainOf_cons, Item.reading, answer_event,
      observe_of_shows first]
    simp only
    rw [ih others, folded_folded first]
    rfl

/-- The first item that is not an event ends a drain. -/
theorem drainOf_of_no_events (w : Watch σ γ) {items : List Item} (h : eventsAhead items = []) :
    w.drainOf items = (ending items, w.withSource ⟨items.tail⟩) := by
  cases items with
  | nil => exact w.drainOf_nil
  | cons item rest =>
    rw [eventsAhead] at h
    rw [drainOf_cons, ending]
    split at h
    · cases h
    · next other =>
      rcases reading : item.reading with fault | e | _ | _
      · rfl
      · exact absurd reading (other e)
      · rfl
      · rfl

/-- A drain ends at the first line that is refused. -/
theorem drainOf_of_refused {w : Watch σ γ} {seen : List Event} {e : Event} (shown : w.Shows seen)
    (refused : ¬ w.Shows (seen ++ [e])) (rest : List Item) :
    w.drainOf (seen.map Item.event ++ .event e :: rest) =
      let lines := Gauge.lines w.gauge
      (.error (.cannotWrite (.system (w.terminal.refusal (lines (seen ++ [e]))))),
        { source := ⟨rest⟩
          gauge := Gauge.observeAll w.gauge (seen ++ [e])
          terminal := w.terminal.after (redrawn (lines (seen ++ [e]))) (lines seen).length }) := by
  have last : ¬ (w.folded seen).Shows [e] := (shows_folded_iff shown [e]).not.mpr refused
  have gauge : Gauge.observeAll w.gauge (seen ++ [e]) =
      Gauge.observeAll (Gauge.observeAll w.gauge seen) [e] := List.foldl_append
  rw [drainOf_events shown, drainOf_cons, Item.reading, answer_event, observe_of_not_shows last]
  simp only [folded, Gauge.lines_append]
  rw [refusal_append shown, after_append shown, gauge]
  rfl

/-- A drain on a script. If all lines of the events that are ahead fit the terminal, every event is
folded and every line shown, and the item that ends the events is taken and decides the result. If
not, there is a first sync whose line is refused: the events up to it are folded and taken, as many
bytes as there is room for are written, and the result says whether it was room or flushes that
ran out. Nothing after that is taken. -/
theorem drain_script (w : Watch Script γ) :
    let events := eventsAhead w.source.items
    let rest := w.source.items.drop events.length
    let lines := Gauge.lines w.gauge
    (∀ seen, (lines seen).length = (seen.filter fun e => e.kind == .sync).length) ∧
    ((∀ seen, seen <+: events → w.terminal.Fits (lines seen)) ∧
        w.drain =
          (ending rest,
            { source := ⟨rest.tail⟩
              gauge := Gauge.observeAll w.gauge events
              terminal :=
                { written := w.terminal.written ++ redrawn (lines events)
                  room := w.terminal.room.map (· - (redrawn (lines events)).size)
                  flushes := w.terminal.flushes.map (· - (lines events).length) } }) ∨
      ∃ seen e later, events = seen ++ e :: later ∧ e.kind = .sync ∧
        (∀ earlier, earlier <+: seen → w.terminal.Fits (lines earlier)) ∧
        ¬ w.terminal.Fits (lines (seen ++ [e])) ∧
        w.drain =
          (.error (.cannotWrite (.system
              (if w.terminal.HasRoom (redrawn (lines (seen ++ [e]))).size then .brokenPipe
                else .noSpace))),
            { source := ⟨later.map Item.event ++ rest⟩
              gauge := Gauge.observeAll w.gauge (seen ++ [e])
              terminal :=
                { written := w.terminal.written ++
                    w.terminal.fitting (redrawn (lines (seen ++ [e])))
                  room := w.terminal.room.map (· - (redrawn (lines (seen ++ [e]))).size)
                  flushes := w.terminal.flushes.map (· - (lines seen).length) } })) := by
  intro events rest lines
  have items : events.map Item.event ++ rest = w.source.items := eventsAhead_append _
  have drained : w.drain = w.drainOf (events.map Item.event ++ rest) := by
    rw [items]
    rfl
  refine ⟨Gauge.length_lines w.gauge, ?_⟩
  -- Room and flushes only get fewer, so it is enough to ask whether all the lines fit.
  by_cases shown : w.Shows events
  · refine .inl ⟨?_, ?_⟩
    · rintro seen ⟨more, whole⟩
      exact shows_of_append more (whole ▸ shown)
    · have whole : w.terminal.fitting (redrawn (lines events)) = redrawn (lines events) :=
        fitting_of_hasRoom shown.1
      rw [drained, drainOf_events shown, drainOf_of_no_events _ (eventsAhead_drop _)]
      show (_, ({ w with
        source := ⟨rest.tail⟩
        gauge := Gauge.observeAll w.gauge events
        terminal := w.terminal.after (redrawn (lines events)) (lines events).length } :
          Watch Script γ)) = _
      rw [after, whole]
  · obtain ⟨seen, e, later, split, before, refused⟩ := exists_first_refused shown
    refine .inr ⟨seen, e, later, split, kind_of_refused before refused, ?_, refused, ?_⟩
    · rintro earlier ⟨more, whole⟩
      exact shows_of_append more (whole ▸ before)
    · have items' : events.map Item.event ++ rest =
          seen.map Item.event ++ .event e :: (later.map Item.event ++ rest) := by
        rw [split, List.map_append, List.map_cons, List.append_assoc, List.cons_append]
      rw [drained, items', drainOf_of_refused before refused]
      rfl

end Watch

end InputGauge
