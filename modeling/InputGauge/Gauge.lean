import InputGauge.Event

/-!
# Gauges

A gauge folds events into a measurement. Its part in a live display is one line: an event that
closes a report produces the line to show from then on.
-/

namespace InputGauge

/-- A measurement that is taken one event at a time. -/
class Gauge (γ : Type) where
  /-- The gauge before any event. -/
  fresh : γ
  /-- The gauge after one more event, and the status line to show, if that event calls for one. -/
  observe : γ → Event → γ × Option String
  /-- Every sync calls for a line, and no other event does. -/
  shows_iff (g : γ) (e : Event) : (observe g e).2.isSome ↔ e.kind = .sync

namespace Gauge

variable {γ : Type} [Gauge γ]

/-- The gauge after some more events. -/
def observeAll (g : γ) (events : List Event) : γ :=
  events.foldl (fun g e => (observe g e).1) g

/-- The status lines that some more events call for, in order. -/
def lines : γ → List Event → List String
  | _, [] => []
  | g, e :: rest => (observe g e).2.toList ++ lines (observe g e).1 rest

theorem observeAll_concat (g : γ) (events : List Event) (e : Event) :
    observeAll g (events ++ [e]) = (observe (observeAll g events) e).1 :=
  List.foldl_append ..

theorem lines_append (g : γ) (seen more : List Event) :
    lines g (seen ++ more) = lines g seen ++ lines (observeAll g seen) more := by
  induction seen generalizing g with
  | nil => rfl
  | cons e rest ih =>
    rw [List.cons_append, lines, lines, ih, List.append_assoc]
    rfl

/-- There are as many lines as syncs. -/
theorem length_lines (g : γ) (events : List Event) :
    (lines g events).length = (events.filter fun e => e.kind == .sync).length := by
  induction events generalizing g with
  | nil => rfl
  | cons e rest ih =>
    have shows := shows_iff g e
    rw [lines, List.length_append, ih, List.filter_cons]
    cases line : (observe g e).2 with
    | none =>
      rw [if_neg (by simpa [line] using shows)]
      exact Nat.zero_add _
    | some text =>
      rw [if_pos (by simpa [line] using shows)]
      exact Nat.add_comm 1 _

end Gauge

end InputGauge
