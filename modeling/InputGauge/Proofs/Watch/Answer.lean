import InputGauge.Source.Script
import InputGauge.Watch

/-!
# A drain, answer by answer

Each answer of a source either ends the drain, with its result, or leaves it going on
(`Watch.answer`), and a drain is the answers of its source one after the other
(`drain_of_next`). What an answer does depends on the gauge and the terminal alone, so that two
drains on different sources go the same way as long as the sources answer the same
(`answer_withSource`).

What no answer and no wait changes about a source, no drain and no run changes either, however it
ends (`source_drain_of_kept`, `source_run_of_kept`).

`drainOf` is a drain on items written down beforehand. It can be cut anywhere
(`drainOf_append_of_ok`, `drainOf_append_of_error`).
-/

namespace InputGauge.Watch

variable {σ τ υ γ : Type}

/-- The gauge and the terminal with another source. -/
def withSource (w : Watch σ γ) (source : τ) : Watch τ γ :=
  { source, gauge := w.gauge, terminal := w.terminal }

@[simp] theorem withSource_self (w : Watch σ γ) : w.withSource w.source = w := rfl

@[simp] theorem withSource_withSource (w : Watch σ γ) (s : τ) (s' : υ) :
    (w.withSource s).withSource s' = w.withSource s' := rfl

@[simp] theorem source_withSource (w : Watch σ γ) (s : τ) : (w.withSource s).source = s := rfl

variable [Gauge γ]

/-- What an answer of the source leads to: the result of the drain, if the answer ends it, and the
watch after it. -/
def answer (w : Watch σ γ) : Except Fault Reading → Option (Except Fault Unit) × Watch σ γ
  | .error fault => (some (.error fault), w)
  | .ok .wouldBlock => (some (.ok ()), w)
  | .ok .dropped => (some (.error .cannotKeepUp), w)
  | .ok (.event e) =>
    match w.observe e with
    | (.error fault, w') => (some (.error fault), w')
    | (.ok (), w') => (none, w')

theorem observe_withSource (w : Watch σ γ) (s : τ) (e : Event) :
    (w.withSource s).observe e = ((w.observe e).1, (w.observe e).2.withSource s) := by
  unfold observe withSource
  simp only
  split
  · rfl
  · split <;> rfl

theorem answer_withSource (w : Watch σ γ) (s : τ) (reading : Except Fault Reading) :
    (w.withSource s).answer reading = ((w.answer reading).1, (w.answer reading).2.withSource s) := by
  rcases reading with _ | e | _ | _
  · rfl
  · unfold answer
    simp only
    rw [observe_withSource]
    rcases w.observe e with ⟨_ | _, w'⟩ <;> rfl
  · rfl
  · rfl

theorem source_answer (w : Watch σ γ) (reading : Except Fault Reading) :
    (w.answer reading).2.source = w.source := by
  rcases reading with _ | e | _ | _
  · rfl
  · have same := w.source_observe e
    unfold answer
    simp only
    rcases observed : w.observe e with ⟨_ | _, w'⟩ <;> rw [observed] at same <;> exact same
  · rfl
  · rfl

theorem answer_event (w : Watch σ γ) (e : Event) :
    w.answer (.ok (.event e)) =
      match w.observe e with
      | (.error fault, w') => (some (.error fault), w')
      | (.ok (), w') => (none, w') := rfl

/-- An event is folded also where its line is refused. -/
theorem gauge_answer_event (w : Watch σ γ) (e : Event) :
    (w.answer (.ok (.event e))).2.gauge = (Gauge.observe w.gauge e).1 := by
  have folded : (w.observe e).2.gauge = (Gauge.observe w.gauge e).1 := by
    unfold observe
    split
    · next observed => rw [observed]
    · next observed =>
      rw [observed]
      split <;> rfl
  rw [answer_event]
  rcases observed : w.observe e with ⟨_ | _, w'⟩ <;> rw [observed] at folded <;> exact folded

/-- A drain takes one answer and then, unless that ends it, drains on. -/
theorem drain_of_next [EventSource σ] {w : Watch σ γ} {reading : Except Fault Reading} {s : σ}
    (taken : EventSource.next w.source = (reading, s)) :
    w.drain =
      match (w.withSource s).answer reading with
      | (some result, w') => (result, w')
      | (none, w') => w'.drain := by
  rw [drain]
  split
  · next h => obtain ⟨rfl, rfl⟩ := Prod.mk.inj (taken.symm.trans h); rfl
  · next h => obtain ⟨rfl, rfl⟩ := Prod.mk.inj (taken.symm.trans h); rfl
  · next h => obtain ⟨rfl, rfl⟩ := Prod.mk.inj (taken.symm.trans h); rfl
  · next h =>
    obtain ⟨rfl, rfl⟩ := Prod.mk.inj (taken.symm.trans h)
    rw [answer_event, withSource]
    split
    · next folded => rw [folded]
    · next folded => rw [folded]

/-- How a run goes on once a wait has ended. -/
def woken [Waitable σ] (w : Watch σ γ) : Wake → Except Fault Unit × Watch σ γ
  | .interrupt => (.ok (), w)
  | .failed errno =>
    if errno = .interrupted then w.run else (.error (.cannotWait (.system errno)), w)
  | .ready =>
    match w.drain with
    | (.error fault, w') => (.error fault, w')
    | (.ok (), w') => w'.run

theorem run_of_wait [Waitable σ] {w : Watch σ γ} {wake : Wake} {s : σ}
    (waited : Waitable.wait w.source = (wake, s)) : w.run = (w.withSource s).woken wake := by
  rw [run]
  split
  · next h => obtain ⟨rfl, rfl⟩ := Prod.mk.inj (waited.symm.trans h); rfl
  · next h => obtain ⟨rfl, rfl⟩ := Prod.mk.inj (waited.symm.trans h); rfl
  · next h =>
    obtain ⟨rfl, rfl⟩ := Prod.mk.inj (waited.symm.trans h)
    rw [withSource, woken]
    split
    · next drained => rw [drained]
    · next drained => rw [drained]

/-! ## What a source keeps -/

theorem source_drain_of_kept [EventSource σ] {α : Type} (view : σ → α)
    (kept : ∀ s, view (EventSource.next s).2 = view s) (w : Watch σ γ) :
    view w.drain.2.source = view w.source := by
  have taken {w : Watch σ γ} {answer : Except Fault Reading} {s : σ}
      (h : EventSource.next w.source = (answer, s)) : view s = view w.source := by
    have same := kept w.source
    rwa [h] at same
  fun_induction drain w with
  | case1 w fault s next => exact taken next
  | case2 w s next => exact taken next
  | case3 w s next => exact taken next
  | case4 w e s next fault w' observed =>
    have same := source_observe { w with source := s } e
    rw [observed] at same
    exact (congrArg view same).trans (taken next)
  | case5 w e s next w' observed ih =>
    have same := source_observe { w with source := s } e
    rw [observed] at same
    exact ih.trans ((congrArg view same).trans (taken next))

theorem source_run_of_kept [Waitable σ] {α : Type} (view : σ → α)
    (kept : ∀ s, view (EventSource.next s).2 = view s)
    (waits : ∀ s, view (Waitable.wait s).2 = view s) (w : Watch σ γ) :
    view w.run.2.source = view w.source := by
  have waited {w : Watch σ γ} {wake : Wake} {s : σ} (h : Waitable.wait w.source = (wake, s)) :
      view s = view w.source := by
    have same := waits w.source
    rwa [h] at same
  fun_induction run w with
  | case1 w s wait => exact waited wait
  | case2 w s wait ih => exact ih.trans (waited wait)
  | case3 w errno s wait other => exact waited wait
  | case4 w s wait fault w' drained =>
    have same := source_drain_of_kept view kept { w with source := s }
    rw [drained] at same
    exact same.trans (waited wait)
  | case5 w s wait w' drained ih =>
    have same := source_drain_of_kept view kept { w with source := s }
    rw [drained] at same
    exact ih.trans (same.trans (waited wait))

/-! ## Items written down -/

/-- A drain on some items. -/
def drainOf (w : Watch σ γ) (items : List Item) : Except Fault Unit × Watch Script γ :=
  (w.withSource (⟨items⟩ : Script)).drain

/-- What the source was does not matter. -/
theorem drainOf_congr {w : Watch σ γ} {w' : Watch τ γ} (gauge : w.gauge = w'.gauge)
    (terminal : w.terminal = w'.terminal) (items : List Item) :
    w.drainOf items = w'.drainOf items := by
  rw [drainOf, withSource, gauge, terminal]
  rfl

theorem drainOf_nil (w : Watch σ γ) : w.drainOf [] = (.ok (), w.withSource ⟨[]⟩) := by
  have taken : EventSource.next (⟨[]⟩ : Script) = (.ok .wouldBlock, ⟨[]⟩) := rfl
  exact drain_of_next (w := w.withSource (⟨[]⟩ : Script)) taken

/-- The first item is answered, and unless that ends the drain, the others are drained. -/
theorem drainOf_cons (w : Watch σ γ) (item : Item) (rest : List Item) :
    w.drainOf (item :: rest) =
      match w.answer item.reading with
      | (some result, w') => (result, w'.withSource ⟨rest⟩)
      | (none, w') => w'.drainOf rest := by
  have taken : EventSource.next (⟨item :: rest⟩ : Script) = (item.reading, ⟨rest⟩) := rfl
  rw [drainOf, drain_of_next taken, answer_withSource, answer_withSource]
  rcases w.answer item.reading with ⟨_ | _, w'⟩ <;> rfl

/-- Only an item that says that there is nothing to read for now ends a drain well. -/
theorem answer_ne_ok {w : Watch σ γ} {item : Item} (h : item ≠ .block) :
    (w.answer item.reading).1 ≠ some (.ok ()) := by
  cases item with
  | event e =>
    rw [Item.reading, answer_event]
    rcases w.observe e with ⟨_ | _, w'⟩ <;> exact nofun
  | block => exact absurd rfl h
  | dropped => exact nofun
  | failure cause => exact nofun

theorem drainOf_append_of_ok {w : Watch σ γ} {w' : Watch Script γ} {items : List Item}
    (plain : ∀ item ∈ items, item ≠ .block) (h : w.drainOf items = (.ok (), w'))
    (more : List Item) : w.drainOf (items ++ more) = w'.drainOf more := by
  induction items generalizing w with
  | nil =>
    rw [drainOf_nil] at h
    obtain ⟨-, rfl⟩ := Prod.mk.inj h
    rfl
  | cons item rest ih =>
    have notOk := answer_ne_ok (w := w) (plain item List.mem_cons_self)
    rw [drainOf_cons] at h
    rw [List.cons_append, drainOf_cons]
    rcases answered : w.answer item.reading with ⟨_ | result, w₁⟩
    · rw [answered] at h
      exact ih (fun later mem => plain later (List.mem_cons_of_mem _ mem)) h
    · rw [answered] at h notOk
      obtain ⟨rfl, -⟩ := Prod.mk.inj h
      exact absurd rfl notOk

theorem drainOf_append_of_error {w : Watch σ γ} {w' : Watch Script γ} {items : List Item}
    {fault : Fault} (h : w.drainOf items = (.error fault, w')) (more : List Item) :
    w.drainOf (items ++ more) = (.error fault, w'.withSource ⟨w'.source.items ++ more⟩) := by
  induction items generalizing w with
  | nil =>
    rw [drainOf_nil] at h
    cases h
  | cons item rest ih =>
    rw [drainOf_cons] at h
    rw [List.cons_append, drainOf_cons]
    rcases answered : w.answer item.reading with ⟨_ | result, w₁⟩
    · rw [answered] at h
      exact ih h
    · rw [answered] at h
      obtain ⟨rfl, rfl⟩ := Prod.mk.inj h
      rfl

end InputGauge.Watch
