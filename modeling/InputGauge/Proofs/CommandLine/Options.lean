import InputGauge.Proofs.CommandLine.Words
import InputGauge.Proofs.Text.Numeral
import InputGauge.Proofs.Text.Utf8

/-!
# Which words options are

Every word of a command line has a place in the options and puts something there. Whatever their
order, words are put into place one by one exactly if no two have the same place and each means
something; the options then hold what the words mean, and nothing else.
-/

namespace InputGauge.CommandLine

/-- A place in the options. -/
inductive Place where
  | value (key : Key)
  | switch (on : Bool)
  | device
  deriving DecidableEq

/-- What is in a place. -/
inductive Content where
  | text (s : String)
  | number (n : Int32)
  | mark
  | path (bytes : Bytes)

/-! ## Words -/

namespace Word

def place : Word → Place
  | value key _ => .value key
  | switch on => .switch on
  | device _ => .device

/-- What a word means: the name of an axis or a light is any text, all other values are numerals
of 32 bits. -/
inductive Means : Word → Content → Prop where
  | name {key : Key} (s : String) : key.isNumeric = false →
      Means (value key (.ofString s)) (.text s)
  | number {key : Key} {s : String} {n : Int32} : key.isNumeric →
      Numeral.Denotes s.toList n.toInt → Means (value key (.ofString s)) (.number n)
  | switch (on : Bool) : Means (switch on) .mark
  | device (path : Bytes) : Means (device path) (.path path)

/-- What a word means, if it means something. -/
def content? : Word → Option Content
  | value key bytes =>
    if key.isNumeric then (TweakOptions.number? bytes).map .number
    else (Utf8.decode? bytes).map .text
  | switch _ => some .mark
  | device path => some (.path path)

theorem content?_eq_some_iff {w : Word} {c : Content} : w.content? = some c ↔ w.Means c := by
  constructor
  · intro h
    cases w with
    | switch on =>
      cases h
      exact .switch on
    | device path =>
      cases h
      exact .device path
    | value key bytes =>
      rw [content?] at h
      split at h
      · next numeric =>
        obtain ⟨n, read, rfl⟩ := Option.map_eq_some_iff.1 h
        obtain ⟨s, decoded, numeral⟩ := Option.bind_eq_some_iff.1 read
        rw [← Utf8.decode?_eq_some_iff.1 decoded]
        exact .number numeric (Numeral.int32?_eq_some_iff.1 numeral)
      · next notNumeric =>
        obtain ⟨s, decoded, rfl⟩ := Option.map_eq_some_iff.1 h
        rw [← Utf8.decode?_eq_some_iff.1 decoded]
        exact .name s (by simpa using notNumeric)
  · intro h
    cases h with
    | switch => rfl
    | device => rfl
    | name s notNumeric => simp [content?, notNumeric, Utf8.decode?_eq_some_iff.2 rfl]
    | number numeric numeral =>
      simp [content?, numeric, TweakOptions.number?, Utf8.decode?_eq_some_iff.2 rfl,
        Numeral.int32?_eq_some_iff.2 numeral]

theorem Means.unique {w : Word} {c d : Content} (h : w.Means c) (h' : w.Means d) : c = d := by
  rw [← content?_eq_some_iff] at h h'
  exact Option.some.inj (h.symm.trans h')

end Word

/-! ## Options by their places -/

namespace TweakOptions

variable {o o' : TweakOptions}

/-- What is in a place of the options. -/
def at? (o : TweakOptions) : Place → Option Content
  | .value .axis => o.axis.map .text
  | .value .led => o.led.map .text
  | .value .minimum => o.overrides.minimum.map .number
  | .value .maximum => o.overrides.maximum.map .number
  | .value .resolution => o.overrides.resolution.map .number
  | .value .fuzz => o.overrides.fuzz.map .number
  | .value .flat => o.overrides.flat.map .number
  | .switch true => if o.on then some .mark else none
  | .switch false => if o.off then some .mark else none
  | .device => o.device.map .path

theorem at?_empty (p : Place) : at? {} p = none := by
  cases p with
  | value key => cases key <;> rfl
  | switch on => cases on <;> rfl
  | device => rfl

/-- Options are what is in their places. -/
theorem eq_of_at? (h : ∀ p, o.at? p = o'.at? p) : o = o' := by
  have texts {a b : Option String} (same : a.map Content.text = b.map Content.text) : a = b :=
    Option.map_injective (fun _ _ => Content.text.inj) same
  have numbers {a b : Option Int32} (same : a.map Content.number = b.map Content.number) :
      a = b :=
    Option.map_injective (fun _ _ => Content.number.inj) same
  have paths {a b : Option Bytes} (same : a.map Content.path = b.map Content.path) : a = b :=
    Option.map_injective (fun _ _ => Content.path.inj) same
  have marks {a b : Bool} (same : (if a then some Content.mark else none) =
      if b then some Content.mark else none) : a = b := by
    cases a <;> cases b <;> first | rfl | cases same
  obtain ⟨axis, led, ⟨minimum, maximum, resolution, fuzz, flat⟩, on, off, device⟩ := o
  obtain ⟨axis', led', ⟨minimum', maximum', resolution', fuzz', flat'⟩, on', off', device'⟩ := o'
  obtain rfl : axis = axis' := texts (h (.value .axis))
  obtain rfl : led = led' := texts (h (.value .led))
  obtain rfl : minimum = minimum' := numbers (h (.value .minimum))
  obtain rfl : maximum = maximum' := numbers (h (.value .maximum))
  obtain rfl : resolution = resolution' := numbers (h (.value .resolution))
  obtain rfl : fuzz = fuzz' := numbers (h (.value .fuzz))
  obtain rfl : flat = flat' := numbers (h (.value .flat))
  obtain rfl : on = on' := marks (h (.switch true))
  obtain rfl : off = off' := marks (h (.switch false))
  obtain rfl : device = device' := paths (h .device)
  rfl

/-- The options with something in a place that it belongs to. -/
def put (o : TweakOptions) : Place → Content → TweakOptions
  | .value .axis, .text s => { o with axis := some s }
  | .value .led, .text s => { o with led := some s }
  | .value .minimum, .number n => { o with overrides.minimum := some n }
  | .value .maximum, .number n => { o with overrides.maximum := some n }
  | .value .resolution, .number n => { o with overrides.resolution := some n }
  | .value .fuzz, .number n => { o with overrides.fuzz := some n }
  | .value .flat, .number n => { o with overrides.flat := some n }
  | .switch true, .mark => { o with on := true }
  | .switch false, .mark => { o with off := true }
  | .device, .path bytes => { o with device := some bytes }
  | _, _ => o

theorem fill_bind {α β : Type} (place : Option α) (a : α) (f : Option α → β) :
    ((fill place a).bind fun filled => some (f filled)) =
      if place = none then some (f (some a)) else none := by
  cases place <;> rfl

theorem add_eq (o : TweakOptions) (w : Word) : o.add w = w.content?.bind fun c =>
    if o.at? w.place = none then some (o.put w.place c) else none := by
  cases w with
  | value key bytes =>
    cases text : Utf8.decode? bytes <;> cases number : number? bytes <;> cases key <;>
      simp [add, Word.content?, Key.isNumeric, Word.place, at?, put, fill_bind, text, number]
  | switch on =>
    cases on
    · cases off : o.off <;> simp [add, Word.content?, Word.place, at?, put, off]
    · cases on : o.on <;> simp [add, Word.content?, Word.place, at?, put, on]
  | device path => simp [add, Word.content?, Word.place, at?, put, fill_bind]

/-- Only the place of the word changes. -/
theorem at?_put {w : Word} {c : Content} (meant : w.Means c) (p : Place) :
    (o.put w.place c).at? p = if p = w.place then some c else o.at? p := by
  rcases p with (_ | _ | _ | _ | _ | _ | _) | (_ | _) | _ <;> cases meant with
  | @name key s notNumeric => cases key <;> first | rfl | cases notNumeric
  | @number key s n numeric numeral => cases key <;> first | rfl | cases numeric
  | switch on => cases on <;> rfl
  | device path => rfl

theorem at?_put_iff {w : Word} {c d : Content} (empty : o.at? w.place = none) (meant : w.Means c)
    (p : Place) :
    (o.put w.place c).at? p = some d ↔ o.at? p = some d ∨ w.place = p ∧ w.Means d := by
  rw [at?_put meant]
  by_cases own : p = w.place
  · subst own
    have same : w.Means d ↔ c = d := ⟨meant.unique, fun same => same ▸ meant⟩
    simp [empty, same]
  · simp [own, Ne.symm own]

theorem exists_add {w : Word} (empty : o.at? w.place = none) (meaning : ∃ c, w.Means c) :
    ∃ o', o.add w = some o' := by
  obtain ⟨c, meant⟩ := meaning
  refine ⟨o.put w.place c, ?_⟩
  rw [add_eq, Word.content?_eq_some_iff.2 meant, Option.bind_some, if_pos empty]

/-- A word is put into its place, if that is still empty and the word means something. -/
theorem add_eq_some_iff {w : Word} : o.add w = some o' ↔
    o.at? w.place = none ∧ (∃ c, w.Means c) ∧
      ∀ p c, o'.at? p = some c ↔ o.at? p = some c ∨ w.place = p ∧ w.Means c := by
  constructor
  · intro added
    rw [add_eq, Option.bind_eq_some_iff] at added
    obtain ⟨c, read, put⟩ := added
    have meant := Word.content?_eq_some_iff.1 read
    split at put
    · next empty =>
      cases put
      exact ⟨empty, ⟨c, meant⟩, fun p d => at?_put_iff empty meant p⟩
    · cases put
  · rintro ⟨empty, ⟨c, meant⟩, places⟩
    rw [add_eq, Word.content?_eq_some_iff.2 meant, Option.bind_some, if_pos empty]
    congr 1
    apply eq_of_at?
    intro p
    apply Option.ext
    intro d
    rw [at?_put_iff empty meant, places]

/-! ## All words -/

/-- Words that were put into options one by one have each a place of its own, which was still
empty, and mean something. The options then hold what they held and what the words mean. -/
theorem of_foldlM_add {ws : List Word} {o o' : TweakOptions} (h : ws.foldlM add o = some o') :
    (ws.map Word.place).Nodup ∧ (∀ w ∈ ws, o.at? w.place = none) ∧ (∀ w ∈ ws, ∃ c, w.Means c) ∧
      ∀ p c, o'.at? p = some c ↔ o.at? p = some c ∨ ∃ w ∈ ws, w.place = p ∧ w.Means c := by
  induction ws generalizing o with
  | nil =>
    cases h
    simp
  | cons w ws ih =>
    rw [List.foldlM_cons, Option.bind_eq_bind, Option.bind_eq_some_iff] at h
    obtain ⟨o₁, added, rest⟩ := h
    obtain ⟨empty, meaning, step⟩ := add_eq_some_iff.1 added
    obtain ⟨once, free, meaningRest, holds⟩ := ih rest
    have taken : ∀ v ∈ ws, v.place ≠ w.place := by
      intro v mem same
      obtain ⟨c, meant⟩ := meaning
      have now := (step v.place c).2 (.inr ⟨same.symm, meant⟩)
      rw [free v mem] at now
      cases now
    have free' : ∀ v ∈ ws, o.at? v.place = none := by
      intro v mem
      apply Option.eq_none_iff_forall_ne_some.2
      intro c held
      have now := (step v.place c).2 (.inl held)
      rw [free v mem] at now
      cases now
    refine ⟨?_, List.forall_mem_cons.2 ⟨empty, free'⟩,
      List.forall_mem_cons.2 ⟨meaning, meaningRest⟩, ?_⟩
    · rw [List.map_cons, List.nodup_cons]
      refine ⟨fun mem => ?_, once⟩
      obtain ⟨v, mem, same⟩ := List.mem_map.1 mem
      exact taken v mem same
    · intro p c
      simp only [holds, step, or_assoc, List.mem_cons, exists_eq_or_imp]

/-- All such words can be put into options. -/
theorem exists_foldlM_add {ws : List Word} {o : TweakOptions} (once : (ws.map Word.place).Nodup)
    (free : ∀ w ∈ ws, o.at? w.place = none) (meaning : ∀ w ∈ ws, ∃ c, w.Means c) :
    ∃ o', ws.foldlM add o = some o' := by
  induction ws generalizing o with
  | nil => exact ⟨o, rfl⟩
  | cons w ws ih =>
    rw [List.map_cons, List.nodup_cons] at once
    obtain ⟨empty, free⟩ := List.forall_mem_cons.1 free
    obtain ⟨meaningFirst, meaning⟩ := List.forall_mem_cons.1 meaning
    obtain ⟨o₁, added⟩ := exists_add empty meaningFirst
    obtain ⟨_, _, step⟩ := add_eq_some_iff.1 added
    have free' : ∀ v ∈ ws, o₁.at? v.place = none := by
      intro v mem
      apply Option.eq_none_iff_forall_ne_some.2
      intro c held
      rcases (step v.place c).1 held with before | ⟨same, _⟩
      · rw [free v mem] at before
        cases before
      · exact once.1 (same ▸ List.mem_map_of_mem mem)
    obtain ⟨o', rest⟩ := ih once.2 free' meaning
    exact ⟨o', by rw [List.foldlM_cons, added]; exact rest⟩

end TweakOptions

end InputGauge.CommandLine
