import InputGauge.CommandLine.Tweak
import InputGauge.Proofs.Text.Numeral
import Mathlib

/-!
# Which axis and which light is asked for

Axes and lights are asked for in the same way, by number or by name, and differ in their bounds and
in their names. A text that asks by number is not changed by capitals, and no name looks like a
number; so the two ways never meet, and which of them is tried first makes no difference
(`IsTable.numbered?_eq_some_iff`). An axis that is asked for has a place in the table of a device.
-/

namespace InputGauge

/-! ## Capitals -/

theorem not_isAlpha_of_isCounting {c : Char} (counting : Numeral.isCounting c) : ¬ c.isAlpha := by
  rw [Numeral.isCounting, Bool.or_eq_true, beq_iff_eq] at counting
  rcases counting with rfl | digit
  · decide
  · grind [Char.isAlpha, Char.isUpper, Char.isLower, Char.isDigit]

/-- Only a small letter has another capital, and neither stands in a numeral. -/
theorem toUpper_eq_self_of_isCounting {c : Char}
    (h : Numeral.isCounting c ∨ Numeral.isCounting c.toUpper) : c.toUpper = c := by
  apply Char.toUpper_eq_of_not_isLower
  intro lower
  have letter : c.isAlpha := by rw [Char.isAlpha, lower, Bool.or_true]
  rcases h with small | capital
  · exact not_isAlpha_of_isCounting small letter
  · rw [← Char.isAlpha_toUpper_eq_isAlpha] at letter
    exact not_isAlpha_of_isCounting capital letter

theorem toList_inCapitals (s : String) : (inCapitals s).toList = s.toList.map Char.toUpper :=
  String.toList_ofList

/-- A text is a numeral if it is one in capitals, and then it is the same text. -/
theorem inCapitals_eq_self_of_counts {s : String} {n : Nat}
    (h : Numeral.Counts s.toList n ∨ Numeral.Counts (inCapitals s).toList n) :
    inCapitals s = s := by
  have same : s.toList.map Char.toUpper = s.toList := by
    refine (List.map_congr_left fun c mem => ?_).trans (List.map_id _)
    apply toUpper_eq_self_of_isCounting
    rw [toList_inCapitals] at h
    exact h.imp (fun counts => counts.isCounting_of_mem mem)
      (fun counts => counts.isCounting_of_mem (List.mem_map_of_mem mem))
  rw [inCapitals, same, String.ofList_toList]

theorem counts_inCapitals_iff {s : String} {n : Nat} :
    Numeral.Counts (inCapitals s).toList n ↔ Numeral.Counts s.toList n := by
  constructor
  · intro counts
    rwa [inCapitals_eq_self_of_counts (.inr counts)] at counts
  · intro counts
    rwa [inCapitals_eq_self_of_counts (.inl counts)]

/-! ## Tables of names -/

/-- A table of names for some of the numbers below a bound: no number has two names, no name two
numbers, and a name is in capitals and does not begin like a numeral. -/
structure IsTable (bound : Nat) (names : List (UInt16 × String)) : Prop where
  numbers : (names.map Prod.fst).Nodup
  texts : (names.map Prod.snd).Nodup
  capitals : ∀ entry ∈ names, inCapitals entry.2 = entry.2
  words : ∀ entry ∈ names, entry.2.toList.head?.any Numeral.isCounting = false
  within : ∀ entry ∈ names, entry.1.toNat < bound

/-- The number that a text asks for, by number or by name. -/
def numbered? (bound : Nat) (names : List (UInt16 × String)) (s : String) : Option UInt16 :=
  match Numeral.uint16? s with
  | some n => if n.toNat < bound then some n else none
  | none => (names.find? fun entry => entry.2 == inCapitals s).map Prod.fst

namespace IsTable

variable {bound : Nat} {names : List (UInt16 × String)} (table : IsTable bound names)
include table

theorem lookup_eq_some_iff {n : UInt16} {text : String} :
    names.lookup n = some text ↔ (n, text) ∈ names := by
  have mem_of_lookup {found : String} (h : names.lookup n = some found) : (n, found) ∈ names := by
    obtain ⟨before, after, split, _⟩ := List.lookup_eq_some_iff.1 h
    rw [split]
    exact List.mem_append_right before (List.mem_cons_self ..)
  constructor
  · exact mem_of_lookup
  · intro mem
    cases found : names.lookup n with
    | none => exact absurd rfl (bne_iff_ne.1 (List.lookup_eq_none_iff.1 found _ mem))
    | some other =>
      cases List.inj_on_of_nodup_map table.numbers mem (mem_of_lookup found) rfl
      rfl

theorem find?_eq_some_iff {n : UInt16} {text : String} :
    (names.find? fun entry => entry.2 == text).map Prod.fst = some n ↔ (n, text) ∈ names := by
  rw [Option.map_eq_some_iff]
  constructor
  · rintro ⟨⟨m, other⟩, found, rfl⟩
    obtain rfl : other = text := by simpa using List.find?_some found
    exact List.mem_of_find?_eq_some found
  · intro mem
    have isSome : (names.find? fun entry => entry.2 == text).isSome :=
      List.find?_isSome.2 ⟨_, mem, beq_self_eq_true text⟩
    obtain ⟨⟨m, other⟩, found⟩ := Option.isSome_iff_exists.1 isSome
    obtain rfl : other = text := by simpa using List.find?_some found
    cases List.inj_on_of_nodup_map table.texts mem (List.mem_of_find?_eq_some found) rfl
    exact ⟨_, found, rfl⟩

/-- No name is a numeral, however its letters are written. -/
theorem not_mem_of_counts {s : String} {k : Nat} (counts : Numeral.Counts s.toList k)
    (n : UInt16) : (n, inCapitals s) ∉ names := by
  intro mem
  rw [inCapitals_eq_self_of_counts (.inl counts)] at mem
  have word := table.words _ mem
  obtain ⟨c, rest, spelled⟩ := List.exists_cons_of_ne_nil counts.ne_nil
  have counting : Numeral.isCounting c :=
    counts.isCounting_of_mem (spelled ▸ List.mem_cons_self ..)
  rw [spelled, List.head?_cons, Option.any_some, counting] at word
  cases word

/-- A number is asked for by a numeral or by its name. -/
theorem numbered?_eq_some_iff {s : String} {n : UInt16} :
    numbered? bound names s = some n ↔
      Numeral.Counts s.toList n.toNat ∧ n.toNat < bound ∨ (n, inCapitals s) ∈ names := by
  unfold numbered?
  cases read : Numeral.uint16? s with
  | none =>
    -- Numerals beyond 16 bits come here too; like all numerals, they are no names.
    have notNumeral : ¬ Numeral.Counts s.toList n.toNat := by
      intro counts
      rw [Numeral.uint16?_eq_some_iff.2 counts] at read
      cases read
    rw [table.find?_eq_some_iff, or_iff_right]
    exact fun h => notNumeral h.1
  | some m =>
    have counts := Numeral.uint16?_eq_some_iff.1 read
    rw [or_iff_left (table.not_mem_of_counts counts n), Option.ite_none_right_eq_some]
    constructor
    · rintro ⟨within, same⟩
      cases same
      exact ⟨counts, within⟩
    · rintro ⟨counts', within⟩
      obtain rfl := UInt16.toNat_inj.1 (counts.unique counts')
      exact ⟨within, rfl⟩

/-- The way in which letters are written makes no difference. -/
theorem numbered?_congr {s t : String} (same : inCapitals s = inCapitals t) :
    numbered? bound names s = numbered? bound names t := by
  apply Option.ext
  intro n
  rw [table.numbered?_eq_some_iff, table.numbered?_eq_some_iff, ← counts_inCapitals_iff, same,
    counts_inCapitals_iff]

/-- A numeral that is out of bounds asks for nothing. -/
theorem numbered?_of_beyond {s : String} {k : Nat} (counts : Numeral.Counts s.toList k)
    (beyond : bound ≤ k) : numbered? bound names s = none := by
  apply Option.eq_none_iff_forall_ne_some.2
  intro n asked
  rcases table.numbered?_eq_some_iff.1 asked with ⟨counts', within⟩ | mem
  · rw [counts'.unique counts] at within
    exact Nat.not_lt_of_le beyond within
  · exact table.not_mem_of_counts counts n mem

theorem numbered?_lt {s : String} {n : UInt16} (asked : numbered? bound names s = some n) :
    n.toNat < bound := by
  rcases table.numbered?_eq_some_iff.1 asked with ⟨_, within⟩ | mem
  · exact within
  · exact table.within _ mem

theorem numbered?_name {n : UInt16} {text : String} (mem : (n, text) ∈ names) :
    numbered? bound names text = some n :=
  table.numbered?_eq_some_iff.2 (.inr (by rwa [table.capitals _ mem]))

end IsTable

/-! ## Axes and lights -/

/-- How things that are numbered and partly named are asked for. -/
structure IsAskedFor {α : Type} (bound : Nat) (names : List (UInt16 × String))
    (number : α → UInt16) (name : α → String) (parse? : String → Option α) : Prop where
  /-- By a numeral in bounds, or by name. -/
  asked_iff : ∀ s a, parse? s = some a ↔
    Numeral.Counts s.toList (number a).toNat ∧ (number a).toNat < bound ∨
      (number a, inCapitals s) ∈ names
  /-- No text is both a numeral and a name. -/
  apart : ∀ s k, Numeral.Counts s.toList k → ∀ n, (n, inCapitals s) ∉ names
  /-- A numeral out of bounds asks for nothing. -/
  beyond : ∀ s k, Numeral.Counts s.toList k → bound ≤ k → parse? s = none
  /-- Small letters are as good as capitals. -/
  congr : ∀ s t, inCapitals s = inCapitals t → parse? s = parse? t
  /-- What has a name is shown by it and can be asked for by it. -/
  named : ∀ a text, (number a, text) ∈ names → name a = text ∧ parse? (name a) = some a

theorem IsTable.isAskedFor {α : Type} {bound : Nat} {names : List (UInt16 × String)}
    (table : IsTable bound names) {mk : UInt16 → α} {number : α → UInt16} {name : α → String}
    {parse? : String → Option α} (number_mk : ∀ n, number (mk n) = n)
    (mk_number : ∀ a, mk (number a) = a)
    (shown : ∀ a, name a = (names.lookup (number a)).getD (unnamed (number a).toNat))
    (read : ∀ s, parse? s = (numbered? bound names s).map mk) :
    IsAskedFor bound names number name parse? := by
  have asked (s : String) (a : α) :
      parse? s = some a ↔ numbered? bound names s = some (number a) := by
    rw [read, Option.map_eq_some_iff]
    constructor
    · rintro ⟨n, asked, rfl⟩
      rwa [number_mk]
    · intro asked
      exact ⟨number a, asked, mk_number a⟩
  refine ⟨?_, ?_, ?_, ?_, ?_⟩
  · intro s a
    rw [asked, table.numbered?_eq_some_iff]
  · intro s k counts
    exact table.not_mem_of_counts counts
  · intro s k counts beyond
    rw [read, table.numbered?_of_beyond counts beyond, Option.map_none]
  · intro s t same
    rw [read, read, table.numbered?_congr same]
  · intro a text mem
    have here : name a = text := by
      rw [shown, table.lookup_eq_some_iff.2 mem, Option.getD_some]
    rw [here]
    exact ⟨rfl, (asked _ a).2 (table.numbered?_name mem)⟩

namespace Axis

theorem isTable : IsTable bound names where
  numbers := by decide +kernel
  texts := by decide +kernel
  capitals := by decide +kernel
  words := by decide +kernel
  within := by decide +kernel

theorem parse?_eq (s : String) : parse? s = (numbered? bound names s).map mk := by
  unfold parse? numbered?
  cases Numeral.uint16? s with
  | none => rw [ofName?, Option.map_map]; rfl
  | some n => exact (apply_ite (Option.map mk) (n.toNat < bound) (some n) none).symm

theorem number_lt_of_parse? {s : String} {a : Axis} (asked : parse? s = some a) :
    a.number.toNat < bound := by
  rw [parse?_eq, Option.map_eq_some_iff] at asked
  obtain ⟨n, asked, rfl⟩ := asked
  exact isTable.numbered?_lt asked

end Axis

namespace Led

theorem isTable : IsTable bound names where
  numbers := by decide +kernel
  texts := by decide +kernel
  capitals := by decide +kernel
  words := by decide +kernel
  within := by decide +kernel

theorem parse?_eq (s : String) : parse? s = (numbered? bound names s).map mk := by
  unfold parse? numbered?
  cases Numeral.uint16? s with
  | none => rw [ofName?, Option.map_map]; rfl
  | some n => exact (apply_ite (Option.map mk) (n.toNat < bound) (some n) none).symm

end Led

/-! ## The place of an axis -/

/-- The settings of an axis within bounds are those in its place. -/
theorem Session.axisSettings_of_place (d : Session) {a : Axis} {place : Fin Axis.bound}
    (here : place.val = a.number.toNat) :
    d.axisSettings a =
      if d.node.axes.contains a then d.readAxes.map fun axes => axes.places.get place
      else .ok none := by
  have settings (axes : AxisTable) : axes.get? a = axes.places.get place := by
    rw [AxisTable.get?, ← here, Vector.getElem?_eq_getElem place.isLt, Option.join_some]
    rfl
  simp only [axisSettings, settings]

/-- An axis that options ask for is one that a text asked for. -/
theorem CommandLine.TweakOptions.axis_of_adjustment {o : TweakOptions} {a : Axis}
    {overrides : AxisOverrides} (h : o.adjustment = .ok (.axis a overrides)) :
    ∃ s, Axis.parse? s = some a := by
  unfold adjustment at h
  cases given : o.axis with
  | some s =>
    cases asked : Axis.parse? s with
    | some b =>
      simp only [given, asked] at h
      cases h
      exact ⟨s, asked⟩
    | none =>
      simp only [given, asked] at h
      cases h
  | none =>
    simp only [given] at h
    cases asked : Led.parse? (o.led.getD "") with
    | some l =>
      rw [asked] at h
      cases h
    | none =>
      rw [asked] at h
      cases h

/-- Axes and lights are asked for by a numeral in bounds or by name. Whatever axis the options of
a command line ask for, every device has a place for its settings. -/
theorem isAskedFor_axes_and_leds :
    IsAskedFor Axis.bound Axis.names Axis.number Axis.name Axis.parse? ∧
    IsAskedFor Led.bound Led.names Led.number Led.name Led.parse? ∧
    ∀ (o : CommandLine.TweakOptions) (a : Axis) (overrides : AxisOverrides),
      o.adjustment = .ok (.axis a overrides) →
      ∃ place : Fin Axis.bound, place.val = a.number.toNat ∧ ∀ d : Session,
        d.axisSettings a =
          if d.node.axes.contains a then d.readAxes.map fun axes => axes.places.get place
          else .ok none := by
  refine ⟨?_, ?_, ?_⟩
  · exact Axis.isTable.isAskedFor (fun _ => rfl) (fun _ => rfl) (fun _ => rfl) Axis.parse?_eq
  · exact Led.isTable.isAskedFor (fun _ => rfl) (fun _ => rfl) (fun _ => rfl) Led.parse?_eq
  · intro o a overrides h
    obtain ⟨s, asked⟩ := CommandLine.TweakOptions.axis_of_adjustment h
    refine ⟨⟨a.number.toNat, Axis.number_lt_of_parse? asked⟩, rfl, ?_⟩
    intro d
    exact d.axisSettings_of_place rfl

/-- One axis asked for by its number and by its name, and a numeral that asks for no light. -/
theorem isAskedFor_axes_and_leds_contact :
    Axis.parse? "+0054" = some .contactY ∧ Axis.parse? "abs_Mt_Position_y" = some .contactY ∧
      Led.parse? "65537" = none ∧
      ∃ place : Fin Axis.bound, place.val = 54 := by
  obtain ⟨axes, leds, places⟩ := isAskedFor_axes_and_leds
  refine ⟨?_, ?_, ?_, ?_⟩
  · have counts : Numeral.Counts "+0054".toList 54 := Numeral.unsigned?_eq_some_iff.1 (by decide)
    exact (axes.asked_iff _ _).2 (.inl ⟨counts, by decide⟩)
  · exact (axes.asked_iff _ _).2 (.inr (by decide +kernel))
  · have counts : Numeral.Counts "65537".toList 65537 :=
      Numeral.unsigned?_eq_some_iff.1 (by decide)
    exact leds.beyond _ _ counts (by decide)
  · obtain ⟨place, here, _⟩ := places { axis := some "54" } .contactY {} (by decide +kernel)
    exact ⟨place, here⟩

end InputGauge
