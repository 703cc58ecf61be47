import InputGauge.CommandLine.Tweak

/-!
# Which words arguments are

The words of a command line as a grammar. `Reads args words` derives the words from the left,
where each rule is one way to spell a word, or the end of the options. Arguments are cut into
words exactly as the grammar derives them (`scan_eq_some_iff`); so they are words in at most one
way, and an argument that no rule begins with is an error.
-/

namespace InputGauge

open Bytes (dash equals)

/-! ## Names and values -/

namespace Bytes

/-- A name, and after a `=` the value that is given with it. -/
def joinAtEquals (name : Bytes) : Option Bytes → Bytes
  | none => name
  | some value => name ++ equals :: value

theorem splitAtEquals_joinAtEquals {name : Bytes} (h : equals ∉ name) (given : Option Bytes) :
    splitAtEquals (joinAtEquals name given) = (name, given) := by
  induction name with
  | nil => cases given <;> rfl
  | cons b rest ih =>
    rw [List.mem_cons, not_or] at h
    have joined : joinAtEquals (b :: rest) given = b :: joinAtEquals rest given := by
      cases given <;> rfl
    rw [joined, splitAtEquals, if_neg (Ne.symm h.1), ih h.2]

theorem equals_not_mem_splitAtEquals (bytes : Bytes) : equals ∉ (splitAtEquals bytes).1 := by
  induction bytes with
  | nil => exact List.not_mem_nil
  | cons b rest ih =>
    rw [splitAtEquals]
    split
    · exact List.not_mem_nil
    · next other => exact List.not_mem_cons_of_ne_of_not_mem (Ne.symm other) ih

theorem joinAtEquals_splitAtEquals (bytes : Bytes) :
    joinAtEquals (splitAtEquals bytes).1 (splitAtEquals bytes).2 = bytes := by
  induction bytes with
  | nil => rfl
  | cons b rest ih =>
    rw [splitAtEquals]
    split
    · next same => rw [same, joinAtEquals, List.nil_append]
    · cases value : (splitAtEquals rest).2 <;> simp_all [joinAtEquals]

end Bytes

namespace CommandLine

namespace Argument

theorem of_plain {path : Bytes} (h : path = [dash] ∨ path.startsWithDash = false) :
    of path = .plain path := by
  rcases h with rfl | h
  · rfl
  · cases path with
    | nil => rfl
    | cons b rest =>
      have other : b ≠ dash := by simpa [Bytes.startsWithDash] using h
      unfold of
      split <;> simp_all

theorem of_option {name : Bytes} (named : name ≠ []) (h : equals ∉ name) (given : Option Bytes) :
    of (dash :: dash :: Bytes.joinAtEquals name given) = .option name given := by
  have split := Bytes.splitAtEquals_joinAtEquals h given
  cases whole : Bytes.joinAtEquals name given with
  | nil =>
    rw [whole] at split
    cases split
    exact absurd rfl named
  | cons b rest =>
    rw [whole] at split
    simp only [of, split]

theorem eq_of_endOfOptions {arg : Bytes} (h : of arg = .endOfOptions) : arg = [dash, dash] := by
  unfold of at h
  split at h <;> first | rfl | cases h

theorem spelled_of_plain {arg path : Bytes} (h : of arg = .plain path) :
    arg = path ∧ (path = [dash] ∨ path.startsWithDash = false) := by
  unfold of at h
  split at h
  · cases h
    exact ⟨rfl, .inl rfl⟩
  · cases h
  · cases h
  · cases h
  · next other =>
    cases h
    refine ⟨rfl, .inr ?_⟩
    cases arg with
    | nil => rfl
    | cons b rest =>
      have first : b ≠ dash := fun same => other rest (by rw [same])
      simpa [Bytes.startsWithDash] using first

theorem spelled_of_option {arg name : Bytes} {given : Option Bytes}
    (h : of arg = .option name given) : arg = dash :: dash :: Bytes.joinAtEquals name given := by
  unfold of at h
  split at h
  · cases h
  · cases h
  · cases h
    rw [Bytes.joinAtEquals_splitAtEquals]
  · cases h
  · cases h

end Argument

namespace Key

/-- How an option is written after its dashes. -/
def name : Key → Bytes
  | axis => .ofString "abs"
  | led => .ofString "led"
  | minimum => .ofString "min"
  | maximum => .ofString "max"
  | resolution => .ofString "res"
  | fuzz => .ofString "fuzz"
  | flat => .ofString "flat"

theorem name_ne_nil (key : Key) : key.name ≠ [] := by
  cases key <;> decide

theorem equals_not_mem_name (key : Key) : equals ∉ key.name := by
  cases key <;> decide

theorem lookup_name (key : Key) : names.lookup key.name = some key := by
  cases key <;> decide

theorem eq_name_of_lookup {bytes : Bytes} {key : Key} (h : names.lookup bytes = some key) :
    bytes = key.name := by
  have named : ∀ entry ∈ names, entry.1 = entry.2.name := by decide
  obtain ⟨before, after, entries, _⟩ := List.lookup_eq_some_iff.1 h
  exact named (bytes, key) (by rw [entries]; simp)

end Key

/-- How a switch is written after its dashes. -/
def switchName (on : Bool) : Bytes := if on then switchOn else switchOff

theorem switchName_ne_nil (on : Bool) : switchName on ≠ [] := by
  cases on <;> decide

theorem equals_not_mem_switchName (on : Bool) : equals ∉ switchName on := by
  cases on <;> decide

theorem name_ne_switchName (key : Key) (on : Bool) : key.name ≠ switchName on := by
  cases key <;> cases on <;> decide

/-! ## The grammar -/

/-- Arguments, and the words that they are. -/
inductive Reads : List Bytes → List Word → Prop where
  | nil : Reads [] []
  /-- After `--`, every argument is a device. -/
  | ended (paths : List Bytes) : Reads ([dash, dash] :: paths) (paths.map .device)
  /-- What is `-`, or does not begin with it, is a device. -/
  | device {path : Bytes} {args words} : path = [dash] ∨ path.startsWithDash = false →
      Reads args words → Reads (path :: args) (.device path :: words)
  /-- `--on` or `--off`. -/
  | switch (on : Bool) {args words} :
      Reads args words → Reads ((dash :: dash :: switchName on) :: args) (.switch on :: words)
  /-- `--name=value`. -/
  | attached {key} {value : Bytes} {args words} :
      Reads args words →
      Reads ((dash :: dash :: (key.name ++ equals :: value)) :: args) (.value key value :: words)
  /-- `--name value`. A name of an axis or a light may then not begin with `-`, unless it is `-`. -/
  | separate {key} {value : Bytes} {args words} :
      key.isNumeric ∨ value = [dash] ∨ value.startsWithDash = false →
      Reads args words →
      Reads ((dash :: dash :: key.name) :: value :: args) (.value key value :: words)

theorem Key.admits_iff {key : Key} {value : Bytes} :
    key.admits value ↔ key.isNumeric ∨ value = [dash] ∨ value.startsWithDash = false := by
  simp only [admits, Bool.or_eq_true, Bool.not_eq_true', beq_iff_eq, or_assoc]
  exact or_congr_right or_comm

theorem scan_of_reads {args : List Bytes} {words : List Word} (h : Reads args words) :
    Word.scan args = some words := by
  induction h with
  | nil => rfl
  | ended paths => rfl
  | device spelled _ ih => simp only [Word.scan, Argument.of_plain spelled, ih, Option.map_some]
  | @switch on args words _ ih =>
    have spelled := Argument.of_option (switchName_ne_nil on) (equals_not_mem_switchName on) none
    have differ : switchOff ≠ switchOn := by decide
    simp only [Bytes.joinAtEquals] at spelled
    simp only [Word.scan, spelled]
    cases on <;> simp [switchName, differ, ih]
  | @attached key value args words _ ih =>
    have spelled := Argument.of_option key.name_ne_nil key.equals_not_mem_name (some value)
    simp only [Bytes.joinAtEquals] at spelled
    simp [Word.scan, spelled, key.lookup_name, ih]
  | @separate key value args words admitted _ ih =>
    have on := name_ne_switchName key true
    have off := name_ne_switchName key false
    simp only [switchName, if_true, Bool.false_eq_true, if_false] at on off
    have spelled := Argument.of_option key.name_ne_nil key.equals_not_mem_name none
    simp only [Bytes.joinAtEquals] at spelled
    simp [Word.scan, spelled, key.lookup_name, ih, on, off, Key.admits_iff.2 admitted]

theorem reads_of_scan {args : List Bytes} {words : List Word} (h : Word.scan args = some words) :
    Reads args words := by
  fun_induction Word.scan args generalizing words with
  | case1 =>
    cases h
    exact .nil
  | case2 arg rest spelled =>
    cases h
    rw [Argument.eq_of_endOfOptions spelled]
    exact .ended rest
  | case3 arg rest path spelled ih =>
    obtain ⟨words, read, rfl⟩ := Option.map_eq_some_iff.1 h
    obtain ⟨rfl, plain⟩ := Argument.spelled_of_plain spelled
    exact .device plain (ih read)
  | case4 => cases h
  | case5 arg rest name given spelled on ih =>
    obtain ⟨words, read, rfl⟩ := Option.map_eq_some_iff.1 h
    rw [Argument.spelled_of_option spelled, on.1, on.2]
    exact .switch true (ih read)
  | case6 arg rest name given spelled _ off ih =>
    obtain ⟨words, read, rfl⟩ := Option.map_eq_some_iff.1 h
    rw [Argument.spelled_of_option spelled, off.1, off.2]
    exact .switch false (ih read)
  | case7 => cases h
  | case8 arg name key value rest known spelled _ _ ih =>
    obtain ⟨words, read, rfl⟩ := Option.map_eq_some_iff.1 h
    rw [Argument.spelled_of_option spelled, Key.eq_name_of_lookup known]
    exact .attached (ih read)
  | case9 => cases h
  | case10 arg name key value rest known admitted spelled _ _ ih =>
    obtain ⟨words, read, rfl⟩ := Option.map_eq_some_iff.1 h
    rw [Argument.spelled_of_option spelled, Key.eq_name_of_lookup known]
    exact .separate (Key.admits_iff.1 admitted) (ih read)
  | case11 => cases h

/-- Arguments are cut into the words that the grammar derives from them, and into none if there
are none. -/
theorem scan_eq_some_iff {args : List Bytes} {words : List Word} :
    Word.scan args = some words ↔ Reads args words :=
  ⟨reads_of_scan, scan_of_reads⟩

theorem Reads.unique {args : List Bytes} {ws ws' : List Word} (h : Reads args ws)
    (h' : Reads args ws') : ws = ws' :=
  Option.some.inj ((scan_of_reads h).symm.trans (scan_of_reads h'))

end CommandLine

end InputGauge
