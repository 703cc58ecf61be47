import InputGauge.CommandLine.Device
import InputGauge.Proofs.CommandLine.Words
import InputGauge.Proofs.Text.Utf8

/-!
# Which device a command line names

A command line names the first of its operands, if that is no mistyped option
(`device?_eq_some_iff_operand`). What follows the operand should not matter, and mostly does not:
only the argument right after it can take the device away, if it is an option whose name is not
text and the options were not ended before. Whether an operand begins with `-` can be asked of its
bytes and of its lossy reading alike.
-/

namespace InputGauge.CommandLine

open Bytes (dash equals)

/-- An argument that is an option whose name is not text. -/
def IsGarbled (arg : Bytes) : Prop :=
  ∃ name given, equals ∉ name ∧ (∀ s, Bytes.ofString s ≠ name) ∧
    arg = dash :: dash :: Bytes.joinAtEquals name given

/-- The arguments after the program's name, without a `--` that comes first. -/
def operands (argv : List Bytes) : List Bytes :=
  if argv.tail.head? = some [dash, dash] then argv.tail.tail else argv.tail

/-- A command line on which an option whose name is not text comes right after the first operand,
with the options not ended. -/
def IsSpoiled : List Bytes → Prop
  | _ :: first :: next :: _ => first ≠ [dash, dash] ∧ IsGarbled next
  | _ => False

namespace Argument

theorem equals_not_mem_of_option {arg name : Bytes} {given : Option Bytes}
    (h : of arg = .option name given) : equals ∉ name := by
  unfold of at h
  split at h
  · cases h
  · cases h
  · cases h
    exact Bytes.equals_not_mem_splitAtEquals _
  · cases h
  · cases h

theorem isGarbled_iff {arg : Bytes} : (of arg).isGarbled ↔ IsGarbled arg := by
  have notText {name : Bytes} :
      (Utf8.decode? name).isNone ↔ ∀ s, Bytes.ofString s ≠ name := by
    rw [Option.isNone_iff_eq_none, Option.eq_none_iff_forall_ne_some]
    exact forall_congr' fun s => not_congr Utf8.decode?_eq_some_iff
  constructor
  · intro garbled
    cases kind : of arg with
    | option name given =>
      rw [kind] at garbled
      exact ⟨name, given, equals_not_mem_of_option kind, notText.1 garbled,
        spelled_of_option kind⟩
    | endOfOptions | plain | unknown =>
      rw [kind] at garbled
      cases garbled
  · rintro ⟨name, given, noEquals, bytes, rfl⟩
    have named : name ≠ [] := fun nil => bytes "" nil.symm
    rw [of_option named noEquals given]
    exact notText.2 bytes

end Argument

instance (arg : Bytes) : Decidable (IsGarbled arg) := decidable_of_iff _ Argument.isGarbled_iff

instance : (argv : List Bytes) → Decidable (IsSpoiled argv)
  | _ :: first :: next :: _ => inferInstanceAs (Decidable (first ≠ [dash, dash] ∧ IsGarbled next))
  | [] | [_] | [_, _] => inferInstanceAs (Decidable False)

variable {argv : List Bytes}

/-- What spoils a command line keeps the device from being read. -/
theorem device?_of_isSpoiled (spoiled : IsSpoiled argv) : device? argv = none := by
  match argv with
  | [] | [_] | [_, _] => exact spoiled.elim
  | _ :: first :: next :: rest =>
    obtain ⟨notEnd, garbled⟩ := spoiled
    have kind : Argument.of first ≠ .endOfOptions := fun h =>
      notEnd (Argument.eq_of_endOfOptions h)
    simp only [device?, List.tail_cons, if_neg kind, List.head?_cons, Option.any_some,
      Argument.isGarbled_iff.2 garbled, if_true]

/-- Otherwise the first operand decides alone. -/
theorem device?_of_not_isSpoiled (spoiled : ¬ IsSpoiled argv) :
    device? argv = (operands argv).head?.filter isDevice := by
  match argv with
  | [] => rfl
  | [_] => rfl
  | program :: first :: rest =>
    by_cases ended : first = [dash, dash]
    · subst ended
      rw [device?_endOfOptions]
      rfl
    · have kind : Argument.of first ≠ .endOfOptions := fun h =>
        ended (Argument.eq_of_endOfOptions h)
      have text : (rest.head?.any fun next => (Argument.of next).isGarbled) = false := by
        cases rest with
        | nil => rfl
        | cons next rest =>
          apply Bool.eq_false_iff.2
          intro garbled
          exact spoiled ⟨ended, Argument.isGarbled_iff.1 garbled⟩
      have firstOperand : (operands (program :: first :: rest)).head? = some first := by
        have notEnd : (program :: first :: rest).tail.head? ≠ some [dash, dash] := fun h =>
          ended (Option.some.inj h)
        rw [operands, if_neg notEnd]
        rfl
      rw [firstOperand, device?]
      simp only [List.tail_cons, if_neg kind, text]
      rfl

/-- The check for a leading `-` may be made on the bytes or on what they are shown as. -/
theorem isDevice_eq_lossy (path : Bytes) :
    isDevice path = (!path.isEmpty && (Utf8.lossy path).toList.head? != some '-') := by
  have sameCheck : path.startsWithDash = ((Utf8.lossy path).toList.head? == some '-') := by
    rw [Bool.eq_iff_iff, beq_iff_eq, Utf8.head?_lossy_iff]
    cases path <;> simp [Bytes.startsWithDash]
  rw [isDevice, sameCheck]
  rfl

/-- The device is the first operand, byte for byte, if that is neither empty nor begins with `-`,
unless the command line is spoiled. Of two command lines that are not, only the first operands
matter; and reading the operand as text, with replacements, makes no difference. -/
theorem device?_eq_some_iff_operand (argv argv' : List Bytes) (path : Bytes) :
    (device? argv = some path ↔
      (operands argv).head? = some path ∧ path ≠ [] ∧ path.head? ≠ some dash ∧
        ¬ IsSpoiled argv) ∧
    (¬ IsSpoiled argv → ¬ IsSpoiled argv' →
      (operands argv).head? = (operands argv').head? → device? argv = device? argv') ∧
    isDevice path = (!path.isEmpty && (Utf8.lossy path).toList.head? != some '-') := by
  refine ⟨?_, ?_, isDevice_eq_lossy path⟩
  · have device : isDevice path ↔ path ≠ [] ∧ path.head? ≠ some dash := by
      cases path <;> simp [isDevice, Bytes.startsWithDash]
    by_cases spoiled : IsSpoiled argv
    · simp [device?_of_isSpoiled spoiled, spoiled]
    · rw [device?_of_not_isSpoiled spoiled, Option.filter_eq_some_iff, device]
      simp [spoiled]
  · intro spoiled spoiled' same
    rw [device?_of_not_isSpoiled spoiled, device?_of_not_isSpoiled spoiled', same]

/-- A flag after the device does not matter, nor does any argument once the options are ended. -/
theorem device?_eq_some_iff_operand_flag :
    device? [.ofString "tool", .ofString "/dev/a", .ofString "--help"] =
      some (.ofString "/dev/a") ∧
    device? [.ofString "tool", .ofString "/dev/a", .ofString "--help"] =
      device? [.ofString "tool", .ofString "--", .ofString "/dev/a", [0x2d, 0x2d, 0x78, 0xff]] := by
  obtain ⟨read, alike, _⟩ := device?_eq_some_iff_operand
    [.ofString "tool", .ofString "/dev/a", .ofString "--help"]
    [.ofString "tool", .ofString "--", .ofString "/dev/a", [0x2d, 0x2d, 0x78, 0xff]]
    (.ofString "/dev/a")
  exact ⟨read.2 (by decide +kernel),
    alike (by decide +kernel) (by decide +kernel) (by decide +kernel)⟩

/-- The device is gone because of what follows it. -/
theorem device?_taken_away :
    let argv : List Bytes := [.ofString "tool", .ofString "/dev/a", [0x2d, 0x2d, 0x78, 0xff]]
    (operands argv).head? = some (.ofString "/dev/a") ∧ isDevice (.ofString "/dev/a") ∧
      device? argv = none ∧
      device? (argv.take 2) = some (.ofString "/dev/a") := by
  decide +kernel

end InputGauge.CommandLine
