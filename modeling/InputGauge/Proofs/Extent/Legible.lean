import InputGauge.Proofs.Extent.Report
import InputGauge.Proofs.Text.Parting

/-!
# What a report tells

A report has free text in its middle, the name of the device and the identity of the machine, and
either may hold lines that look like a part of a rule. So a report is read from its ends: the size
of the device is its first line, and the settings of the axes are its last lines, which are told
apart from right to left (`append_ruleLine_inj`).

Two reports are the same text just when the sizes are the same and either neither has a rule or both
have one, with the same bounds, for the same axes, under the same key (`reports_agree_iff`).
-/

namespace InputGauge

open Text Numeral

namespace Capabilities

/-- The size of the device in words, without the end of the line. -/
def sizeWords : Option (Int × Int) → List Char
  | some (width, height) =>
    "Touchpad size as listed by the kernel: ".toList ++
      (width.repr.toList ++ 'x' :: (height.repr.toList ++ "mm".toList))
  | none => "Touchpad has no resolution, size unknown".toList

theorem toList_sizeText (size : Option (Int × Int)) :
    (sizeText size).toList = sizeWords size ++ ['\n'] := by
  unfold sizeText sizeWords
  split <;> simp

theorem newline_not_mem_sizeWords (size : Option (Int × Int)) : '\n' ∉ sizeWords size := by
  have number (n : Int) : '\n' ∉ n.repr.toList := not_mem_repr (by decide) (by decide) n
  unfold sizeWords
  split <;> simp [number]

theorem sizeWords_inj {size size' : Option (Int × Int)} :
    sizeWords size = sizeWords size' ↔ size = size' := by
  refine ⟨fun same => ?_, congrArg sizeWords⟩
  have x (n : Int) : 'x' ∉ n.repr.toList := not_mem_repr (by decide) (by decide) n
  unfold sizeWords at same
  rcases size with _ | ⟨width, height⟩ <;> rcases size' with _ | ⟨width', height'⟩
  · rfl
  · simp at same
  · simp at same
  · rw [List.append_cancel_left_eq, append_cons_inj (x width) (x width'),
      List.append_cancel_right_eq, String.toList_inj, String.toList_inj] at same
    rw [eq_of_repr_eq same.1, eq_of_repr_eq same.2]

/-- The size is the first line of a report. -/
theorem sizeText_append_inj {size size' : Option (Int × Int)} {rest rest' : String} :
    sizeText size ++ rest = sizeText size' ++ rest' ↔ size = size' ∧ rest = rest' := by
  rw [← String.toList_inj, String.toList_append, String.toList_append, toList_sizeText,
    toList_sizeText, List.append_assoc, List.append_assoc, List.singleton_append,
    List.singleton_append, append_cons_inj (newline_not_mem_sizeWords _)
      (newline_not_mem_sizeWords _), sizeWords_inj, String.toList_inj]

end Capabilities

namespace Extent

open Capabilities

/-! ## The settings of the axes -/

/-- The settings of an axis at the end of a text are told from what comes before them. -/
theorem append_ruleLine_inj {before before' axis axis' resolution : String}
    {lower lower' upper upper' : Int32} (length : axis.toList.length = axis'.toList.length) :
    before ++ ruleLine axis (toString lower.toInt) (toString upper.toInt) resolution =
        before' ++ ruleLine axis' (toString lower'.toInt) (toString upper'.toInt) resolution ↔
      before = before' ∧ axis = axis' ∧ lower = lower' ∧ upper = upper' := by
  have colon (n : Int32) : ':' ∉ n.toInt.repr.toList := not_mem_repr (by decide) (by decide) _
  have equals (n : Int32) : '=' ∉ n.toInt.repr.toList := not_mem_repr (by decide) (by decide) _
  have number {m n : Int32} : m.toInt.repr.toList = n.toInt.repr.toList ↔ m = n :=
    ⟨fun same => Int32.toInt_inj.mp (eq_of_repr_eq (String.toList_inj.mp same)), fun h => h ▸ rfl⟩
  -- From right to left: the resolution is known, the numbers have no separators, and the names of
  -- the axes are equally long.
  have parted (before axis : String) (lower upper : Int32) :
      (before ++ ruleLine axis (toString lower.toInt) (toString upper.toInt) resolution).toList =
        (((before.toList ++ " EVDEV_ABS_".toList) ++ axis.toList) ++ '=' ::
          lower.toInt.repr.toList) ++ ':' :: upper.toInt.repr.toList ++
            (":<" ++ resolution ++ " resolution>\n").toList := by
    unfold ruleLine
    simp
  rw [← String.toList_inj, parted, parted, List.append_cancel_right_eq,
    append_cons_inj_right (colon _) (colon _), append_cons_inj_right (equals _) (equals _),
    List.append_eq_append_iff_of_size_eq_right length, List.append_cancel_right_eq, number, number,
    String.toList_inj, String.toList_inj]
  simp only [and_assoc]

theorem append_ruleLines_inj {before before' x x' y y' : String} {d d' : Extent}
    (lengthX : x.toList.length = x'.toList.length) (lengthY : y.toList.length = y'.toList.length) :
    before ++ d.ruleLines x y = before' ++ d'.ruleLines x' y' ↔
      before = before' ∧ x = x' ∧ y = y' ∧ d = d' := by
  obtain ⟨left, right, top, bottom⟩ := d
  obtain ⟨left', right', top', bottom'⟩ := d'
  rw [ruleLines, ruleLines, ← String.append_assoc, ← String.append_assoc,
    append_ruleLine_inj lengthY, append_ruleLine_inj lengthX, Extent.mk.injEq]
  constructor
  · rintro ⟨⟨before, x, left, right⟩, y, top, bottom⟩
    exact ⟨before, x, y, left, right, top, bottom⟩
  · rintro ⟨before, x, y, left, right, top, bottom⟩
    exact ⟨⟨before, x, left, right⟩, y, top, bottom⟩

/-! ## A rule -/

/-- A rule up to the settings of the axes. -/
def ruleHead (width height : Int) (key : String) : String :=
  widthText width height ++ "Suggested udev rule:\n" ++
    "# <Laptop model description goes here>\n" ++ "evdev:" ++ key ++ "*\n"

theorem ruleHead_inj {width height : Int} {key key' : String} :
    ruleHead width height key = ruleHead width height key' ↔ key = key' := by
  unfold ruleHead
  rw [String.append_left_inj, String.append_right_inj]

theorem rule_eq_head (d : Extent) (c : Capabilities) (machine : String) :
    d.rule c machine =
      ruleHead d.width d.height (c.matchKey machine) ++ d.ruleLines "00" "01" ++
        if c.hasContacts then d.ruleLines "35" "36" else "" := by
  unfold rule ruleHead widthText
  simp only [String.append_assoc]

/-- The bounds and the axes in a rule are told from its end, and then the key from what is left. -/
theorem rule_inj {d d' : Extent} {c c' : Capabilities} {machine machine' : String} :
    d.rule c machine = d'.rule c' machine' ↔
      d = d' ∧ c.hasContacts = c'.hasContacts ∧ c.matchKey machine = c'.matchKey machine' := by
  have parted : d.rule c machine = d'.rule c' machine' ↔
      ruleHead d.width d.height (c.matchKey machine) =
          ruleHead d'.width d'.height (c'.matchKey machine') ∧
        d = d' ∧ c.hasContacts = c'.hasContacts := by
    rw [rule_eq_head, rule_eq_head]
    cases c.hasContacts <;> cases c'.hasContacts <;> simp [append_ruleLines_inj]
  rw [parted]
  constructor
  · rintro ⟨heads, rfl, contacts⟩
    exact ⟨rfl, contacts, ruleHead_inj.mp heads⟩
  · rintro ⟨rfl, contacts, keys⟩
    exact ⟨ruleHead_inj.mpr keys, rfl, contacts⟩

theorem rule_ne_retryHint (d : Extent) (c : Capabilities) (machine : String) :
    d.rule c machine ≠ retryHint := by
  intro same
  have letters := congrArg String.toList same
  unfold rule retryHint at letters
  simp at letters

/-! ## A report -/

/-- A report, written out. -/
theorem report_of_size (d : Extent) {c : Capabilities} {size : Option (Int × Int)}
    (known : c.size = .ok size) (machine : String) :
    d.report c machine =
      .ok (sizeText size ++ if d.hasX && d.hasY then d.rule c machine else retryHint) := by
  rw [report, sizeLine_of_size known]
  rfl

/-- Two reports on devices whose sizes can be told are the same text just when the sizes are the
same and either both lack positions on some axis, or neither does, the bounds are the same, both or
neither of the devices have axes of contacts, and the rules have the same key. The names of the
devices and the identities of the machines can be any texts. -/
theorem reports_agree_iff (d d' : Extent) (c c' : Capabilities) (machine machine' : String)
    {size size' : Option (Int × Int)} (known : c.size = .ok size) (known' : c'.size = .ok size') :
    ∃ text text', d.report c machine = .ok text ∧ d'.report c' machine' = .ok text' ∧
      (text = text' ↔ size = size' ∧
        (¬ (d.hasX = true ∧ d.hasY = true) ∧ ¬ (d'.hasX = true ∧ d'.hasY = true) ∨
          (d.hasX = true ∧ d.hasY = true) ∧ (d'.hasX = true ∧ d'.hasY = true) ∧
            d = d' ∧ c.hasContacts = c'.hasContacts ∧
            c.matchKey machine = c'.matchKey machine')) := by
  refine ⟨_, _, d.report_of_size known machine, d'.report_of_size known' machine', ?_⟩
  rw [sizeText_append_inj]
  refine and_congr_right fun same => ?_
  simp only [Bool.and_eq_true]
  by_cases both : d.hasX = true ∧ d.hasY = true <;>
    by_cases both' : d'.hasX = true ∧ d'.hasY = true
  · rw [if_pos both, if_pos both', rule_inj]
    simp [both, both']
  · rw [if_pos both, if_neg both']
    simp [both, both', rule_ne_retryHint]
  · rw [if_neg both, if_pos both']
    simp [both, both', (rule_ne_retryHint _ _ _).symm]
  · rw [if_neg both, if_neg both']
    simp [both, both']

/-- A touchpad whose name looks like the end of a report. -/
def impostor : Capabilities :=
  { name := "*\n EVDEV_ABS_00=1:2:<x resolution>\n EVDEV_ABS_01=3:4:<y resolution>\n"
    bus := .other 24, vendor := 2, product := 7, x := some ⟨0, 4410, 40⟩, y := some ⟨0, 3662, 55⟩
    contactX := none, contactY := none }

/-- Such a name does not hide a bound that is off by one. -/
theorem reports_agree_iff_impostor :
    impostor.size = .ok (some (110, 66)) ∧
      ∃ text text', report ⟨1, 2, 3, 4⟩ impostor "" = .ok text ∧
        report ⟨1, 2, 3, 5⟩ impostor "" = .ok text' ∧ text ≠ text' := by
  have known : impostor.size = .ok (some (110, 66)) := rfl
  obtain ⟨text, text', report, report', agree⟩ :=
    reports_agree_iff ⟨1, 2, 3, 4⟩ ⟨1, 2, 3, 5⟩ impostor impostor "" "" known known
  refine ⟨known, text, text', report, report', fun same => ?_⟩
  exact absurd (agree.mp same) (by decide)

end Extent

end InputGauge
