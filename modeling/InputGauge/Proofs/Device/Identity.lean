import InputGauge.Extent.Report
import InputGauge.Motion.Report
import InputGauge.Proofs.Text.Parting

/-!
# What tells devices apart

A rule and a database entry are found by a text, and a text that two different devices share would
apply to both. The key of a rule is shared by just the devices with the same identity: on a bus with
ids the bus, the vendor and the product, elsewhere the name (`matchKey_eq_iff`). An entry says
which bus, vendor, product and name it is for and at which frequency it was measured
(`databaseEntry_eq_iff`).

The name of a device is free text. In the key it stands before a text that both keys have, and in
the entry between a part that is told from the front and a number that is told from the end, so it
may well contain what else stands there.
-/

namespace InputGauge

open Text Numeral

namespace Bus

theorem hasIds_iff {b : Bus} : b.hasIds = true ↔ b = usb ∨ b = bluetooth := by
  cases b <;> simp [hasIds]

theorem number_inj_of_hasIds {b b' : Bus} (h : b.hasIds = true) (h' : b'.hasIds = true) :
    b.number = b'.number ↔ b = b' := by
  rcases hasIds_iff.mp h with rfl | rfl <;> rcases hasIds_iff.mp h' with rfl | rfl <;> decide

theorem colon_not_mem_name (b : Bus) : ':' ∉ b.name.toList := by
  cases b <;> simp [name]

end Bus

namespace Capabilities

variable {c c' : Capabilities}

theorem matchKey_of_hasIds (h : c.bus.hasIds = true) (machine : String) :
    (c.matchKey machine).toList =
      "input:b".toList ++ ((hexCapital c.bus.number).toList ++ 'v' ::
        ((hexCapital c.vendor).toList ++ 'p' :: (hexCapital c.product).toList)) := by
  rw [matchKey, if_pos h]
  simp

theorem matchKey_of_not_hasIds (h : ¬ c.bus.hasIds = true) (machine : String) :
    (c.matchKey machine).toList = "name:".toList ++ (c.name.toList ++ (":" ++ machine).toList) := by
  rw [matchKey, if_neg h]
  simp

/-- The devices that share a key are those with the same ids, and elsewhere those with the same
name. -/
theorem matchKey_eq_iff (machine : String) :
    c.matchKey machine = c'.matchKey machine ↔
      c.bus.hasIds = true ∧ c'.bus.hasIds = true ∧
          c.bus = c'.bus ∧ c.vendor = c'.vendor ∧ c.product = c'.product ∨
        ¬ c.bus.hasIds = true ∧ ¬ c'.bus.hasIds = true ∧ c.name = c'.name := by
  rw [← String.toList_inj]
  by_cases h : c.bus.hasIds = true <;> by_cases h' : c'.bus.hasIds = true
  · rw [matchKey_of_hasIds h, matchKey_of_hasIds h', List.append_cancel_left_eq,
      List.append_eq_append_iff_of_size_eq_left (by simp only [length_hexCapital]),
      List.cons.injEq,
      List.append_eq_append_iff_of_size_eq_left (by simp only [length_hexCapital]),
      List.cons.injEq]
    simp [String.toList_inj, hexCapital_inj, Bus.number_inj_of_hasIds h h', h, h']
  · rw [matchKey_of_hasIds h, matchKey_of_not_hasIds h']
    simp [h, h']
  · rw [matchKey_of_not_hasIds h, matchKey_of_hasIds h']
    simp [h, h']
  · rw [matchKey_of_not_hasIds h, matchKey_of_not_hasIds h', List.append_cancel_left_eq,
      List.append_cancel_right_eq]
    simp [String.toList_inj, h, h']

end Capabilities

namespace Motion

theorem at_not_mem_hertz (m : Motion) : '@' ∉ m.hertz.toList ++ ['\n'] := by
  rw [List.mem_append, not_or]
  exact ⟨not_mem_repr (by decide) (by decide) _, by decide⟩

theorem toList_databaseEntry (m : Motion) (c : Capabilities) :
    (m.databaseEntry c).toList =
      "Entry for hwdb match (replace XXX with the resolution in DPI):\nmouse:".toList ++
        (c.bus.name.toList ++ ':' :: ('v' :: ((hex c.vendor).toList ++ 'p' ::
          ((hex c.product).toList ++ (":name:".toList ++ c.name.toList ++
            ":\n MOUSE_DPI=XXX".toList ++ '@' :: (m.hertz.toList ++ ['\n'])))))) := by
  unfold databaseEntry
  simp

/-- The measurements of devices that share an entry are those with the same bus name, ids, name and
frequency. -/
theorem databaseEntry_eq_iff {m m' : Motion} {c c' : Capabilities} :
    m.databaseEntry c = m'.databaseEntry c' ↔
      c.bus.name = c'.bus.name ∧ c.vendor = c'.vendor ∧ c.product = c'.product ∧
        c.name = c'.name ∧ Binary64.round m.peak = Binary64.round m'.peak := by
  rw [← String.toList_inj, toList_databaseEntry, toList_databaseEntry, List.append_cancel_left_eq,
    append_cons_inj c.bus.colon_not_mem_name c'.bus.colon_not_mem_name, List.cons.injEq,
    List.append_eq_append_iff_of_size_eq_left (by simp only [length_hex]), List.cons.injEq,
    List.append_eq_append_iff_of_size_eq_left (by simp only [length_hex]),
    append_cons_inj_right m.at_not_mem_hertz m'.at_not_mem_hertz]
  have hertz : m.hertz = m'.hertz ↔ Binary64.round m.peak = Binary64.round m'.peak :=
    ⟨eq_of_repr_eq, congrArg toString⟩
  simp [String.toList_inj, hex_inj, hertz]

end Motion

namespace Capabilities

/-- On a bus with ids a key tells devices by bus, vendor and product, and elsewhere by name; an
entry tells the measurements of devices by the name of the bus, vendor, product, name and whole
frequency. Nothing else tells them, and no name can hide a difference. -/
theorem told_apart_iff (c c' : Capabilities) :
    (∀ machine : String, c.matchKey machine = c'.matchKey machine ↔
      (c.bus = .usb ∨ c.bus = .bluetooth) ∧ (c'.bus = .usb ∨ c'.bus = .bluetooth) ∧
          c.bus = c'.bus ∧ c.vendor = c'.vendor ∧ c.product = c'.product ∨
        ¬ (c.bus = .usb ∨ c.bus = .bluetooth) ∧ ¬ (c'.bus = .usb ∨ c'.bus = .bluetooth) ∧
          c.name = c'.name) ∧
      ∀ m m' : Motion, m.databaseEntry c = m'.databaseEntry c' ↔
        c.bus.name = c'.bus.name ∧ c.vendor = c'.vendor ∧ c.product = c'.product ∧
          c.name = c'.name ∧ Binary64.round m.peak = Binary64.round m'.peak := by
  refine ⟨fun machine => ?_, fun m m' => Motion.databaseEntry_eq_iff⟩
  rw [matchKey_eq_iff, Bus.hasIds_iff, Bus.hasIds_iff]

end Capabilities

end InputGauge
