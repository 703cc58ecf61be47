import InputGauge.Proofs.Text.Numeral

/-!
# Texts that come apart

A text put together from parts says what the parts are if it is known where each of them ends.
A part without a certain character ends at the first one (`append_cons_inj`), or, read from the
end, begins after the last one (`append_cons_inj_right`). Decimal numbers have digits and a sign
and nothing else, so that any other character can stand at their ends
(`Numeral.not_mem_repr`), and hexadecimal numbers of 16 bits have four digits, small or capital
(`Numeral.hex_inj`, `Numeral.hexCapital_inj`).
-/

namespace InputGauge

namespace Text

variable {α : Type} {sep : α} {a b x y : List α}

theorem append_cons_inj (ha : sep ∉ a) (hb : sep ∉ b) :
    a ++ sep :: x = b ++ sep :: y ↔ a = b ∧ x = y := by
  classical
  constructor
  · intro same
    have parts := congrArg (List.splitOn sep) same
    rw [List.splitOn_append_cons_self_of_not_mem ha,
      List.splitOn_append_cons_self_of_not_mem hb] at parts
    obtain rfl := (List.cons.inj parts).1
    exact ⟨rfl, (List.cons.inj (List.append_cancel_left same)).2⟩
  · rintro ⟨rfl, rfl⟩
    rfl

theorem append_cons_inj_right (hx : sep ∉ x) (hy : sep ∉ y) :
    a ++ sep :: x = b ++ sep :: y ↔ a = b ∧ x = y := by
  have mirrored := append_cons_inj (x := a.reverse) (y := b.reverse)
    (mt List.mem_reverse.mp hx) (mt List.mem_reverse.mp hy)
  rw [← List.reverse_inj]
  simpa [and_comm] using mirrored

end Text

namespace Numeral

/-- A decimal number has no other characters than digits and a sign. -/
theorem not_mem_repr {c : Char} (noSign : c ≠ '-') (noDigit : c.isDigit = false) (n : Int) :
    c ∉ n.repr.toList := by
  intro mem
  rcases eq_dash_or_isDigit_of_mem_repr mem with sign | digit
  · exact noSign sign
  · rw [noDigit] at digit
    cases digit

/-! ## Hexadecimal numbers -/

/-- The digits of 16 bits say what the number is, in any script that tells 16 digits apart. -/
theorem eq_of_map_hexDigits {script : Char → Char} {m n : UInt16}
    (apart : ∀ i < 16, ∀ j < 16, script (Nat.digitChar i) = script (Nat.digitChar j) → i = j)
    (same : (hexDigits m).map script = (hexDigits n).map script) : m = n := by
  simp only [hexDigits, List.map_cons, List.cons.injEq] at same
  obtain ⟨first, second, third, fourth, -⟩ := same
  have digit (k : Nat) : k % 16 < 16 := Nat.mod_lt k (by decide)
  have first := apart _ (digit _) _ (digit _) first
  have second := apart _ (digit _) _ (digit _) second
  have third := apart _ (digit _) _ (digit _) third
  have fourth := apart _ (digit _) _ (digit _) fourth
  have boundm := m.toNat_lt
  have boundn := n.toNat_lt
  exact UInt16.toNat_inj.mp (by omega)

theorem hex_inj {m n : UInt16} : hex m = hex n ↔ m = n := by
  refine ⟨fun same => ?_, congrArg hex⟩
  have digits := String.ofList_injective same
  rw [← List.map_id (hexDigits m), ← List.map_id (hexDigits n)] at digits
  exact eq_of_map_hexDigits (by decide) digits

theorem hexCapital_inj {m n : UInt16} : hexCapital m = hexCapital n ↔ m = n :=
  ⟨fun same => eq_of_map_hexDigits (by decide) (String.ofList_injective same),
    congrArg hexCapital⟩

theorem length_hex (n : UInt16) : (hex n).toList.length = 4 := by
  rw [hex, String.toList_ofList]
  rfl

theorem length_hexCapital (n : UInt16) : (hexCapital n).toList.length = 4 := by
  rw [hexCapital, String.toList_ofList]
  rfl

end Numeral

end InputGauge
