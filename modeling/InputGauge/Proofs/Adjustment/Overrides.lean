import InputGauge.Adjustment

/-!
# Settings field by field

The settings of an axis, and new settings for it, read by the field they are about. A new setting
decides its own field and leaves the others alone, the current value always among them. New
settings given twice amount to one set of them, in which the later ones have the first word.
-/

namespace InputGauge

/-- The numbers that make up the settings of an axis. -/
inductive AxisField where
  | value
  | minimum
  | maximum
  | fuzz
  | flat
  | resolution
  deriving DecidableEq, Repr

namespace AxisSettings

def get (s : AxisSettings) : AxisField → Int32
  | .value => s.value
  | .minimum => s.minimum
  | .maximum => s.maximum
  | .fuzz => s.fuzz
  | .flat => s.flat
  | .resolution => s.resolution

theorem eq_of_get {s t : AxisSettings} (h : ∀ f, s.get f = t.get f) : s = t := by
  cases s
  cases t
  simp only [mk.injEq]
  exact ⟨h .value, h .minimum, h .maximum, h .fuzz, h .flat, h .resolution⟩

end AxisSettings

namespace AxisOverrides

/-- The new setting for a field. There is never one for the current value. -/
def given? (o : AxisOverrides) : AxisField → Option Int32
  | .value => none
  | .minimum => o.minimum
  | .maximum => o.maximum
  | .fuzz => o.fuzz
  | .flat => o.flat
  | .resolution => o.resolution

theorem eq_of_given? {o o' : AxisOverrides} (h : ∀ f, o.given? f = o'.given? f) : o = o' := by
  cases o
  cases o'
  simp only [mk.injEq]
  exact ⟨h .minimum, h .maximum, h .resolution, h .fuzz, h .flat⟩

theorem get_apply (o : AxisOverrides) (current : AxisSettings) (f : AxisField) :
    (o.apply current).get f = (o.given? f).getD (current.get f) := by
  cases f <;> rfl

/-- Each field from the later settings where they give it, else from the earlier ones. -/
def onto (later earlier : AxisOverrides) : AxisOverrides where
  minimum := later.minimum.or earlier.minimum
  maximum := later.maximum.or earlier.maximum
  resolution := later.resolution.or earlier.resolution
  fuzz := later.fuzz.or earlier.fuzz
  flat := later.flat.or earlier.flat

theorem given?_onto (later earlier : AxisOverrides) (f : AxisField) :
    (later.onto earlier).given? f = (later.given? f).or (earlier.given? f) := by
  cases f <;> rfl

theorem apply_onto (later earlier : AxisOverrides) (current : AxisSettings) :
    (later.onto earlier).apply current = later.apply (earlier.apply current) := by
  apply AxisSettings.eq_of_get
  intro f
  simp only [get_apply, given?_onto]
  cases later.given? f <;> rfl

theorem onto_self (o : AxisOverrides) : o.onto o = o := by
  simp [onto]

end AxisOverrides

namespace AxisTable

/-- One field of the settings of an axis; none if the device does not have the axis. -/
def field? (t : AxisTable) (a : Axis) (f : AxisField) : Option Int32 :=
  (t.get? a).map fun settings => settings.get f

/-- A table is what its fields hold. -/
theorem eq_of_field? {t t' : AxisTable} (h : ∀ a f, t.field? a f = t'.field? a f) : t = t' := by
  have axes (a : Axis) : t.get? a = t'.get? a := by
    have fields := h a
    simp only [field?] at fields
    cases here : t.get? a with
    | none =>
      have value := fields .value
      rw [here, Option.map_none, eq_comm, Option.map_eq_none_iff] at value
      exact value.symm
    | some settings =>
      cases there : t'.get? a with
      | none =>
        have value := fields .value
        rw [here, there] at value
        cases value
      | some settings' =>
        simp only [here, there, Option.map_some, Option.some.injEq] at fields
        rw [AxisSettings.eq_of_get fields]
  obtain ⟨places⟩ := t
  obtain ⟨places'⟩ := t'
  congr 1
  apply Vector.ext
  intro number within
  have place := axes ⟨UInt16.ofNat number⟩
  have small : number < UInt16.size := Nat.lt_trans within (by decide)
  have same : (UInt16.ofNat number).toNat = number := UInt16.toNat_ofNat_of_lt' small
  simpa only [get?, same, Vector.getElem?_eq_getElem within, Option.join_some] using place

theorem contains_of_some {t : AxisTable} {a : Axis} {settings : AxisSettings}
    (h : t.get? a = some settings) : t.contains a := by
  simp [contains, h]

theorem contains_of_none {t : AxisTable} {a : Axis} (h : t.get? a = none) :
    t.contains a = false := by
  simp [contains, h]

theorem field?_replace {t : AxisTable} {a : Axis} (present : t.contains a)
    (settings : AxisSettings) (b : Axis) (f : AxisField) :
    (t.replace a settings).field? b f = if a = b then some (settings.get f) else t.field? b f := by
  simp only [field?, get?_replace, present, and_true]
  split <;> rfl

theorem contains_replace (t : AxisTable) (a b : Axis) (settings : AxisSettings) :
    (t.replace a settings).contains b = t.contains b := by
  unfold contains
  rw [get?_replace]
  by_cases same : a = b ∧ t.contains a
  · obtain ⟨rfl, present⟩ := same
    have present' : (t.get? a).isSome := present
    simp [present, present']
  · rw [if_neg same]

theorem replace_replace (t : AxisTable) (a : Axis) (first second : AxisSettings) :
    (t.replace a first).replace a second = t.replace a second := by
  by_cases present : t.contains a
  · have still : (t.replace a first).contains a := by rw [contains_replace, present]
    unfold replace at still ⊢
    simp only [present, if_true] at still ⊢
    rw [if_pos still]
    simp
  · simp [replace, present]

end AxisTable

end InputGauge
