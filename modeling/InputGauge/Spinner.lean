/-!
# The progress glyph

The character at the end of a status line. It turns by one at every redraw, so that a line that
says the same as before is seen to be new.
-/

namespace InputGauge

/-- A position in the cycle of four glyphs. -/
structure Spinner where
  phase : Fin 4
  deriving DecidableEq, Repr

namespace Spinner

/-- The position before the first redraw. -/
def start : Spinner := ⟨0⟩

/-- The glyphs in the order in which they are drawn. -/
def glyphs : Vector Char 4 := #v['|', '/', '-', '\\']

/-- The glyph to draw next. -/
def glyph (s : Spinner) : Char := glyphs[s.phase]

/-- The position after one more redraw. -/
def next (s : Spinner) : Spinner := ⟨s.phase + 1⟩

/-- The first `n` glyphs drawn from a position. -/
def draw : Nat → Spinner → List Char
  | 0, _ => []
  | n + 1, s => s.glyph :: draw n s.next

end Spinner

end InputGauge
