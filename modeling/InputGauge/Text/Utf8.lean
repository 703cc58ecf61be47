import InputGauge.Text.Bytes

/-!
# Reading bytes as UTF-8

A decoder that takes one byte at a time. What it reads is a list of pieces, each a character or
an ill-formed run, so that the strict and the lossy reading are two views of one list:

* `decode?` is the text, if no run is ill-formed;
* `lossy` writes one replacement character for each ill-formed run.

An ill-formed run is as long as it can be while some character still begins with it, and at least
one byte: a byte that cannot go on ends the run before it and is read afresh.
-/

namespace InputGauge.Utf8

/-- Where the decoder stands between two bytes. -/
inductive Phase where
  /-- Between characters. -/
  | boundary
  /-- Inside a character with the payload `bits` so far: the next byte must lie in
  `low .. high`, and `more` continuation bytes follow it. -/
  | inside (more : Nat) (low high : UInt8) (bits : Nat)
  deriving DecidableEq, Repr

/-- What the decoder has read: a character, or a run of bytes that is part of none. -/
inductive Piece where
  | char (c : Char)
  | illFormed
  deriving DecidableEq, Repr

/-- Reads a byte that stands where a character begins. The ranges exclude overlong forms, the
surrogates and everything above U+10FFFF. -/
def first (b : UInt8) : List Piece × Phase :=
  if b < 0x80 then ([.char (Char.ofNat b.toNat)], .boundary)
  else if b < 0xc2 then ([.illFormed], .boundary)
  else if b < 0xe0 then ([], .inside 0 0x80 0xbf (b.toNat - 0xc0))
  else if b = 0xe0 then ([], .inside 1 0xa0 0xbf 0)
  else if b = 0xed then ([], .inside 1 0x80 0x9f (b.toNat - 0xe0))
  else if b < 0xf0 then ([], .inside 1 0x80 0xbf (b.toNat - 0xe0))
  else if b = 0xf0 then ([], .inside 2 0x90 0xbf 0)
  else if b < 0xf4 then ([], .inside 2 0x80 0xbf (b.toNat - 0xf0))
  else if b = 0xf4 then ([], .inside 2 0x80 0x8f (b.toNat - 0xf0))
  else ([.illFormed], .boundary)

/-- Reads one byte. -/
def step : Phase → UInt8 → List Piece × Phase
  | .boundary, b => first b
  | .inside more low high bits, b =>
    if low ≤ b ∧ b ≤ high then
      match more with
      | 0 => ([.char (Char.ofNat (bits * 64 + b.toNat % 64))], .boundary)
      | more + 1 => ([], .inside more 0x80 0xbf (bits * 64 + b.toNat % 64))
    else (.illFormed :: (first b).1, (first b).2)

/-- The pieces of the bytes that follow a phase. A character cut off at the end is ill-formed. -/
def piecesFrom : Phase → Bytes → List Piece
  | .boundary, [] => []
  | .inside .., [] => [.illFormed]
  | phase, b :: rest => (step phase b).1 ++ piecesFrom (step phase b).2 rest

/-- The pieces of a byte string. -/
def pieces (bytes : Bytes) : List Piece := piecesFrom .boundary bytes

/-- The character of a piece, if it is one. -/
def Piece.char? : Piece → Option Char
  | .char c => some c
  | .illFormed => none

/-- The character that stands for a piece in a lossy reading. -/
def Piece.shown : Piece → Char
  | .char c => c
  | .illFormed => '\ufffd'

/-- The text of a byte string, if all of it is well-formed. -/
def decode? (bytes : Bytes) : Option String :=
  ((pieces bytes).mapM Piece.char?).map String.ofList

/-- The text of a byte string, with a replacement character for each ill-formed run. -/
def lossy (bytes : Bytes) : String := String.ofList ((pieces bytes).map Piece.shown)

end InputGauge.Utf8
