import Okr.Base.Memory
import Okr.Lib.Lz77

/-! The format of a compressed block: sequences, each behind a token, and literals at the end. -/

namespace Okr

open Lz77 (Sequence)

/-- A match has at least so many bytes. -/
def MINMATCH : Nat := 4

/-- Bytes that are copied at a time. -/
def COPYLENGTH : Nat := 8

/-- So many bytes at the end of a block are literals. -/
def LASTLITERALS : Nat := 5

/-- No match starts as close to the end of a block. -/
def MFLIMIT : Nat := COPYLENGTH + MINMATCH

/-- Each half of a token counts up to here, and further lengths go on behind the token. -/
def RUN_MASK : Nat := 15
def ML_MASK : Nat := 15

/-- The half of a token for a length. -/
def nibble (length : Nat) : Nat := min length RUN_MASK

/-- The bytes that go on counting a length. -/
def lengthBytes (length : Nat) : Bytes :=
  if length < RUN_MASK then []
  else List.replicate ((length - RUN_MASK) / 255) 255 ++ [UInt8.ofNat ((length - RUN_MASK) % 255)]

/-- The bytes of a sequence: a token, the literals, and how far back the match is and how long. -/
def sequenceBytes (s : Sequence Byte) : Bytes :=
  UInt8.ofNat (nibble s.literals.length * 16 + nibble (s.length - MINMATCH)) ::
    (lengthBytes s.literals.length ++ s.literals
      ++ [UInt8.ofNat (s.offset % 256), UInt8.ofNat (s.offset / 256)]
      ++ lengthBytes (s.length - MINMATCH))

/-- The bytes of the literals at the end. -/
def closingBytes (literals : Bytes) : Bytes :=
  UInt8.ofNat (nibble literals.length * 16) :: (lengthBytes literals.length ++ literals)

/-- The bytes of sequences, one after the other. -/
def sequencesBytes (sequences : List (Sequence Byte)) : Bytes := sequences.flatMap sequenceBytes

/--
Sequences that a block of `total` bytes may have behind `pos` of them.

A match has something to copy, is not too far back, and keeps its distance from the end.
-/
def MatchesFit (total : Nat) : Nat → List (Sequence Byte) → Prop
  | _, [] => True
  | pos, s :: rest =>
    0 < s.offset ∧ s.offset ≤ pos + s.literals.length ∧ s.offset < 2 ^ 16 ∧ MINMATCH ≤ s.length
      ∧ pos + s.literals.length + MFLIMIT ≤ total ∧ pos + s.size + LASTLITERALS ≤ total
      ∧ MatchesFit total (pos + s.size) rest

/-- A block whose matches all fit it. -/
structure Lz4Block where
  sequences : List (Sequence Byte)
  last : Bytes
  fit : MatchesFit (Lz77.size sequences + last.length) 0 sequences

/-- The number of bytes a block stands for. -/
def Lz4Block.size (b : Lz4Block) : Nat := Lz77.size b.sequences + b.last.length

/-- The bytes a block stands for. -/
def Lz4Block.content (b : Lz4Block) : Bytes := Lz77.expand b.sequences [] ++ b.last

/-- The bytes of a block. -/
def Lz4Block.bytes (b : Lz4Block) : Bytes := sequencesBytes b.sequences ++ closingBytes b.last

end Okr
