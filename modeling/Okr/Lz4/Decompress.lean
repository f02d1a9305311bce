import Okr.Lib.Loop
import Okr.Lib.Overlay
import Okr.Lz4.Format

/-!
`LZ4_decompress_generic`, as `LZ4_decompress_safe` uses it on a machine with 64 bits.

Every access is checked against the buffer it is meant for: nothing comes out where one leaves it.
-/

namespace Okr

open Loop (Pass)

/-- `STEPSIZE`: bytes of a machine word. -/
def STEPSIZE : Nat := 8

/-- The bytes of a read-only buffer at an address. -/
def loadSource (source : Bytes) (count ip : Nat) : Option Bytes :=
  if ip + count ≤ source.length then some (Overlay.window source ip count) else none

/-- The bytes of the output at an address. -/
def loadDest (oend count : Nat) (dest : Image) (ref : Nat) : Option Bytes :=
  if ref + count ≤ oend then some (bytesAt dest ref count) else none

/-- Bytes are stored in the output. -/
def storeDest (oend : Nat) (dest : Image) (op : Nat) (bytes : Bytes) : Option Image :=
  if op + bytes.length ≤ oend then some (putBytes dest op bytes) else none

/--
`LZ4_WILDCOPY`: words are copied until `e` is reached, also when nothing is left to copy.

The destination and what both pointers have come to come out.
-/
def wildCopy (load : Image → Nat → Option Bytes) (oend e : Nat) :
    Nat → Image → Nat → Nat → Option (Image × Nat × Nat)
  | 0, _, _, _ => none
  | fuel + 1, dest, d, s =>
    match (load dest s).bind (storeDest oend dest d) with
    | none => none
    | some dest =>
      if d + STEPSIZE < e then wildCopy load oend e fuel dest (d + STEPSIZE) (s + STEPSIZE)
      else some (dest, d + STEPSIZE, s + STEPSIZE)

/-- So many times `*op++ = *ref++`. -/
def byteCopy (oend : Nat) : Nat → Image → Nat → Nat → Option (Image × Nat × Nat)
  | 0, dest, op, ref => some (dest, op, ref)
  | count + 1, dest, op, ref =>
    match (loadDest oend 1 dest ref).bind (storeDest oend dest op) with
    | none => none
    | some dest => byteCopy oend count dest (op + 1) (ref + 1)

/-- The bytes in front of `limit` that go on counting a length, and the place behind them. -/
def moreLength (source : Bytes) : Nat → Nat → Nat → Option (Nat × Nat)
  | 0, ip, length => some (length, ip)
  | left + 1, ip, length =>
    match source[ip]? with
    | none => none
    | some s =>
      if s = 255 then moreLength source left (ip + 1) (length + s.toNat)
      else some (length + s.toNat, ip + 1)

/-- A length that starts in half of a token and may go on in the bytes in front of `limit`. -/
def readLength (source : Bytes) (limit half ip : Nat) : Option (Nat × Nat) :=
  if half = RUN_MASK then moreLength source (limit - ip) ip half else some (half, ip)

def dec32table : List Nat := [0, 3, 2, 3, 0, 0, 0, 0]
def dec64table : List Int := [0, 0, 0, -1, 0, 1, 2, 3]

/-- The first word of a match, after which the two pointers are at least a word apart. -/
def firstWord (oend : Nat) (dest : Image) (op ref : Nat) : Option (Image × Nat × Nat) :=
  if op - ref < STEPSIZE then
    let dec64 := dec64table.getD (op - ref) 0
    match byteCopy oend 4 dest op ref with
    | none => none
    | some (dest, op, ref) =>
      let ref := ref - dec32table.getD (op - ref) 0
      match (loadDest oend 4 dest ref).bind (storeDest oend dest op) with
      | none => none
      | some dest => some (dest, op + (STEPSIZE - 4), ((ref : Int) - dec64).toNat)
  else
    match (loadDest oend STEPSIZE dest ref).bind (storeDest oend dest op) with
    | none => none
    | some dest => some (dest, op + STEPSIZE, ref + STEPSIZE)

/-- Copy the match that is to end at `cpy`; nothing behind `some` when it ends too late. -/
def copyRepeated (oend cpy : Nat) (dest : Image) (op ref : Nat) : Option (Option Image) :=
  match firstWord oend dest op ref with
  | none => none
  | some (dest, op, ref) =>
    if cpy + COPYLENGTH + (STEPSIZE - 4) > oend then
      if cpy + LASTLITERALS > oend then some none
      else
        let secured :=
          if op + COPYLENGTH < oend then
            wildCopy (loadDest oend STEPSIZE) oend (oend - COPYLENGTH) oend dest op ref
          else some (dest, op, ref)
        match secured with
        | none => none
        | some (dest, op, ref) => (byteCopy oend (cpy - op) dest op ref).map fun r => some r.1
    else (wildCopy (loadDest oend STEPSIZE) oend cpy oend dest op ref).map fun r => some r.1

/-- The variables of the main loop. -/
structure DecodeState where
  ip : Nat := 0
  op : Nat := 0
  dest : Image

/-- What `_output_error` returns. -/
def outputError (ip : Nat) (dest : Image) : Option (Int × Image) := some (-(ip : Int) - 1, dest)

/-- A pass from the offset of a match on. -/
def decodeMatch (source : Bytes) (oend token : Nat) (s : DecodeState) :
    Pass DecodeState (Option (Int × Image)) :=
  match loadSource source 2 s.ip with
  | none => .done none
  | some two =>
    let offset := (two.getD 0 0).toNat + 2 ^ 8 * (two.getD 1 0).toNat
    let ip := s.ip + 2
    if offset > s.op then .done (outputError ip s.dest)
    else
      match readLength source (source.length - (LASTLITERALS + 1)) (token % 16) ip with
      | none => .done none
      | some (length, ip) =>
        let cpy := s.op + STEPSIZE + length - (STEPSIZE - 4)
        match copyRepeated oend cpy s.dest s.op (s.op - offset) with
        | none => .done none
        | some none => .done (outputError ip s.dest)
        | some (some dest) => .next { ip := ip, op := cpy, dest := dest }

/-- A pass of the main loop. -/
def decodePass (source : Bytes) (oend : Nat) (s : DecodeState) :
    Pass DecodeState (Option (Int × Image)) :=
  match source[s.ip]? with
  | none => .done none
  | some token =>
    match readLength source source.length (token.toNat / 16) (s.ip + 1) with
    | none => .done none
    | some (length, ip) =>
      let cpy := s.op + length
      if cpy + MFLIMIT > oend ∨ ip + length + (2 + 1 + LASTLITERALS) > source.length then
        if ip + length ≠ source.length ∨ cpy > oend then .done (outputError ip s.dest)
        else
          match (loadSource source length ip).bind (storeDest oend s.dest s.op) with
          | none => .done none
          | some dest => .done (some (cpy, dest))
      else
        match wildCopy (fun _ => loadSource source STEPSIZE) oend cpy oend s.dest s.op ip with
        | none => .done none
        | some (dest, _, _) =>
          decodeMatch source oend token.toNat { ip := ip + length, op := cpy, dest := dest }

/-- `LZ4_decompress_generic` with `endOnInputSize`, `noPrefix` and `full`. -/
def lz4DecompressGeneric (source : Bytes) (dest : Image) (outputSize : Nat) : Option (Int × Image) :=
  if outputSize = 0 then
    if source.length = 1 ∧ source[0]? = some 0 then some (0, dest) else some (-1, dest)
  else (Loop.run (decodePass source outputSize) (source.length + 1) { dest := dest }).join

/-- `LZ4_decompress_safe`: the bytes it leaves in the output, if it reports success. -/
def lz4DecompressSafe (dest : Image) (maxOutputSize : Nat) (source : Bytes) : Option Bytes :=
  match lz4DecompressGeneric source dest maxOutputSize with
  | some (n, dest) => if 0 ≤ n then some (bytesAt dest 0 n.toNat) else none
  | none => none

end Okr
