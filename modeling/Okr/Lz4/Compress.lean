import Mathlib.Logic.Function.Basic
import Okr.Lz4.Decompress

/-!
`LZ4_compress_generic`, as `LZ4_compress` uses it on a machine with 64 bits.

The memory behind `dest` has `destSize` bytes, and nothing comes out where an access leaves it or the input.
-/

namespace Okr

open Loop (Pass)

def LZ4_HASHLOG : Nat := 12
def LZ4_minLength : Nat := MFLIMIT + 1
def LZ4_64KLIMIT : Nat := 2 ^ 16 + (MFLIMIT - 1)
def LZ4_MAX_INPUT_SIZE : Nat := 0x7E000000
def SKIPSTRENGTH : Nat := 6
def MAX_DISTANCE : Nat := 2 ^ 16 - 1

/-- The width of the positions in the hash table, which also sets the number of its cells. -/
inductive TableType where
  | byU32
  | byU16
  deriving DecidableEq, Repr

/-- The number whose bytes, from the lowest one on, stand in a list. -/
def leNat (bytes : Bytes) : Nat := bytes.foldr (fun b n => b.toNat + 256 * n) 0

/-- `A16`, `A32` and `A64`: the number of so many bytes at a place of the input. -/
def load (count : Nat) (source : Bytes) (p : Nat) : Option Nat :=
  (loadSource source count p).map leNat

/-- Whether the numbers at two places of the input are the same. -/
def sameAt (count : Nat) (source : Bytes) (ref ip : Nat) : Option Bool :=
  match load count source ref, load count source ip with
  | some a, some b => some (a == b)
  | _, _ => none

/-- `_BitScanForward64`: the index of the lowest bit that is set. -/
def bitScanForward64 (val : Nat) : Nat := ((List.range 64).find? fun i => val.testBit i).getD 0

/-- `LZ4_NbCommonBytes`. -/
def nbCommonBytes (val : Nat) : Nat := bitScanForward64 val / 8

/-- `LZ4_hashSequence`. -/
def hashSequence (t : TableType) (sequence : Nat) : Nat :=
  match t with
  | .byU16 => u32 (sequence * 2654435761) / 2 ^ (MINMATCH * 8 - (LZ4_HASHLOG + 1))
  | .byU32 => u32 (sequence * 2654435761) / 2 ^ (MINMATCH * 8 - LZ4_HASHLOG)

/-- `LZ4_hashPosition`. -/
def hashPosition (t : TableType) (source : Bytes) (p : Nat) : Option Nat :=
  (load 4 source p).map (hashSequence t)

/-- `LZ4_putPositionOnHash`: a cell keeps as many bits of a position as it has. -/
def putPositionOnHash (t : TableType) (p h : Nat) (table : Nat → Nat) : Nat → Nat :=
  match t with
  | .byU16 => Function.update table h (p % 2 ^ 16)
  | .byU32 => Function.update table h (u32 p)

/-- The variables of the loop that looks for a match. -/
structure FindState where
  findMatchAttempts : Nat
  forwardIp : Nat
  forwardH : Nat
  table : Nat → Nat

/-- A place and an earlier one with the same four bytes. -/
structure Found where
  ip : Nat
  ref : Nat
  table : Nat → Nat

/-- A pass of the loop that looks for a match; nothing behind `some` where the input is at its end. -/
def findPass (t : TableType) (source : Bytes) (s : FindState) : Pass FindState (Option (Option Found)) :=
  let h := s.forwardH
  let step := s.findMatchAttempts / 2 ^ SKIPSTRENGTH
  let ip := s.forwardIp
  let forwardIp := ip + step
  if forwardIp + MFLIMIT > source.length then .done (some none)
  else
    match hashPosition t source forwardIp with
    | none => .done none
    | some forwardH =>
      let ref := s.table h
      let table := putPositionOnHash t ip h s.table
      let again : FindState :=
        { findMatchAttempts := s.findMatchAttempts + 1
          forwardIp := forwardIp
          forwardH := forwardH
          table := table }
      if ref + MAX_DISTANCE < ip then .next again
      else
        match sameAt 4 source ref ip with
        | none => .done none
        | some false => .next again
        | some true => .done (some (some { ip := ip, ref := ref, table := table }))

/--
Catch up: the match also takes the bytes in front of it that are the same.

All of them are in front of places that were read, and so inside the input.
-/
def catchUp (source : Bytes) (anchor : Nat) : Nat → Nat → Nat × Nat
  | ip, 0 => (ip, 0)
  | ip, ref + 1 =>
    if ip > anchor ∧ source[ip - 1]? = source[ref]? then catchUp source anchor (ip - 1) ref
    else (ip, ref + 1)

/-- `for (; len >= 255; len -= 255) *op++ = 255; *op++ = len`. -/
def literalRun : Nat → Nat → Bytes
  | 0, len => [UInt8.ofNat len]
  | fuel + 1, len =>
    if 255 ≤ len then 255 :: literalRun fuel (len - 255) else [UInt8.ofNat len]

/-- The bytes of the length of a match, of which two are written at a time. -/
def matchRun : Nat → Nat → Bytes
  | 0, length => [UInt8.ofNat length]
  | fuel + 1, length =>
    if length > 509 then 255 :: 255 :: matchRun fuel (length - 510)
    else if length ≥ 255 then [255, UInt8.ofNat (length - 255)]
    else [UInt8.ofNat length]

/-- A token with the length of the literals, and what goes on counting them. -/
def literalHead (length : Nat) : Bytes :=
  if length ≥ RUN_MASK then 0xF0 :: literalRun length (length - RUN_MASK)
  else [UInt8.ofNat (length * 16)]

/-- Encode the literals from `anchor` up to `ip`. -/
def encodeLiterals (source : Bytes) (destSize anchor ip op : Nat) (dest : Image) :
    Option (Nat × Image) :=
  let length := ip - anchor
  let head := literalHead length
  match storeDest destSize dest op head with
  | none => none
  | some dest =>
    let end_ := op + head.length + length
    (wildCopy (fun _ => loadSource source STEPSIZE) destSize end_ destSize dest (op + head.length) anchor).map
      fun r => (end_, r.1)

/-- One comparison at the end of a match: both places move on when so many bytes are the same. -/
def countPart (source : Bytes) (matchlimit count : Nat) (at_ : Nat × Nat) : Option (Nat × Nat) :=
  if at_.1 + (count - 1) < matchlimit then
    (sameAt count source at_.2 at_.1).map fun same =>
      if same then (at_.1 + count, at_.2 + count) else at_
  else some at_

/-- The bytes at the end that are the same: four, then two, then one. -/
def countRest (source : Bytes) (matchlimit ip ref : Nat) : Option Nat :=
  (((countPart source matchlimit 4 (ip, ref)).bind (countPart source matchlimit 2)).bind
    (countPart source matchlimit 1)).map Prod.fst

/-- Count the bytes that are the same, a word at a time; where they end comes out. -/
def countMatch (source : Bytes) (matchlimit : Nat) : Nat → Nat → Nat → Option Nat
  | 0, _, _ => none
  | fuel + 1, ip, ref =>
    if ip + (STEPSIZE - 1) < matchlimit then
      match load STEPSIZE source ref, load STEPSIZE source ip with
      | some a, some b =>
        let diff := a ^^^ b
        if diff = 0 then countMatch source matchlimit fuel (ip + STEPSIZE) (ref + STEPSIZE)
        else some (ip + nbCommonBytes diff)
      | _, _ => none
    else countRest source matchlimit ip ref

/-- Encode the length of a match: the token counts on, and the bytes behind it. -/
def encodeMatchLength (destSize length token op : Nat) (dest : Image) : Option (Nat × Image) :=
  let run := if length ≥ ML_MASK then matchRun length (length - ML_MASK) else []
  let half := if length ≥ ML_MASK then ML_MASK else length
  match storeDest destSize dest token [dest token + UInt8.ofNat half] with
  | none => none
  | some dest => (storeDest destSize dest op run).map fun dest => (op + run.length, dest)

/-- Where the main loop stands: at its start, or at the label `_next_match` with a match. -/
inductive CompressPc where
  | search
  | nextMatch (token ref : Nat)
  deriving DecidableEq, Repr

/-- The variables of the main loop. -/
structure CompressState where
  pc : CompressPc := .search
  ip : Nat
  anchor : Nat
  op : Nat
  forwardH : Nat
  table : Nat → Nat
  dest : Image

/-- Encode the last literals; the size of the output comes out. -/
def lastLiterals (source : Bytes) (destSize anchor op : Nat) (dest : Image) : Option (Nat × Image) :=
  let lastRun := source.length - anchor
  let head := literalHead lastRun
  match storeDest destSize dest op head with
  | none => none
  | some dest =>
    ((loadSource source lastRun anchor).bind (storeDest destSize dest (op + head.length))).map
      fun dest => (op + head.length + lastRun, dest)

/-- From the start of the main loop: find a match, catch up and encode the literals. -/
def searchPass (t : TableType) (source : Bytes) (destSize : Nat) (s : CompressState) :
    Pass CompressState (Option (Nat × Image)) :=
  match Loop.run (findPass t source) (source.length + 1)
      { findMatchAttempts := 2 ^ SKIPSTRENGTH + 3
        forwardIp := s.ip
        forwardH := s.forwardH
        table := s.table } with
  | some (some (some found)) =>
    let caught := catchUp source s.anchor found.ip found.ref
    match encodeLiterals source destSize s.anchor caught.1 s.op s.dest with
    | none => .done none
    | some (op, dest) =>
      .next { s with
        pc := .nextMatch s.op caught.2
        ip := caught.1
        op := op
        table := found.table
        dest := dest }
  | some (some none) => .done (lastLiterals source destSize s.anchor s.op s.dest)
  | _ => .done none

/-- Behind a match: its end is entered in the table, and a match that starts there is taken at once. -/
def behindMatch (t : TableType) (source : Bytes) (destSize : Nat) (s : CompressState) :
    Pass CompressState (Option (Nat × Image)) :=
  match hashPosition t source (s.ip - 2), hashPosition t source s.ip with
  | some h₂, some h =>
    let table := putPositionOnHash t (s.ip - 2) h₂ s.table
    let ref := table h
    let table := putPositionOnHash t s.ip h table
    let fresh : Pass CompressState (Option (Nat × Image)) :=
      match hashPosition t source (s.ip + 1) with
      | none => .done none
      | some forwardH =>
        .next { s with pc := .search, anchor := s.ip, ip := s.ip + 1, forwardH := forwardH, table := table }
    if ref + MAX_DISTANCE ≥ s.ip then
      match sameAt 4 source ref s.ip with
      | none => .done none
      | some false => fresh
      | some true =>
        match storeDest destSize s.dest s.op [0] with
        | none => .done none
        | some dest =>
          .next { s with pc := .nextMatch s.op ref, op := s.op + 1, table := table, dest := dest }
    else fresh
  | _, _ => .done none

/-- From the label `_next_match` on: encode the offset and the length of a match. -/
def nextMatchPass (t : TableType) (source : Bytes) (destSize token ref : Nat) (s : CompressState) :
    Pass CompressState (Option (Nat × Image)) :=
  let offset := sub64 s.ip ref % 2 ^ 16
  match storeDest destSize s.dest s.op [UInt8.ofNat (offset % 256), UInt8.ofNat (offset / 256)] with
  | none => .done none
  | some dest =>
    let anchor := s.ip + MINMATCH
    match countMatch source (source.length - LASTLITERALS) source.length anchor (ref + MINMATCH) with
    | none => .done none
    | some ip =>
      match encodeMatchLength destSize (ip - anchor) token (s.op + 2) dest with
      | none => .done none
      | some (op, dest) =>
        if ip + MFLIMIT > source.length then .done (lastLiterals source destSize ip op dest)
        else behindMatch t source destSize { s with ip := ip, anchor := anchor, op := op, dest := dest }

/-- The main loop from one of its two labels to the next. -/
def compressPass (t : TableType) (source : Bytes) (destSize : Nat) (s : CompressState) :
    Pass CompressState (Option (Nat × Image)) :=
  match s.pc with
  | .search => searchPass t source destSize s
  | .nextMatch token ref => nextMatchPass t source destSize token ref s

/-- `LZ4_compress_generic` with `notLimited` and `noPrefix`; zero is the failure of the source. -/
def lz4CompressGeneric (t : TableType) (source : Bytes) (destSize : Nat) (dest : Image) :
    Option (Nat × Image) :=
  if source.length > LZ4_MAX_INPUT_SIZE then some (0, dest)
  else if t = .byU16 ∧ source.length ≥ LZ4_64KLIMIT then some (0, dest)
  else if source.length < LZ4_minLength then lastLiterals source destSize 0 0 dest
  else
    match hashPosition t source 0, hashPosition t source 1 with
    | some h, some forwardH =>
      (Loop.run (compressPass t source destSize) (2 * source.length)
        { ip := 1
          anchor := 0
          op := 0
          forwardH := forwardH
          table := putPositionOnHash t 0 h fun _ => 0
          dest := dest }).join
    | _, _ => none

/-- `LZ4_compress`. -/
def lz4Compress (source : Bytes) (destSize : Nat) (dest : Image) : Option (Nat × Image) :=
  if source.length < LZ4_64KLIMIT then lz4CompressGeneric .byU16 source destSize dest
  else lz4CompressGeneric .byU32 source destSize dest

/-- The bytes `LZ4_compress` leaves in memory of so many bytes; none where it fails. -/
def lz4CompressBytes (dest : Image) (destSize : Nat) (source : Bytes) : Bytes :=
  match lz4Compress source destSize dest with
  | some (n, dest) => bytesAt dest 0 n
  | none => []

end Okr
