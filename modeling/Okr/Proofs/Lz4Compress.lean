import Okr.Proofs.Lz4Decompress
import Okr.Proofs.Lz4Match

/-! The compression writes a block whose content is its input, and decompressing gives it back. -/

namespace Okr

open Loop (Pass)
open Lz77 (Sequence)

variable {source out front bytes literals : Bytes} {dest dest₀ : Image} {t : TableType} {q : Sequence Byte}
  {done : List (Sequence Byte)} {destSize anchor ip ref op pos len fuel token length : Nat}

/-! ### What is written -/

/-- The loop behind the literals' token writes the bytes of the format. -/
theorem literalRun_eq (enough : len ≤ fuel) :
    literalRun fuel len = List.replicate (len / 255) 255 ++ [UInt8.ofNat (len % 255)] := by
  induction fuel generalizing len with
  | zero =>
    rw [Nat.le_zero.mp enough]
    rfl
  | succ fuel ih =>
    rw [literalRun]
    by_cases more : 255 ≤ len
    · obtain ⟨len, rfl⟩ : ∃ l, len = l + 255 := ⟨len - 255, by omega⟩
      rw [if_pos more, Nat.add_sub_cancel, ih (by omega), Nat.add_div_right _ (by decide),
        Nat.add_mod_right, List.replicate_succ, List.cons_append]
    · rw [if_neg more, Nat.div_eq_of_lt (by omega), Nat.mod_eq_of_lt (by omega)]
      rfl

/-- Writing two bytes at a time comes to the same. -/
theorem matchRun_eq (enough : len ≤ fuel) :
    matchRun fuel len = List.replicate (len / 255) 255 ++ [UInt8.ofNat (len % 255)] := by
  induction fuel generalizing len with
  | zero =>
    rw [Nat.le_zero.mp enough]
    rfl
  | succ fuel ih =>
    rw [matchRun]
    by_cases two : len > 509
    · obtain ⟨len, rfl⟩ : ∃ l, len = l + 510 := ⟨len - 510, by omega⟩
      have twice : (len + 510) / 255 = len / 255 + 2 := by omega
      have rest : (len + 510) % 255 = len % 255 := by omega
      rw [if_pos two, Nat.add_sub_cancel, ih (by omega), twice, rest]
      rfl
    · rw [if_neg two]
      by_cases one : len ≥ 255
      · have once : len / 255 = 1 := by omega
        have rest : len % 255 = len - 255 := by omega
        rw [if_pos one, once, rest]
        rfl
      · rw [if_neg one, Nat.div_eq_of_lt (by omega), Nat.mod_eq_of_lt (by omega)]
        rfl

/-- The head of literals is a token that only counts them, and what goes on counting. -/
theorem literalHead_eq (n : Nat) : literalHead n = UInt8.ofNat (nibble n * 16) :: lengthBytes n := by
  unfold literalHead lengthBytes nibble
  by_cases long : n ≥ RUN_MASK
  · rw [if_pos long, if_neg (Nat.not_lt.mpr long), Nat.min_eq_right long, literalRun_eq (Nat.sub_le _ _)]
    rfl
  · rw [if_neg long, if_pos (Nat.not_le.mp long), Nat.min_eq_left (by omega)]

theorem closingBytes_eq (literals : Bytes) : closingBytes literals = literalHead literals.length ++ literals := by
  rw [closingBytes, literalHead_eq, List.cons_append]

/-- Bytes that are stored behind the front are shown behind it. -/
theorem Shows.append (shows_ : Shows dest out) (bytes : Bytes) :
    Shows (putBytes dest out.length bytes) (out ++ bytes) := by
  have put := @Agrees.put dest (fun i => (out ++ bytes).getD i 0) out.length bytes
    (fun i below => by
      simp only [List.getD_append _ _ _ _ below]
      exact shows_ i below)
    (fun k _ => by rw [List.getD_append_right _ _ _ _ (Nat.le_add_right _ _), Nat.add_sub_cancel_left])
  rw [← List.length_append] at put
  exact put

/-- A byte inside the front is replaced. -/
theorem Shows.replace {b : Byte} (shows_ : Shows dest (front ++ b :: bytes)) (b' : Byte) :
    Shows (putBytes dest front.length [b']) (front ++ b' :: bytes) := by
  intro i below
  rw [List.length_append, List.length_cons] at below
  by_cases here : i = front.length
  · rw [here, putBytes, if_pos ⟨Nat.le_refl _, Nat.lt_succ_self _⟩, Nat.sub_self]
    simp only
    rw [List.getD_append_right _ _ _ _ (Nat.le_refl _), Nat.sub_self]
    rfl
  · rw [putBytes_other (by rw [List.length_singleton]; omega), shows_ i (by
      rw [List.length_append, List.length_cons]
      exact below)]
    simp only [List.getD_eq_getElem?_getD, List.getElem?_append]
    split
    · rfl
    · obtain ⟨k, index⟩ : ∃ k, i - front.length = k + 1 := ⟨i - front.length - 1, by omega⟩
      rw [index]
      rfl

/-- Memory shows the byte at the end of a front. -/
theorem Shows.at_ {b : Byte} (shows_ : Shows dest (front ++ b :: bytes)) : dest front.length = b := by
  rw [shows_ front.length (by rw [List.length_append, List.length_cons]; omega)]
  simp only
  rw [List.getD_append_right _ _ _ _ (Nat.le_refl _), Nat.sub_self]
  rfl

/-- The literals in front of a match are written, and nothing much further behind. -/
theorem encodeLiterals_spec (shows_ : Shows dest front) (place : op = front.length) (ordered : anchor ≤ ip)
    (inside : ip + STEPSIZE ≤ source.length)
    (room : op + (closingBytes (Overlay.window source anchor (ip - anchor))).length + STEPSIZE ≤ destSize) :
    ∃ dest', encodeLiterals source destSize anchor ip op dest
        = some (op + (closingBytes (Overlay.window source anchor (ip - anchor))).length, dest')
      ∧ Shows dest' (front ++ closingBytes (Overlay.window source anchor (ip - anchor)))
      ∧ SameBehind (op + (closingBytes (Overlay.window source anchor (ip - anchor))).length + STEPSIZE)
          dest dest' := by
  have count : (Overlay.window source anchor (ip - anchor)).length = ip - anchor := by
    rw [Overlay.length_window]
    omega
  have at_ : source.drop anchor
      = Overlay.window source anchor (ip - anchor) ++ (source.drop anchor).drop (ip - anchor) :=
    (List.take_append_drop _ _).symm
  rw [closingBytes_eq, List.length_append, count] at room ⊢
  generalize literals_ : Overlay.window source anchor (ip - anchor) = literals at count at_ ⊢
  rw [place] at room ⊢
  have head := shows_.append (literalHead (ip - anchor))
  unfold encodeLiterals
  dsimp only
  rw [storeDest_some (by omega)]
  dsimp only
  obtain ⟨dest', d', s', copied, same, shows'⟩ := @copyLiterals_spec
    (putBytes dest front.length (literalHead (ip - anchor))) destSize
    (front.length + (literalHead (ip - anchor)).length) source anchor (ip - anchor) (by omega) (by omega)
  rw [copied]
  refine ⟨dest', ?_, ?_, ?_⟩
  · rw [Nat.add_assoc]
    rfl
  · have behind := head.literals at_ (by rw [count, List.length_append]; exact shows')
    rw [List.append_assoc] at behind
    exact behind
  · rw [← Nat.add_assoc]
    exact (SameBehind.put (by omega)).trans same

/-- The literals at the end are written, and nothing behind them. -/
theorem lastLiterals_spec (shows_ : Shows dest front) (place : op = front.length)
    (inside : anchor ≤ source.length)
    (room : op + (closingBytes (source.drop anchor)).length ≤ destSize) :
    ∃ dest', lastLiterals source destSize anchor op dest
        = some (op + (closingBytes (source.drop anchor)).length, dest')
      ∧ Shows dest' (front ++ closingBytes (source.drop anchor))
      ∧ SameBehind (op + (closingBytes (source.drop anchor)).length) dest dest' := by
  have count : (source.drop anchor).length = source.length - anchor := List.length_drop
  have loaded : Overlay.window source anchor (source.length - anchor) = source.drop anchor := by
    rw [Overlay.window, ← count, List.take_length]
  rw [closingBytes_eq, List.length_append, count] at room ⊢
  rw [place] at room ⊢
  have head := shows_.append (literalHead (source.length - anchor))
  have all := head.append (source.drop anchor)
  rw [List.length_append, List.append_assoc] at all
  unfold lastLiterals
  dsimp only
  rw [storeDest_some (by omega)]
  dsimp only
  rw [loadSource_some (by omega), loaded, Option.bind_some, storeDest_some (by rw [count]; omega)]
  refine ⟨_, ?_, all, ?_⟩
  · rw [Nat.add_assoc]
    rfl
  · exact (SameBehind.put (by omega)).trans (.put (by rw [count]; omega))

/-- The length of a match is written into the token and behind the offset. -/
theorem encodeMatchLength_spec (shows_ : Shows dest (front ++ closingBytes q.literals
      ++ [UInt8.ofNat (q.offset % 256), UInt8.ofNat (q.offset / 256)]))
    (room : (front ++ sequenceBytes q).length ≤ destSize) :
    ∃ dest', encodeMatchLength destSize (q.length - MINMATCH) front.length
        ((front ++ closingBytes q.literals).length + 2) dest
        = some ((front ++ sequenceBytes q).length, dest')
      ∧ Shows dest' (front ++ sequenceBytes q)
      ∧ SameBehind (front ++ sequenceBytes q).length dest dest' := by
  generalize length_ : q.length - MINMATCH = length
  -- Whatever the length is, its bytes are those of the format, and its half of the token is, too.
  have run : (if length ≥ ML_MASK then matchRun length (length - ML_MASK) else []) = lengthBytes length := by
    unfold lengthBytes
    have same : ML_MASK = RUN_MASK := rfl
    rw [same]
    by_cases long : length ≥ RUN_MASK
    · rw [if_pos long, if_neg (Nat.not_lt.mpr long), matchRun_eq (Nat.sub_le _ _)]
    · rw [if_neg long, if_pos (Nat.not_le.mp long)]
  have half : (if length ≥ ML_MASK then ML_MASK else length) = nibble length := by
    unfold nibble
    have same : ML_MASK = RUN_MASK := rfl
    rw [same]
    by_cases long : length ≥ RUN_MASK
    · rw [if_pos long, Nat.min_eq_right long]
    · rw [if_neg long, Nat.min_eq_left (by omega)]
  have bytes : front ++ sequenceBytes q = front ++ UInt8.ofNat (nibble q.literals.length * 16 + nibble length) ::
      (lengthBytes q.literals.length ++ q.literals
        ++ [UInt8.ofNat (q.offset % 256), UInt8.ofNat (q.offset / 256)]) ++ lengthBytes length := by
    rw [sequenceBytes, length_]
    simp only [List.append_assoc, List.cons_append]
  have size : (front ++ sequenceBytes q).length = (front ++ closingBytes q.literals).length + 2
      + (lengthBytes length).length := by
    rw [bytes, closingBytes]
    simp only [List.length_append, List.length_cons, List.length_nil]
    omega
  have before : front ++ closingBytes q.literals ++ [UInt8.ofNat (q.offset % 256), UInt8.ofNat (q.offset / 256)]
      = front ++ UInt8.ofNat (nibble q.literals.length * 16) :: (lengthBytes q.literals.length ++ q.literals
        ++ [UInt8.ofNat (q.offset % 256), UInt8.ofNat (q.offset / 256)]) := by
    rw [closingBytes]
    simp only [List.append_assoc, List.cons_append]
  rw [before] at shows_
  have token : dest front.length + UInt8.ofNat (nibble length)
      = UInt8.ofNat (nibble q.literals.length * 16 + nibble length) := by
    rw [shows_.at_, UInt8.ofNat_add]
  have first := shows_.replace (UInt8.ofNat (nibble q.literals.length * 16 + nibble length))
  have all := first.append (lengthBytes length)
  have place : (front ++ UInt8.ofNat (nibble q.literals.length * 16 + nibble length) ::
      (lengthBytes q.literals.length ++ q.literals
        ++ [UInt8.ofNat (q.offset % 256), UInt8.ofNat (q.offset / 256)])).length
      = (front ++ closingBytes q.literals).length + 2 := by
    rw [closingBytes]
    simp only [List.length_append, List.length_cons, List.length_nil]
    omega
  have inside : front.length + 1 ≤ (front ++ closingBytes q.literals).length := by
    have := length_closingBytes q.literals
    rw [List.length_append]
    omega
  rw [← bytes, place] at all
  unfold encodeMatchLength
  dsimp only
  rw [run, half, token, storeDest_some (by rw [List.length_singleton]; omega)]
  dsimp only
  rw [storeDest_some (by omega)]
  refine ⟨_, by rw [size]; rfl, all, ?_⟩
  exact (SameBehind.put (by rw [List.length_singleton]; omega)).trans (.put (by omega))

/-! ### What the output stands for -/

/-- Sequences that stand for the input up to a place. -/
structure Parsed (source : Bytes) (done : List (Sequence Byte)) (pos : Nat) : Prop where
  inside : pos ≤ source.length
  size : Lz77.size done = pos
  fit : MatchesFit source.length 0 done
  parse : Lz77.expand done [] = source.take pos

/-- Sequences fit in front of another one that fits behind them. -/
theorem MatchesFit.append {total : Nat} (fit : MatchesFit total pos done)
    (last : MatchesFit total (pos + Lz77.size done) [q]) : MatchesFit total pos (done ++ [q]) := by
  induction done generalizing pos with
  | nil => exact last
  | cons first done ih =>
    obtain ⟨positive, within, word, least, start, ends, fit'⟩ := fit
    refine ⟨positive, within, word, least, start, ends, ih fit' ?_⟩
    have parts : Lz77.size (first :: done) = first.size + Lz77.size done := rfl
    rw [Nat.add_assoc, ← parts]
    exact last

/-- A match that is behind what was parsed brings the parse to its end. -/
theorem Parsed.next {last : Nat} (parsed : Parsed source done anchor) (ordered : anchor ≤ ip)
    (is_match : IsMatch source ref ip) (least : ip + MINMATCH ≤ last)
    (ends : last + LASTLITERALS ≤ source.length) (same : SameBytes source (last - ip) ref ip) :
    Parsed source (done ++ [{ literals := Overlay.window source anchor (ip - anchor)
                              offset := ip - ref
                              length := last - ip }]) last := by
  have room := is_match.room
  have before := is_match.before
  have near := is_match.near
  have count : (Overlay.window source anchor (ip - anchor)).length = ip - anchor := by
    rw [Overlay.length_window]
    omega
  rw [MINMATCH] at least
  refine ⟨by omega, ?_, parsed.fit.append ⟨?_, ?_, ?_, ?_, ?_, ?_, trivial⟩, ?_⟩
  · rw [Lz77.size_append, parsed.size, Lz77.size, List.map_singleton, List.sum_singleton, Sequence.size, count]
    dsimp only
    omega
  · dsimp only
    omega
  · rw [parsed.size, count]
    dsimp only
    omega
  · rw [MAX_DISTANCE] at near
    dsimp only
    omega
  · rw [MINMATCH]
    dsimp only
    omega
  · rw [parsed.size, count]
    omega
  · rw [parsed.size, Sequence.size, count]
    dsimp only
    omega
  · have literals : source.take anchor ++ Overlay.window source anchor (ip - anchor) = source.take ip := by
      rw [Overlay.window, ← List.take_add, Nat.add_sub_cancel' ordered]
    have copied := @Lz77.copyBack_take Byte (ip - ref) ip (last - ip) source
      (by omega) (by omega) (by omega) fun k below => by
        rw [same k below]
        congr 1
        omega
    rw [Lz77.expand_append, parsed.parse, Lz77.expand, List.foldl_cons, List.foldl_nil, Sequence.apply,
      literals, copied]
    congr 1
    omega

/-- What stands behind a parse makes it a block of the input. -/
def Parsed.block (parsed : Parsed source done pos) : Lz4Block where
  sequences := done
  last := source.drop pos
  fit := by
    rw [parsed.size, List.length_drop, Nat.add_sub_cancel' parsed.inside]
    exact parsed.fit

theorem Parsed.content_block (parsed : Parsed source done pos) : parsed.block.content = source := by
  rw [Lz4Block.content, Parsed.block]
  dsimp only
  rw [parsed.parse, List.take_append_drop]

/-- A length takes few bytes beside the token. -/
theorem length_lengthBytes (n : Nat) : (lengthBytes n).length ≤ n / 255 + 1 := by
  unfold lengthBytes
  split
  · exact Nat.zero_le _
  · rw [List.length_append, List.length_replicate, List.length_singleton]
    have := Nat.div_le_div_right (c := 255) (Nat.sub_le n RUN_MASK)
    omega

/-- Literals take their bytes, and few for their length. -/
theorem length_closingBytes_le (literals : Bytes) :
    (closingBytes literals).length ≤ literals.length + literals.length / 255 + 2 := by
  have := length_lengthBytes literals.length
  rw [closingBytes, List.length_cons, List.length_append]
  omega

/-- A sequence hardly takes more bytes than it brings, since its match brings at least four. -/
theorem length_sequenceBytes_le (least : MINMATCH ≤ q.length) :
    (sequenceBytes q).length ≤ q.size + q.size / 255 := by
  have literals := length_lengthBytes q.literals.length
  have more : (lengthBytes (q.length - MINMATCH)).length + 4 ≤ q.length := by
    rw [MINMATCH] at least ⊢
    unfold lengthBytes
    rw [RUN_MASK]
    split
    · exact least
    · rw [List.length_append, List.length_replicate, List.length_singleton]
      omega
  have whole : q.literals.length / 255 ≤ q.size / 255 := Nat.div_le_div_right (Nat.le_add_right _ _)
  have size : q.size = q.literals.length + q.length := rfl
  rw [sequenceBytes]
  simp only [List.length_cons, List.length_append, List.length_nil]
  omega

/-- Sequences hardly take more bytes than they bring. -/
theorem length_sequencesBytes_le {total : Nat} (fit : MatchesFit total pos done) :
    (sequencesBytes done).length ≤ Lz77.size done + Lz77.size done / 255 := by
  induction done generalizing pos with
  | nil => exact Nat.zero_le _
  | cons first done ih =>
    obtain ⟨-, -, -, least, -, -, fit'⟩ := fit
    have one := length_sequenceBytes_le least
    have rest := ih fit'
    have parts : Lz77.size (first :: done) = first.size + Lz77.size done := rfl
    have bytes : sequencesBytes (first :: done) = sequenceBytes first ++ sequencesBytes done := rfl
    rw [bytes, List.length_append, parts]
    omega

/-! ### The main loop -/

/-- At the start of the main loop whole sequences are written, and the place behind them is next. -/
structure AtSearch (source : Bytes) (dest₀ : Image) (s : CompressState) (done : List (Sequence Byte)) :
    Prop where
  parsed : Parsed source done s.anchor
  shows_ : Shows s.dest (sequencesBytes done)
  op : s.op = (sequencesBytes done).length
  next : s.ip = s.anchor + 1
  room : s.anchor + MFLIMIT ≤ source.length
  table : TableBelow s.table s.ip
  frame : SameBehind (s.op + LASTLITERALS + 1) dest₀ s.dest

/-- At the label `_next_match` the literals are written, and the match is known to reach over `m`. -/
structure AtMatch (source : Bytes) (dest₀ : Image) (token ref : Nat) (s : CompressState)
    (done : List (Sequence Byte)) (anchor m : Nat) : Prop where
  parsed : Parsed source done anchor
  ordered : anchor ≤ s.ip
  token : token = (sequencesBytes done).length
  shows_ : Shows s.dest (sequencesBytes done ++ closingBytes (Overlay.window source anchor (s.ip - anchor)))
  op : s.op = (sequencesBytes done ++ closingBytes (Overlay.window source anchor (s.ip - anchor))).length
  is_match : IsMatch source ref s.ip
  reaches : s.ip ≤ m
  room : m + MFLIMIT ≤ source.length
  same : SameBytes source (m + MINMATCH - s.ip) ref s.ip
  table : TableBelow s.table (m + 1)
  frame : SameBehind (s.op + STEPSIZE) dest₀ s.dest

/-- What holds at the labels of the main loop. -/
def Compressing (source : Bytes) (dest₀ : Image) (s : CompressState) : Prop :=
  match s.pc with
  | .search => ∃ done, AtSearch source dest₀ s done
  | .nextMatch token ref => ∃ done anchor m, AtMatch source dest₀ token ref s done anchor m

/-- The output is a block of the input, and nothing behind it was written. -/
def Compressed (source : Bytes) (dest₀ : Image) (r : Option (Nat × Image)) : Prop :=
  ∃ (b : Lz4Block) (dest : Image), r = some (b.bytes.length, dest) ∧ b.content = source ∧ Shows dest b.bytes
    ∧ SameBehind b.bytes.length dest₀ dest ∧ b.bytes.length ≤ source.length + source.length / 255 + 16

/-- How close the main loop is to its end. -/
def remaining (source : Bytes) (s : CompressState) : Nat :=
  match s.pc with
  | .search => source.length - s.ip + 3
  | .nextMatch _ _ => source.length - s.ip + 1

/-- A pass that goes on gets closer to the end, and one that does not leaves a block. -/
def Advances (source : Bytes) (dest₀ : Image) (measure : Nat)
    (pass : Pass CompressState (Option (Nat × Image))) : Prop :=
  (∃ r, pass = .done r ∧ Compressed source dest₀ r)
    ∨ ∃ s', pass = .next s' ∧ Compressing source dest₀ s' ∧ remaining source s' < measure

/-- What is behind a parse fits the output. -/
theorem Parsed.room (parsed : Parsed source done pos) {last : Nat} (ordered : pos ≤ last) :
    (sequencesBytes done ++ closingBytes (Overlay.window source pos (last - pos))).length ≤ last + last / 255 + 2 := by
  have front := length_sequencesBytes_le parsed.fit
  have behind := length_closingBytes_le (Overlay.window source pos (last - pos))
  have count : (Overlay.window source pos (last - pos)).length ≤ last - pos := by
    rw [Overlay.length_window]
    exact Nat.min_le_left _ _
  have parts := Nat.div_le_div_right (c := 255) count
  rw [parsed.size] at front
  rw [List.length_append]
  omega

/-- The last literals end a parse as a block. -/
theorem lastLiterals_compressed (parsed : Parsed source done anchor) (shows_ : Shows dest (sequencesBytes done))
    (place : op = (sequencesBytes done).length)
    (frame : SameBehind (op + (closingBytes (source.drop anchor)).length) dest₀ dest)
    (large : source.length + source.length / 255 + 16 ≤ destSize) :
    Compressed source dest₀ (lastLiterals source destSize anchor op dest) := by
  have all : Overlay.window source anchor (source.length - anchor) = source.drop anchor := by
    rw [Overlay.window, List.take_of_length_le (by rw [List.length_drop])]
  have room := parsed.room (Nat.le_trans parsed.inside (Nat.le_refl source.length))
  rw [all, List.length_append, ← place] at room
  have fits : op + (closingBytes (source.drop anchor)).length ≤ destSize := by omega
  obtain ⟨dest', written, shows', same⟩ := lastLiterals_spec shows_ place parsed.inside fits
  have bytes : parsed.block.bytes = sequencesBytes done ++ closingBytes (source.drop anchor) := rfl
  have size : op + (closingBytes (source.drop anchor)).length = parsed.block.bytes.length := by
    rw [bytes, List.length_append, place]
  refine ⟨parsed.block, dest', by rw [written, size], parsed.content_block, shows', ?_, by omega⟩
  rw [← size]
  exact frame.trans same

/-- From the start of the main loop: a match is found, and the literals in front of it are written. -/
theorem searchPass_advances {s : CompressState} (at_ : AtSearch source dest₀ s done)
    (large : source.length + source.length / 255 + 16 ≤ destSize) :
    Advances source dest₀ (source.length - s.ip + 3) (searchPass t source destSize s) := by
  have limits : MFLIMIT = 12 ∧ STEPSIZE = 8 ∧ MINMATCH = 4 ∧ LASTLITERALS = 5 := by decide
  have behind := at_.room
  have next := at_.next
  unfold searchPass
  rcases @findRun_spec source t
      { findMatchAttempts := 2 ^ SKIPSTRENGTH + 3, forwardIp := s.ip, forwardH := s.forwardH, table := s.table }
      (Nat.le_add_right _ _) at_.table with none_ | ⟨found, some_, later, is_match, table⟩
  · rw [none_]
    refine Or.inl ⟨_, rfl, lastLiterals_compressed at_.parsed at_.shows_ at_.op (at_.frame.mono ?_) large⟩
    have long : 5 < (closingBytes (source.drop s.anchor)).length := by
      have := length_closingBytes (source.drop s.anchor)
      rw [List.length_drop] at this
      omega
    omega
  · rw [some_]
    dsimp only at later ⊢
    obtain ⟨n, caught, enough, least, back⟩ :=
      @catchUp_spec source found.ip found.ref s.anchor (by omega)
    have before := is_match.before
    have near := is_match.near
    have end_ := is_match.room
    have room := @Parsed.room source done s.anchor at_.parsed (found.ip - n) (by omega)
    have whole : (found.ip - n) / 255 ≤ source.length / 255 := Nat.div_le_div_right (by omega)
    rw [List.length_append, ← at_.op] at room
    obtain ⟨dest', written, shows', frame⟩ := @encodeLiterals_spec source (sequencesBytes done) s.dest destSize
      s.anchor (found.ip - n) s.op at_.shows_ at_.op (by omega) (by omega) (by omega)
    rw [caught]
    dsimp only
    rw [written]
    -- The bytes that were caught up on come in front of the four that were found.
    have reach : n + MINMATCH = found.ip + MINMATCH - (found.ip - n) := by omega
    have same : SameBytes source (n + MINMATCH) (found.ref - n) (found.ip - n) := by
      refine back.append ?_
      rw [Nat.sub_add_cancel enough, Nat.sub_add_cancel (by omega)]
      exact is_match.same
    refine Or.inr ⟨_, rfl, ⟨done, s.anchor, found.ip, ?_⟩, ?_⟩
    · refine ⟨at_.parsed, by dsimp only; omega, at_.op, shows', ?_, ⟨?_, ?_, ?_, ?_⟩, Nat.sub_le _ _,
        is_match.room, ?_, table, ?_⟩
      · dsimp only
        rw [List.length_append, at_.op]
      · dsimp only
        omega
      · dsimp only
        omega
      · exact fun k below => same k (by omega)
      · dsimp only
        omega
      · dsimp only
        rw [← reach]
        exact same
      · exact (at_.frame.mono (by
          have := length_closingBytes (Overlay.window source s.anchor (found.ip - n - s.anchor))
          dsimp only
          omega)).trans frame
    · dsimp only [remaining]
      omega

/-- Behind a match either another one starts at once, or the search goes on. -/
theorem behindMatch_advances {s : CompressState} {measure : Nat} (parsed : Parsed source done s.ip)
    (shows_ : Shows s.dest (sequencesBytes done)) (place : s.op = (sequencesBytes done).length)
    (least : 2 ≤ s.ip) (room : s.ip + MFLIMIT ≤ source.length) (table : TableBelow s.table (s.ip - 2))
    (frame : SameBehind (s.op + LASTLITERALS + 1) dest₀ s.dest)
    (large : source.length + source.length / 255 + 16 ≤ destSize)
    (closer : source.length - s.ip + 3 ≤ measure) :
    Advances source dest₀ measure (behindMatch t source destSize s) := by
  have limits : MFLIMIT = 12 ∧ STEPSIZE = 8 ∧ MINMATCH = 4 ∧ LASTLITERALS = 5 := by decide
  obtain ⟨h₂, hash₂⟩ := @hashPosition_some source (s.ip - 2) t (by omega)
  obtain ⟨h, hash⟩ := @hashPosition_some source s.ip t (by omega)
  obtain ⟨forwardH, forward⟩ := @hashPosition_some source (s.ip + 1) t (by omega)
  have table₂ : TableBelow (putPositionOnHash t (s.ip - 2) h₂ s.table) s.ip := table.put _ (by omega)
  have table₁ := table₂.put (t := t) h (Nat.lt_succ_self s.ip)
  unfold behindMatch
  rw [hash₂, hash]
  dsimp only
  rw [forward]
  -- The search goes on behind the match, whose end is the new anchor.
  have fresh : Advances source dest₀ measure (.next { s with
      pc := .search
      anchor := s.ip
      ip := s.ip + 1
      forwardH := forwardH
      table := putPositionOnHash t s.ip h (putPositionOnHash t (s.ip - 2) h₂ s.table) }) := by
    refine Or.inr ⟨_, rfl, ⟨done, parsed, shows_, place, rfl, room, table₁, frame⟩, ?_⟩
    dsimp only [remaining]
    omega
  by_cases near : putPositionOnHash t (s.ip - 2) h₂ s.table h + MAX_DISTANCE ≥ s.ip
  · have before := table₂ h
    obtain ⟨same, compared, meaning⟩ := @sameAt_spec source s.ip
      (putPositionOnHash t (s.ip - 2) h₂ s.table h) 4 (by omega) (by omega)
    rw [if_pos near, compared]
    cases same with
    | false => exact fresh
    | true =>
      have size := length_sequencesBytes_le parsed.fit
      have whole : s.ip / 255 ≤ source.length / 255 := Nat.div_le_div_right parsed.inside
      rw [parsed.size] at size
      dsimp only
      rw [storeDest_some (by rw [List.length_singleton]; omega)]
      -- There are no literals in front of a match that starts at once.
      have nothing : Overlay.window source s.ip (s.ip - s.ip) = [] := by rw [Nat.sub_self]; rfl
      have token : closingBytes [] = [0] := rfl
      have equal := meaning.mp rfl
      refine Or.inr ⟨_, rfl, ⟨done, s.ip, s.ip, ?_⟩, ?_⟩
      · refine ⟨parsed, Nat.le_refl _, place, ?_, ?_, ⟨before, near, equal, room⟩, Nat.le_refl _, room, ?_,
          table₁, ?_⟩
        · dsimp only
          rw [nothing, token, place]
          exact shows_.append [0]
        · dsimp only
          rw [nothing, token, List.length_append, place]
          rfl
        · rw [Nat.add_sub_cancel_left]
          exact equal
        · exact (frame.mono (by dsimp only; omega)).trans (.put (by
            rw [List.length_singleton]
            dsimp only
            omega))
      · dsimp only [remaining]
        omega
  · rw [if_neg near]
    exact fresh

/-- The count of a match takes in all that is known to be the same. -/
theorem AtMatch.counted {s : CompressState} {m : Nat} (at_ : AtMatch source dest₀ token ref s done anchor m) :
    ∃ last, countMatch source (source.length - LASTLITERALS) source.length (s.ip + MINMATCH) (ref + MINMATCH)
        = some last
      ∧ m + MINMATCH ≤ last ∧ last + LASTLITERALS ≤ source.length ∧ SameBytes source (last - s.ip) ref s.ip := by
  have limits : MFLIMIT = 12 ∧ MINMATCH = 4 ∧ LASTLITERALS = 5 := by decide
  have before := at_.is_match.before
  have end_ := at_.room
  have reaches := at_.reaches
  obtain ⟨last, result, counted⟩ := @countMatch_spec source (s.ip + MINMATCH) (ref + MINMATCH)
    (source.length - LASTLITERALS) source.length (by omega) (by omega) (by omega) (by omega)
  have all := counted.from at_.is_match.same
  refine ⟨last, result, ?_, by have := all.most; omega, all.same⟩
  by_contra early
  -- The byte at which the count would stop is one of those that are the same.
  have least := all.least
  have equal := at_.same (last - s.ip) (by omega)
  rw [Nat.add_sub_cancel' least] at equal
  rcases all.stops with limit | different
  · omega
  · exact different equal

/-- From the label `_next_match` on the match is counted and written. -/
theorem nextMatchPass_advances {s : CompressState} {m : Nat}
    (at_ : AtMatch source dest₀ token ref s done anchor m) (small : source.length < 2 ^ 64)
    (large : source.length + source.length / 255 + 16 ≤ destSize) :
    Advances source dest₀ (source.length - s.ip + 1) (nextMatchPass t source destSize token ref s) := by
  have limits : MFLIMIT = 12 ∧ STEPSIZE = 8 ∧ MINMATCH = 4 ∧ LASTLITERALS = 5 := by decide
  have before := at_.is_match.before
  have near := at_.is_match.near
  have end_ := at_.room
  have reaches := at_.reaches
  have ordered := at_.ordered
  obtain ⟨last, counted, reached, ends, same⟩ := at_.counted
  have parsed := at_.parsed.next ordered at_.is_match (by omega) ends same
  have offset : sub64 s.ip ref % 2 ^ 16 = s.ip - ref := by
    rw [MAX_DISTANCE] at near
    rw [sub64_eq (Nat.le_of_lt before) (by omega), Nat.mod_eq_of_lt (by omega)]
  -- The sequence that is now complete.
  obtain ⟨q, q_⟩ : ∃ q : Sequence Byte, q = { literals := Overlay.window source anchor (s.ip - anchor)
                                              offset := s.ip - ref
                                              length := last - s.ip } := ⟨_, rfl⟩
  rw [← q_] at parsed
  have literals : Overlay.window source anchor (s.ip - anchor) = q.literals := by rw [q_]
  have back : s.ip - ref = q.offset := by rw [q_]
  have length : last - (s.ip + MINMATCH) = q.length - MINMATCH := by
    rw [q_, Nat.sub_add_eq]
  have bytes : sequencesBytes (done ++ [q]) = sequencesBytes done ++ sequenceBytes q := by
    simp [sequencesBytes]
  have shows_ := at_.shows_
  have place := at_.op
  have room := at_.parsed.room ordered
  have size := length_sequencesBytes_le parsed.fit
  rw [← place] at room
  rw [parsed.size, bytes] at size
  rw [literals] at shows_ place
  have share : s.ip / 255 ≤ source.length / 255 := Nat.div_le_div_right (by omega)
  have share' : last / 255 ≤ source.length / 255 := Nat.div_le_div_right (by omega)
  have two := shows_.append [UInt8.ofNat (q.offset % 256), UInt8.ofNat (q.offset / 256)]
  obtain ⟨dest', written, shows', same'⟩ := @encodeMatchLength_spec (sequencesBytes done) _ q destSize two
    (by omega)
  have longer : s.op + 2 ≤ (sequencesBytes done ++ sequenceBytes q).length := by
    rw [place, List.length_append, List.length_append, closingBytes, sequenceBytes]
    simp only [List.length_cons, List.length_append, List.length_nil]
    omega
  have frame : SameBehind ((sequencesBytes done ++ sequenceBytes q).length + LASTLITERALS + 1) dest₀ dest' := by
    refine ((at_.frame.mono (by omega)).trans (.put ?_)).trans (same'.mono (by omega))
    rw [← place]
    simp only [List.length_cons, List.length_nil]
    omega
  unfold nextMatchPass
  dsimp only
  rw [offset, back, storeDest_some (by simp only [List.length_cons, List.length_nil]; omega)]
  dsimp only
  rw [counted]
  dsimp only
  rw [length, at_.token, place, written]
  dsimp only
  rw [← bytes] at shows' longer frame ⊢
  by_cases over_ : last + MFLIMIT > source.length
  · rw [if_pos over_]
    refine Or.inl ⟨_, rfl, lastLiterals_compressed parsed shows' rfl (frame.mono ?_) large⟩
    have five := length_closingBytes (source.drop last)
    rw [List.length_drop] at five
    omega
  · rw [if_neg over_]
    have table : TableBelow s.table (last - 2) := by
      intro h
      have cell := at_.table h
      omega
    exact behindMatch_advances (s := { s with
        ip := last
        anchor := s.ip + MINMATCH
        op := (sequencesBytes (done ++ [q])).length
        dest := dest' }) parsed shows' rfl (by dsimp only; omega) (by dsimp only; omega) table frame large
      (by dsimp only; omega)

/-- Every pass of the main loop advances. -/
theorem compressPass_advances {s : CompressState} (at_ : Compressing source dest₀ s)
    (small : source.length < 2 ^ 64) (large : source.length + source.length / 255 + 16 ≤ destSize) :
    Advances source dest₀ (remaining source s) (compressPass t source destSize s) := by
  unfold Compressing at at_
  unfold compressPass remaining
  cases pc : s.pc with
  | search =>
    rw [pc] at at_
    obtain ⟨done, at_⟩ := at_
    exact searchPass_advances at_ large
  | nextMatch token ref =>
    rw [pc] at at_
    obtain ⟨done, anchor, m, at_⟩ := at_
    exact nextMatchPass_advances at_ small large

/-- Nothing was parsed yet. -/
theorem Parsed.nil (source : Bytes) : Parsed source [] 0 := ⟨Nat.zero_le _, rfl, trivial, rfl⟩

/-- The compression of an input that is not too long writes a block of it. -/
theorem lz4CompressGeneric_compressed (fits : source.length ≤ LZ4_MAX_INPUT_SIZE)
    (narrow : t = .byU16 → source.length < LZ4_64KLIMIT)
    (large : source.length + source.length / 255 + 16 ≤ destSize) :
    Compressed source dest (lz4CompressGeneric t source destSize dest) := by
  have limits : MFLIMIT = 12 ∧ LZ4_minLength = 13 ∧ LASTLITERALS = 5 := by decide
  have bounded : LZ4_MAX_INPUT_SIZE < 2 ^ 64 := by decide
  have nothing : Shows dest (sequencesBytes []) := fun i below => absurd below (Nat.not_lt_zero i)
  unfold lz4CompressGeneric
  rw [if_neg (Nat.not_lt.mpr fits), if_neg (fun both => absurd (narrow both.1) (Nat.not_lt.mpr both.2))]
  by_cases short : source.length < LZ4_minLength
  · rw [if_pos short]
    exact lastLiterals_compressed (.nil source) nothing rfl (.refl _) large
  · obtain ⟨h, hash⟩ := @hashPosition_some source 0 t (by omega)
    obtain ⟨forwardH, forward⟩ := @hashPosition_some source 1 t (by omega)
    rw [if_neg short, hash, forward]
    dsimp only
    obtain ⟨first, first_⟩ : ∃ s : CompressState, s =
        { ip := 1
          anchor := 0
          op := 0
          forwardH := forwardH
          table := putPositionOnHash t 0 h fun _ => 0
          dest := dest } := ⟨_, rfl⟩
    have start : Compressing source dest first := by
      rw [first_]
      refine ⟨[], .nil source, nothing, rfl, rfl, by dsimp only; omega, ?_, .refl _⟩
      -- All cells are zero, and so is the place that was entered.
      intro h'
      cases t <;> simp [putPositionOnHash, u32, Function.update_apply]
    have enough : remaining source first < 2 * source.length := by
      rw [first_, remaining]
      dsimp only
      omega
    have run : ∃ r, Loop.run (compressPass t source destSize) (2 * source.length) first = some r
        ∧ Compressed source dest r :=
      Loop.run_of_measure (remaining source)
        (fun s at_ => compressPass_advances at_ (by omega) large) start enough
    obtain ⟨r, ran, compressed⟩ := run
    rw [← first_, ran]
    exact compressed

/-- `LZ4_compress` of an input that is not too long writes a block of it. -/
theorem lz4Compress_compressed (fits : source.length ≤ LZ4_MAX_INPUT_SIZE)
    (large : source.length + source.length / 255 + 16 ≤ destSize) :
    Compressed source dest (lz4Compress source destSize dest) := by
  unfold lz4Compress
  split
  · next small => exact lz4CompressGeneric_compressed fits (fun _ => small) large
  · exact lz4CompressGeneric_compressed fits (fun narrow => by cases narrow) large

end Okr
