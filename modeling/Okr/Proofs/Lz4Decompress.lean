import Mathlib.Data.List.GetD
import Okr.Proofs.Lz4Copy

/-! The decompression never leaves its buffers, and gives the content of every block. -/

namespace Okr

open Loop (Pass)
open Lz77 (Sequence)

variable {dest : Image} {oend ip half limit length left : Nat} {source rest : Bytes}

/-! ### Every input -/

/-- Counting on stays in front of the limit. -/
theorem moreLength_safe (inside : ip + left ≤ source.length) :
    ∃ length' ip', moreLength source left ip length = some (length', ip') ∧ ip ≤ ip' ∧ ip' ≤ ip + left := by
  induction left generalizing ip length with
  | zero => exact ⟨length, ip, rfl, Nat.le_refl _, Nat.le_refl _⟩
  | succ left ih =>
    rw [moreLength, List.getElem?_eq_getElem (by omega)]
    dsimp only
    by_cases more : source[ip] = 255
    · rw [if_pos more]
      obtain ⟨length', ip', result, low, high⟩ :=
        @ih (ip + 1) (length + source[ip].toNat) (by omega)
      exact ⟨length', ip', result, by omega, by omega⟩
    · rw [if_neg more]
      exact ⟨_, _, rfl, by omega, by omega⟩

/-- A length is read without leaving the input. -/
theorem readLength_safe (inside : limit ≤ source.length) :
    ∃ length' ip', readLength source limit half ip = some (length', ip') ∧ ip ≤ ip'
      ∧ (ip' = ip ∨ ip' ≤ limit) := by
  unfold readLength
  by_cases full : half = RUN_MASK
  · rw [if_pos full]
    by_cases some_ : ip ≤ limit
    · obtain ⟨length', ip', result, low, high⟩ :=
        @moreLength_safe ip half (limit - ip) source (by omega)
      exact ⟨length', ip', result, low, by omega⟩
    · rw [Nat.sub_eq_zero_of_le (by omega)]
      exact ⟨half, ip, rfl, Nat.le_refl _, Or.inl rfl⟩
  · rw [if_neg full]
    exact ⟨half, ip, rfl, Nat.le_refl _, Or.inl rfl⟩

/-- What a call leaves that stays in its buffers: a number of bytes or an error, and all else as it was. -/
def Served (source : Bytes) (oend : Nat) (dest : Image) (r : Option (Int × Image)) : Prop :=
  ∃ n dest', r = some (n, dest') ∧ -(source.length : Int) - 1 ≤ n ∧ n ≤ oend ∧ SameBehind oend dest dest'

/-- A pass of the main loop ends in its buffers, or goes on in them with less input. -/
def PassSafe (source : Bytes) (oend ip : Nat) (dest : Image) (pass : Pass DecodeState (Option (Int × Image))) :
    Prop :=
  (∃ r, pass = .done r ∧ Served source oend dest r)
    ∨ ∃ s', pass = .next s' ∧ ip < s'.ip ∧ s'.ip < source.length ∧ SameBehind oend dest s'.dest

/-- An error is reported with the number of bytes that were read. -/
theorem outputError_served {dest' : Image} (inside : ip ≤ source.length)
    (same : SameBehind oend dest dest') : Served source oend dest (outputError ip dest') :=
  ⟨_, _, rfl, by omega, by omega, same⟩

/-- The part of a pass behind the literals stays in the buffers. -/
theorem decodeMatch_safe {token : Nat} {s : DecodeState} (input : s.ip + 8 ≤ source.length)
    (output : s.op + MFLIMIT ≤ oend) :
    PassSafe source oend s.ip s.dest (decodeMatch source oend token s) := by
  unfold decodeMatch
  rw [loadSource_some (by omega)]
  dsimp only
  generalize (UInt8.toNat _ + 2 ^ 8 * UInt8.toNat _ : Nat) = offset
  by_cases far : offset > s.op
  · rw [if_pos far]
    exact Or.inl ⟨_, rfl, outputError_served (by omega) (.refl _)⟩
  · obtain ⟨length, ip', read, low, high⟩ := @readLength_safe (s.ip + 2) (token % 16)
      (source.length - (LASTLITERALS + 1)) source (Nat.sub_le _ _)
    rw [if_neg far, read]
    dsimp only
    -- The length of a match is not read from the bytes that at least stand behind it.
    have room : ip' + 6 ≤ source.length := by
      rw [LASTLITERALS] at high
      omega
    have least : s.op + 4 ≤ s.op + STEPSIZE + length - (STEPSIZE - 4) := by
      rw [STEPSIZE]
      omega
    rcases @copyRepeated_spec s.dest oend s.op (s.op - offset) _ (Nat.sub_le _ _) output least with
      ⟨-, refused⟩ | ⟨ends, dest', copied, same, -⟩
    · rw [refused]
      exact Or.inl ⟨_, rfl, outputError_served (by omega) (.refl _)⟩
    · rw [copied]
      exact Or.inr ⟨_, rfl, by simp only; omega, by simp only; omega, same⟩

/-- A pass of the main loop stays in the buffers, as long as there is a token. -/
theorem decodePass_safe {s : DecodeState} (input : s.ip < source.length) :
    PassSafe source oend s.ip s.dest (decodePass source oend s) := by
  unfold decodePass
  rw [List.getElem?_eq_getElem input]
  dsimp only
  obtain ⟨length, ip', read, low, high⟩ :=
    @readLength_safe (s.ip + 1) (source[s.ip].toNat / 16) source.length source (Nat.le_refl _)
  rw [read]
  dsimp only
  by_cases last : s.op + length + MFLIMIT > oend ∨ ip' + length + (2 + 1 + LASTLITERALS) > source.length
  · rw [if_pos last]
    by_cases wrong : ip' + length ≠ source.length ∨ s.op + length > oend
    · rw [if_pos wrong]
      exact Or.inl ⟨_, rfl, outputError_served (by omega) (.refl _)⟩
    · rw [if_neg wrong]
      have loaded : (Overlay.window source ip' length).length = length := by
        rw [Overlay.length_window]
        omega
      rw [loadSource_some (by omega), Option.bind_some, storeDest_some (by rw [loaded]; omega)]
      exact Or.inl ⟨_, rfl, _, _, rfl, by omega, by omega, .put (by rw [loaded]; omega)⟩
  · rw [if_neg last]
    rw [not_or, Nat.not_lt, Nat.not_lt] at last
    simp only [LASTLITERALS] at last
    have words : STEPSIZE ≤ MFLIMIT := by decide
    obtain ⟨dest', d', s', copied, same, -⟩ := @copyLiterals_spec s.dest oend s.op source ip' length
      (by omega) (by rw [STEPSIZE]; omega)
    have same : SameBehind oend s.dest dest' := same.mono (by omega)
    rw [copied]
    dsimp only
    rcases @decodeMatch_safe oend source source[s.ip].toNat
        { ip := ip' + length, op := s.op + length, dest := dest' } (by simp only; omega) last.1 with
      ⟨r, done, n, dest₂, rfl, least, most, same₂⟩ | ⟨s₂, next, less, more, same₂⟩
    · exact Or.inl ⟨_, done, n, dest₂, rfl, least, most, same.trans same₂⟩
    · exact Or.inr ⟨s₂, next, by simp only at less; omega, more, same.trans same₂⟩

/-- Whatever the input is, the decompression ends, reads inside it and writes inside the output. -/
theorem lz4DecompressGeneric_served (some_ : source ≠ []) :
    Served source oend dest (lz4DecompressGeneric source dest oend) := by
  unfold lz4DecompressGeneric
  by_cases empty : oend = 0
  · rw [if_pos empty]
    split
    · exact ⟨0, dest, rfl, by omega, by omega, .refl _⟩
    · exact ⟨-1, dest, rfl, by omega, by omega, .refl _⟩
  · rw [if_neg empty]
    have step : ∀ s : DecodeState, s.ip < source.length ∧ SameBehind oend dest s.dest →
        (∃ r, decodePass source oend s = .done r ∧ Served source oend dest r)
          ∨ ∃ s', decodePass source oend s = .next s'
            ∧ (s'.ip < source.length ∧ SameBehind oend dest s'.dest)
            ∧ source.length - s'.ip < source.length - s.ip := by
      intro s ⟨input, same⟩
      rcases decodePass_safe input with ⟨r, done, n, dest', rfl, least, most, same'⟩ |
        ⟨s', next, less, more, same'⟩
      · exact Or.inl ⟨_, done, n, dest', rfl, least, most, same.trans same'⟩
      · exact Or.inr ⟨s', next, ⟨more, same.trans same'⟩, by omega⟩
    have result : ∃ r, Loop.run (decodePass source oend) (source.length + 1) { dest := dest } = some r
        ∧ Served source oend dest r :=
      Loop.run_of_measure (fun s : DecodeState => source.length - s.ip) step
        ⟨List.length_pos_iff.mpr some_, .refl _⟩ (Nat.lt_succ_self _)
    obtain ⟨r, ran, served⟩ := result
    rw [ran]
    exact served

/-- The token of a long run of literals, with nothing behind it. -/
theorem lz4DecompressGeneric_served_cut :
    Served [0xF0] 4 (fun _ => 7) (lz4DecompressGeneric [0xF0] (fun _ => 7) 4) :=
  lz4DecompressGeneric_served (by decide)

/-! ### Blocks -/

variable {out : Bytes} {content : Nat → Byte} {q : Sequence Byte} {last : Bytes} {total fuel n : Nat}

/-- Memory whose front is an output. -/
def Shows (dest : Image) (out : Bytes) : Prop := Agrees dest (fun i => out.getD i 0) out.length

/-- Memory shows a part of the content it agrees with. -/
theorem Agrees.shows (agrees : Agrees dest content n) : Shows dest ((List.range n).map content) := by
  intro i below
  rw [List.length_map, List.length_range] at below
  simp only [List.getD_eq_getElem?_getD, List.getElem?_map, List.getElem?_range below, Option.map_some,
    Option.getD_some]
  exact agrees i below

/-- What memory shows is read off it. -/
theorem Shows.bytesAt_eq (shows_ : Shows dest out) : bytesAt dest 0 out.length = out := by
  refine List.ext_getElem length_bytesAt fun i low high => ?_
  have there := shows_ i high
  simp only [List.getD_eq_getElem?_getD, List.getElem?_eq_getElem high, Option.getD_some] at there
  simp only [bytesAt, List.getElem_map, List.getElem_range, Nat.zero_add, there]

/-- Memory that shows an output agrees with what the output goes on as. -/
theorem Shows.prolong (shows_ : Shows dest out) (offset : Nat) :
    Agrees dest (Lz77.prolong out offset) out.length := by
  intro i below
  rw [shows_ i below, Lz77.prolong, if_pos below, List.getElem!_eq_getElem?_getD]
  exact List.getD_eq_getElem?_getD ..

/-- Bytes that go on counting a length are counted up to the first one that is not full. -/
theorem moreLength_run {r : Byte} {q : Nat} (at_ : source.drop ip = List.replicate q 255 ++ r :: rest)
    (small : r ≠ 255) (enough : q < left) :
    moreLength source left ip length = some (length + 255 * q + r.toNat, ip + q + 1) := by
  induction q generalizing ip length left with
  | zero =>
    obtain ⟨left, rfl⟩ : ∃ l, left = l + 1 := ⟨left - 1, by omega⟩
    have here : source[ip]? = some r := by
      rw [← Nat.add_zero ip, ← List.getElem?_drop, at_]
      rfl
    rw [moreLength, here]
    dsimp only
    rw [if_neg small]
    rfl
  | succ q ih =>
    obtain ⟨left, rfl⟩ : ∃ l, left = l + 1 := ⟨left - 1, by omega⟩
    have here : source[ip]? = some 255 := by
      rw [← Nat.add_zero ip, ← List.getElem?_drop, at_]
      rfl
    have next : source.drop (ip + 1) = List.replicate q 255 ++ r :: rest := by
      rw [← List.drop_drop, at_]
      rfl
    rw [moreLength, here]
    dsimp only
    rw [if_pos rfl, ih next (by omega)]
    have full : (255 : Byte).toNat = 255 := rfl
    rw [full]
    congr 2 <;> omega

/-- The length that stands in a token and behind it is read. -/
theorem readLength_bytes (at_ : source.drop ip = lengthBytes n ++ rest)
    (room : ip + (lengthBytes n).length ≤ limit) :
    readLength source limit (nibble n) ip = some (n, ip + (lengthBytes n).length) := by
  unfold readLength
  by_cases short : n < RUN_MASK
  · have small : nibble n = n := Nat.min_eq_left (Nat.le_of_lt short)
    have none_ : lengthBytes n = [] := if_pos short
    rw [small, if_neg (Nat.ne_of_lt short), none_]
    rfl
  · have full : nibble n = RUN_MASK := Nat.min_eq_right (Nat.not_lt.mp short)
    have bytes : lengthBytes n = List.replicate ((n - RUN_MASK) / 255) 255
        ++ [UInt8.ofNat ((n - RUN_MASK) % 255)] := if_neg short
    have value : (UInt8.ofNat ((n - RUN_MASK) % 255)).toNat = (n - RUN_MASK) % 255 := by
      rw [UInt8.toNat_ofNat', Nat.mod_eq_of_lt (by omega)]
    have small : UInt8.ofNat ((n - RUN_MASK) % 255) ≠ 255 := by
      intro same
      rw [same] at value
      have rest := Nat.mod_lt (n - RUN_MASK) (y := 255) (by decide)
      rw [← value] at rest
      exact absurd rest (by decide)
    have long : (lengthBytes n).length = (n - RUN_MASK) / 255 + 1 := by
      rw [bytes, List.length_append, List.length_replicate]
      rfl
    rw [bytes, List.append_assoc] at at_
    rw [if_pos full, moreLength_run at_ small (by omega), value, full, long]
    rw [RUN_MASK] at short ⊢
    congr 2
    omega

/-- A token is read as its two halves. -/
theorem token_halves {a b : Nat} (low : a ≤ 15) (low' : b ≤ 15) :
    (UInt8.ofNat (a * 16 + b)).toNat / 16 = a ∧ (UInt8.ofNat (a * 16 + b)).toNat % 16 = b := by
  rw [UInt8.toNat_ofNat', Nat.mod_eq_of_lt (by omega)]
  omega

theorem nibble_le (n : Nat) : nibble n ≤ 15 := Nat.min_le_right _ _

/-- A sequence makes the output longer by what it brings. -/
theorem length_apply (positive : 0 < q.offset) (within : q.offset ≤ out.length + q.literals.length) :
    (q.apply out).length = out.length + q.size := by
  rw [Sequence.apply, Lz77.length_copyBack positive (by rw [List.length_append]; exact within),
    List.length_append, Sequence.size, Nat.add_assoc]

/-- Copied literals are shown behind the output. -/
theorem Shows.literals {dest' : Image} {literals : Bytes} (shows_ : Shows dest out)
    (at_ : source.drop ip = literals ++ rest)
    (copied : ∀ content, (∀ k < literals.length + STEPSIZE, source.getD (ip + k) 0 = content (out.length + k)) →
      Agrees dest content out.length → Agrees dest' content (out.length + literals.length)) :
    Shows dest' (out ++ literals) := by
  -- The content behind the output is the input, also where the last word reaches past the literals.
  have agrees := copied (fun i => if i < out.length then out.getD i 0 else source.getD (ip + (i - out.length)) 0)
    (fun k _ => by rw [if_neg (by omega), Nat.add_sub_cancel_left])
    (fun i below => by dsimp only; rw [if_pos below]; exact shows_ i below)
  intro i below
  rw [List.length_append] at below
  rw [agrees i below]
  dsimp only
  by_cases old : i < out.length
  · rw [if_pos old, List.getD_append _ _ _ _ old]
  · rw [if_neg old, List.getD_append_right _ _ _ _ (by omega), List.getD_eq_getElem?_getD,
      ← List.getElem?_drop, at_, List.getElem?_append_left (by omega), List.getD_eq_getElem?_getD]

/-- A pass behind the literals of a sequence copies its match. -/
theorem decodeMatch_sequence {s : DecodeState} {token : Nat}
    (at_ : source.drop s.ip = UInt8.ofNat (q.offset % 256) :: UInt8.ofNat (q.offset / 256) ::
      (lengthBytes (q.length - MINMATCH) ++ rest))
    (half : token % 16 = nibble (q.length - MINMATCH)) (behind : 6 ≤ rest.length)
    (shows_ : Shows s.dest out) (place : s.op = out.length)
    (positive : 0 < q.offset) (within : q.offset ≤ s.op) (word : q.offset < 2 ^ 16)
    (least : MINMATCH ≤ q.length) (room : s.op + MFLIMIT ≤ oend)
    (ends : s.op + q.length + LASTLITERALS ≤ oend) :
    ∃ dest', decodeMatch source oend token s
        = .next { ip := s.ip + 2 + (lengthBytes (q.length - MINMATCH)).length,
                  op := s.op + q.length, dest := dest' }
      ∧ Shows dest' (Lz77.copyBack q.offset q.length out) := by
  have input := congrArg List.length at_
  simp only [List.length_drop, List.length_cons, List.length_append] at input
  have two : Overlay.window source s.ip 2 = [UInt8.ofNat (q.offset % 256), UInt8.ofNat (q.offset / 256)] := by
    rw [Overlay.window, at_]
    rfl
  have offset : (UInt8.ofNat (q.offset % 256)).toNat + 2 ^ 8 * (UInt8.ofNat (q.offset / 256)).toNat
      = q.offset := by
    rw [UInt8.toNat_ofNat', UInt8.toNat_ofNat']
    omega
  have further : source.drop (s.ip + 2) = lengthBytes (q.length - MINMATCH) ++ rest := by
    rw [← List.drop_drop, at_]
    rfl
  have counted : readLength source (source.length - (LASTLITERALS + 1)) (token % 16) (s.ip + 2)
      = some (q.length - MINMATCH, s.ip + 2 + (lengthBytes (q.length - MINMATCH)).length) := by
    rw [half]
    exact readLength_bytes further (by rw [LASTLITERALS]; omega)
  have cpy : s.op + STEPSIZE + (q.length - MINMATCH) - (STEPSIZE - 4) = s.op + q.length := by
    simp only [STEPSIZE, MINMATCH] at least ⊢
    omega
  have apart : s.op - (s.op - q.offset) = q.offset := by omega
  unfold decodeMatch
  rw [loadSource_some (by omega), two]
  simp only [List.getD_cons_zero, List.getD_cons_succ, offset]
  rw [if_neg (by omega), counted]
  dsimp only
  rw [cpy]
  rcases @copyRepeated_spec s.dest oend s.op (s.op - q.offset) (s.op + q.length) (Nat.sub_le _ _) room
    (Nat.add_le_add_left least _) with ⟨late, -⟩ | ⟨-, dest', copied, -, shows'⟩
  · omega
  · rw [copied]
    refine ⟨dest', rfl, ?_⟩
    -- The output goes on as its own end, repeated.
    have periodic := @Lz77.prolong_periodic Byte _ out _ positive (by omega)
    rw [Lz77.copyBack_prolong positive (by omega)]
    rw [apart, place] at shows'
    exact (shows' _ periodic (shows_.prolong _)).shows

/-- A pass at a sequence goes on behind it, with what it brings behind the output. -/
theorem decodePass_sequence {s : DecodeState} (at_ : source.drop s.ip = sequenceBytes q ++ rest)
    (behind : 6 ≤ rest.length) (shows_ : Shows s.dest out) (place : s.op = out.length)
    (positive : 0 < q.offset) (within : q.offset ≤ s.op + q.literals.length)
    (word : q.offset < 2 ^ 16) (least : MINMATCH ≤ q.length)
    (room : s.op + q.literals.length + MFLIMIT ≤ oend)
    (ends : s.op + q.size + LASTLITERALS ≤ oend) :
    ∃ dest', decodePass source oend s
        = .next { ip := s.ip + (sequenceBytes q).length, op := s.op + q.size, dest := dest' }
      ∧ Shows dest' (q.apply out) := by
  rw [sequenceBytes, List.cons_append, List.append_assoc, List.append_assoc, List.append_assoc,
    List.cons_append, List.cons_append, List.nil_append] at at_
  have input := congrArg List.length at_
  simp only [List.length_drop, List.length_cons, List.length_append] at input
  obtain ⟨high, low⟩ := token_halves (nibble_le q.literals.length) (nibble_le (q.length - MINMATCH))
  have token : source[s.ip]? = some (UInt8.ofNat
      (nibble q.literals.length * 16 + nibble (q.length - MINMATCH))) := by
    rw [← Nat.add_zero s.ip, ← List.getElem?_drop, at_]
    rfl
  have first : source.drop (s.ip + 1) = lengthBytes q.literals.length ++ (q.literals ++
      UInt8.ofNat (q.offset % 256) :: UInt8.ofNat (q.offset / 256) ::
        (lengthBytes (q.length - MINMATCH) ++ rest)) := by
    rw [← List.drop_drop, at_]
    rfl
  have second : source.drop (s.ip + 1 + (lengthBytes q.literals.length).length) = q.literals ++
      UInt8.ofNat (q.offset % 256) :: UInt8.ofNat (q.offset / 256) ::
        (lengthBytes (q.length - MINMATCH) ++ rest) := by
    rw [← List.drop_drop, first, List.drop_left]
  have third : source.drop (s.ip + 1 + (lengthBytes q.literals.length).length + q.literals.length)
      = UInt8.ofNat (q.offset % 256) :: UInt8.ofNat (q.offset / 256) ::
        (lengthBytes (q.length - MINMATCH) ++ rest) := by
    rw [← List.drop_drop, second, List.drop_left]
  have limits : MFLIMIT = 12 ∧ LASTLITERALS = 5 ∧ STEPSIZE = 8 := by decide
  unfold decodePass
  rw [token]
  dsimp only
  rw [high, readLength_bytes first (by omega)]
  dsimp only
  rw [if_neg (by omega)]
  obtain ⟨dest₁, d', s', copied, -, shows₁⟩ := @copyLiterals_spec s.dest oend s.op source
    (s.ip + 1 + (lengthBytes q.literals.length).length) q.literals.length (by omega) (by omega)
  rw [place] at shows₁
  have front : Shows dest₁ (out ++ q.literals) := shows_.literals second shows₁
  rw [copied]
  dsimp only
  have length : (out ++ q.literals).length = s.op + q.literals.length := by
    rw [List.length_append, place]
  obtain ⟨dest', matched, shows'⟩ := @decodeMatch_sequence oend source rest (out ++ q.literals) q
    { ip := s.ip + 1 + (lengthBytes q.literals.length).length + q.literals.length
      op := s.op + q.literals.length
      dest := dest₁ } _ third low behind front length.symm positive within word least room (by
        rw [Sequence.size] at ends
        dsimp only
        omega)
  refine ⟨dest', ?_, shows'⟩
  rw [matched]
  congr 2
  · simp only [sequenceBytes, List.length_cons, List.length_append, List.length_nil]
    omega
  · rw [Sequence.size, Nat.add_assoc]

/-- The pass at the last literals ends the block. -/
theorem decodePass_last {s : DecodeState} (at_ : source.drop s.ip = closingBytes last)
    (shows_ : Shows s.dest out) (place : s.op = out.length) (ends : s.op + last.length ≤ oend) :
    ∃ dest', decodePass source oend s = .done (some (((s.op + last.length : Nat) : Int), dest'))
      ∧ Shows dest' (out ++ last) := by
  rw [closingBytes] at at_
  have input := congrArg List.length at_
  simp only [List.length_drop, List.length_cons, List.length_append] at input
  obtain ⟨high, -⟩ := token_halves (nibble_le last.length) (Nat.zero_le 15)
  have token : source[s.ip]? = some (UInt8.ofNat (nibble last.length * 16 + 0)) := by
    rw [← Nat.add_zero s.ip, ← List.getElem?_drop, at_]
    rfl
  have first : source.drop (s.ip + 1) = lengthBytes last.length ++ last := by
    rw [← List.drop_drop, at_]
    rfl
  have second : source.drop (s.ip + 1 + (lengthBytes last.length).length) = last := by
    rw [← List.drop_drop, first, List.drop_left]
  have loaded : Overlay.window source (s.ip + 1 + (lengthBytes last.length).length) last.length = last := by
    rw [Overlay.window, second, List.take_length]
  unfold decodePass
  rw [token]
  dsimp only
  rw [high, readLength_bytes first (by omega)]
  dsimp only
  rw [if_pos (Or.inr (by omega)), if_neg (by omega), loadSource_some (by omega), loaded, Option.bind_some,
    storeDest_some ends]
  refine ⟨_, rfl, ?_⟩
  have put := @Agrees.put s.dest (fun i => (out ++ last).getD i 0) s.op last
    (fun i below => by
      rw [place] at below
      simp only [List.getD_append _ _ _ _ below]
      exact shows_ i below)
    (fun k _ => by
      simp only [place]
      rw [List.getD_append_right _ _ _ _ (Nat.le_add_right _ _), Nat.add_sub_cancel_left])
  rw [place, ← List.length_append] at put
  rw [place]
  exact put

/-- Where a match is, at least five literals stand behind the last one. -/
theorem MatchesFit.literalsBehind {sequences : List (Sequence Byte)} {pos : Nat}
    (fit : MatchesFit total pos sequences) (some_ : sequences ≠ [])
    (counted : total = pos + Lz77.size sequences + last.length) : LASTLITERALS ≤ last.length := by
  induction sequences generalizing pos with
  | nil => exact absurd rfl some_
  | cons q sequences ih =>
    obtain ⟨-, -, -, -, -, ends, fit'⟩ := fit
    have parts : Lz77.size (q :: sequences) = q.size + Lz77.size sequences := rfl
    by_cases none_ : sequences = []
    · rw [none_] at parts counted
      have zero : Lz77.size ([] : List (Sequence Byte)) = 0 := rfl
      omega
    · exact ih fit' none_ (by omega)

/-- The last literals have a token in front. -/
theorem length_closingBytes (last : Bytes) : last.length < (closingBytes last).length := by
  rw [closingBytes, List.length_cons, List.length_append]
  omega

/-- From any place in a block the main loop decodes what is left of it. -/
theorem decode_run {sequences : List (Sequence Byte)} {s : DecodeState}
    (at_ : source.drop s.ip = sequencesBytes sequences ++ closingBytes last) (shows_ : Shows s.dest out)
    (place : s.op = out.length) (fit : MatchesFit total s.op sequences)
    (counted : total = s.op + Lz77.size sequences + last.length) (room : total ≤ oend)
    (enough : sequences.length < fuel) :
    ∃ dest', Loop.run (decodePass source oend) fuel s = some (some ((total : Int), dest'))
      ∧ Shows dest' (Lz77.expand sequences out ++ last) := by
  -- By induction on the sequences that are left.
  induction sequences generalizing s out fuel with
  | nil =>
    obtain ⟨fuel, rfl⟩ : ∃ f, fuel = f + 1 := ⟨fuel - 1, by omega⟩
    have end_ : total = s.op + last.length := counted
    obtain ⟨dest', done, shows'⟩ := @decodePass_last oend source out last s at_ shows_ place (by omega)
    refine ⟨dest', ?_, shows'⟩
    rw [Loop.run.eq_def]
    dsimp only
    rw [done, end_]
  | cons q sequences ih =>
    obtain ⟨fuel, rfl⟩ : ∃ f, fuel = f + 1 := ⟨fuel - 1, by omega⟩
    have five := MatchesFit.literalsBehind fit (by simp) counted
    obtain ⟨positive, within, word, least, start, ends, fit'⟩ := fit
    have parts : Lz77.size (q :: sequences) = q.size + Lz77.size sequences := rfl
    have bytes : sequencesBytes (q :: sequences) = sequenceBytes q ++ sequencesBytes sequences := rfl
    rw [bytes, List.append_assoc] at at_
    have behind : 6 ≤ (sequencesBytes sequences ++ closingBytes last).length := by
      have six := length_closingBytes last
      rw [LASTLITERALS] at five
      rw [List.length_append]
      omega
    obtain ⟨dest₁, next, shows₁⟩ := decodePass_sequence at_ behind shows_ place positive within word
      least (Nat.le_trans start room) (Nat.le_trans ends room)
    have further : source.drop (s.ip + (sequenceBytes q).length)
        = sequencesBytes sequences ++ closingBytes last := by
      rw [← List.drop_drop, at_, List.drop_left]
    obtain ⟨dest', run, shows'⟩ := @ih (q.apply out) fuel
      { ip := s.ip + (sequenceBytes q).length, op := s.op + q.size, dest := dest₁ } further shows₁
      (by rw [length_apply positive (by omega), place]) fit' (by dsimp only; omega)
      (by rw [List.length_cons] at enough; omega)
    refine ⟨dest', ?_, shows'⟩
    rw [Loop.run, next]
    exact run

/-- Every sequence has a token. -/
theorem length_sequencesBytes (sequences : List (Sequence Byte)) :
    sequences.length ≤ (sequencesBytes sequences).length := by
  induction sequences with
  | nil => exact Nat.zero_le _
  | cons q sequences ih =>
    rw [sequencesBytes, List.flatMap_cons, List.length_append, List.length_cons]
    have token : 1 ≤ (sequenceBytes q).length := by
      rw [sequenceBytes, List.length_cons]
      omega
    rw [sequencesBytes] at ih
    omega

/-- What sequences bring stands behind the output. -/
theorem length_expand {sequences : List (Sequence Byte)} (fit : MatchesFit total out.length sequences) :
    (Lz77.expand sequences out).length = out.length + Lz77.size sequences := by
  induction sequences generalizing out with
  | nil => rfl
  | cons q sequences ih =>
    obtain ⟨positive, within, -, -, -, -, fit'⟩ := fit
    have length := length_apply positive within
    have parts : Lz77.size (q :: sequences) = q.size + Lz77.size sequences := rfl
    rw [← length] at fit'
    have later := ih fit'
    rw [length] at later
    rw [parts, ← Nat.add_assoc]
    exact later

/-- The size of a block is that of its content. -/
theorem Lz4Block.length_content (b : Lz4Block) : b.content.length = b.size := by
  rw [Lz4Block.content, List.length_append, @length_expand [] _ _ b.fit, List.length_nil,
    Nat.zero_add, Lz4Block.size]

/-- A block that fits the output is decompressed to its content. -/
theorem lz4DecompressSafe_block (b : Lz4Block) (dest : Image) (room : b.size ≤ oend) :
    lz4DecompressSafe dest oend b.bytes = some b.content := by
  have some_ : 0 < b.bytes.length := by
    rw [Lz4Block.bytes, List.length_append]
    have := length_closingBytes b.last
    omega
  by_cases empty : oend = 0
  · -- Nothing but the token of no literals at all is left.
    have nothing : b.size = 0 := by omega
    have sequences : b.sequences = [] := by
      cases at_ : b.sequences with
      | nil => rfl
      | cons q later =>
        have fit := b.fit
        rw [at_] at fit
        have limit : MFLIMIT = 12 := by decide
        have start := fit.2.2.2.2.1
        rw [← at_] at start
        rw [Lz4Block.size] at nothing
        omega
    have last : b.last = [] := by
      rw [Lz4Block.size] at nothing
      exact List.length_eq_zero_iff.mp (by omega)
    rw [lz4DecompressSafe, lz4DecompressGeneric, if_pos empty, Lz4Block.bytes, Lz4Block.content,
      sequences, last]
    rfl
  · have few : b.sequences.length < b.bytes.length + 1 := by
      have := length_sequencesBytes b.sequences
      rw [Lz4Block.bytes, List.length_append]
      omega
    obtain ⟨dest', run, shows'⟩ := @decode_run oend b.bytes [] b.last b.size (b.bytes.length + 1)
      b.sequences { dest := dest } rfl (fun i below => absurd below (Nat.not_lt_zero i)) rfl b.fit
      (by rw [Lz4Block.size, Nat.zero_add]) room few
    have generic : lz4DecompressGeneric b.bytes dest oend = some ((b.size : Int), dest') := by
      rw [lz4DecompressGeneric, if_neg empty, run]
      rfl
    rw [lz4DecompressSafe, generic]
    dsimp only
    rw [if_pos (Int.natCast_nonneg _), Int.toNat_natCast]
    rw [← b.length_content]
    exact congrArg some shows'.bytesAt_eq

end Okr
