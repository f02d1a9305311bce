import Okr.Lib.Chunks
import Okr.Proofs.CheckDigest
import Okr.Proofs.CleanRead

/-! The digest over a whole file takes all of its payload in, apart from some lengths of it. -/

namespace Okr

open Chunks (chunks)

/-- The bytes a digest is made over: the file, without its check value where it has one. -/
def payload (bIsCheckValue : Bool) (data : Bytes) : Bytes :=
  if bIsCheckValue then data.take (data.length - PBKDF2P_LEN) else data

/-- What a message adds to the outer digest: the inner digests of its sections. -/
def sectionDigests (c : CheckHash) (message : Bytes) : Bytes :=
  (chunks hashGroup message).flatMap c.sha256

/--
The digest of a file takes its payload in, section by section, and no byte more.

Whatever the digests are, nobody breaks, and another payload has other sections.
-/
def DigestCovers (backend : Backend) (bIsCheckValue : Bool) (data : Bytes) : Prop :=
  (∀ (c : CheckHash) (ctx : Bytes), ∃ s,
    calFileSHA256Value c (fun _ => false) bIsCheckValue (openFile backend data []) ctx
        = some (true, s)
      ∧ s.ctx = ctx ++ sectionDigests c (payload bIsCheckValue data)) ∧
  ∀ other, other ≠ payload bIsCheckValue data →
    chunks hashGroup other ≠ chunks hashGroup (payload bIsCheckValue data)

/--
The sizes a file is digested rightly at.

In front of a check value the last chunk must have a byte, unless a section has just ended,
and must leave the whole check value to one read.
-/
def DigestWhole (bIsCheckValue : Bool) (size : Nat) : Prop :=
  bIsCheckValue = false ∨ (size - PBKDF2P_LEN) % hashGroup = 0
    ∨ (0 < (size - PBKDF2P_LEN) % hashChunk
      ∧ (size - PBKDF2P_LEN) % hashChunk ≤ hashChunk - PBKDF2P_LEN)

instance (bIsCheckValue : Bool) (size : Nat) : Decidable (DigestWhole bIsCheckValue size) :=
  inferInstanceAs (Decidable (_ ∨ _ ∨ _))

variable {c : CheckHash} {backend : Backend} {check : Bool} {data ctx done bytes : Bytes}
variable {file : OpenFile} {s : HashState} {pos size filesize : Nat}

/-! ### A file that is only read -/

/-- A file that was only read so far stands at a position. -/
structure Standing (backend : Backend) (data : Bytes) (pos : Nat) (file : OpenFile) : Prop where
  reads : file.Reads { content := data, pos := pos }
  clean : file.Clean
  kind : file.backend = backend

/-- A file just opened stands at its front. -/
theorem openFile_standing (addressable : data.length < MAX_OFFSET) :
    Standing backend data 0 (openFile backend data []) :=
  ⟨openFile_reads backend addressable, (openFile_clean backend data).1,
    (openFile_clean backend data).2⟩

/-- A read that does not hang brings the window at the position. -/
theorem Standing.read (stands : Standing backend data pos file) (inside : pos ≤ data.length)
    (served : backend = .fat → size < MY_DEFINE_BUFFER_SIZE ∨ pos + size ≤ data.length) :
    ∃ file', file.read size = (.bytes (Overlay.window data pos size), file')
      ∧ Standing backend data (pos + (Overlay.window data pos size).length) file' := by
  have safe : file.ReadSafe size :=
    stands.reads.safe stands.clean inside fun fat => served (stands.kind.symm.trans fat)
  obtain ⟨reply, reads⟩ := stands.reads.read safe
  obtain ⟨clean, kind⟩ := stands.clean.read size
  exact ⟨(file.read size).2, Prod.ext reply rfl, reads, clean, kind.trans stands.kind⟩

/-- A seek below the number that stands for the end. -/
theorem Standing.setPos (stands : Standing backend data pos file) {place : Nat}
    (usual : place ≠ 2 ^ 64 - 1) : Standing backend data place (file.setPos place) :=
  ⟨stands.reads.setPos place fun _ _ => usual, (stands.clean.setPos place).1,
    (stands.clean.setPos place).2.trans stands.kind⟩

/-! ### What the digest has taken in -/

/-- A section has room. -/
theorem hashGroup_pos : 0 < hashGroup := Nat.two_pow_pos 21

/-- A message in front of whole sections adds their digests behind its own. -/
theorem sectionDigests_append (whole : done.length % hashGroup = 0) :
    sectionDigests c (done ++ bytes) = sectionDigests c done ++ sectionDigests c bytes := by
  rw [sectionDigests, Chunks.chunks_append hashGroup_pos done whole, List.flatMap_append]
  rfl

/-- A message of one section has one digest. -/
theorem sectionDigests_single (some_ : bytes ≠ []) (short : bytes.length ≤ hashGroup) :
    sectionDigests c bytes = c.sha256 bytes := by
  rw [sectionDigests, Chunks.chunks_single some_ short, List.flatMap_singleton]

/-- A message went in: its whole sections are closed, and the rest of it is open. -/
def Digested (c : CheckHash) (ctx done : Bytes) (s : HashState) : Prop :=
  ∃ closed, closed ++ s.ctxSec = done ∧ closed.length % hashGroup = 0
    ∧ s.ctx = ctx ++ sectionDigests c closed
    ∧ s.llSectorReadSize = s.ctxSec.length ∧ s.ctxSec.length < hashGroup

/-- Closing the open section takes all of the message in. -/
theorem closeGroup_ctx {closed : Bytes} (whole : closed.length % hashGroup = 0)
    (message : s.ctx = ctx ++ sectionDigests c closed) (some_ : s.ctxSec ≠ [])
    (short : s.ctxSec.length ≤ hashGroup) :
    (s.closeGroup c).ctx = ctx ++ sectionDigests c (closed ++ s.ctxSec) := by
  rw [sectionDigests_append whole, sectionDigests_single some_ short, ← List.append_assoc,
    ← message]
  rfl

/-- A whole chunk in the middle of the file goes into the open section, and may fill it. -/
theorem absorbWhole_chunk (digested : Digested c ctx done s) (read : s.llReadSize = done.length)
    (aligned : done.length % hashChunk = 0) (chunk : bytes.length = hashChunk)
    (more : done.length + hashChunk < filesize) :
    Digested c ctx (done ++ bytes) (absorbWhole c filesize s bytes) := by
  obtain ⟨closed, rfl, whole, message, counted, short⟩ := digested
  have some_ : bytes ≠ [] := by
    rintro rfl
    exact absurd chunk (by decide)
  have goes : ¬ ¬ (bytes.length = hashChunk ∧ s.llReadSize + bytes.length < filesize) :=
    not_not.mpr ⟨chunk, by omega⟩
  have grown : (s.ctxSec ++ bytes).length = s.ctxSec.length + hashChunk := by
    rw [List.length_append, chunk]
  simp only [List.length_append, hashChunk, hashGroup] at aligned whole short
  rw [absorbWhole, if_neg some_]
  dsimp only
  split
  · next full =>
    -- The section is full to the byte, as sections are whole numbers of chunks.
    have filled : (s.ctxSec ++ bytes).length = hashGroup := by
      have reached : s.llSectorReadSize + bytes.length ≥ hashGroup := full.resolve_right goes
      rw [counted, chunk] at reached
      rw [grown]
      simp only [hashGroup, hashChunk] at reached ⊢
      omega
    refine ⟨closed ++ (s.ctxSec ++ bytes), ?_, ?_, ?_, rfl, hashGroup_pos⟩
    · rw [HashState.closeGroup, List.append_nil, List.append_assoc]
    · rw [List.length_append, filled]
      simp only [hashGroup]
      omega
    · refine closeGroup_ctx ?_ message ?_ (Nat.le_of_eq filled)
      · simp only [hashGroup]
        exact whole
      · exact fun empty => some_ (List.append_eq_nil_iff.mp empty).2
  · next room =>
    have below : ¬ s.llSectorReadSize + bytes.length ≥ hashGroup := fun full => room (Or.inl full)
    refine ⟨closed, (List.append_assoc ..).symm, ?_, message, ?_, ?_⟩
    · simp only [hashGroup]
      exact whole
    · rw [counted, List.length_append]
    · rw [counted] at below
      rw [List.length_append]
      omega

/-- The last bytes of the file close the open section with them. -/
theorem absorbWhole_last (digested : Digested c ctx done s) (read : s.llReadSize = done.length)
    (aligned : done.length % hashChunk = 0) (some_ : bytes ≠ []) (chunk : bytes.length ≤ hashChunk)
    (last : ¬ (bytes.length = hashChunk ∧ done.length + bytes.length < filesize)) :
    (absorbWhole c filesize s bytes).ctx = ctx ++ sectionDigests c (done ++ bytes) := by
  obtain ⟨closed, rfl, whole, message, -, short⟩ := digested
  have fits : (s.ctxSec ++ bytes).length ≤ hashGroup := by
    simp only [List.length_append, hashChunk, hashGroup] at aligned whole short chunk ⊢
    omega
  rw [absorbWhole, if_neg some_]
  dsimp only
  rw [read, if_pos (Or.inr last), List.append_assoc]
  refine closeGroup_ctx whole message ?_ fits
  exact fun empty => some_ (List.append_eq_nil_iff.mp empty).2

/-! ### The passes over the file -/

/-- The loop has taken in the front of a file that is only read. -/
structure DigestAt (c : CheckHash) (backend : Backend) (data ctx : Bytes) (pos : Nat)
    (s : HashState) : Prop where
  stands : Standing backend data pos s.file
  read : s.llReadSize = pos
  aligned : pos % hashChunk = 0
  inside : pos ≤ data.length
  digested : Digested c ctx (data.take pos) s

/-- The loop starts with nothing taken in. -/
theorem digestAt_start (addressable : data.length < MAX_OFFSET) :
    DigestAt c backend data ctx 0 { file := (openFile backend data []).setPos 0, ctx := ctx } where
  stands := (openFile_standing addressable).setPos (by decide)
  read := rfl
  aligned := rfl
  inside := Nat.zero_le _
  digested := ⟨[], rfl, rfl, (List.append_nil ctx).symm, rfl, hashGroup_pos⟩

variable {fuel i : Nat}

/-- What a pass makes of the bytes it read. -/
def passOver (c : CheckHash) (filesize : Nat) (s : HashState) (file : OpenFile) (bytes : Bytes) :
    HashState :=
  let s := absorbWhole c filesize { s with file := file } bytes
  { s with file := s.file.setPos s.llReadSize }

/-- A pass counts the bytes it read. -/
theorem passOver_read : (passOver c filesize s file bytes).llReadSize = s.llReadSize + bytes.length := by
  rw [passOver, absorbWhole_read]

/-- A pass whose read brings bytes takes them in, and is the last unless a chunk came with more to come. -/
theorem calFileLoop_pass
    (reply : s.file.read (nextHashSize filesize s.llReadSize check) = (.bytes bytes, file)) :
    calFileLoop c (fun _ => false) filesize check (fuel + 1) i s
      = if bytes.length = hashChunk ∧ (passOver c filesize s file bytes).llReadSize < filesize then
          calFileLoop c (fun _ => false) filesize check fuel (i + 1) (passOver c filesize s file bytes)
        else some (true, passOver c filesize s file bytes) := by
  rw [calFileLoop, if_neg Bool.false_ne_true, reply]
  rfl

/-- While more than a chunk is left, a pass takes one in and goes on. -/
theorem calFileLoop_chunk (addressable : data.length < MAX_OFFSET)
    (front : DigestAt c backend data ctx pos s) (more : pos + hashChunk < data.length) :
    ∃ s', DigestAt c backend data ctx (pos + hashChunk) s'
      ∧ calFileLoop c (fun _ => false) data.length check (fuel + 1) i s
        = calFileLoop c (fun _ => false) data.length check fuel (i + 1) s' := by
  have size : nextHashSize data.length s.llReadSize check = hashChunk := by
    rw [nextHashSize, front.read, if_pos (by omega)]
  have length : (Overlay.window data pos hashChunk).length = hashChunk := by
    rw [Overlay.length_window]
    omega
  obtain ⟨file, reply, stands⟩ :=
    @Standing.read _ _ _ _ hashChunk front.stands front.inside fun _ => Or.inl (by decide)
  have taken : (data.take pos).length = s.llReadSize := by
    rw [List.length_take, front.read, Nat.min_eq_left front.inside]
  have absorbed : Digested c ctx (data.take pos ++ Overlay.window data pos hashChunk)
      (absorbWhole c data.length { s with file := file } (Overlay.window data pos hashChunk)) := by
    refine absorbWhole_chunk front.digested taken.symm ?_ length ?_
    · rw [taken, front.read]
      exact front.aligned
    · rw [taken, front.read]
      exact more
  have counted : (passOver c data.length s file (Overlay.window data pos hashChunk)).llReadSize
      = pos + hashChunk := by
    rw [passOver_read, length, front.read]
  -- the pass keeps the front: file, count, alignment and what was digested
  refine ⟨passOver c data.length s file (Overlay.window data pos hashChunk),
    ⟨?_, counted, ?_, by omega, ?_⟩, ?_⟩
  · rw [passOver, absorbWhole_file, absorbWhole_read, length, front.read]
    have bound : MAX_OFFSET = 2 ^ 63 := rfl
    exact stands.setPos (by omega)
  · have whole := front.aligned
    simp only [hashChunk] at whole ⊢
    omega
  · rw [List.take_add]
    exact absorbed
  · have pass : s.file.read (nextHashSize data.length s.llReadSize check)
        = (.bytes (Overlay.window data pos hashChunk), file) := by
      rw [size]
      exact reply
    rw [calFileLoop_pass pass, if_pos ⟨length, by rw [counted]; exact more⟩]

/-- Several passes take their chunks in. -/
theorem calFileLoop_chunks (addressable : data.length < MAX_OFFSET) (n : Nat) :
    ∀ (pos i : Nat) (s : HashState), DigestAt c backend data ctx pos s →
      pos + n * hashChunk < data.length ∨ n = 0 →
      ∃ s', DigestAt c backend data ctx (pos + n * hashChunk) s'
        ∧ calFileLoop c (fun _ => false) data.length check (fuel + n) i s
          = calFileLoop c (fun _ => false) data.length check fuel (i + n) s' := by
  -- the first chunk is taken off the front, so that the state is general in the step
  induction n with
  | zero =>
    intro pos i s front _
    refine ⟨s, ?_, rfl⟩
    rw [Nat.zero_mul]
    exact front
  | succ n ih =>
    intro pos i s front more
    rw [Nat.succ_mul] at more
    have bound : pos + (n * hashChunk + hashChunk) < data.length :=
      more.resolve_right (Nat.succ_ne_zero n)
    obtain ⟨s₁, front₁, pass⟩ := @calFileLoop_chunk c backend check data ctx s pos (fuel + n) i
      addressable front (by omega)
    obtain ⟨s', front', passes⟩ := ih (pos + hashChunk) (i + 1) s₁ front₁ (Or.inl (by omega))
    refine ⟨s', ?_, ?_⟩
    · have place : pos + (n + 1) * hashChunk = pos + hashChunk + n * hashChunk := by
        rw [Nat.succ_mul]
        omega
      rw [place]
      exact front'
    · have count : i + (n + 1) = i + 1 + n := by omega
      rw [count, ← passes, ← pass]
      rfl

/-- When at most a chunk is left, the pass that reads it is the last. -/
theorem calFileLoop_last (front : DigestAt c backend data ctx pos s)
    (rest : data.length ≤ pos + hashChunk)
    (served : backend = .fat → nextHashSize data.length pos check < MY_DEFINE_BUFFER_SIZE
      ∨ pos + nextHashSize data.length pos check ≤ data.length) :
    ∃ file, calFileLoop c (fun _ => false) data.length check (fuel + 1) i s
      = some (true, passOver c data.length s file
          (Overlay.window data pos (nextHashSize data.length pos check))) := by
  obtain ⟨file, reply, -⟩ := front.stands.read front.inside served
  refine ⟨file, ?_⟩
  rw [calFileLoop_pass (by rw [front.read]; exact reply), passOver_read, front.read, if_neg]
  rintro ⟨full, more⟩
  omega

/-- A long read at the end of a FAT file never ends, and neither does the digest. -/
theorem calFileLoop_hangs (front : DigestAt c .fat data ctx pos s)
    (long : MY_DEFINE_BUFFER_SIZE ≤ nextHashSize data.length pos check)
    (short : data.length < pos + nextHashSize data.length pos check) :
    calFileLoop c (fun _ => false) data.length check (fuel + 1) i s = none := by
  have hangs := front.stands.reads.short front.stands.kind front.inside long short
  rw [calFileLoop, if_neg Bool.false_ne_true, front.read]
  generalize s.file.read (nextHashSize data.length pos check) = result at hangs
  obtain ⟨reply, file⟩ := result
  dsimp only at hangs ⊢
  rw [hangs]

/-! ### The last read -/

/-- Where the last chunk of a file starts. -/
def lastChunk (filesize : Nat) : Nat := (filesize - 1) / hashChunk * hashChunk

/-- The last chunk is not empty and not too long, unless the file is empty. -/
theorem lastChunk_spec (filesize : Nat) :
    lastChunk filesize % hashChunk = 0 ∧ lastChunk filesize ≤ filesize
      ∧ filesize ≤ lastChunk filesize + hashChunk ∧ (lastChunk filesize < filesize ∨ filesize = 0) := by
  rw [lastChunk, hashChunk]
  omega

/-- The loop comes to the last chunk with everything in front of it taken in. -/
theorem calFileSHA256Value_front (addressable : data.length < MAX_OFFSET) :
    ∃ s fuel i, DigestAt c backend data ctx (lastChunk data.length) s
      ∧ calFileSHA256Value c (fun _ => false) check (openFile backend data []) ctx
        = calFileLoop c (fun _ => false) data.length check (fuel + 1) i s := by
  have count : (data.length - 1) / hashChunk * hashChunk < data.length
      ∨ (data.length - 1) / hashChunk = 0 := by
    rw [hashChunk]
    omega
  have fuel : data.length + 1
      = data.length - (data.length - 1) / hashChunk + 1 + (data.length - 1) / hashChunk := by
    rw [hashChunk]
    omega
  obtain ⟨s, front, passes⟩ :=
    @calFileLoop_chunks c backend check data ctx (data.length - (data.length - 1) / hashChunk + 1)
      addressable ((data.length - 1) / hashChunk) 0 0 _ (digestAt_start addressable)
      (by rw [Nat.zero_add]; exact count)
  refine ⟨s, data.length - (data.length - 1) / hashChunk, 0 + (data.length - 1) / hashChunk, ?_, ?_⟩
  · rw [lastChunk, ← Nat.zero_add ((data.length - 1) / hashChunk * hashChunk)]
    exact front
  · rw [← passes, ← fuel, calFileSHA256Value]
    cases backend <;> rfl

/-- What the loop asks for last. -/
def lastSize (bIsCheckValue : Bool) (filesize : Nat) : Nat :=
  nextHashSize filesize (lastChunk filesize) bIsCheckValue

/-- The bytes the last read brings. -/
def lastBytes (bIsCheckValue : Bool) (data : Bytes) : Bytes :=
  Overlay.window data (lastChunk data.length) (lastSize bIsCheckValue data.length)

/--
What the digest has taken in at its end, when the last read does.

Without a byte in the last read the section that is open then is left out.
-/
theorem calFileSHA256Value_ends (addressable : data.length < MAX_OFFSET)
    (served : backend = .fat → lastSize check data.length < MY_DEFINE_BUFFER_SIZE
      ∨ lastChunk data.length + lastSize check data.length ≤ data.length) :
    ∃ s, calFileSHA256Value c (fun _ => false) check (openFile backend data []) ctx = some (true, s)
      ∧ (lastBytes check data ≠ [] → s.ctx = ctx ++ sectionDigests c
          (data.take (lastChunk data.length + (lastBytes check data).length)))
      ∧ (lastBytes check data = [] → ∃ closed rest,
          closed ++ rest = data.take (lastChunk data.length) ∧ closed.length % hashGroup = 0
            ∧ rest.length < hashGroup ∧ s.ctx = ctx ++ sectionDigests c closed) := by
  obtain ⟨aligned, inside, rest, -⟩ := lastChunk_spec data.length
  obtain ⟨s, fuel, i, front, loop⟩ := @calFileSHA256Value_front c backend check data ctx addressable
  obtain ⟨file, result⟩ :=
    @calFileLoop_last c backend check data ctx s _ fuel i front rest served
  have taken : (data.take (lastChunk data.length)).length = lastChunk data.length := by
    rw [List.length_take, Nat.min_eq_left inside]
  -- a last piece closes the open section; without one it stays open for good
  refine ⟨_, loop.trans result, fun some_ => ?_, fun none_ => ?_⟩
  · have window : Overlay.window data (lastChunk data.length) (lastBytes check data).length
        = lastBytes check data := by
      rw [lastBytes, Overlay.window, Overlay.window, List.length_take, ← List.take_eq_take_min]
    have short : (lastBytes check data).length ≤ hashChunk := by
      rw [lastBytes, Overlay.length_window]
      omega
    have message : data.take (lastChunk data.length + (lastBytes check data).length)
        = data.take (lastChunk data.length) ++ lastBytes check data := by
      rw [List.take_add]
      exact congrArg _ window
    rw [message]
    refine absorbWhole_last front.digested (front.read.trans taken.symm) ?_ some_ short ?_
    · rw [taken]
      exact aligned
    · rw [taken]
      rintro ⟨full, more⟩
      omega
  · obtain ⟨closed, whole, length, ctxs, -, less⟩ := front.digested
    refine ⟨closed, s.ctxSec, whole, length, less, ?_⟩
    rw [← ctxs]
    have nothing : Overlay.window data (lastChunk data.length)
        (nextHashSize data.length (lastChunk data.length) check) = [] := none_
    rw [passOver, absorbWhole, if_pos nothing]

/-- Where the last read of a FAT file is a long one past its end, the digest never ends. -/
theorem calFileSHA256Value_hangs (addressable : data.length < MAX_OFFSET)
    (long : MY_DEFINE_BUFFER_SIZE ≤ lastSize check data.length)
    (short : data.length < lastChunk data.length + lastSize check data.length) :
    calFileSHA256Value c (fun _ => false) check (openFile .fat data []) ctx = none := by
  obtain ⟨s, fuel, i, front, loop⟩ := @calFileSHA256Value_front c .fat check data ctx addressable
  rw [loop]
  exact calFileLoop_hangs front long short

/-! ### The payload -/

/-- The digest that is its message. -/
def plainHash : CheckHash where
  sha256 := id
  pbkdf2 _ _ _ := List.replicate PBKDF2P_LEN 1
  pbkdf2_length _ _ _ := List.length_replicate

/-- Plain sections are the message. -/
theorem sectionDigests_plain (message : Bytes) : sectionDigests plainHash message = message := by
  have cut := Chunks.flatten_chunks hashGroup_pos message
  rw [sectionDigests, List.flatMap_def]
  exact (congrArg List.flatten (List.map_id _)).trans cut

/-- Payloads with the same sections are the same. -/
theorem sections_inj {other message : Bytes} (apart : other ≠ message) :
    chunks hashGroup other ≠ chunks hashGroup message := by
  intro same
  have flat := congrArg List.flatten same
  rw [Chunks.flatten_chunks hashGroup_pos, Chunks.flatten_chunks hashGroup_pos] at flat
  exact apart flat

/-- The payload is the file up to its check value. -/
theorem length_payload : (payload true data).length = data.length - PBKDF2P_LEN := by
  rw [payload, if_pos rfl, List.length_take]
  omega

/-- A file without a check value is digested to its end. -/
theorem digestCovers_plain (addressable : data.length < MAX_OFFSET) :
    DigestCovers backend false data := by
  refine ⟨fun c ctx => ?_, fun other apart => sections_inj apart⟩
  obtain ⟨-, inside, rest, some_⟩ := lastChunk_spec data.length
  have size : lastSize false data.length = data.length - lastChunk data.length := by
    rw [lastSize, nextHashSize, if_neg (by omega), if_neg Bool.false_ne_true]
  obtain ⟨s, result, filled, empty⟩ := @calFileSHA256Value_ends c backend false data ctx addressable
    fun _ => Or.inr (by omega)
  refine ⟨s, result, ?_⟩
  have length : (lastBytes false data).length = data.length - lastChunk data.length := by
    rw [lastBytes, Overlay.length_window]
    omega
  by_cases none_ : lastBytes false data = []
  · -- Only an empty file has no last chunk.
    rw [none_, List.length_nil] at length
    have nothing : data = [] := List.length_eq_zero_iff.mp (by omega)
    obtain ⟨closed, rest, whole, -, -, message⟩ := empty none_
    rw [nothing, List.take_nil, List.append_eq_nil_iff] at whole
    rw [message, whole.1, payload, if_neg Bool.false_ne_true, nothing]
  · have all : lastChunk data.length + (lastBytes false data).length = data.length := by omega
    rw [filled none_, all, List.take_length, payload, if_neg Bool.false_ne_true]

/-- What is asked for last in front of a whole check value ends where the value starts. -/
theorem lastSize_check (sealed : PBKDF2P_LEN ≤ data.length - lastChunk data.length) :
    lastSize true data.length = data.length - lastChunk data.length - PBKDF2P_LEN := by
  obtain ⟨-, inside, rest, -⟩ := lastChunk_spec data.length
  rw [lastSize, nextHashSize, if_neg (by omega), if_pos rfl, u32]
  simp only [PBKDF2P_LEN, hashChunk] at sealed rest ⊢
  omega

/--
With the whole check value in the last chunk, the digest is that of the payload.

Unless the value is all of the chunk: then the section that is open is left out.
-/
theorem digestCovers_check (addressable : data.length < MAX_OFFSET)
    (sealed : PBKDF2P_LEN ≤ data.length - lastChunk data.length) :
    DigestCovers backend true data ↔
      (data.length - PBKDF2P_LEN) % hashGroup = 0
        ∨ data.length - lastChunk data.length ≠ PBKDF2P_LEN := by
  obtain ⟨aligned, inside, rest, -⟩ := lastChunk_spec data.length
  have size := lastSize_check sealed
  have length : (lastBytes true data).length
      = data.length - lastChunk data.length - PBKDF2P_LEN := by
    rw [lastBytes, Overlay.length_window, size]
    omega
  have ends := fun c ctx => @calFileSHA256Value_ends c backend true data ctx addressable
    fun _ => Or.inr (by omega)
  by_cases none_ : lastBytes true data = []
  · rw [none_, List.length_nil] at length
    have start : data.take (lastChunk data.length) = payload true data := by
      rw [payload, if_pos rfl]
      congr 1
      omega
    constructor
    · rintro ⟨folds, -⟩
      -- The plain digest shows which sections were closed.
      obtain ⟨s, result, -, empty⟩ := ends plainHash []
      obtain ⟨s', result', message⟩ := folds plainHash []
      obtain ⟨closed, rest, -, length, -, taken⟩ := empty none_
      rw [result] at result'
      cases result'
      rw [taken, sectionDigests_plain, sectionDigests_plain, List.nil_append, List.nil_append]
        at message
      rw [message, length_payload] at length
      exact Or.inl length
    · intro condition
      have whole : (data.length - PBKDF2P_LEN) % hashGroup = 0 := by
        cases condition with
        | inl whole => exact whole
        | inr more => omega
      refine ⟨fun c ctx => ?_, fun other apart => sections_inj apart⟩
      obtain ⟨s, result, -, empty⟩ := ends c ctx
      obtain ⟨closed, rest, parts, length, less, taken⟩ := empty none_
      -- Whole sections in a payload of whole sections leave no room for an open one.
      have lengths : closed.length + rest.length = data.length - PBKDF2P_LEN := by
        rw [← length_payload, ← start, ← parts, List.length_append]
      have nothing : rest = [] := by
        apply List.length_eq_zero_iff.mp
        simp only [hashGroup] at whole length less
        omega
      refine ⟨s, result, ?_⟩
      rw [taken, ← start, ← parts, nothing, List.append_nil]
  · have some_ : 0 < (lastBytes true data).length := List.length_pos_iff.mpr none_
    refine ⟨fun _ => Or.inr (by omega), fun _ => ⟨fun c ctx => ?_, fun other apart => sections_inj apart⟩⟩
    obtain ⟨s, result, filled, -⟩ := ends c ctx
    have all : lastChunk data.length + (lastBytes true data).length = data.length - PBKDF2P_LEN := by
      omega
    refine ⟨s, result, ?_⟩
    rw [filled none_, all, payload, if_pos rfl]

/-- With a part of the check value in front of the last chunk, the digest takes it all in, or hangs. -/
theorem not_digestCovers_cut (addressable : data.length < MAX_OFFSET)
    (sealed : PBKDF2P_LEN ≤ data.length) (cut : data.length - lastChunk data.length < PBKDF2P_LEN) :
    ¬ DigestCovers backend true data := by
  rintro ⟨folds, -⟩
  obtain ⟨aligned, inside, rest, some_⟩ := lastChunk_spec data.length
  have size : lastSize true data.length
      = 2 ^ 32 + (data.length - lastChunk data.length) - PBKDF2P_LEN := by
    rw [lastSize, nextHashSize, if_neg (by omega), if_pos rfl, u32]
    simp only [PBKDF2P_LEN] at cut ⊢
    omega
  have large : MY_DEFINE_BUFFER_SIZE ≤ lastSize true data.length
      ∧ data.length - lastChunk data.length ≤ lastSize true data.length := by
    rw [size]
    simp only [MY_DEFINE_BUFFER_SIZE, PBKDF2P_LEN] at cut sealed ⊢
    omega
  simp only [PBKDF2P_LEN] at cut sealed
  obtain ⟨s', result', message⟩ := folds plainHash []
  cases backend with
  | fat =>
    have hangs := @calFileSHA256Value_hangs plainHash true data [] addressable large.1
      (by rw [size, PBKDF2P_LEN]; omega)
    rw [hangs] at result'
    cases result'
  | ntfs =>
    obtain ⟨s, result, filled, -⟩ := @calFileSHA256Value_ends plainHash .ntfs true data [] addressable
      fun fat => Backend.noConfusion fat
    have length : (lastBytes true data).length = data.length - lastChunk data.length := by
      rw [lastBytes, Overlay.length_window, Nat.min_eq_right large.2]
    have all : lastChunk data.length + (lastBytes true data).length = data.length := by omega
    have taken := filled (List.ne_nil_of_length_pos (by omega))
    rw [result] at result'
    cases result'
    rw [message, all, List.take_length, sectionDigests_plain, sectionDigests_plain, List.nil_append,
      List.nil_append] at taken
    -- The payload would be as long as the whole file.
    have lengths := congrArg List.length taken
    rw [length_payload] at lengths
    simp only [PBKDF2P_LEN] at lengths
    omega

/-- The sizes at which the digest covers the payload, for every file the driver can address. -/
theorem digestCovers_iff (addressable : data.length < MAX_OFFSET)
    (sealed : check = true → PBKDF2P_LEN ≤ data.length) :
    DigestCovers backend check data ↔ DigestWhole check data.length := by
  obtain ⟨aligned, inside, rest, some_⟩ := lastChunk_spec data.length
  cases check with
  | false => exact iff_of_true (digestCovers_plain addressable) (Or.inl rfl)
  | true =>
    have long := sealed rfl
    by_cases whole : PBKDF2P_LEN ≤ data.length - lastChunk data.length
    · rw [digestCovers_check addressable whole, DigestWhole]
      simp only [PBKDF2P_LEN, hashChunk, hashGroup, Bool.true_eq_false, false_or]
        at whole aligned inside rest long ⊢
      omega
    · refine iff_of_false (not_digestCovers_cut addressable long (by omega)) ?_
      rw [DigestWhole]
      simp only [PBKDF2P_LEN, hashChunk, hashGroup, Bool.true_eq_false, false_or]
        at whole aligned inside rest long ⊢
      omega

/--
Below the large files the digest covers the payload exactly at the right sizes.

A file with a check value is at least as long as the value.
-/
theorem calFileSHA256Value_coversPayload (backend : Backend) (bIsCheckValue : Bool) (data : Bytes)
    (small : data.length ≤ largeFile) (sealed : bIsCheckValue = true → PBKDF2P_LEN ≤ data.length) :
    DigestCovers backend bIsCheckValue data ↔ DigestWhole bIsCheckValue data.length := by
  have bound : largeFile < MAX_OFFSET := by decide
  exact digestCovers_iff (Nat.lt_of_le_of_lt small bound) sealed

/-- A payload of one byte is covered. -/
theorem calFileSHA256Value_coversByte : DigestCovers .fat true (List.replicate 33 7) :=
  (calFileSHA256Value_coversPayload .fat true (List.replicate 33 7) (by decide) (fun _ => by decide)).mpr
    (by decide)

/-- A payload of one chunk is not covered: no byte of it reaches the digest. -/
theorem calFileSHA256Value_skipsChunk : ¬ DigestCovers .ntfs true (List.replicate 8224 7) := by
  have length : (List.replicate 8224 (7 : UInt8)).length = 8224 := List.length_replicate
  have addressable : (List.replicate 8224 (7 : UInt8)).length < MAX_OFFSET := by
    rw [length]
    decide
  rw [digestCovers_iff addressable (by rw [length]; decide), length]
  decide

end Okr
