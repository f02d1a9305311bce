import Okr.Proofs.CheckDigest

/-! The check value of an image on an NTFS volume, through the cached handle. -/

namespace Okr

open Overlay (window)

/-! ### A segment with bytes -/

/-- The placeholder waits in the cache behind the stored bytes, or the cache came from the file. -/
def Pending (data : Bytes) (file : OpenFile) : Prop :=
  ∃ h, file = .ntfs h ∧ h.file.data = data ∧ h.ifeof = false
    ∧ h.cache.length ≤ DEFAULT_FILE_CACHE_SIZE
    ∧ (data.length ≤ largeFile → h.cachedatapos = data.length ∨ h.Fetched)

/-- Seeking moves the position only. -/
theorem Pending.setPos {data : Bytes} {file : OpenFile} (pos : Nat) (pending : Pending data file) :
    Pending data (file.setPos pos) := by
  obtain ⟨h, rfl, same, -, small, place⟩ := pending
  exact ⟨_, rfl, same, rfl, small, place⟩

/-- A read of a large file keeps the bounds that are all that is known of its cache. -/
theorem Pending.readLarge {data : Bytes} {file : OpenFile} (size : Nat)
    (large : data.length > largeFile) (pending : Pending data file) :
    Pending data (file.read size).2 := by
  obtain ⟨h, rfl, same, live, small, -⟩ := pending
  obtain ⟨frame, -, bound⟩ := normalFileRead_frame h size
  exact ⟨_, rfl, frame.data.trans same, frame.eof.trans live, bound small, fun few => by omega⟩

/-- A read from a sector boundary never looks behind the cached bytes for its page. -/
theorem Pending.readAligned {data : Bytes} {file : OpenFile} (pos size : Nat) (aligned : pos % 512 = 0)
    (pending : Pending data file) : Pending data ((file.setPos pos).read size).2 := by
  obtain ⟨h, rfl, same, -, small, place⟩ := pending
  obtain ⟨frame, cache, bound⟩ := normalFileRead_frame (fileSetPos h pos) size
  refine ⟨_, rfl, frame.data.trans same, frame.eof, bound small, fun few => ?_⟩
  have hit : (fileSetPos h pos).misses = false := by
    simp only [Handle.misses, fileSetPos, aligned, bne_self_eq_false, Bool.false_and]
  rcases cache hit with kept | fetched
  · rcases place few with behind | fetched
    · exact Or.inl (kept.2.trans behind)
    · exact Or.inr (Handle.Fetched.same (h := fileSetPos h pos) fetched frame kept)
  · exact Or.inr fetched

/-- Hashing leaves the placeholder pending. -/
theorem Pending.hash {data : Bytes} {c : CheckHash} {breaks : Nat → Bool} {check : Bool}
    {fileNumber : Nat} {file : OpenFile} {ctx : Bytes} {ok : Bool} {s : HashState}
    (pending : Pending data file)
    (result : hashFile c breaks check fileNumber file ctx = some (ok, s)) : Pending data s.file := by
  have size : file.getSize = data.length := by
    obtain ⟨h, rfl, same, -⟩ := pending
    exact congrArg List.length same
  refine hashFile_preserves (Pending data) (fun _ pos inv => inv.setPos pos)
    (fun _ pos size inv aligned => inv.readAligned pos size aligned)
    (fun large _ size' inv => inv.readLarge size' ?_) pending result
  rw [← size]
  exact large

/-- A file on an NTFS volume whose cache, if any, came from inside the stored bytes. -/
def FromFile (data : Bytes) (file : OpenFile) : Prop :=
  ∃ h, file = .ntfs h ∧ h.file.data = data ∧ h.ifeof = false ∧ h.Fetched

/-- A read of the middle that reports bytes has replaced the pending placeholder. -/
theorem Pending.readMiddle {data bytes : Bytes} {file after : OpenFile} (some_ : 0 < data.length)
    (pending : Pending data file)
    (read : (file.setPos (data.length / 2)).read SALT_LEN = (.bytes bytes, after)) :
    FromFile data after := by
  obtain ⟨h, rfl, same, -, small, place⟩ := pending
  have frame := (normalFileRead_frame (fileSetPos h (data.length / 2)) SALT_LEN).1
  simp only [OpenFile.setPos, OpenFile.read, Prod.mk.injEq] at read
  refine ⟨_, read.2.symm, frame.data.trans same, frame.eof, ?_⟩
  rcases normalFileRead_small (by decide) (by decide) rfl read.1 with fetched | ⟨kept, whole⟩
  · exact fetched
  · -- The cache held the 32 bytes in the middle, so it cannot reach behind the end of the file.
    obtain ⟨starts, ends⟩ := Handle.cachedPart_whole (by decide) whole
    simp only [fileSetPos, SALT_LEN] at starts ends
    clear whole
    have before : h.Fetched := by
      refine ⟨small, Or.inr ?_⟩
      rw [same]
      by_cases few : data.length ≤ largeFile
      · rcases place few with behind | fetched
        · omega
        · rcases fetched.2 with empty | inside
          · rw [empty, List.length_nil] at ends
            omega
          · rw [same] at inside
            exact inside
      · -- Half of a large file is more than a cache holds.
        have big : largeFile = 356515840 := rfl
        have cap : DEFAULT_FILE_CACHE_SIZE = 1048576 := rfl
        omega
    exact Handle.Fetched.same (h := fileSetPos h (data.length / 2)) before frame kept

/-- A further small read that reports bytes leaves the cache filled from the file. -/
theorem FromFile.read {data bytes : Bytes} {file after : OpenFile} {pos size : Nat}
    (wanted : 0 < size) (few : size < DEFAULT_FILE_CACHE_SIZE) (fromFile : FromFile data file)
    (read : (file.setPos pos).read size = (.bytes bytes, after)) : FromFile data after := by
  obtain ⟨h, rfl, same, -, fetched⟩ := fromFile
  have frame := (normalFileRead_frame (fileSetPos h pos) size).1
  simp only [OpenFile.setPos, OpenFile.read, Prod.mk.injEq] at read
  refine ⟨_, read.2.symm, frame.data.trans same, frame.eof, ?_⟩
  rcases normalFileRead_small wanted few rfl read.1 with again | ⟨kept, -⟩
  · exact again
  · exact Handle.Fetched.same (h := fileSetPos h pos) fetched frame kept

/-- The salt's two reads replace the pending placeholder by bytes of the file. -/
theorem Pending.salt {data : Bytes} {file after : OpenFile} {salt : Bytes × Nat}
    (some_ : 0 < data.length) (pending : Pending data file)
    (result : getSaltValue file = some (some salt, after)) : FromFile data after := by
  have size : file.getSize = data.length := by
    obtain ⟨h, rfl, same, -⟩ := pending
    exact congrArg List.length same
  obtain ⟨bytes₁, bytes₂, mid, first, second⟩ := getSaltValue_some result
  rw [size] at first second
  exact (pending.readMiddle some_ first).read (by decide) (by decide) second

/-- The check value then goes over the last 32 bytes, or to a position the driver refuses. -/
theorem FromFile.save {data value : Bytes} {file : OpenFile} (some_ : 0 < data.length)
    (stored : data.length < MAX_OFFSET) (fromFile : FromFile data file)
    (length : value.length = PBKDF2P_LEN) :
    (saveFileCheckValue file value).2.close.length = data.length := by
  obtain ⟨h, rfl, same, -, fetched⟩ := fromFile
  obtain ⟨pos, posEq⟩ : ∃ pos, pos = sub64 data.length SALT_LEN := ⟨_, rfl⟩
  have takes : NtfsFile.Takes h.file pos value.length := by
    unfold NtfsFile.Takes
    rw [same, length, posEq]
    simp only [MAX_OFFSET, sub64, SALT_LEN, PBKDF2P_LEN] at stored ⊢
    omega
  have small : value.length < DEFAULT_FILE_CACHE_SIZE := Nat.lt_of_le_of_lt length.le (by decide)
  obtain ⟨kept, contained⟩ := normalFileWrite_keeps
    (h := fileSetPos h pos) small fetched.contained takes
  have closed := fileClose_keeps contained
  rw [kept] at closed
  simp only [saveFileCheckValue, OpenFile.getSize, OpenFile.data, same, if_pos some_, ← posEq,
    OpenFile.setPos, OpenFile.write, OpenFile.close]
  rw [closed]
  exact congrArg List.length same

/-- The placeholder stays in the cache, behind the bytes the volume stores. -/
theorem saveZeroData_ntfs (data : Bytes) (faults : List (Option Fault)) :
    saveZeroData (openFile .ntfs data faults)
      = (.wrote PBKDF2P_LEN, .ntfs
          { file := { data := data, faults := faults }
            filepos := data.length + PBKDF2P_LEN
            cachedirty := true
            cachedatapos := data.length
            cache := placeholder }) := by
  have stages : ∀ h : Handle, h.cache = [] → writeStages h placeholder = writePast h placeholder :=
    fun h empty => by rw [writeStages, if_pos empty]
  simp only [saveZeroData, openFile, OpenFile.getSize, OpenFile.data, OpenFile.setPos, fileSetPos,
    OpenFile.write, normalFileWrite]
  rw [stages _ rfl, writePast_small (by decide)]
  rfl

/-- On an NTFS volume a segment with bytes is never longer afterwards. -/
theorem checkValue_ntfs {c : CheckHash} {env : CheckEnv} {img : ImageFiles} {r : CheckResult}
    (ntfs : img.backend = .ntfs) (stored : img.last.length < MAX_OFFSET) (some_ : img.last ≠ [])
    (result : calculateFileCheckValue c env img = some r) (ok : r.ok = true) :
    r.last.length = img.last.length := by
  obtain ⟨file, computed, -, last⟩ := calculateFileCheckValue_ok result ok
  have whole := img.whole ntfs
  rw [ntfs, saveZeroData_ntfs] at computed
  obtain ⟨length, ctx, first, s, salt, hashed, hash, salted⟩ := calCheckValue_some computed
  have bytes : 0 < img.last.length := List.length_pos_of_ne_nil some_
  have pending : Pending img.last (.ntfs
      { file := { data := img.last, faults := env.last }
        filepos := img.last.length + PBKDF2P_LEN
        cachedirty := true
        cachedatapos := img.last.length
        cache := placeholder }) :=
    ⟨_, rfl, rfl, rfl, (by decide : placeholder.length ≤ DEFAULT_FILE_CACHE_SIZE),
      fun _ => Or.inl rfl⟩
  -- There is only one segment, so the salt comes from the very handle that holds the placeholder.
  rw [whole] at hashed
  simp only [hashSegments, Option.some.injEq, Prod.mk.injEq, true_and] at hashed
  rcases salted with ⟨-, -, found⟩ | ⟨data, rest, seg, more, -⟩
  · rw [last]
    exact ((pending.hash hash).salt bytes found).save bytes stored length
  · rw [← hashed.2] at more
    exact absurd more (by simp)

/-! ### An empty segment -/

/-- The handle of an empty segment with the placeholder in its cache. -/
def emptyPending (faults : List (Option Fault)) (filepos : Nat) : Handle :=
  { file := { data := [], faults := faults }
    filepos := filepos
    cachedirty := true
    cachedatapos := 0
    cache := placeholder }

/-- The cache delivers as much of the placeholder as is wanted. -/
theorem emptyPending_part (faults : List (Option Fault)) (size : Nat) :
    (emptyPending faults 0).cachedPart size = min size PBKDF2P_LEN := by
  have length : placeholder.length = PBKDF2P_LEN := rfl
  simp only [Handle.cachedPart, emptyPending, length]
  exact if_pos ⟨Nat.le_refl _, by decide⟩

/-- Reading no more than the placeholder is served by the cache. -/
theorem readEmpty_within (faults : List (Option Fault)) (size : Nat) (within : size ≤ PBKDF2P_LEN) :
    normalFileRead (emptyPending faults 0) size
      = (.bytes (placeholder.take size), emptyPending faults size) := by
  by_cases none_ : size = 0
  · subst none_
    rfl
  · have part := emptyPending_part faults size
    have least : min size PBKDF2P_LEN = size := by omega
    -- One pass delivers all of it.
    have pass : readPass { h := emptyPending faults 0, total := size }
        = (.go, { h := emptyPending faults size, total := 0, out := placeholder.take size }) := by
      have copied : copyCached { h := emptyPending faults 0, total := size }
          = { h := emptyPending faults size, total := 0, out := placeholder.take size } := by
        simp only [copyCached, part, least, Nat.sub_self]
        simp only [emptyPending, Nat.zero_add, window, Nat.sub_zero, List.drop_zero,
          List.nil_append]
      have aligned : loadAligned { h := emptyPending faults 0, total := size }
          = (.go, { h := emptyPending faults 0, total := size }) := rfl
      simp only [readPass, aligned, copied, if_true]
    have live : (emptyPending faults 0).ifeof = false := rfl
    simp only [normalFileRead, live, Bool.false_eq_true, if_false]
    rw [readLoop_go (2 * size + 1) none_ pass, readLoop_done _ rfl]

/-- Reading on behind the placeholder fails: the volume stores nothing there. -/
theorem readEmpty_past (faults : List (Option Fault)) (size : Nat) (past : PBKDF2P_LEN < size)
    (direct : cacheMultiple (size - PBKDF2P_LEN) ≠ 0) :
    normalFileRead (emptyPending faults 0) size
      = (.failed, emptyPending faults.tail PBKDF2P_LEN) := by
  have part := emptyPending_part faults size
  have least : min size PBKDF2P_LEN = PBKDF2P_LEN := by omega
  have wanted : size ≠ 0 := by omega
  have left : size - PBKDF2P_LEN ≠ 0 := by omega
  have pass : readPass { h := emptyPending faults 0, total := size }
      = (.fail, { h := emptyPending faults.tail PBKDF2P_LEN
                  total := size - PBKDF2P_LEN
                  out := placeholder }) := by
    have copied : copyCached { h := emptyPending faults 0, total := size }
        = { h := emptyPending faults PBKDF2P_LEN, total := size - PBKDF2P_LEN, out := placeholder } := by
      simp only [copyCached, part, least]
      rfl
    have aligned : loadAligned { h := emptyPending faults 0, total := size }
        = (.go, { h := emptyPending faults 0, total := size }) := rfl
    simp only [readPass, aligned, copied, if_neg left]
    -- The first chunk is asked for behind the end of the file.
    have refused : ∀ chunk, nReadFile { data := [], faults := faults } PBKDF2P_LEN chunk
        = (none, { data := [], faults := faults.tail }) := by
      intro chunk
      simp only [nReadFile, nextFault_eq]
      exact if_pos (by decide)
    generalize cacheMultiple (size - PBKDF2P_LEN) = readsize at direct ⊢
    obtain ⟨fuel, fuelEq⟩ : ∃ fuel, size - PBKDF2P_LEN = fuel + 1 :=
      ⟨size - PBKDF2P_LEN - 1, by omega⟩
    rw [fuelEq, readDirect_refused direct (refused _)]
    rfl
  have live : (emptyPending faults 0).ifeof = false := rfl
  simp only [normalFileRead, live, Bool.false_eq_true, if_false]
  rw [readLoop_ends (2 * size + 1) wanted pass (by simp)]

/-- The digest of an empty segment takes nothing in, and costs one call of the driver. -/
theorem hashFile_empty (c : CheckHash) {breaks : Nat → Bool} (quiet : breaks 0 = false)
    (fileNumber : Nat) (faults : List (Option Fault)) (filepos : Nat) :
    hashFile c breaks true fileNumber (.ntfs (emptyPending faults filepos)) []
      = some (true, { file := .ntfs (emptyPending faults.tail PBKDF2P_LEN), ctx := [] }) := by
  have past : OpenFile.read (.ntfs (emptyPending faults 0)) (nextHashSize 0 0 true)
      = (.failed, .ntfs (emptyPending faults.tail PBKDF2P_LEN)) := by
    have read := readEmpty_past faults (nextHashSize 0 0 true) (by decide) (by decide)
    simp only [OpenFile.read, read]
  have size : OpenFile.getSize (.ntfs (emptyPending faults filepos)) = 0 := rfl
  have seek : OpenFile.setPos (.ntfs (emptyPending faults filepos)) 0 = .ntfs (emptyPending faults 0) :=
    rfl
  have notLarge : ¬ 0 > largeFile := by omega
  simp only [hashFile, size, if_neg notLarge, calFileSHA256Value, seek, calFileLoop, quiet,
    Bool.false_eq_true, if_false, past]

/-- The salt of an empty segment is the placeholder itself. -/
theorem getSaltValue_empty (faults : List (Option Fault)) (filepos : Nat) :
    getSaltValue (.ntfs (emptyPending faults filepos))
      = some (some (placeholder, 0x30), .ntfs (emptyPending faults 4)) := by
  have size : OpenFile.getSize (.ntfs (emptyPending faults filepos)) = 0 := rfl
  have seek : ∀ pos, OpenFile.setPos (.ntfs (emptyPending faults pos)) 0
      = .ntfs (emptyPending faults 0) := fun _ => rfl
  have first : OpenFile.read (.ntfs (emptyPending faults 0)) SALT_LEN
      = (.bytes placeholder, .ntfs (emptyPending faults SALT_LEN)) := by
    simp only [OpenFile.read, readEmpty_within faults SALT_LEN (by decide)]
    rfl
  have second : OpenFile.read (.ntfs (emptyPending faults 0)) 4
      = (.bytes (placeholder.take 4), .ntfs (emptyPending faults 4)) := by
    simp only [OpenFile.read, readEmpty_within faults 4 (by decide)]
  simp only [getSaltValue, size, Nat.zero_div, seek, first, second]
  rfl

/-- The check value of an empty segment. -/
def emptyValue (c : CheckHash) : Bytes :=
  c.pbkdf2 (c.sha256 []) placeholder (3000 + 0x30)

/-- The handle that has flushed the placeholder and holds the check value instead. -/
def emptyValued (c : CheckHash) (h : Handle) : Handle :=
  { h with cache := emptyValue c, cachedatapos := 0, filepos := PBKDF2P_LEN, cachedirty := true }

/-- The check value of an empty segment flushes the placeholder and waits in the cache itself. -/
theorem saveEmpty (c : CheckHash) (faults : List (Option Fault)) (filepos : Nat) :
    saveFileCheckValue (.ntfs (emptyPending faults filepos)) (emptyValue c)
      = match flushCache (emptyPending faults 0) with
        | (false, h) => (.failed, .ntfs h)
        | (true, h) => (.wrote PBKDF2P_LEN, .ntfs (emptyValued c h)) := by
  have length : (emptyValue c).length = PBKDF2P_LEN := c.pbkdf2_length _ _ _
  have some_ : placeholder ≠ [] := by decide
  have apart : (emptyPending faults 0).filepos
      ≠ (emptyPending faults 0).cachedatapos + (emptyPending faults 0).cache.length :=
    (by decide : (0 : Nat) ≠ 0 + placeholder.length)
  have room : (emptyValue c).length ≤ DEFAULT_FILE_CACHE_SIZE :=
    Nat.le_trans length.le (by decide)
  have few : PBKDF2P_LEN ≠ DEFAULT_FILE_CACHE_SIZE := by decide
  have size : OpenFile.getSize (.ntfs (emptyPending faults filepos)) = 0 := rfl
  have seek : OpenFile.setPos (.ntfs (emptyPending faults filepos)) 0 = .ntfs (emptyPending faults 0) :=
    rfl
  have cached : (emptyPending faults 0).cache = placeholder := rfl
  simp only [saveFileCheckValue, size, gt_iff_lt, Nat.lt_irrefl, if_false, seek, OpenFile.write,
    normalFileWrite, writeStages, cached, if_neg some_]
  have settle : settleCache (emptyPending faults 0)
      = match flushCache (emptyPending faults 0) with
        | (false, h) => (false, h)
        | (true, h) => (true, { h with cache := [], cachedatapos := h.filepos }) := by
    unfold settleCache
    refine (if_pos apart).trans ?_
    cases flushCache (emptyPending faults 0) with
    | mk ok h => cases ok <;> rfl
  rw [settle]
  obtain ⟨file, frame⟩ := flushCache_frame (emptyPending faults 0)
  cases flush : flushCache (emptyPending faults 0) with
  | mk ok h =>
    rw [flush] at frame
    simp only at frame
    subst frame
    cases ok with
    | false => rfl
    | true =>
      -- The emptied cache takes the whole value.
      have taken : (emptyValue c).take DEFAULT_FILE_CACHE_SIZE = emptyValue c :=
        List.take_of_length_le room
      have none_ : (emptyValue c).drop DEFAULT_FILE_CACHE_SIZE = [] :=
        List.drop_eq_nil_of_le room
      simp only [fillCache, List.length_nil, Nat.sub_zero, List.nil_append, taken, none_, length,
        if_neg few, emptyValued, emptyPending, Nat.zero_add]

/-- A check value made for an empty segment on an NTFS volume, when nobody breaks it off. -/
theorem calculate_empty (c : CheckHash) {env : CheckEnv} {img : ImageFiles}
    (ntfs : img.backend = .ntfs) (empty : img.last = []) (quiet : env.breaks 0 0 = false) :
    calculateFileCheckValue c env img
      = match flushCache (emptyPending env.last.tail 0) with
        | (false, h) =>
          some { ok := false, first := [], last := (fileClose h).file.data, value := emptyValue c }
        | (true, h) =>
          some { ok := true, first := [], last := (fileClose (emptyValued c h)).file.data
                 value := emptyValue c } := by
  have whole := img.whole ntfs
  have hash := hashFile_empty c quiet img.fileNumber env.last PBKDF2P_LEN
  have zeros : saveZeroData (openFile .ntfs [] env.last)
      = (.wrote PBKDF2P_LEN, .ntfs (emptyPending env.last PBKDF2P_LEN)) := by
    rw [saveZeroData_ntfs]
    rfl
  have computed : calCheckValue c env img (.ntfs (emptyPending env.last PBKDF2P_LEN))
      = some (some (emptyValue c), [], .ntfs (emptyPending env.last.tail 4)) := by
    simp only [calCheckValue, whole, hashSegments, List.length_nil, hash, getSaltValue_empty]
    rfl
  simp only [calculateFileCheckValue, storeCheckValue, ntfs, empty, zeros, computed, saveEmpty]
  cases flush : flushCache (emptyPending env.last.tail 0) with
  | mk ok h => cases ok <;> rfl

/-- A write inside the file lays over it what its fault lets through. -/
theorem nWriteFile_inside {f : NtfsFile} {offset : Nat} {bytes : Bytes}
    (inside : offset + bytes.length ≤ f.data.length) (fits : offset + bytes.length < MAX_OFFSET) :
    (nWriteFile f offset bytes).2.data
      = Overlay.write 0 f.data offset
          (bytes.take (storedUnder (f.faults.headD none) bytes.length)) := by
  have inRange : ¬ MAX_OFFSET ≤ offset + bytes.length := by omega
  simp only [nWriteFile, nextFault_eq, if_neg inRange]
  rcases f.faults.headD none with - | - | n
  · simp only [storedUnder, List.take_length]
  · simp only [storedUnder, List.take_zero, Overlay.write_nil]
  · simp only [storedUnder, Nat.sub_eq_zero_of_le inside, List.replicate_zero, List.append_nil]
    rw [List.take_eq_take_iff.mpr
      (by omega : min n bytes.length = min (min n bytes.length) bytes.length)]

/-- A placeholder that was flushed without complaint left 32 bytes, and its last one is zero. -/
theorem flushEmpty_true {faults : List (Option Fault)} {h : Handle}
    (flush : flushCache (emptyPending faults 0) = (true, h)) :
    h.file.data.length = PBKDF2P_LEN ∧ h.file.data[31]? = some 0
      ∧ h.file.faults = faults.tail ∧ h.isOpen = true := by
  have inRange : ¬ MAX_OFFSET ≤ 0 + placeholder.length := by decide
  simp only [flushCache, emptyPending, nWriteFile, nextFault_eq, if_neg inRange] at flush
  rcases fault : faults.headD none with - | - | n
  · simp only [fault, Prod.mk.injEq, true_and] at flush
    subst flush
    exact ⟨rfl, rfl, rfl, rfl⟩
  · simp only [fault, Prod.mk.injEq, Bool.false_eq_true, false_and] at flush
  · simp only [fault, Prod.mk.injEq, true_and] at flush
    subst flush
    -- A short flush leaves zeros behind what it stored, and the placeholder ends in one itself.
    have laid : ∀ m ≤ 32, (Overlay.write 0 ([] ++ List.replicate (0 + placeholder.length - 0) 0) 0
        (placeholder.take m)).length = PBKDF2P_LEN
        ∧ (Overlay.write 0 ([] ++ List.replicate (0 + placeholder.length - 0) 0) 0
          (placeholder.take m))[31]? = some (0 : Byte) := by
      decide +kernel
    have capped : placeholder.take n = placeholder.take (min n 32) :=
      List.take_eq_take_iff.mpr (by have length : placeholder.length = 32 := rfl; omega)
    have result := laid (min n 32) (Nat.min_le_right _ _)
    rw [← capped] at result
    exact ⟨result.1, result.2, rfl, rfl⟩

/-- Closing stores as much of the check value as the driver's last fault lets through. -/
theorem closeEmpty {c : CheckHash} {h : Handle} (opened : h.isOpen = true)
    (length : h.file.data.length = PBKDF2P_LEN) :
    (fileClose (emptyValued c h)).file.data
      = Overlay.write 0 h.file.data 0
          ((emptyValue c).take (storedUnder (h.file.faults.headD none) PBKDF2P_LEN)) := by
  have size : (emptyValue c).length = PBKDF2P_LEN := c.pbkdf2_length _ _ _
  have some_ : emptyValue c ≠ [] := by
    intro none_
    rw [none_] at size
    exact absurd size (by decide)
  have dirty : (emptyValued c h).cachedirty = true ∧ (emptyValued c h).cache ≠ [] := ⟨rfl, some_⟩
  have inside : 0 + (emptyValue c).length ≤ h.file.data.length := by rw [size, length]; omega
  have stored := nWriteFile_inside inside (by rw [size]; decide)
  rw [size] at stored
  have still : (emptyValued c h).isOpen = true := opened
  simp only [fileClose, if_pos still, if_pos dirty]
  have flushed : (flushCache (emptyValued c h)).2.file = (nWriteFile h.file 0 (emptyValue c)).2 := by
    unfold flushCache
    split <;> rename_i write <;> exact (congrArg Prod.snd write).symm
  rw [flushed]
  exact stored

/-- Digests that only serve to tell a check value from what a failed write leaves. -/
def onesHash : CheckHash where
  sha256 := id
  pbkdf2 := fun _ _ _ => List.replicate PBKDF2P_LEN 0xff
  pbkdf2_length := fun _ _ _ => List.length_replicate

/-- A check value that was made for an empty segment was not broken off. -/
theorem quiet_of_ok {c : CheckHash} {env : CheckEnv} {img : ImageFiles} {r : CheckResult}
    (ntfs : img.backend = .ntfs) (empty : img.last = [])
    (result : calculateFileCheckValue c env img = some r) (ok : r.ok = true) :
    env.breaks 0 0 = false := by
  obtain ⟨file, computed, -, -⟩ := calculateFileCheckValue_ok result ok
  rw [ntfs, saveZeroData_ntfs, empty] at computed
  obtain ⟨-, ctx, first, s, salt, -, hash, -⟩ := calCheckValue_some computed
  rw [img.whole ntfs, List.length_nil] at hash
  -- A break in the first pass makes the digest fail.
  cases breaks : env.breaks 0 0 with
  | false => rfl
  | true =>
    simp only [hashFile, OpenFile.getSize, OpenFile.data, List.length_nil, calFileSHA256Value,
      calFileLoop, breaks, if_true] at hash
    rw [if_neg (by omega)] at hash
    simp at hash

/-- An empty segment on an NTFS volume holds its check value exactly when closing stored all of it. -/
theorem checkValue_empty {env : CheckEnv} {img : ImageFiles} (ntfs : img.backend = .ntfs)
    (empty : img.last = [])
    (succeeds : ∃ c r, calculateFileCheckValue c env img = some r ∧ r.ok = true) :
    (∀ c r, calculateFileCheckValue c env img = some r → r.ok = true → CheckAppended img r)
      ↔ CheckSafe env img := by
  have whole := img.whole ntfs
  obtain ⟨c₀, r₀, result, ok⟩ := succeeds
  -- Neither the user's break nor a failed flush of the placeholder depends on the digests.
  have quiet := quiet_of_ok ntfs empty result ok
  obtain ⟨h, flush⟩ : ∃ h, flushCache (emptyPending env.last.tail 0) = (true, h) := by
    rw [calculate_empty c₀ ntfs empty quiet] at result
    cases flush : flushCache (emptyPending env.last.tail 0) with
    | mk flushed h =>
      cases flushed with
      | false =>
        simp only [flush, Option.some.injEq] at result
        rw [← result] at ok
        exact absurd ok (by simp)
      | true => exact ⟨h, rfl⟩
  obtain ⟨length, last, faults, opened⟩ := flushEmpty_true flush
  have made : ∀ c, calculateFileCheckValue c env img
      = some { ok := true, first := [], last := (fileClose (emptyValued c h)).file.data
               value := emptyValue c } := by
    intro c
    rw [calculate_empty c ntfs empty quiet, flush]
  have safe : CheckSafe env img
      ↔ storedUnder (h.file.faults.headD none) PBKDF2P_LEN = PBKDF2P_LEN := by
    simp only [CheckSafe, ntfs, empty, true_and, faults]
  rw [safe]
  constructor
  · intro appended
    have ones := (appended onesHash _ (made onesHash) rfl).1
    simp only [closeEmpty opened length, empty, List.nil_append] at ones
    -- The last byte stored is the value's only when all of the value was stored.
    by_contra short
    have most := storedUnder_le (h.file.faults.headD none) PBKDF2P_LEN
    have behind : 0 + ((emptyValue onesHash).take
        (storedUnder (h.file.faults.headD none) PBKDF2P_LEN)).length ≤ 31 := by
      rw [List.length_take]
      simp only [PBKDF2P_LEN] at short most ⊢
      omega
    have zero := Overlay.getElem?_write_behind 0 behind (by rw [length]; decide)
    rw [ones, last] at zero
    exact absurd zero (by decide)
  · intro stored c r result' ok'
    rw [made c, Option.some.injEq] at result'
    have size : (emptyValue c).length = PBKDF2P_LEN := c.pbkdf2_length _ _ _
    rw [← result']
    refine ⟨?_, size, whole.symm⟩
    simp only [closeEmpty opened length, empty, stored, List.take_of_length_le size.le]
    exact Overlay.write_tail 0 [] (by rw [length, size])

end Okr
