import Okr.Proofs.Bitmap
import Okr.Scan.Scan

/-! What the scan loop asks for, whichever allocation table it walks. -/

namespace Okr

open Blocks (Extent)

/-- The entry at an address of a buffer or a disk is not zero. -/
def entryAt (kind : ScanKind) (m : Image) (address : Nat) : Bool :=
  bUsed kind (fun i => m (address + i)) 0

/-- Entries stand one behind the other. -/
theorem bUsed_eq (kind : ScanKind) (buffer : Image) (i : Nat) :
    bUsed kind buffer i = entryAt kind buffer (i * kind.fatSize) := by
  by_cases first : buffer (i * kind.fatSize) = 0
  · cases kind <;> simp only [ScanKind.fatSize] at first
      <;> simp [bUsed, entryAt, ScanKind.fatSize, le16, le32, Nat.add_assoc, first]
  · simp [bUsed, entryAt, first]

/-- A 16-bit number is zero when both its bytes are. -/
theorem le16_eq_zero (m : Image) (i : Nat) : le16 m i = 0 ↔ m i = 0 ∧ m (i + 1) = 0 := by
  simp only [le16, Nat.add_eq_zero_iff, Nat.mul_eq_zero, ← UInt8.toNat_inj, UInt8.toNat_zero]
  omega

/-- A FAT16 entry is in use when its number is not zero. -/
theorem entryAt_fat16 (m : Image) (address : Nat) :
    entryAt .fat16 m address = true ↔ le16 m address ≠ 0 := by
  have number : le16 (fun i => m (address + i)) 0 = le16 m address := rfl
  have zero := le16_eq_zero m address
  by_cases first : m address = 0
  · simp [entryAt, bUsed, number, first]
  · simp [entryAt, bUsed, first, zero]

/-- A FAT32 entry is in use when its number is not zero. -/
theorem entryAt_fat32 (m : Image) (address : Nat) :
    entryAt .fat32 m address = true ↔ le32 m address ≠ 0 := by
  have number : le32 (fun i => m (address + i)) 0 = le32 m address := rfl
  by_cases first : m address = 0
  · simp [entryAt, bUsed, number, first]
  · have low := (le16_eq_zero m address).mp
    have some_ : le32 m address ≠ 0 := by
      intro zero
      have sum : le16 m address + 2 ^ 16 * le16 m (address + 2) = 0 := zero
      exact first (low (by omega)).1
    simp [entryAt, bUsed, first, some_]

/-- An entry inside what was read is the one on the disk. -/
theorem entryAt_diskRead (kind : ScanKind) (disk buffer : Image) {sector count address : Nat}
    (inside : address + kind.fatSize ≤ count * SECTOR_SIZE) :
    entryAt kind (diskRead disk sector count buffer) address
      = entryAt kind disk (sector * SECTOR_SIZE + address) := by
  have byte : ∀ i < kind.fatSize, diskRead disk sector count buffer (address + i)
      = disk (sector * SECTOR_SIZE + address + i) := by
    intro i below
    rw [diskRead, if_pos (by omega), Nat.add_assoc]
  -- an entry has one, two or four bytes, each read from its own place
  cases kind with
  | fat16 =>
    simp only [ScanKind.fatSize] at byte
    have b0 := byte 0 (by omega)
    have b1 := byte 1 (by omega)
    simp only [Nat.add_zero] at b0
    simp [entryAt, bUsed, le16, b0, b1]
  | fat32 =>
    simp only [ScanKind.fatSize] at byte
    have b0 := byte 0 (by omega)
    have b1 := byte 1 (by omega)
    have b2 := byte 2 (by omega)
    have b3 := byte 3 (by omega)
    simp only [Nat.add_zero] at b0
    simp [entryAt, bUsed, le32, le16, b0, b1, b2, b3]
  | ntfs =>
    have b0 := byte 0 (by decide)
    simp only [Nat.add_zero] at b0
    simp [entryAt, bUsed, b0]
  | ext =>
    have b0 := byte 0 (by decide)
    simp only [Nat.add_zero] at b0
    simp [entryAt, bUsed, b0]

/-- The inner loop asks for what its used entries ask for. -/
theorem mem_entryRequests (s : ScanSetup) (buffer : Image) (count : Nat) :
    ∀ (i cluster : Nat) (e : Extent), e ∈ entryRequests s buffer count i cluster
      ↔ ∃ j < count, bUsed s.kind buffer (i + j) = true ∧ usedRequest s (cluster + j) = some e := by
  induction count with
  | zero => simp [entryRequests]
  | succ count ih =>
    intro i cluster e
    -- The first entry stands apart from the rest of the loop.
    have step : e ∈ entryRequests s buffer (count + 1) i cluster
        ↔ (bUsed s.kind buffer i = true ∧ usedRequest s cluster = some e)
          ∨ e ∈ entryRequests s buffer count (i + 1) (cluster + 1) := by
      rw [entryRequests]
      cases used : bUsed s.kind buffer i <;> simp
    have shift : ∀ n j, n + 1 + j = n + (j + 1) := by omega
    rw [step, ih]
    simp only [shift]
    constructor
    · rintro (⟨used, request⟩ | ⟨j, below, used, request⟩)
      · exact ⟨0, by omega, used, request⟩
      · exact ⟨j + 1, by omega, used, request⟩
    · rintro ⟨j, below, used, request⟩
      cases j with
      | zero => exact Or.inl ⟨used, request⟩
      | succ j => exact Or.inr ⟨j, by omega, used, request⟩

/-- A bitmap a scan starts from has no bit set. -/
theorem readBit_zeros (b size : Nat) : readBit b (List.replicate size 0) = false := by
  rw [readBit_eq, List.getD_eq_getElem?_getD, List.getElem?_replicate]
  split <;> simp

/-! ### The FAT walk -/

section Fat

variable {s : ScanSetup} (fat : s.kind = .fat16 ∨ s.kind = .fat32)
  (buffer : s.buffersize = SCANBUFFER_SIZE)

/-- Entries of a table in one sector. -/
def ScanKind.perSector (kind : ScanKind) : Nat := SECTOR_SIZE / kind.fatSize

/-- What one pass over a FAT asks for, and where it leaves the loop. -/
structure FatPass (s : ScanSetup) (st : ScanState) (n : Nat) (requests : List Extent)
    (next : ScanState) : Prop where
  some_ : 0 < n
  fits : n ≤ st.total
  total : next.total = st.total - n
  fatSector : next.fatSector = st.fatSector + n
  cluster : next.cluster = st.cluster + n * s.kind.perSector
  asks : ∀ e, e ∈ requests ↔ ∃ j < n * s.kind.perSector,
    entryAt s.kind s.disk (st.fatSector * SECTOR_SIZE + j * s.kind.fatSize) = true
      ∧ usedRequest s (st.cluster + j) = some e

include fat buffer in
/-- A pass over a FAT reads one chunk and asks for its used entries. -/
theorem scanPass_fat {st : ScanState} (wanted : st.total ≠ 0) (small : st.total < 2 ^ 32) :
    ∃ n, FatPass s st n (scanPass s st).1 (scanPass s st).2 := by
  -- A chunk has at most 128 sectors, and at least one.
  have chunk : chunkCount s st = min st.total 128 := by
    have notNtfs : s.kind ≠ .ntfs := by
      rcases fat with kind | kind <;> rw [kind] <;> decide
    have sectors : SCANBUFFER_SIZE / SECTOR_SIZE = 128 := by decide
    simp only [chunkCount, notNtfs, false_and, if_false, buffer, sectors, u32_eq small]
    split <;> omega
  refine ⟨min st.total 128, ?_⟩
  have pass : scanPass s st = scanChunk s st (min st.total 128) := by
    rw [← chunk]
    rcases fat with kind | kind <;> simp only [scanPass, kind]
  have left : sub64 st.total (min st.total 128) = st.total - min st.total 128 :=
    sub64_eq (Nat.min_le_left _ _) (by omega)
  have asks : ∀ e, e ∈ entryRequests s
        (diskRead s.disk st.fatSector (min st.total 128) st.buffer)
        (min st.total 128 * s.kind.perSector) 0 st.cluster
      ↔ ∃ j < min st.total 128 * s.kind.perSector,
        entryAt s.kind s.disk (st.fatSector * SECTOR_SIZE + j * s.kind.fatSize) = true
          ∧ usedRequest s (st.cluster + j) = some e := by
    intro e
    rw [mem_entryRequests]
    have same : ∀ j < min st.total 128 * s.kind.perSector,
        bUsed s.kind (diskRead s.disk st.fatSector (min st.total 128) st.buffer) (0 + j)
          = entryAt s.kind s.disk (st.fatSector * SECTOR_SIZE + j * s.kind.fatSize) := by
      intro j below
      rw [Nat.zero_add, bUsed_eq, entryAt_diskRead]
      rcases fat with kind | kind <;> rw [kind] at below ⊢
        <;> simp only [ScanKind.perSector, ScanKind.fatSize, SECTOR_SIZE] at below ⊢ <;> omega
    constructor
    · rintro ⟨j, below, used, request⟩
      exact ⟨j, below, by rw [← same j below]; exact used, request⟩
    · rintro ⟨j, below, used, request⟩
      exact ⟨j, below, by rw [same j below]; exact used, request⟩
  have after : afterRead s st (min st.total 128)
      = (min st.total 128 * s.kind.perSector,
          { st with
            total := st.total - min st.total 128
            fatSector := st.fatSector + min st.total 128 }) := by
    rcases fat with kind | kind <;> simp only [afterRead, kind, left] <;> rfl
  rw [pass]
  simp only [scanChunk, after]
  exact ⟨by omega, Nat.min_le_left _ _, rfl, rfl, rfl, asks⟩

include fat buffer in
/-- The walk over a FAT asks for every used entry of its sectors and for nothing else. -/
theorem scanLoop_fat (fuel : Nat) :
    ∀ (st : ScanState) (list : List Extent), st.total < 2 ^ 32 → scanLoop s fuel st = some list →
      ∀ e, e ∈ list ↔ ∃ j < st.total * s.kind.perSector,
        entryAt s.kind s.disk (st.fatSector * SECTOR_SIZE + j * s.kind.fatSize) = true
          ∧ usedRequest s (st.cluster + j) = some e := by
  have whole : s.kind.perSector * s.kind.fatSize = SECTOR_SIZE := by
    rcases fat with kind | kind <;> rw [kind] <;> decide
  induction fuel with
  | zero =>
    intro st list small result e
    rw [scanLoop] at result
    split at result
    · rename_i done
      simp only [Option.some.injEq] at result
      simp [← result, done]
    · simp at result
  | succ fuel ih =>
    intro st list small result e
    rw [scanLoop] at result
    split at result
    · rename_i done
      simp only [Option.some.injEq] at result
      simp [← result, done]
    · rename_i wanted
      obtain ⟨n, pass⟩ := scanPass_fat fat buffer wanted small
      cases step : scanPass s st with
      | mk requests next =>
        rw [step] at pass
        simp only [step, Option.map_eq_some_iff] at result
        obtain ⟨rest, restEq, rfl⟩ := result
        have total := pass.total
        rw [List.mem_append, pass.asks, ih next rest (by simp only at total; omega) restEq]
        simp only at total
        -- The entries of the rest stand behind those of the chunk.
        have place : ∀ j, (st.fatSector + n) * SECTOR_SIZE + j * s.kind.fatSize
            = st.fatSector * SECTOR_SIZE + (n * s.kind.perSector + j) * s.kind.fatSize := by
          intro j
          rw [Nat.add_mul, Nat.add_mul, Nat.mul_assoc n, whole, Nat.add_assoc]
        have split_ : st.total * s.kind.perSector
            = n * s.kind.perSector + (st.total - n) * s.kind.perSector := by
          rw [← Nat.add_mul, Nat.add_sub_cancel' pass.fits]
        rw [pass.fatSector, pass.cluster, total, split_]
        simp only [place]
        constructor
        · rintro (⟨j, below, used, request⟩ | ⟨j, below, used, request⟩)
          · exact ⟨j, by omega, used, request⟩
          · exact ⟨n * s.kind.perSector + j, by omega, used, by rw [← Nat.add_assoc]; exact request⟩
        · rintro ⟨j, below, used, request⟩
          by_cases here : j < n * s.kind.perSector
          · exact Or.inl ⟨j, here, used, request⟩
          · have behind : n * s.kind.perSector + (j - n * s.kind.perSector) = j := by omega
            refine Or.inr ⟨j - n * s.kind.perSector, by omega, by rw [behind]; exact used, ?_⟩
            rw [Nat.add_assoc, behind]
            exact request

include fat buffer in
/-- The walk over a FAT ends. -/
theorem scanLoop_fat_ends (fuel : Nat) :
    ∀ st : ScanState, st.total < 2 ^ 32 → st.total ≤ fuel → ∃ list, scanLoop s fuel st = some list := by
  induction fuel with
  | zero =>
    intro st _ done
    have zero : st.total = 0 := by omega
    exact ⟨[], by rw [scanLoop, if_pos zero]⟩
  | succ fuel ih =>
    intro st small enough
    rw [scanLoop]
    split
    · exact ⟨[], rfl⟩
    · rename_i wanted
      obtain ⟨n, pass⟩ := scanPass_fat fat buffer wanted small
      cases step : scanPass s st with
      | mk requests next =>
        rw [step] at pass
        have total := pass.total
        have some_ := pass.some_
        simp only at total
        obtain ⟨rest, restEq⟩ := ih next (by omega) (by omega)
        exact ⟨requests ++ rest, by simp only [restEq, Option.map_some]⟩

end Fat

end Okr
