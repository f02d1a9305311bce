import Okr.Lib.Slots
import Okr.NewDisk.Rewrite

/-! What the stores of the new-disk path do to the entries of the table. -/

namespace Okr

open Slots (Slot)

/-- An entry as a slot that holds its sectors. -/
def slotAt (buffer : Image) (k : Nat) : Slot :=
  { used := inUse buffer k
    first := startingLBA buffer k
    last := endingLBA buffer k }

/-- The 128 bytes of an entry are the same in both buffers. -/
def SameEntry (buffer buffer' : Image) (k : Nat) : Prop :=
  ∀ a < 128, buffer' (entryPos k + a) = buffer (entryPos k + a)

/-- The same bytes are the same entry. -/
theorem SameEntry.slot {buffer buffer' : Image} {k : Nat} (same : SameEntry buffer buffer' k) :
    slotAt buffer' k = slotAt buffer k := by
  have first : startingLBA buffer' k = startingLBA buffer k := by
    apply le64_congr
    intro a below
    rw [Nat.add_assoc]
    exact same (0x20 + a) (by omega)
  have last : endingLBA buffer' k = endingLBA buffer k := by
    apply le64_congr
    intro a below
    rw [Nat.add_assoc]
    exact same (0x28 + a) (by omega)
  have used : inUse buffer' k = inUse buffer k := by
    apply propext
    constructor
    · rintro ⟨a, below, some_⟩
      exact ⟨a, below, by rw [← same a (by omega)]; exact some_⟩
    · rintro ⟨a, below, some_⟩
      exact ⟨a, below, by rw [same a (by omega)]; exact some_⟩
  simp only [slotAt, first, last, used]

/-- Nothing changed. -/
theorem SameEntry.refl (buffer : Image) (k : Nat) : SameEntry buffer buffer k :=
  fun _ _ => rfl

/-- What stays the same twice stays the same. -/
theorem SameEntry.trans {a b c : Image} {k : Nat} (first : SameEntry a b k) (second : SameEntry b c k) :
    SameEntry a c k :=
  fun i below => (second i below).trans (first i below)

/-- A store outside an entry leaves it. -/
theorem SameEntry.put {size i v k : Nat} {buffer : Image}
    (apart : i + size ≤ entryPos k ∨ entryPos k + 128 ≤ i) :
    SameEntry buffer (Okr.put size buffer i v) k :=
  fun a below => put_other (by omega)

/-- A store into another entry leaves this one. -/
theorem SameEntry.put_entry {size offset v k l : Nat} {buffer : Image} (other : l ≠ k)
    (inside : offset + size ≤ 128) : SameEntry buffer (Okr.put size buffer (entryPos l + offset) v) k := by
  apply SameEntry.put
  unfold entryPos
  omega

/-- A store into the header leaves all entries. -/
theorem SameEntry.put_header {size i v : Nat} {buffer : Image} (inside : i + size ≤ 512) (k : Nat) :
    SameEntry buffer (Okr.put size buffer i v) k := by
  apply SameEntry.put
  unfold entryPos
  omega

/-- Fitting the header to the disk leaves all entries. -/
theorem sameEntry_fitHeader (totalsector : Nat) (buffer : Image) (k : Nat) :
    SameEntry buffer (fitHeader totalsector buffer) k :=
  ((SameEntry.put_header (by decide) k).trans (SameEntry.put_header (by decide) k)).trans
    (SameEntry.put_header (by decide) k)

/-- The checksums leave all entries. -/
theorem sameEntry_sealGpt (crc32 : Bytes → Nat) (buffer : Image) (k : Nat) :
    SameEntry buffer (sealGpt crc32 buffer) k :=
  ((SameEntry.put_header (by decide) k).trans (SameEntry.put_header (by decide) k)).trans
    (SameEntry.put_header (by decide) k)

/-- Another entry's place leaves this one. -/
theorem sameEntry_putPlace {k l first last : Nat} {buffer : Image} (other : l ≠ k) :
    SameEntry buffer (putPlace buffer l first last) k :=
  (SameEntry.put_entry other (by decide)).trans (SameEntry.put_entry other (by decide))

/-- Another entry that becomes WinRE leaves this one. -/
theorem sameEntry_putWinRE {k l first last : Nat} {buffer : Image} (other : l ≠ k) :
    SameEntry buffer (putWinRE buffer l first last) k := by
  have size : windowRecoveryTypeGuid.length = 16 := rfl
  have place : SameEntry buffer (putPlace buffer l first last) k := sameEntry_putPlace other
  have type : SameEntry (putPlace buffer l first last)
      (putBytes (putPlace buffer l first last) (entryPos l) windowRecoveryTypeGuid) k := by
    intro a below
    apply putBytes_other
    rw [size]
    unfold entryPos
    omega
  exact (place.trans type).trans (SameEntry.put_entry other (by decide))

/-- A copy into another entry leaves this one. -/
theorem sameEntry_copyMem {k l m : Nat} {buffer : Image} (other : l ≠ k) :
    SameEntry buffer (copyMem buffer (entryPos l) (entryPos m) 128) k := by
  intro a below
  apply copyMem_other
  unfold entryPos
  omega

/-- Clearing the rest leaves the entries in front. -/
theorem sameEntry_clearFrom {k l : Nat} {buffer : Image} (front : k < l) :
    SameEntry buffer (clearFrom buffer l) k := by
  intro a below
  apply zeroFill_other
  unfold entryPos
  omega

/-- The header's sector is the same in both buffers. -/
def SameHeader (buffer buffer' : Image) : Prop := ∀ a < 512, buffer' a = buffer a

/-- What stays the same twice stays the same. -/
theorem SameHeader.trans {a b c : Image} (first : SameHeader a b) (second : SameHeader b c) :
    SameHeader a c :=
  fun i below => (second i below).trans (first i below)

/-- A store behind the header leaves it. -/
theorem SameHeader.put {size i v : Nat} {buffer : Image} (behind : 512 ≤ i) :
    SameHeader buffer (Okr.put size buffer i v) :=
  fun a below => put_other (by omega)

/-- A place in the entries is behind the header. -/
theorem sameHeader_putPlace {k first last : Nat} {buffer : Image} :
    SameHeader buffer (putPlace buffer k first last) :=
  (SameHeader.put (by unfold entryPos; omega)).trans (SameHeader.put (by unfold entryPos; omega))

/-- An entry that becomes WinRE is behind the header. -/
theorem sameHeader_putWinRE {k first last : Nat} {buffer : Image} :
    SameHeader buffer (putWinRE buffer k first last) := by
  have type : SameHeader (putPlace buffer k first last)
      (putBytes (putPlace buffer k first last) (entryPos k) windowRecoveryTypeGuid) :=
    fun a below => putBytes_other (by unfold entryPos; omega)
  exact (sameHeader_putPlace.trans type).trans (SameHeader.put (by unfold entryPos; omega))

/-- A copy into an entry leaves the header. -/
theorem sameHeader_copyMem {k m : Nat} {buffer : Image} :
    SameHeader buffer (copyMem buffer (entryPos k) (entryPos m) 128) :=
  fun a below => copyMem_other (by unfold entryPos; omega)

/-- Clearing entries leaves the header. -/
theorem sameHeader_clearFrom {k : Nat} {buffer : Image} : SameHeader buffer (clearFrom buffer k) :=
  fun a below => zeroFill_other (by unfold entryPos; omega)

/-- The checksums leave the rest of the header. -/
theorem sealGpt_other {crc32 : Bytes → Nat} {buffer : Image} {a : Nat}
    (header : a < 0x10 ∨ 0x14 ≤ a) (array : a < 0x58 ∨ 0x5c ≤ a) :
    sealGpt crc32 buffer a = buffer a := by
  unfold sealGpt sealHeader
  rw [put_other (by omega), put_other (by omega), put_other (by omega)]

/-- Fitting the header to the disk leaves the rest of it. -/
theorem fitHeader_other {totalsector : Nat} {buffer : Image} {a : Nat}
    (crc : a < 0x10 ∨ 0x14 ≤ a) (alternate : a < 0x20 ∨ 0x28 ≤ a) (last : a < 0x30 ∨ 0x38 ≤ a) :
    fitHeader totalsector buffer a = buffer a := by
  unfold fitHeader
  rw [put_other (by omega), put_other (by omega), put_other (by omega)]

/-- The signature decides whether there is a header. -/
theorem isEfiPart_congr {buffer buffer' : Image} (same : ∀ a < 8, buffer' a = buffer a) :
    isEfiPart buffer' = isEfiPart buffer := by
  have bytes : bytesAt buffer' 0 8 = bytesAt buffer 0 8 :=
    bytesAt_congr fun a below => by rw [Nat.zero_add]; exact same a below
  rw [isEfiPart, isEfiPart, bytes]

/-- A cleared byte is zero. -/
theorem clearFrom_byte {k l a : Nat} {buffer : Image} (behind : l ≤ k) (inside : k < gptEntries)
    (below : a < 128) : clearFrom buffer l (entryPos k + a) = 0 := by
  apply zeroFill_inside
  simp only [entryPos, GPT_SIZE, gptEntries] at inside ⊢
  omega

/-- A cleared entry is free. -/
theorem clearFrom_free {k l : Nat} {buffer : Image} (behind : l ≤ k) (inside : k < gptEntries) :
    ¬ (slotAt (clearFrom buffer l) k).used := by
  rintro ⟨a, below, some_⟩
  exact some_ (clearFrom_byte behind inside (by omega))

/-- The place entered in an entry is read back. -/
theorem putPlace_place {k first last : Nat} (buffer : Image) (fits : first < 2 ^ 64)
    (fits' : last < 2 ^ 64) :
    startingLBA (putPlace buffer k first last) k = first
      ∧ endingLBA (putPlace buffer k first last) k = last := by
  constructor
  · -- The store of the last sector is behind the first one.
    have skip : startingLBA (putPlace buffer k first last) k
        = startingLBA (put 8 buffer (entryPos k + 0x20) first) k := by
      apply le64_congr
      intro a below
      exact put_other (by omega)
    rw [skip]
    exact le64_put fits
  · exact le64_put fits'

/-- The type of an entry is not touched by its place. -/
theorem putPlace_used {k first last : Nat} {buffer : Image} :
    inUse (putPlace buffer k first last) k ↔ inUse buffer k := by
  have byte : ∀ a < 16, putPlace buffer k first last (entryPos k + a) = buffer (entryPos k + a) := by
    intro a below
    unfold putPlace
    rw [put_other (by omega), put_other (by omega)]
  constructor
  · rintro ⟨a, below, some_⟩
    exact ⟨a, below, by rw [← byte a below]; exact some_⟩
  · rintro ⟨a, below, some_⟩
    exact ⟨a, below, by rw [byte a below]; exact some_⟩

/-- An entry in use that gets a place is in use there. -/
theorem slotAt_putPlace {k first last : Nat} {buffer : Image} (used : inUse buffer k)
    (fits : first < 2 ^ 64) (fits' : last < 2 ^ 64) :
    slotAt (putPlace buffer k first last) k = { used := True, first := first, last := last } := by
  obtain ⟨first_, last_⟩ := @putPlace_place k first last buffer fits fits'
  have used' : inUse (putPlace buffer k first last) k := putPlace_used.mpr used
  simp only [slotAt, first_, last_, eq_true used']

/-- A copied entry is the same slot. -/
theorem slotAt_copyMem (buffer : Image) (k m : Nat) :
    slotAt (copyMem buffer (entryPos k) (entryPos m) 128) k = slotAt buffer m := by
  have byte : ∀ a < 128, copyMem buffer (entryPos k) (entryPos m) 128 (entryPos k + a)
      = buffer (entryPos m + a) := by
    intro a below
    rw [copyMem, if_pos (by omega), Nat.add_sub_cancel_left]
  have first : startingLBA (copyMem buffer (entryPos k) (entryPos m) 128) k = startingLBA buffer m := by
    apply le64_congr
    intro a below
    rw [Nat.add_assoc, Nat.add_assoc]
    exact byte (0x20 + a) (by omega)
  have last : endingLBA (copyMem buffer (entryPos k) (entryPos m) 128) k = endingLBA buffer m := by
    apply le64_congr
    intro a below
    rw [Nat.add_assoc, Nat.add_assoc]
    exact byte (0x28 + a) (by omega)
  have used : inUse (copyMem buffer (entryPos k) (entryPos m) 128) k = inUse buffer m := by
    apply propext
    constructor
    · rintro ⟨a, below, some_⟩
      exact ⟨a, below, by rw [← byte a (by omega)]; exact some_⟩
    · rintro ⟨a, below, some_⟩
      exact ⟨a, below, by rw [byte a (by omega)]; exact some_⟩
  simp only [slotAt, first, last, used]

/-- The entry that becomes WinRE gets the recovery type. -/
theorem putWinRE_type {k first last a : Nat} {buffer : Image} (below : a < 16) :
    putWinRE buffer k first last (entryPos k + a) = windowRecoveryTypeGuid.getD a 0 := by
  have size : windowRecoveryTypeGuid.length = 16 := rfl
  have store : putWinRE buffer k first last (entryPos k + a)
      = putBytes (putPlace buffer k first last) (entryPos k) windowRecoveryTypeGuid (entryPos k + a) :=
    put_other (by omega)
  rw [store, putBytes, if_pos (by rw [size]; omega), Nat.add_sub_cancel_left]

/-- The entry that becomes WinRE is in use and has the place given. -/
theorem slotAt_putWinRE {k first last : Nat} {buffer : Image} (fits : first < 2 ^ 64)
    (fits' : last < 2 ^ 64) :
    slotAt (putWinRE buffer k first last) k = { used := True, first := first, last := last } := by
  have place := @putPlace_place k first last buffer fits fits'
  have byte : ∀ a, 16 ≤ a → a < 0x30 →
      putWinRE buffer k first last (entryPos k + a) = putPlace buffer k first last (entryPos k + a) := by
    intro a low high
    have size : windowRecoveryTypeGuid.length = 16 := rfl
    unfold putWinRE
    rw [put_other (by omega), putBytes_other (by rw [size]; omega)]
  have first_ : startingLBA (putWinRE buffer k first last) k = first := by
    refine Eq.trans (le64_congr fun a below => ?_) place.1
    rw [Nat.add_assoc]
    exact byte (0x20 + a) (by omega) (by omega)
  have last_ : endingLBA (putWinRE buffer k first last) k = last := by
    refine Eq.trans (le64_congr fun a below => ?_) place.2
    rw [Nat.add_assoc]
    exact byte (0x28 + a) (by omega) (by omega)
  -- The first byte of the recovery type is not zero.
  have used : inUse (putWinRE buffer k first last) k := by
    refine ⟨0, by omega, ?_⟩
    rw [putWinRE_type (by omega)]
    decide
  simp only [slotAt, first_, last_, eq_true used]

/-- The last sector entered in an entry is read back, and nothing else of it changes. -/
theorem slotAt_putLast {k last : Nat} {buffer : Image} (fits : last < 2 ^ 64) :
    slotAt (put 8 buffer (entryPos k + 0x28) last) k = { slotAt buffer k with last := last } := by
  have first_ : startingLBA (put 8 buffer (entryPos k + 0x28) last) k = startingLBA buffer k := by
    apply le64_congr
    intro a below
    exact put_other (by omega)
  have last_ : endingLBA (put 8 buffer (entryPos k + 0x28) last) k = last := le64_put fits
  have byte : ∀ a < 16, put 8 buffer (entryPos k + 0x28) last (entryPos k + a)
      = buffer (entryPos k + a) := fun a below => put_other (by omega)
  have used : inUse (put 8 buffer (entryPos k + 0x28) last) k = inUse buffer k := by
    apply propext
    constructor
    · rintro ⟨a, below, some_⟩
      exact ⟨a, below, by rw [← byte a below]; exact some_⟩
    · rintro ⟨a, below, some_⟩
      exact ⟨a, below, by rw [byte a below]; exact some_⟩
  simp only [slotAt, first_, last_, used]

/-- Rounding down to a multiple of 16. -/
theorem low16_eq {n : Nat} (fits : n < 2 ^ 64) : low16 n = n / 16 * 16 :=
  and_high 64 4 (by decide) fits

/-- Rounding down to a multiple of 256. -/
theorem low256_eq {n : Nat} (fits : n < 2 ^ 64) : low256 n = n / 256 * 256 :=
  and_high 64 8 (by decide) fits

/-- A rounded word is a word. -/
theorem low16_lt {n : Nat} (fits : n < 2 ^ 64) : low16 n < 2 ^ 64 :=
  Nat.lt_of_le_of_lt Nat.and_le_left fits

/-- A rounded word is a word. -/
theorem low256_lt {n : Nat} (fits : n < 2 ^ 64) : low256 n < 2 ^ 64 :=
  Nat.lt_of_le_of_lt Nat.and_le_left fits

/-- A reduced number fits its word. -/
theorem u64_lt (n : Nat) : u64 n < 2 ^ 64 := Nat.mod_lt _ (by decide)

/-- A difference of words fits a word. -/
theorem sub64_lt (a b : Nat) : sub64 a b < 2 ^ 64 := Nat.mod_lt _ (by decide)

/-- A search stops at the first number that has the property. -/
theorem findIdx_range_spec {count : Nat} {p : Nat → Bool} {k : Nat}
    (found : (List.range count).findIdx p = k) (inside : k < count) :
    p k = true ∧ ∀ l < k, p l = false := by
  subst found
  have size : (List.range count).length = count := List.length_range
  constructor
  · have below : (List.range count).findIdx p < (List.range count).length := by
      rw [size]
      exact inside
    have at_ := List.findIdx_getElem (w := below)
    rw [List.getElem_range] at at_
    exact at_
  · intro l below
    have not_ := List.not_of_lt_findIdx below
    simpa [List.getElem_range] using not_

/-- It stops at a number that has the property when none before it has. -/
theorem findIdx_range_eq {count : Nat} {p : Nat → Bool} {k : Nat} (inside : k < count)
    (has : p k = true) (first : ∀ l < k, p l = false) : (List.range count).findIdx p = k := by
  rcases Nat.lt_trichotomy ((List.range count).findIdx p) k with below | same | behind
  · have early := (findIdx_range_spec rfl (Nat.lt_trans below inside)).1
    rw [first _ below] at early
    exact absurd early (by decide)
  · exact same
  · have not_ := List.not_of_lt_findIdx behind
    have missed : p k = false := by simpa [List.getElem_range] using not_
    rw [has] at missed
    exact absurd missed (by decide)

/-- The search for an entry stops at the first one that has the property. -/
theorem findEntry_spec {p : Nat → Bool} {k : Nat} (found : findEntry p = k) (inside : k < gptEntries) :
    p k = true ∧ ∀ l < k, p l = false :=
  findIdx_range_spec found inside

/-- The search stops at an entry that has the property when none before it has. -/
theorem findEntry_eq {p : Nat → Bool} {k : Nat} (inside : k < gptEntries) (has : p k = true)
    (first : ∀ l < k, p l = false) : findEntry p = k :=
  findIdx_range_eq inside has first

/-- A search that asks the same of every entry finds the same one. -/
theorem findEntry_congr {p q : Nat → Bool} (same : ∀ k < gptEntries, p k = q k) :
    findEntry p = findEntry q := by
  unfold findEntry
  have agree : ∀ list : List Nat, (∀ k ∈ list, p k = q k) → list.findIdx p = list.findIdx q := by
    intro list
    induction list with
    | nil => exact fun _ => rfl
    | cons k list ih =>
      intro each
      rw [List.findIdx_cons, List.findIdx_cons, each k List.mem_cons_self,
        ih fun l behind => each l (List.mem_cons_of_mem k behind)]
  exact agree _ fun k member => same k (List.mem_range.mp member)

end Okr
