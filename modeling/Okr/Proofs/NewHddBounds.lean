import Okr.Proofs.NewHdd

/-! The copies `FixNewHDD` makes in its buffer, and which entry of WinRE it keeps. -/

namespace Okr

/-- The copies of 128 bytes once the system's entry is found: where each goes and where it comes from. -/
def entryMoves (bootBegin totalSector k : Nat) (buffer : Image) (n : NewDisk) : List (Nat × Nat) :=
  let m := winREEntry buffer
  let kept := fun i => if n.winREState ≠ 0 ∧ m ≥ i then [(entryPos i, entryPos m)] else []
  if n.totalsector > u64 (0x64000 + u64 (u64 (bootBegin + totalSector) + n.wireTotalSectors)) then
    (entryPos (k + 1), entryPos k) :: kept (k + 2)
  else kept (k + 1)

/-- The copies of a call. -/
def newHddMoves (fw : Firmware) (bootBegin totalSector : Nat) (n : NewDisk) : List (Nat × Nat) :=
  if bootBegin = 0 ∨ totalSector = 0 then []
  else if isGPT n.disk then
    match fittedGpt fw n with
    | none => []
    | some buffer =>
      match findOs buffer bootBegin with
      | none => []
      | some k => entryMoves bootBegin totalSector k buffer n
  else []

/-- A disk with the GPT of an image, in which entry `index` is the one of the operating system. -/
structure SystemGpt extends NewDisk where
  fw : Firmware
  bootBegin : Nat
  totalSector : Nat
  index : Nat
  gpt : isGPT disk = true
  efi : isEfiPart (readGpt disk fw.heap) = true
  begins : 0 < bootBegin
  holds : 0 < totalSector
  bounded : index < gptEntries
  start : startingLBA (readGpt disk fw.heap) index = bootBegin
  earlier : ∀ l < index, startingLBA (readGpt disk fw.heap) l ≠ bootBegin

namespace SystemGpt

/-- The table of the image, and the one `FixNewHDD` leaves. -/
def table (g : SystemGpt) : Image := readGpt g.disk g.fw.heap
def patched (g : SystemGpt) : Image :=
  readGpt (fixNewHDD g.fw g.bootBegin g.totalSector g.toNewDisk).disk g.fw.heap

/-- A data partition is made: the system is found, and there is room behind it. -/
def MakesData (g : SystemGpt) : Prop :=
  g.index ≤ 28
    ∧ g.totalsector > u64 (0x64000 + u64 (u64 (g.bootBegin + g.totalSector) + g.wireTotalSectors))

instance (g : SystemGpt) : Decidable g.MakesData := inferInstanceAs (Decidable (_ ∧ _))

/-- The entry behind the one of the system, or of the data partition. -/
def placeBehind (g : SystemGpt) : Nat := if g.MakesData then g.index + 2 else g.index + 1

/-- The first entry of WinRE behind the system. -/
structure FirstWinRE (g : SystemGpt) (w : Nat) : Prop where
  behind : g.index < w
  inside : w < gptEntries
  type : entryType g.table w = windowRecoveryTypeGuid
  first : ∀ l, g.index < l → l < w → entryType g.table l ≠ windowRecoveryTypeGuid

/-- The table is patched inside the buffer, and WinRE comes along. -/
structure Patched (g : SystemGpt) : Prop where
  inside : ∀ move ∈ newHddMoves g.fw g.bootBegin g.totalSector g.toNewDisk,
    move.1 + 128 ≤ GPT_SIZE ∧ move.2 + 128 ≤ GPT_SIZE
  before : ∀ l < g.index, SameEntry g.table g.patched l
  /-- The type and the identity of the entry. -/
  kept : g.winREState ≠ 0 → ∀ w, g.FirstWinRE w →
    ∀ a < 32, g.patched (entryPos g.placeBehind + a) = g.table (entryPos w + a)
  cleared : g.winREState ≠ 0 → ∀ w, g.FirstWinRE w →
    ∀ l, g.placeBehind < l → l < gptEntries → ∀ a < 128, g.patched (entryPos l + a) = 0

/--
When that is so.

A system behind entry 28 counts as not found, so nothing but WinRE may follow it.
Otherwise the first entry whose type begins like the one of WinRE must be there, and be WinRE's.
It must stand where the data partition does not replace it.
-/
def PatchFits (g : SystemGpt) : Prop :=
  g.winREState = 0 ∨
    if 28 < g.index then
      ∀ w, g.FirstWinRE w → w = g.index + 1
        ∧ ∀ l, w < l → l < gptEntries → ∀ a < 128, g.table (entryPos l + a) = 0
    else
      winREEntry g.table < gptEntries
        ∧ ∀ w, g.FirstWinRE w → w = winREEntry g.table ∧ g.placeBehind ≤ w

variable {g : SystemGpt}

/-- The search comes to the entry of the system. -/
theorem entryStarting_index : entryStarting g.table g.bootBegin = g.index := by
  -- No entry before it starts at the same sector.
  refine findEntry_eq g.bounded ?_ fun l before => ?_
  · rw [table, g.start]
    exact beq_self_eq_true _
  · exact beq_eq_false_iff_ne.mpr (g.earlier l before)

/-- The system is found if its entry is among the first 29. -/
theorem findOs_index :
    findOs (fitHeader g.totalsector g.table) g.bootBegin = if 28 < g.index then none else some g.index := by
  rw [findOs_eq, entryStarting_index]

/-- Both branches at the start of the function are passed. -/
theorem positive : ¬(g.bootBegin = 0 ∨ g.totalSector = 0) := by
  have begins := g.begins
  have holds := g.holds
  omega

/-- With a system that is not found, nothing is done. -/
theorem unfound (far : 28 < g.index) :
    newHddMoves g.fw g.bootBegin g.totalSector g.toNewDisk = [] ∧ g.patched = g.table := by
  have missed : findOs (fitHeader g.totalsector (readGpt g.disk g.fw.heap)) g.bootBegin = none := by
    have search := @findOs_index g
    rwa [if_pos far] at search
  simp only [patched, table, newHddMoves, fixNewHDD, if_neg g.positive, if_pos g.gpt, fittedGpt,
    if_pos g.efi, missed, and_self]

/-- The copies where the system is found. -/
theorem moves_found (near : ¬28 < g.index) :
    newHddMoves g.fw g.bootBegin g.totalSector g.toNewDisk =
      (if g.MakesData then [(entryPos (g.index + 1), entryPos g.index)] else []) ++
        (if g.winREState ≠ 0 ∧ winREEntry g.table ≥ g.placeBehind then
          [(entryPos g.placeBehind, entryPos (winREEntry g.table))] else []) := by
  have found : findOs (fitHeader g.totalsector (readGpt g.disk g.fw.heap)) g.bootBegin
      = some g.index := by
    have search := @findOs_index g
    rwa [if_neg near] at search
  have seen : winREEntry (fitHeader g.totalsector (readGpt g.disk g.fw.heap)) = winREEntry g.table :=
    winREEntry_fitHeader g.totalsector _
  simp only [newHddMoves, if_neg g.positive, if_pos g.gpt, fittedGpt, if_pos g.efi, found,
    entryMoves, seen, MakesData, placeBehind]
  -- Behind an entry that is found, the room alone decides about the data partition.
  have front : g.index ≤ 28 := Nat.le_of_not_lt near
  by_cases room : g.totalsector
      > u64 (0x64000 + u64 (u64 (g.bootBegin + g.totalSector) + g.wireTotalSectors))
  · simp only [front, room, and_self, if_true, List.singleton_append]
  · simp only [room, and_false, if_false, List.nil_append]

/-- WinRE is copied behind the other entries where it stands farther behind in the image. -/
theorem keepWinRE_copied {m i a : Nat} {buffer : Image} {n : NewDisk} (state : n.winREState ≠ 0)
    (behind : i ≤ m) (below : a < 128) :
    keepWinRE m i buffer n (entryPos i + a) = buffer (entryPos m + a) := by
  rw [keepWinRE, if_pos ⟨state, behind⟩, sameEntry_clearFrom (Nat.lt_succ_self i) a below, copyMem,
    if_pos (by omega), Nat.add_sub_cancel_left]

/-- Everything behind that entry is cleared, and the entry itself where WinRE is not copied. -/
theorem keepWinRE_cleared {m i l a : Nat} {buffer : Image} {n : NewDisk}
    (behind : i < l ∨ m < i ∧ i = l) (inside : l < gptEntries) (below : a < 128) :
    keepWinRE m i buffer n (entryPos l + a) = 0 := by
  unfold keepWinRE
  split
  · next copied =>
    rcases behind with later | ⟨front, -⟩
    · exact clearFrom_byte later inside below
    · omega
  · exact clearFrom_byte (by omega) inside below

/-- What a call leaves of a table in which it finds the system. -/
structure Found (g : SystemGpt) : Prop where
  before : ∀ l < g.index, SameEntry g.table g.patched l
  copied : g.winREState ≠ 0 → g.placeBehind ≤ winREEntry g.table →
    ∀ a < 128, g.patched (entryPos g.placeBehind + a) = g.table (entryPos (winREEntry g.table) + a)
  cleared : ∀ l, g.placeBehind < l ∨ winREEntry g.table < g.placeBehind ∧ g.placeBehind = l →
    l < gptEntries → ∀ a < 128, g.patched (entryPos l + a) = 0

/-- It is the table of the image, with the entries from the one behind the system on replaced. -/
theorem found (near : ¬28 < g.index) : g.Found := by
  have front : g.index ≤ 28 := Nat.le_of_not_lt near
  have finds : findsSystem g.fw g.bootBegin g.totalSector g.toNewDisk = true := by
    have place : entryStarting (readGpt g.disk g.fw.heap) g.bootBegin = g.index := entryStarting_index
    have begins := Nat.ne_of_gt g.begins
    have holds := Nat.ne_of_gt g.holds
    simp only [findsSystem, hasTable, g.gpt, g.efi, place, Bool.and_eq_true, bne_iff_ne,
      decide_eq_true_eq]
    exact ⟨⟨⟨begins, holds⟩, trivial, trivial⟩, front⟩
  -- Both branches change one entry, and then fill those from `placeBehind` on.
  obtain ⟨buffer, filled, same⟩ : ∃ buffer,
      newHddTable g.fw g.bootBegin g.totalSector g.toNewDisk
          = keepWinRE (winREEntry g.table) g.placeBehind buffer g.toNewDisk
        ∧ ∀ l, l < g.index ∨ g.placeBehind ≤ l → SameEntry g.table buffer l := by
    have place : entryStarting (readGpt g.disk g.fw.heap) g.bootBegin = g.index := entryStarting_index
    have seen : (findEntry fun m => le64 (fitHeader g.totalsector (readGpt g.disk g.fw.heap))
        (entryPos m) == winrePartGUID1) = winREEntry g.table := winREEntry_fitHeader g.totalsector _
    simp only [newHddTable, place, newHddEntries, seen]
    by_cases room : g.totalsector
        > u64 (0x64000 + u64 (u64 (g.bootBegin + g.totalSector) + g.wireTotalSectors))
    · have second : g.placeBehind = g.index + 2 := if_pos ⟨front, room⟩
      simp only [if_pos room, second]
      refine ⟨_, rfl, fun l away => ?_⟩
      exact (sameEntry_fitHeader _ _ l).trans (addDataEntry_other (by omega))
    · have first : g.placeBehind = g.index + 1 := if_neg fun data => room data.2
      simp only [if_neg room, first]
      refine ⟨_, rfl, fun l away => ?_⟩
      exact (sameEntry_fitHeader _ _ l).trans (SameEntry.put_entry (by omega) (by decide))
  have left : ∀ l < gptEntries, SameEntry
      (keepWinRE (winREEntry g.table) g.placeBehind buffer g.toNewDisk) g.patched l := by
    intro l inside
    rw [← filled]
    exact newHdd_entry finds inside
  have next : g.index + 1 ≤ g.placeBehind ∧ g.placeBehind ≤ g.index + 2 := by
    unfold placeBehind
    split <;> omega
  have bound : g.placeBehind < gptEntries := by
    simp only [gptEntries]
    omega
  -- In front of the system nothing changes, and behind the last entry all is cleared.
  constructor
  · intro l before
    have kept : SameEntry buffer (keepWinRE (winREEntry g.table) g.placeBehind buffer g.toNewDisk) l := by
      unfold keepWinRE
      split
      · exact (sameEntry_copyMem (by omega)).trans (sameEntry_clearFrom (by omega))
      · exact sameEntry_clearFrom (by omega)
    exact ((same l (Or.inl before)).trans kept).trans (left l (by omega))
  · intro state behind a below
    rw [left _ bound a below, keepWinRE_copied state behind below]
    exact same _ (Or.inr behind) a below
  · intro l behind inside a below
    rw [left l inside a below]
    exact keepWinRE_cleared behind inside below

/-- An entry of WinRE is one that the search recognises. -/
theorem winREEntry_le {w : Nat}
    (type : entryType g.table w = windowRecoveryTypeGuid) : winREEntry g.table ≤ w := by
  -- The first half of the type is what the search compares.
  have half : le64 g.table (entryPos w) = winrePartGUID1 := by
    have bytes : ∀ a < 16, g.table (entryPos w + a) = windowRecoveryTypeGuid.getD a 0 := by
      intro a below
      rw [← type, entryType, bytesAt]
      simp [below]
    have number : le64 g.table (entryPos w) = le64 (fun a => windowRecoveryTypeGuid.getD a 0) 0 := by
      apply le64_congr
      intro a below
      rw [bytes a (by omega), Nat.zero_add]
    rw [number]
    decide
  -- So the search does not pass it.
  by_contra behind
  have passed := List.not_of_lt_findIdx (Nat.lt_of_not_le behind)
  rw [List.getElem_range, half] at passed
  exact Bool.noConfusion (passed.symm.trans (beq_self_eq_true _))

/-- With a system that is not found, the table is as it should be if WinRE alone follows the system. -/
theorem patched_unfound (far : 28 < g.index) :
    g.Patched ↔ g.winREState = 0 ∨ ∀ w, g.FirstWinRE w → w = g.index + 1
      ∧ ∀ l, w < l → l < gptEntries → ∀ a < 128, g.table (entryPos l + a) = 0 := by
  obtain ⟨none, same⟩ := g.unfound far
  have next : g.placeBehind = g.index + 1 := if_neg fun data => absurd data.1 (Nat.not_le.mpr far)
  -- Nothing is done, so the table must have been right before.
  constructor
  · intro patched
    rcases Nat.eq_zero_or_pos g.winREState with zero | some
    · exact Or.inl zero
    refine Or.inr fun w winRE => ?_
    -- The entry behind the system has the type of WinRE, so it is the first one.
    have type : entryType g.table (g.index + 1) = windowRecoveryTypeGuid := by
      rw [← winRE.type]
      refine bytesAt_congr fun a below => ?_
      have kept := patched.kept (Nat.ne_of_gt some) w winRE a (by omega)
      rwa [same, next] at kept
    have place : w = g.index + 1 := by
      have behind := winRE.behind
      by_contra other
      exact winRE.first (g.index + 1) (by omega) (by omega) type
    refine ⟨place, fun l behind inside a below => ?_⟩
    have cleared := patched.cleared (Nat.ne_of_gt some) w winRE l (by omega) inside a below
    rwa [same] at cleared
  · intro alone
    refine ⟨by simp [none], fun l _ => same ▸ SameEntry.refl g.table l, fun state w winRE a below => ?_,
      fun state w winRE l behind inside a below => ?_⟩
    · rcases alone with zero | alone
      · exact absurd zero state
      · rw [same, next, (alone w winRE).1]
    · rcases alone with zero | alone
      · exact absurd zero state
      · obtain ⟨place, blank⟩ := alone w winRE
        rw [same]
        exact blank l (by omega) inside a below

/-- The entry behind the system, or behind the data partition, is one of the table. -/
theorem placeBehind_bounds (near : ¬28 < g.index) :
    g.index + 1 ≤ g.placeBehind ∧ g.placeBehind ≤ 30 := by
  unfold placeBehind
  split <;> omega

/-- With a system that is found, the entry seen as WinRE has to be there, and to be the right one. -/
theorem patched_found (near : ¬28 < g.index) :
    g.Patched ↔ g.winREState = 0 ∨ (winREEntry g.table < gptEntries
      ∧ ∀ w, g.FirstWinRE w → w = winREEntry g.table ∧ g.placeBehind ≤ w) := by
  obtain ⟨before, copied, cleared⟩ := g.found near
  obtain ⟨low, high⟩ := g.placeBehind_bounds near
  -- The one copy that can go wrong is that of the entry seen as WinRE.
  constructor
  · intro patched
    rcases Nat.eq_zero_or_pos g.winREState with zero | some
    · exact Or.inl zero
    have state : g.winREState ≠ 0 := Nat.ne_of_gt some
    refine Or.inr ⟨?_, fun w winRE => ?_⟩
    · -- A copy from behind the last entry would leave the buffer.
      by_contra none
      have move : (entryPos g.placeBehind, entryPos (winREEntry g.table))
          ∈ newHddMoves g.fw g.bootBegin g.totalSector g.toNewDisk := by
        have behind : winREEntry g.table ≥ g.placeBehind := by
          simp only [gptEntries] at none
          omega
        rw [moves_found near]
        refine List.mem_append_right _ ?_
        rw [if_pos ⟨state, behind⟩]
        exact List.mem_singleton_self _
      have inside := (patched.inside _ move).2
      simp only [entryPos, GPT_SIZE, gptEntries] at inside none
      omega
    · have kept : entryType g.patched g.placeBehind = windowRecoveryTypeGuid := by
        rw [← winRE.type]
        exact bytesAt_congr fun a below => patched.kept state w winRE a (by omega)
      -- An entry that was cleared has no type at all.
      have behind : g.placeBehind ≤ winREEntry g.table := by
        by_contra front
        have blank : entryType g.patched g.placeBehind = bytesAt (fun _ => 0) 0 16 :=
          bytesAt_congr fun a below => cleared _ (Or.inr ⟨by omega, rfl⟩)
            (by simp only [gptEntries]; omega) a (by omega)
        rw [kept] at blank
        exact absurd blank (by decide)
      have type : entryType g.table (winREEntry g.table) = windowRecoveryTypeGuid := by
        rw [← kept]
        exact bytesAt_congr fun a below => (copied state behind a (by omega)).symm
      have seen := winREEntry_le winRE.type
      have same : w = winREEntry g.table := by
        by_contra other
        exact winRE.first (winREEntry g.table) (by omega) (by omega) type
      exact ⟨same, by omega⟩
  · intro fits
    refine ⟨fun move made => ?_, before, fun state w winRE a below => ?_,
      fun _ w _ l behind inside a below => cleared l (Or.inl behind) inside a below⟩
    · -- The two copies go to the entries behind the system.
      rw [moves_found near, List.mem_append] at made
      rcases made with data | kept
      · split at data
        · rw [List.mem_singleton.mp data]
          simp only [entryPos, GPT_SIZE]
          omega
        · cases data
      · split at kept
        · next copies =>
          have seen := (fits.resolve_left copies.1).1
          rw [List.mem_singleton.mp kept]
          simp only [entryPos, GPT_SIZE, gptEntries] at seen ⊢
          omega
        · cases kept
    · obtain ⟨same, behind⟩ := (fits.resolve_left state).2 w winRE
      rw [same] at behind ⊢
      exact copied state behind a (by omega)

end SystemGpt

/-- The table is patched inside the buffer, with WinRE behind it, exactly when the search sees that WinRE. -/
theorem newHdd_patches_iff (g : SystemGpt) : g.Patched ↔ g.PatchFits := by
  rw [SystemGpt.PatchFits]
  split
  · next far => exact SystemGpt.patched_unfound far
  · next near => exact SystemGpt.patched_found near

/-- A disk whose image has a single entry, the system's, although its layout says that WinRE follows. -/
def bareGpt : SystemGpt where
  toNewDisk := sampleNewDisk 3000000
  fw := sampleFirmware
  bootBegin := 2048
  totalSector := 1000000
  index := 0
  gpt := (sampleNewDisk_on (by decide)).gpt
  efi := (sampleNewDisk_on (by decide)).efi
  begins := by decide
  holds := by decide
  bounded := by decide
  start := (sampleNewDisk_image 3000000).first
  earlier := fun l below => absurd below (Nat.not_lt_zero l)

/-- There WinRE is copied from behind the buffer. -/
theorem newHdd_readsBehind : ¬∀ g : SystemGpt, g.Patched := by
  intro always
  have near : ¬28 < bareGpt.index := by decide
  rcases (SystemGpt.patched_found near).mp (always bareGpt) with zero | ⟨seen, -⟩
  · exact absurd zero (by decide)
  · -- The search passes all 128 entries.
    have none : winREEntry bareGpt.table = gptEntries := by decide +kernel
    rw [none] at seen
    exact absurd seen (Nat.lt_irrefl _)

end Okr
