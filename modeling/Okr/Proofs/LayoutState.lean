import Okr.NewDisk.Rewrite

/-! The layout of an image that `IsFixNewHddWay` tells: where WinRE is, seen from the system. -/

namespace Okr

/-- The record of the operating system: it was backed up and holds Windows. -/
def isOs (p : PartitionInfo) : Bool := p.bIfBackup && p.hasWindows

/-- The places and sizes of the records are words of 64 bits. -/
structure WordHeader extends OkrHeader where
  places : ∀ i, (partition i).bootBegin < 2 ^ 64
  sizes : ∀ i, (partition i).totalSectors < 2 ^ 64

/-- `SizeMined`: the sectors between the system and WinRE, or behind the system when WinRE is before it. -/
def sizeMined (disksize : Nat) (wire os : PartitionInfo) : Nat :=
  if wire.bootBegin ≥ os.bootBegin then
    sub64 (sub64 wire.bootBegin os.bootBegin) os.totalSectors
  else sub64 (sub64 disksize os.bootBegin) os.totalSectors

/-- The state a layout has: WinRE precedes the system, directly follows it (less than 2 MiB behind), or neither. -/
def layoutState (wire os : PartitionInfo) : Nat :=
  if wire.bootBegin < os.bootBegin then 0
  else if os.bootBegin + os.totalSectors ≤ wire.bootBegin
      ∧ wire.bootBegin < os.bootBegin + os.totalSectors + 0x1000 then 2
  else 1

/-- The state an image should get; without a WinRE or a system it is neither of the two. -/
def expectedState (header : OkrHeader) : Nat :=
  match header.findRecord isWinRE, header.findRecord isOs with
  | some w, some t => layoutState (header.partition w) (header.partition t)
  | _, _ => 1

/-- The layout is told, and what the uninitialised variables hold makes no difference. -/
structure Classifies (n : NewDisk) : Prop where
  decided : ∀ stack stack', isFixNewHddWay stack n = isFixNewHddWay stack' n
  state : ∀ stack, (isFixNewHddWay stack n).winREState = expectedState n.header

/-- The records a search may lead to: the one it finds, or any at all when its variable stays unset. -/
def OkrHeader.Candidate (header : OkrHeader) (p : PartitionInfo → Bool) (i : Nat) : Prop :=
  header.findRecord p = some i ∨ header.findRecord p = none

/--
When the layout is told.

WinRE must not precede the system, whose state is overwritten, and the size of the system must not wrap.
With an unset variable, every record it may lead to must be told as neither of the two.
-/
def LayoutTold (header : OkrHeader) : Prop :=
  match header.findRecord isWinRE, header.findRecord isOs with
  | some w, some t =>
    (header.partition t).bootBegin ≤ (header.partition w).bootBegin
      ∧ (header.partition t).bootBegin + (header.partition t).totalSectors
          ≤ (header.partition w).bootBegin + (2 ^ 64 - 0x1000)
  | _, _ =>
    ∀ w t, header.Candidate isWinRE w → header.Candidate isOs t →
      0x1000 ≤ sizeMined header.disksize (header.partition w) (header.partition t)

variable {header : OkrHeader} {n : NewDisk}

/-- What the function makes of a size: the flag goes with the state, and nothing else is assigned. -/
def NewDisk.classify (n : NewDisk) (size : Nat) : NewDisk :=
  if size < 0x1000 then { n with isNoDataPartFlag := true, winREState := 2 }
  else { n with isNoDataPartFlag := false, winREState := 1 }

/-- The size is taken from the two records that were searched for. -/
theorem isFixNewHddWay_classify (stack : Stack) :
    isFixNewHddWay stack n =
      n.classify (sizeMined n.header.disksize
        (n.header.partition ((n.header.findRecord isWinRE).getD stack.wirecount))
        (n.header.partition ((n.header.findRecord isOs).getD stack.t))) := by
  rw [isFixNewHddWay, NewDisk.classify, sizeMined]
  rfl

/-- The state is one of two, whichever was assigned before. -/
theorem classify_state (size : Nat) : (n.classify size).winREState = if size < 0x1000 then 2 else 1 :=
  apply_ite NewDisk.winREState _ _ _

/-- The state decides the whole result. -/
theorem isFixNewHddWay_of_state {stack stack' : Stack}
    (same : (isFixNewHddWay stack n).winREState = (isFixNewHddWay stack' n).winREState) :
    isFixNewHddWay stack n = isFixNewHddWay stack' n := by
  -- Sizes on one side of 2 MiB have the same result, and on two sides the states differ.
  rw [isFixNewHddWay_classify, isFixNewHddWay_classify] at same ⊢
  rw [classify_state, classify_state] at same
  rw [NewDisk.classify, NewDisk.classify]
  split at same <;> split at same
  · next first second => rw [if_pos first, if_pos second]
  · cases same
  · cases same
  · next first second => rw [if_neg first, if_neg second]

/-- What a search gives is a candidate, whatever its variable held before. -/
theorem candidate_getD (p : PartitionInfo → Bool) (unset : Nat) :
    header.Candidate p ((header.findRecord p).getD unset) := by
  cases found : header.findRecord p with
  | none => exact Or.inr found
  | some i => exact Or.inl found

/-- A candidate is what the search gives when its variable held it. -/
theorem getD_candidate {p : PartitionInfo → Bool} {i : Nat} (candidate : header.Candidate p i) :
    (header.findRecord p).getD i = i := by
  rcases candidate with found | none_
  · rw [found]
    rfl
  · rw [none_]
    rfl

/-- The states of all candidates are a number exactly if the function gives it for every stack. -/
theorem state_forall_iff (state : Nat) :
    (∀ stack, (isFixNewHddWay stack n).winREState = state) ↔
      ∀ w t, n.header.Candidate isWinRE w → n.header.Candidate isOs t →
        (if sizeMined n.header.disksize (n.header.partition w) (n.header.partition t) < 0x1000 then 2
          else 1) = state := by
  -- A variable can hold any candidate before the call.
  constructor
  · intro all w t wire os
    have result := all { wirecount := w, t := t }
    rw [isFixNewHddWay_classify, classify_state, getD_candidate wire, getD_candidate os] at result
    exact result
  · intro all stack
    rw [isFixNewHddWay_classify, classify_state]
    exact all _ _ (candidate_getD _ _) (candidate_getD _ _)

/-- A layout that is told as neither of the two has at least 2 MiB there. -/
theorem state_one_iff (size : Nat) : (if size < 0x1000 then 2 else 1) = 1 ↔ 0x1000 ≤ size := by
  split
  · next small => exact iff_of_false (by decide) (Nat.not_le.mpr small)
  · next large => exact ⟨fun _ => Nat.le_of_not_lt large, fun _ => rfl⟩

/-- With both records the state is right exactly if WinRE is not before the system and nothing wraps. -/
theorem state_layout_iff {wire os : PartitionInfo} (disksize : Nat) (place : wire.bootBegin < 2 ^ 64)
    (start : os.bootBegin < 2 ^ 64) (size : os.totalSectors < 2 ^ 64) :
    (if sizeMined disksize wire os < 0x1000 then 2 else 1) = layoutState wire os ↔
      os.bootBegin ≤ wire.bootBegin
        ∧ os.bootBegin + os.totalSectors ≤ wire.bootBegin + (2 ^ 64 - 0x1000) := by
  -- The function never gives the state 0 that a WinRE in front of the system has.
  by_cases before : wire.bootBegin < os.bootBegin
  · -- The state 0 is assigned, and overwritten by 2 or 1.
    rw [layoutState, if_pos before]
    refine ⟨fun zero => ?_, fun holds => absurd holds.1 (Nat.not_le.mpr before)⟩
    split at zero <;> cases zero
  · have behind : os.bootBegin ≤ wire.bootBegin := Nat.le_of_not_lt before
    have mined : sizeMined disksize wire os
        = (wire.bootBegin - os.bootBegin + 2 ^ 64 - os.totalSectors) % 2 ^ 64 := by
      rw [sizeMined, if_pos behind, sub64_eq behind place, sub64, Nat.mod_eq_of_lt size]
    rw [layoutState, if_neg before, mined]
    split <;> split <;> omega

/-- The layout is told exactly when WinRE does not precede the system and every variable is set. -/
theorem isFixNewHddWay_classifies_iff (header : WordHeader) (n : NewDisk) :
    Classifies { n with header := header.toOkrHeader } ↔ LayoutTold header.toOkrHeader := by
  -- The result is decided as soon as the state is.
  have reduced : Classifies { n with header := header.toOkrHeader } ↔
      ∀ stack, (isFixNewHddWay stack { n with header := header.toOkrHeader }).winREState
        = expectedState header.toOkrHeader := by
    refine ⟨fun told => told.state, fun state => ⟨fun stack stack' => ?_, state⟩⟩
    exact isFixNewHddWay_of_state ((state stack).trans (state stack').symm)
  rw [reduced, state_forall_iff, expectedState, LayoutTold]
  cases wire : header.findRecord isWinRE with
  | none => simp only [state_one_iff]
  | some w =>
    cases os : header.findRecord isOs with
    | none => simp only [state_one_iff]
    | some t =>
      -- Both searches give their one record.
      have one : ∀ w', header.Candidate isWinRE w' ↔ w' = w := by
        intro w'
        simp [OkrHeader.Candidate, wire, eq_comm]
      have two : ∀ t', header.Candidate isOs t' ↔ t' = t := by
        intro t'
        simp [OkrHeader.Candidate, os, eq_comm]
      refine Iff.trans ⟨fun all => all w t ((one w).mpr rfl) ((two t).mpr rfl), fun state w' t' => ?_⟩
        (state_layout_iff header.disksize (header.places w) (header.places t) (header.sizes t))
      rw [one, two]
      rintro rfl rfl
      exact state

/-- An image whose recovery partition is in front of the system, with a data partition behind. -/
def recoveryFirst : NewDisk where
  disk := fun _ => 0
  totalsector := 2000000
  header :=
    { partitionCount := 2
      disksize := 2000000
      partition := fun i =>
        if i = 0 then { bootBegin := 2048, totalSectors := 10000, typeGuid := windowRecoveryTypeGuid }
        else
          { bootBegin := 20480, totalSectors := 1000000, typeGuid := windowsDataTypeGuid,
            bIfBackup := true, hasWindows := true } }

/-- Its state is overwritten by the one of a WinRE farther behind. -/
theorem isFixNewHddWay_losesZero : ¬Classifies recoveryFirst := by
  intro told
  have state := told.state {}
  exact absurd state (by decide)

end Okr
