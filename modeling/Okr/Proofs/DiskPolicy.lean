import Okr.Restore.DiskPolicy
import Mathlib.Data.List.Perm.Basic

/-! The copies of the policy agree on the disks, and on the page unless all allowed ones are small. -/

namespace Okr

/-! ### The policy -/

/-- Which target, SATA or not, a policy forbids to an image of a kind of disk. -/
def SkipType.forbids : SkipType → SysdiskType → Bool → Bool
  | .nvmeToSata, .nvme, true => true
  | .sataToNvme, .sata, false => true
  | .differentType, .nvme, true => true
  | .differentType, .sata, false => true
  | .nvmeToNvme, .nvme, false => true
  | .sataToSata, .sata, true => true
  | .sameType, .nvme, false => true
  | .sameType, .sata, true => true
  | _, _, _ => false

/-- The policy of the machine forbids a disk to the image. -/
def Globals.forbids (g : Globals) (disk : DiskInfo) : Bool :=
  g.enumGSKUSkipType.forbids g.sysdisktypeInBackupfile (isSata disk.disksn)

/-- A new disk that is large enough and that the policy allows. -/
def Globals.newEligible (g : Globals) (disk : DiskInfo) : Bool :=
  disk.curdisktype == .newFound && !(decide (disk.size < SMALL_DISK) || g.forbids disk)

/-- A disk a restore may go to: the original one, or a new one. -/
def Globals.eligible (g : Globals) (disk : DiskInfo) : Bool :=
  disk.curdisktype == .sysdisk || g.newEligible disk

/-- The disks a restore may go to. -/
def Globals.eligibleDisks (g : Globals) : List Nat :=
  (List.range g.disklist.length).filter fun i => g.eligible (g.disk i)

/-- The page is skipped exactly when there are new disks and none of them is eligible. -/
def SkipsRightly (g : Globals) (result : Bool) : Prop :=
  detectOutcome g result = .skipped ↔
    result = true ∧ (∃ disk ∈ g.disklist, disk.curdisktype = .newFound)
      ∧ ∀ disk ∈ g.disklist, disk.curdisktype = .newFound → g.newEligible disk = false

/-- The disks that are listed are those that are counted, each once, and those that are eligible. -/
structure ListsAgree (g : Globals) : Prop where
  counted : ((addDiskInfoLine g).map (·.disknum)).Perm
    (recoverableDisks g (List.range g.disklist.length) [])
  once : ((addDiskInfoLine g).map (·.disknum)).Nodup
  eligible : ∀ i, i ∈ (addDiskInfoLine g).map (·.disknum) ↔ i ∈ g.eligibleDisks
  number : getRecoverableDiskNumber g = (addDiskInfoLine g).length

variable {g : Globals}

/-- The tests of `AddDiskInfoLine` are the minimum size and the policy. -/
theorem skipsLine_eq (g : Globals) (disk : DiskInfo) :
    skipsLine g disk = (decide (disk.size < SMALL_DISK) || g.forbids disk) := by
  rw [skipsLine]
  by_cases small : disk.size < SMALL_DISK
  · rw [if_pos small, decide_eq_true small, Bool.true_or]
  · rw [if_neg small, decide_eq_false small, Bool.false_or, Globals.forbids]
    cases isSata disk.disksn <;> cases g.enumGSKUSkipType <;> cases g.sysdisktypeInBackupfile <;> rfl

/-- Those of `GetRecoverableDiskNumber` are too, unless the policy is to ignore new disks. -/
theorem skipsDisk_eq (enabled : g.enumGSKUSkipType ≠ .newHddFunc) (disk : DiskInfo) :
    skipsDisk g disk = (decide (disk.size < SMALL_DISK) || g.forbids disk) := by
  rw [← skipsLine_eq, skipsDisk, skipsLine, if_neg enabled]

/-- The disks that the second loop does not pass by are the eligible new ones. -/
theorem newEligible_iff (disk : DiskInfo) :
    g.newEligible disk = true ↔ disk.curdisktype = .newFound ∧ ¬ skipsLine g disk = true := by
  rw [Globals.newEligible, skipsLine_eq, Bool.and_eq_true, beq_iff_eq, Bool.not_eq_true',
    Bool.not_eq_true]

/-! ### The lists -/

/-- The first loop lists the original disks. -/
theorem sysdiskLines_eq (disks : List Nat) (lines : List DiskListInfo) :
    sysdiskLines g disks lines
      = lines ++ (disks.filter fun i => (g.disk i).curdisktype == .sysdisk).map g.diskLine := by
  induction disks generalizing lines with
  | nil => exact (List.append_nil lines).symm
  | cons i rest ih =>
    rw [sysdiskLines]
    by_cases original : (g.disk i).curdisktype = .sysdisk
    · rw [if_pos original, ih, List.filter_cons, if_pos (beq_iff_eq.mpr original), List.map_cons,
        List.append_assoc, List.singleton_append]
    · rw [if_neg original, ih, List.filter_cons, if_neg (by simpa using original)]

/-- The second loop lists the eligible new disks, if there is room for all of them. -/
theorem newDiskLines_eq {disks : List Nat} {lines : List DiskListInfo}
    (few : lines.length + (disks.filter fun i => g.newEligible (g.disk i)).length ≤ 16) :
    newDiskLines g disks lines
      = lines ++ (disks.filter fun i => g.newEligible (g.disk i)).map g.diskLine := by
  induction disks generalizing lines with
  | nil => exact (List.append_nil lines).symm
  | cons i rest ih =>
    rw [newDiskLines]
    by_cases eligible : g.newEligible (g.disk i) = true
    · obtain ⟨new, kept⟩ := (newEligible_iff _).mp eligible
      have goesOn : ¬ ((g.disk i).curdisktype = .newFound ∧ skipsLine g (g.disk i) = true) :=
        fun skipped => kept skipped.2
      rw [List.filter_cons, if_pos eligible, List.length_cons] at few
      rw [if_neg goesOn, if_pos new, List.filter_cons, if_pos eligible, List.map_cons]
      by_cases full : 16 ≤ (lines ++ [g.diskLine i]).length
      · -- The list is full, so no eligible disk is left.
        have none_ : (rest.filter fun i => g.newEligible (g.disk i)) = [] := by
          rw [List.length_append, List.length_singleton] at full
          exact List.length_eq_zero_iff.mp (by omega)
        rw [if_pos full, none_]
        rfl
      · rw [if_neg full, ih (by rw [List.length_append, List.length_singleton]; omega),
          List.append_assoc, List.singleton_append]
    · rw [List.filter_cons, if_neg eligible] at few ⊢
      by_cases skipped : (g.disk i).curdisktype = .newFound ∧ skipsLine g (g.disk i) = true
      · rw [if_pos skipped, ih few]
      · have old : ¬ (g.disk i).curdisktype = .newFound := fun new =>
          eligible ((newEligible_iff _).mpr ⟨new, fun skips => skipped ⟨new, skips⟩⟩)
        rw [if_neg skipped, if_neg old]
        by_cases full : 16 ≤ lines.length
        · have none_ : (rest.filter fun i => g.newEligible (g.disk i)) = [] :=
            List.length_eq_zero_iff.mp (by omega)
          rw [if_pos full, none_]
          exact (List.append_nil lines).symm
        · rw [if_neg full, ih few]

/-- The counter counts the eligible disks, if there are not too many. -/
theorem recoverableDisks_eq (enabled : g.enumGSKUSkipType ≠ .newHddFunc) {disks counted : List Nat}
    (few : counted.length + (disks.filter fun i => g.eligible (g.disk i)).length ≤ 16) :
    recoverableDisks g disks counted = counted ++ disks.filter fun i => g.eligible (g.disk i) := by
  -- on the disks left; `few` says that the seventeenth is never asked for
  induction disks generalizing counted with
  | nil => exact (List.append_nil counted).symm
  | cons i rest ih =>
    rw [recoverableDisks, skipsDisk_eq enabled, ← skipsLine_eq]
    by_cases original : (g.disk i).curdisktype = .sysdisk
    · have eligible : g.eligible (g.disk i) = true := by
        rw [Globals.eligible, beq_iff_eq.mpr original, Bool.true_or]
      rw [List.filter_cons, if_pos eligible, List.length_cons] at few
      rw [if_pos original, List.filter_cons, if_pos eligible,
        ih (by rw [List.length_append, List.length_singleton]; omega), List.append_assoc,
        List.singleton_append]
    · have same : g.eligible (g.disk i) = g.newEligible (g.disk i) := by
        rw [Globals.eligible, beq_eq_false_iff_ne.mpr original, Bool.false_or]
      rw [if_neg original]
      by_cases eligible : g.newEligible (g.disk i) = true
      · obtain ⟨new, kept⟩ := (newEligible_iff _).mp eligible
        have goesOn : ¬ ((g.disk i).curdisktype = .newFound ∧ skipsLine g (g.disk i) = true) :=
          fun skipped => kept skipped.2
        rw [List.filter_cons, if_pos (same.trans eligible)] at few ⊢
        rw [List.length_cons] at few
        rw [if_neg goesOn, if_pos new]
        by_cases full : 16 ≤ (counted ++ [i]).length
        · have none_ : (rest.filter fun i => g.eligible (g.disk i)) = [] := by
            rw [List.length_append, List.length_singleton] at full
            exact List.length_eq_zero_iff.mp (by omega)
          rw [if_pos full, none_]
        · rw [if_neg full, ih (by rw [List.length_append, List.length_singleton]; omega),
            List.append_assoc, List.singleton_append]
      · have passed : ¬ g.eligible (g.disk i) = true := by rw [same]; exact eligible
        rw [List.filter_cons, if_neg passed] at few ⊢
        by_cases skipped : (g.disk i).curdisktype = .newFound ∧ skipsLine g (g.disk i) = true
        · rw [if_pos skipped, ih few]
        · have old : ¬ (g.disk i).curdisktype = .newFound := fun new =>
            eligible ((newEligible_iff _).mpr ⟨new, fun skips => skipped ⟨new, skips⟩⟩)
          rw [if_neg skipped, if_neg old]
          by_cases full : 16 ≤ counted.length
          · have none_ : (rest.filter fun i => g.eligible (g.disk i)) = [] :=
              List.length_eq_zero_iff.mp (by omega)
            rw [if_pos full, none_, List.append_nil]
          · rw [if_neg full, ih few]

/-- A list of disks falls apart into the original ones and the eligible new ones. -/
theorem eligible_perm (disks : List Nat) :
    ((disks.filter fun i => (g.disk i).curdisktype == .sysdisk)
        ++ disks.filter fun i => g.newEligible (g.disk i)).Perm
      (disks.filter fun i => g.eligible (g.disk i)) := by
  have apart := List.filter_append_perm (fun i => (g.disk i).curdisktype == .sysdisk)
    (disks.filter fun i => g.eligible (g.disk i))
  have original : ∀ i, ((g.disk i).curdisktype == .sysdisk && g.eligible (g.disk i))
      = ((g.disk i).curdisktype == .sysdisk) := fun i => by
    rw [Globals.eligible]
    cases (g.disk i).curdisktype == .sysdisk <;> rfl
  -- A new disk is not the original one.
  have new : ∀ i, (!((g.disk i).curdisktype == .sysdisk) && g.eligible (g.disk i))
      = g.newEligible (g.disk i) := fun i => by
    rw [Globals.eligible, Globals.newEligible]
    cases (g.disk i).curdisktype <;> rfl
  rw [List.filter_filter, List.filter_filter] at apart
  simp only [original, new] at apart
  exact apart

/-- The list and the counter agree on the eligible disks, when there are at most sixteen. -/
theorem listsAgree (enabled : g.enumGSKUSkipType ≠ .newHddFunc)
    (few : g.eligibleDisks.length ≤ 16) : ListsAgree g := by
  have disks := @eligible_perm g (List.range g.disklist.length)
  have whole : (addDiskInfoLine g).map (·.disknum)
      = ((List.range g.disklist.length).filter fun i => (g.disk i).curdisktype == .sysdisk)
        ++ (List.range g.disklist.length).filter fun i => g.newEligible (g.disk i) := by
    have lengths := disks.length_eq
    rw [List.length_append] at lengths
    rw [addDiskInfoLine, sysdiskLines_eq, List.nil_append, newDiskLines_eq, ← List.map_append,
      List.map_map]
    · exact List.map_id _
    · rw [List.length_map, lengths]
      exact few
  have counted : recoverableDisks g (List.range g.disklist.length) [] = g.eligibleDisks := by
    rw [recoverableDisks_eq enabled (by rw [List.length_nil, Nat.zero_add]; exact few),
      List.nil_append]
    rfl
  have perm : ((addDiskInfoLine g).map (·.disknum)).Perm g.eligibleDisks := whole ▸ disks
  refine ⟨?_, ?_, fun i => perm.mem_iff, ?_⟩
  · rw [counted]
    exact perm
  · exact perm.nodup_iff.mpr (List.nodup_range.filter _)
  · rw [getRecoverableDiskNumber, counted, ← perm.length_eq, List.length_map]

/-! ### The page -/

/-- A loop skips the page when a new disk was seen and none of them ended it. -/
theorem skipLoop_iff (stops : DiskInfo → Bool) (bSkip : Bool) (disks : List DiskInfo) :
    (skipLoop stops bSkip disks).bSkip = true ↔
      (∀ disk ∈ disks, disk.curdisktype = .newFound → stops disk = false)
        ∧ (bSkip = true ∨ ∃ disk ∈ disks, disk.curdisktype = .newFound) := by
  induction disks generalizing bSkip with
  | nil => simp [skipLoop]
  | cons disk rest ih =>
    rw [skipLoop]
    by_cases new : disk.curdisktype = .newFound
    · rw [if_pos new]
      cases stop : stops disk with
      | true =>
        refine ⟨fun never => Bool.noConfusion never, fun skips => ?_⟩
        have goesOn := skips.1 disk List.mem_cons_self new
        rw [stop] at goesOn
        exact Bool.noConfusion goesOn
      | false =>
        rw [if_neg (by decide), ih]
        simp [new, stop]
    · rw [if_neg new, ih]
      simp [new]

/-- A branch that does not run changes nothing. -/
@[simp] theorem skipBranch_idle (stops : DiskInfo → Bool) (s : SkipLoop) :
    skipBranch false stops s = s := by
  rw [skipBranch]
  cases s.bSkip <;> rfl

/-- The first branch that runs starts at the first disk. -/
@[simp] theorem skipBranch_runs (stops : DiskInfo → Bool) (disks : List DiskInfo) :
    skipBranch true stops ⟨false, disks⟩ = skipLoop stops false disks := rfl

/-- The page is skipped when there are new disks and the policy forbids all of them. -/
theorem skipsPage_iff (g : Globals) :
    skipsPage g = true ↔ (∃ disk ∈ g.disklist, disk.curdisktype = .newFound)
      ∧ ∀ disk ∈ g.disklist, disk.curdisktype = .newFound → g.forbids disk = true := by
  have branch : ∀ stops : DiskInfo → Bool, (∀ disk, g.forbids disk = !stops disk) →
      ((skipLoop stops false g.disklist).bSkip = true ↔
        (∃ disk ∈ g.disklist, disk.curdisktype = .newFound)
          ∧ ∀ disk ∈ g.disklist, disk.curdisktype = .newFound → g.forbids disk = true) := by
    intro stops kind
    rw [skipLoop_iff, and_comm]
    simp only [kind, Bool.not_eq_true', Bool.false_eq_true, false_or]
  have never : (∀ disk, g.forbids disk = false) →
      (False ↔ (∃ disk ∈ g.disklist, disk.curdisktype = .newFound)
          ∧ ∀ disk ∈ g.disklist, disk.curdisktype = .newFound → g.forbids disk = true) := by
    intro allowed
    refine ⟨False.elim, fun all => ?_⟩
    obtain ⟨⟨disk, member, new⟩, forbidden⟩ := all
    have forbids := forbidden disk member new
    rw [allowed disk] at forbids
    cases forbids
  -- At most one branch runs, and it stops at the kind the policy allows.
  unfold skipsPage
  cases skip : g.enumGSKUSkipType <;> cases source : g.sysdisktypeInBackupfile <;>
    simp only [Bool.beq_eq_decide_eq, reduceCtorEq, decide_true, decide_false, Bool.or_true,
      Bool.or_false, Bool.and_true, Bool.and_false, skipBranch_idle, skipBranch_runs]
  all_goals first
    | exact never fun disk => by
        rw [Globals.forbids, skip, source]
        cases isSata disk.disksn <;> rfl
    | exact branch _ fun disk => by
        rw [Globals.forbids, skip, source]
        cases isSata disk.disksn <;> rfl

/-- The page is skipped exactly when a disk was found to be new and the policy forbids all new ones. -/
theorem skipped_iff (enabled : g.enumGSKUSkipType ≠ .newHddFunc) (result : Bool) :
    detectOutcome g result = .skipped ↔
      result = true ∧ (∃ disk ∈ g.disklist, disk.curdisktype = .newFound)
        ∧ ∀ disk ∈ g.disklist, disk.curdisktype = .newFound → g.forbids disk = true := by
  rw [detectOutcome, if_neg enabled, ← skipsPage_iff]
  cases result with
  | false => simp
  | true =>
    cases skipsPage g <;> simp

/-- A new disk is eligible when it is large enough and allowed. -/
theorem newEligible_of_new {disk : DiskInfo} (new : disk.curdisktype = .newFound) :
    g.newEligible disk = false ↔ disk.size < SMALL_DISK ∨ g.forbids disk = true := by
  rw [Globals.newEligible, beq_iff_eq.mpr new, Bool.true_and, Bool.not_eq_false', Bool.or_eq_true,
    decide_eq_true_iff]

/--
The disks that are listed are those that are counted.

The page is skipped rightly exactly when, if a disk was found to be new, one of the new disks is
eligible or the policy forbids all of them: the loops for the page do not look at the size.
-/
theorem diskPolicy_agrees_iff (g : Globals) (result : Bool)
    (enabled : g.enumGSKUSkipType ≠ .newHddFunc) (few : g.eligibleDisks.length ≤ 16) :
    ListsAgree g ∧ (SkipsRightly g result ↔
      (result = true →
        (∃ disk ∈ g.disklist, g.newEligible disk = true)
          ∨ ∀ disk ∈ g.disklist, disk.curdisktype = .newFound → g.forbids disk = true)) := by
  refine ⟨listsAgree enabled few, ?_⟩
  rw [SkipsRightly, skipped_iff enabled]
  refine ⟨fun rightly found => ?_, fun condition => ?_⟩
  · -- Without an eligible disk the page has to be skipped, if there is a new disk at all.
    by_cases some_ : ∃ disk ∈ g.disklist, g.newEligible disk = true
    · exact Or.inl some_
    · refine Or.inr fun disk member new => ?_
      have none_ : ∀ other ∈ g.disklist, other.curdisktype = .newFound →
          g.newEligible other = false := fun other inside _ =>
        Bool.eq_false_iff.mpr fun eligible => some_ ⟨other, inside, eligible⟩
      exact (rightly.mpr ⟨found, ⟨disk, member, new⟩, none_⟩).2.2 disk member new
  · refine and_congr_right fun found => and_congr_right fun _ => ?_
    refine ⟨fun forbidden disk member new =>
      (newEligible_of_new new).mpr (Or.inr (forbidden disk member new)), fun none_ => ?_⟩
    cases condition found with
    | inl eligible =>
      obtain ⟨disk, member, yes⟩ := eligible
      have no := none_ disk member ((newEligible_iff disk).mp yes).1
      rw [no] at yes
      cases yes
    | inr forbidden => exact forbidden

/-- `FindNewHdd` says that a disk is new only when it marked one. -/
theorem findNewHdd_announces (stray : Nat → Serial) (version : Nat) (buffer : Image) (g : Globals)
    (announced : (findNewHdd stray version buffer g).2 = true) :
    ∃ disk ∈ (findNewHdd stray version buffer g).1.disklist, disk.curdisktype = .newFound := by
  unfold findNewHdd at announced ⊢
  dsimp only at announced ⊢
  by_cases version_ : version ≠ OKR_VERSION
  · rw [if_pos version_] at announced
    cases announced
  by_cases magic : buffer 0 ≠ 0x44 ∨ buffer 1 ≠ 0x53 ∨ buffer 2 ≠ 0x4E
  · rw [if_neg version_, if_pos magic] at announced
    cases announced
  by_cases size_ : le64 buffer 4 = 0
  · rw [if_neg version_, if_neg magic, if_pos size_] at announced
    cases announced
  rw [if_neg version_, if_neg magic, if_neg size_] at announced ⊢
  rw [List.any_eq_true] at announced
  obtain ⟨disk, member, marked⟩ := announced
  refine ⟨_, List.mem_map_of_mem member, ?_⟩
  rw [markDisk, beq_iff_eq.mp marked]
  rfl

/-- A machine that was backed up on SATA, whose policy forbids NVMe, with a new disk of either kind. -/
def policyMachine (totalsector : Nat) (sn : Byte) : Globals where
  disklist :=
    [{ totalsector := 0x1000000, curdisktype := .sysdisk },
      { totalsector := totalsector, disksn := fun _ => sn, curdisktype := .newFound }]
  sysdisktypeInBackupfile := .sata
  enumGSKUSkipType := .sataToNvme

/-- A large NVMe disk is forbidden, so its machine shows no page. -/
theorem diskPolicy_agrees_forbidden :
    ListsAgree (policyMachine 0x1000000 0x41) ∧ SkipsRightly (policyMachine 0x1000000 0x41) true := by
  have agrees := diskPolicy_agrees_iff (policyMachine 0x1000000 0x41) true (by decide) (by decide)
  refine ⟨agrees.1, agrees.2.mpr fun _ => Or.inr ?_⟩
  decide

/-- A SATA disk of 2 GiB is allowed but not eligible, and the page is shown. -/
theorem diskPolicy_small : ¬ SkipsRightly (policyMachine 0x400000 0x20) true := by
  unfold SkipsRightly
  decide

end Okr
