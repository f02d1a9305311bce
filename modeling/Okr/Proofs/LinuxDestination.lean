import Okr.Restore.LinuxDestination

/-! When the disk a Linux image is restored to is a safe one. -/

namespace Okr

/-! ### What is found of the image on the machine -/

/-- A partition of the image that is found on a disk, when it counts for the choice. -/
structure Finding where
  /-- It was backed up, from the backed-up disk; else it was not, and stood on another disk. -/
  backup : Bool
  disk : Nat

/-- What a partition of the image says about a disk. -/
def LinuxMachine.finding (machine : LinuxMachine) (backupdisk : Nat) (image : PartitionInfo) :
    Option Finding :=
  match machine.findPartition image with
  | some d =>
    if image.bIfBackup then if backupdisk = image.diskNumber then some ⟨true, d⟩ else none
    else if backupdisk ≠ image.diskNumber then some ⟨false, d⟩
    else none
  | none => none

/-- All findings, in the order of the image's partitions. -/
def findings (head : LinuxHeader) (machine : LinuxMachine) : List Finding :=
  head.partition.filterMap (machine.finding head.backupdisk)

/-- A backed-up partition lets its disk stand if none stands; a data partition lets it fall. -/
def LinuxMachine.next (machine : LinuxMachine) (standing : Option Nat) (f : Finding) : Option Nat :=
  if f.backup then
    if standing = none ∧ (machine.disklist.getD f.disk {}).removable = false then some f.disk
    else standing
  else if standing = some f.disk then none
  else standing

/-- The disk that stands after some findings. -/
def LinuxMachine.standing (machine : LinuxMachine) (found : List Finding) : Option Nat :=
  found.foldl machine.next none

/-- The disks that are looked at on the way are in the list. -/
def LinuxMachine.Inside (machine : LinuxMachine) : List Finding → Option Nat → Prop
  | [], _ => True
  | f :: rest, standing =>
    ((f.backup = true → standing = none) → f.disk < machine.disklist.length)
      ∧ machine.Inside rest (machine.next standing f)

/-- A data partition of the image is found on a disk. -/
def dataFound (found : List Finding) (d : Nat) : Bool :=
  found.any fun f => !f.backup && f.disk == d

/-- The sectors of the partitions that were backed up. -/
def LinuxHeader.dataSectors (head : LinuxHeader) : Nat :=
  ((head.partition.filter (·.bIfBackup)).map (·.totalSectors)).sum

/-! ### The safety of the choice, and the inputs that lead to it -/

/-- No access leaves the list, and the disk that is chosen is fixed, large enough and not a data disk. -/
def SafeChoice (head : LinuxHeader) (machine : LinuxMachine) : Prop :=
  ∃ result, getDestinationDisk_Linux head machine = some result ∧ ∀ d, result = some d →
    ∃ disk, machine.disklist[d]? = some disk ∧ disk.removable = false
      ∧ head.dataSectors ≤ disk.totalsector ∧ dataFound (findings head machine) d = false

/-- A disk that may take the place of the original one: no data disk, and not removable. -/
def LinuxMachine.free (machine : LinuxMachine) (found : List Finding) (i : Nat) : Bool :=
  !((machine.disklist.getD i {}).removable || (machine.datadisk i || dataFound found i))

/-- A free disk that is unformatted and has the size, or has exactly that of the original one. -/
def LinuxMachine.first (machine : LinuxMachine) (found : List Finding) (disksize datasize i : Nat) :
    Bool :=
  machine.free found i
    && ((!(machine.disklist.getD i {}).formatted
        && decide (datasize ≤ (machine.disklist.getD i {}).totalsector))
      || decide ((machine.disklist.getD i {}).totalsector = disksize))

/-- A free disk that has the size. -/
def LinuxMachine.second (machine : LinuxMachine) (found : List Finding) (datasize i : Nat) : Bool :=
  machine.free found i && decide (datasize ≤ (machine.disklist.getD i {}).totalsector)

/-- The first disk with a property. -/
def LinuxMachine.firstDisk (machine : LinuxMachine) (p : Nat → Bool) : Option Nat :=
  (List.range machine.disklist.length).find? p

/--
The inputs with a safe choice.

A disk that stands must be larger than the data, and no data partition of the image may be found on
it; if none stands, the first disk of the kinds the fallback loops look for must be large enough.
The program's own sum of the sizes has 64 bits.
-/
structure SafeInput (head : LinuxHeader) (machine : LinuxMachine) : Prop where
  inside : machine.Inside (findings head machine) none
  stands : ∀ d, machine.standing (findings head machine) = some d →
    u64 head.dataSectors < (machine.disklist.getD d {}).totalsector
      ∧ head.dataSectors ≤ (machine.disklist.getD d {}).totalsector
      ∧ dataFound (findings head machine) d = false
  other : machine.standing (findings head machine) = none → ∀ i,
    ((machine.firstDisk
        (machine.first (findings head machine) head.disksize (u64 head.dataSectors))).or
      (machine.firstDisk (machine.second (findings head machine) (u64 head.dataSectors)))) = some i →
    head.dataSectors ≤ (machine.disklist.getD i {}).totalsector

variable {machine : LinuxMachine}

/-! ### The loop over the image's partitions -/

/-- What the loop leaves after some partitions that were looked at inside the list. -/
def LinuxMachine.after (machine : LinuxMachine) (backupdisk : Nat) (images : List PartitionInfo)
    (s : LinuxMatch) : LinuxMatch where
  destdisk := (images.filterMap (machine.finding backupdisk)).foldl machine.next s.destdisk
  datasize := u64 (s.datasize + ((images.filter (·.bIfBackup)).map (·.totalSectors)).sum)
  datadisk := fun i => s.datadisk i || dataFound (images.filterMap (machine.finding backupdisk)) i

/-- A disk outside the list is not read. -/
theorem getElem_outside {d : Nat} (outside : ¬ d < machine.disklist.length) :
    machine.disklist[d]? = none := List.getElem?_eq_none (Nat.le_of_not_lt outside)

/-- A disk inside the list is read. -/
theorem getElem_inside {d : Nat} (inside : d < machine.disklist.length) :
    machine.disklist[d]? = some (machine.disklist.getD d {}) := by
  rw [List.getD_eq_getElem?_getD, List.getElem?_eq_getElem inside, Option.getD_some]

/-- What a finding makes of the state, when its disk is looked at inside the list. -/
def LinuxMachine.found (machine : LinuxMachine) (s : LinuxMatch) (f : Finding) : LinuxMatch :=
  { s with
    destdisk := machine.next s.destdisk f
    datadisk := fun i => s.datadisk i || (!f.backup && f.disk == i) }

/-- A partition of the backed-up disk that was backed up. -/
theorem matched_backup {backupdisk d : Nat} {image : PartitionInfo} (s : LinuxMatch)
    (backup : image.bIfBackup = true) (same : backupdisk = image.diskNumber) :
    machine.matched backupdisk image d s
      = if s.destdisk = none → d < machine.disklist.length then some (machine.found s ⟨true, d⟩)
        else none := by
  have flags : (fun i => s.datadisk i || (!true && d == i)) = s.datadisk :=
    funext fun i => Bool.or_false _
  rw [LinuxMachine.matched, if_pos backup, LinuxMachine.found, LinuxMachine.next, if_pos rfl, flags]
  by_cases none_ : s.destdisk = none
  · rw [if_pos ⟨same, none_⟩]
    by_cases inside : d < machine.disklist.length
    · rw [if_pos fun _ => inside, getElem_inside inside, Option.map_some]
      cases removable : (machine.disklist.getD d {}).removable with
      | true => rw [if_pos rfl, if_neg fun no => Bool.noConfusion no.2]
      | false => rw [if_neg Bool.noConfusion, if_pos ⟨none_, rfl⟩]
    · rw [if_neg fun looks => inside (looks none_), getElem_outside inside]
      rfl
  · rw [if_neg fun both => none_ both.2, if_pos fun no => absurd no none_,
      if_neg fun both => none_ both.1]

/-- A partition of another disk that was not backed up. -/
theorem matched_data {backupdisk d : Nat} {image : PartitionInfo} (s : LinuxMatch)
    (backup : ¬ image.bIfBackup = true) (other : backupdisk ≠ image.diskNumber) :
    machine.matched backupdisk image d s
      = if d < machine.disklist.length then some (machine.found s ⟨false, d⟩) else none := by
  have flags : (fun i => s.datadisk i || (!false && d == i))
      = fun i => if i = d then true else s.datadisk i := by
    funext i
    by_cases same : i = d
    · rw [if_pos same, same]
      simp
    · rw [if_neg same, Bool.not_false, Bool.true_and, beq_eq_false_iff_ne.mpr (Ne.symm same),
        Bool.or_false]
  have notBackup : ¬ (⟨false, d⟩ : Finding).backup = true := Bool.noConfusion
  rw [LinuxMachine.matched, if_neg backup, if_pos other, LinuxMachine.found, LinuxMachine.next,
    if_neg notBackup, flags]
  by_cases inside : d < machine.disklist.length
  · rw [if_pos inside, getElem_inside inside]
    rfl
  · rw [if_neg inside, getElem_outside inside]
    rfl

/-- What is done with a partition is what its finding says. -/
theorem matchStep_eq (backupdisk : Nat) (image : PartitionInfo) (s : LinuxMatch) :
    machine.matchStep backupdisk image s
      = match machine.finding backupdisk image with
        | some f =>
          if (f.backup = true → s.destdisk = none) → f.disk < machine.disklist.length then
            some (machine.found s f)
          else none
        | none => some s := by
  rw [LinuxMachine.matchStep, LinuxMachine.finding]
  -- Only a partition of the backup on its own disk, or a data partition elsewhere, is found.
  cases machine.findPartition image with
  | none => rfl
  | some d =>
    dsimp only
    by_cases backup : image.bIfBackup = true
    · rw [if_pos backup]
      by_cases same : backupdisk = image.diskNumber
      · rw [if_pos same]
        simp only [matched_backup s backup same, forall_const]
      · rw [if_neg same]
        show machine.matched backupdisk image d s = some s
        rw [LinuxMachine.matched, if_pos backup, if_neg fun both => same both.1]
    · rw [if_neg backup]
      by_cases other : backupdisk ≠ image.diskNumber
      · rw [if_pos other]
        simp only [matched_data s backup other, Bool.false_eq_true, false_implies, forall_const]
      · rw [if_neg other]
        show machine.matched backupdisk image d s = some s
        rw [LinuxMachine.matched, if_neg backup, if_neg other]

/-- The size of one more partition, in 64 bits. -/
theorem u64_add (image : PartitionInfo) (rest : List PartitionInfo) (datasize : Nat) :
    u64 ((if image.bIfBackup then u64 (datasize + image.totalSectors) else datasize)
        + ((rest.filter (·.bIfBackup)).map (·.totalSectors)).sum)
      = u64 (datasize + (((image :: rest).filter (·.bIfBackup)).map (·.totalSectors)).sum) := by
  by_cases backup : image.bIfBackup = true
  · rw [if_pos backup, List.filter_cons, if_pos backup, List.map_cons, List.sum_cons]
    simp only [u64]
    rw [Nat.mod_add_mod, Nat.add_assoc]
  · rw [if_neg backup, List.filter_cons, if_neg backup]

/-- A partition that says nothing leaves the match. -/
theorem after_cons_none {backupdisk : Nat} {image : PartitionInfo} (rest : List PartitionInfo)
    (s : LinuxMatch) (none_ : machine.finding backupdisk image = none) :
    machine.after backupdisk rest
        { s with
          datasize := if image.bIfBackup then u64 (s.datasize + image.totalSectors) else s.datasize }
      = machine.after backupdisk (image :: rest) s := by
  rw [LinuxMachine.after, LinuxMachine.after, List.filterMap_cons, none_, u64_add]

/-- A partition that says something is taken into the match. -/
theorem after_cons_some {backupdisk : Nat} {image : PartitionInfo} {f : Finding}
    (rest : List PartitionInfo) (s : LinuxMatch) (some_ : machine.finding backupdisk image = some f) :
    machine.after backupdisk rest
        { machine.found s f with
          datasize := if image.bIfBackup then u64 (s.datasize + image.totalSectors) else s.datasize }
      = machine.after backupdisk (image :: rest) s := by
  rw [LinuxMachine.after, LinuxMachine.after, List.filterMap_cons, some_, u64_add]
  have flags : (fun i => (machine.found s f).datadisk i
        || dataFound (rest.filterMap (machine.finding backupdisk)) i)
      = fun i => s.datadisk i
        || dataFound (f :: rest.filterMap (machine.finding backupdisk)) i :=
    funext fun i => Bool.or_assoc _ _ _
  rw [flags]
  rfl

/-- The loop, when every disk it looks at is in the list. -/
theorem matchLoop_inside {backupdisk : Nat} {images : List PartitionInfo} {s : LinuxMatch}
    (inside : machine.Inside (images.filterMap (machine.finding backupdisk)) s.destdisk)
    (small : s.datasize < 2 ^ 64) :
    machine.matchLoop backupdisk images s = some (machine.after backupdisk images s) := by
  -- The first partition either says nothing or is found on a disk of the list.
  induction images generalizing s with
  | nil =>
    have flags : (fun i => s.datadisk i || dataFound [] i) = s.datadisk :=
      funext fun i => Bool.or_false _
    rw [LinuxMachine.matchLoop, LinuxMachine.after, List.filterMap_nil, flags]
    show some s = some { s with datasize := u64 (s.datasize + 0) }
    rw [Nat.add_zero, u64_eq small]
  | cons image rest ih =>
    have size_ : (if image.bIfBackup = true then u64 (s.datasize + image.totalSectors)
        else s.datasize) < 2 ^ 64 := by
      by_cases backup : image.bIfBackup = true
      · rw [if_pos backup]
        exact Nat.mod_lt _ (by decide)
      · rw [if_neg backup]
        exact small
    rw [LinuxMachine.matchLoop, matchStep_eq]
    cases said : machine.finding backupdisk image with
    | none =>
      rw [List.filterMap_cons, said] at inside
      rw [← after_cons_none rest s said]
      exact ih inside size_
    | some f =>
      rw [List.filterMap_cons, said] at inside
      rw [← after_cons_some rest s said]
      dsimp only
      rw [if_pos inside.1]
      exact ih inside.2 size_

/-- The loop ends at the first disk it looks at outside the list. -/
theorem matchLoop_outside {backupdisk : Nat} {images : List PartitionInfo} {s : LinuxMatch}
    (outside : ¬ machine.Inside (images.filterMap (machine.finding backupdisk)) s.destdisk) :
    machine.matchLoop backupdisk images s = none := by
  induction images generalizing s with
  | nil => exact absurd trivial outside
  | cons image rest ih =>
    rw [LinuxMachine.matchLoop, matchStep_eq]
    cases said : machine.finding backupdisk image with
    | none =>
      rw [List.filterMap_cons, said] at outside
      exact @ih { s with datasize := _ } outside
    | some f =>
      rw [List.filterMap_cons, said] at outside
      dsimp only
      by_cases first : (f.backup = true → s.destdisk = none) → f.disk < machine.disklist.length
      · rw [if_pos first]
        exact @ih { machine.found s f with datasize := _ } fun rest_ => outside ⟨first, rest_⟩
      · rw [if_neg first]
        rfl

/-- A disk that stands is fixed and in the list. -/
theorem standing_inside {found : List Finding} {standing : Option Nat} {d : Nat}
    (inside : machine.Inside found standing) (stands : found.foldl machine.next standing = some d)
    (before : ∀ e, standing = some e → e < machine.disklist.length
      ∧ (machine.disklist.getD e {}).removable = false) :
    d < machine.disklist.length ∧ (machine.disklist.getD d {}).removable = false := by
  induction found generalizing standing with
  | nil => exact before d stands
  | cons f rest ih =>
    refine ih inside.2 stands fun e next => ?_
    rw [LinuxMachine.next] at next
    by_cases backup : f.backup = true
    · rw [if_pos backup] at next
      by_cases sets : standing = none ∧ (machine.disklist.getD f.disk {}).removable = false
      · rw [if_pos sets, Option.some.injEq] at next
        exact next ▸ ⟨inside.1 fun _ => sets.1, sets.2⟩
      · rw [if_neg sets] at next
        exact before e next
    · rw [if_neg backup] at next
      by_cases falls : standing = some f.disk
      · rw [if_pos falls] at next
        cases next
      · rw [if_neg falls] at next
        exact before e next

/-! ### The fallback loops -/

/-- Without a candidate the first loop ends at the first disk of its two kinds. -/
theorem firstFallback_eq (disksize : Nat) (s : LinuxMatch) (p : Nat → Bool)
    (kinds : ∀ i, p i = (machine.usable s.datadisk i
      && ((!(machine.disklist.getD i {}).formatted
          && decide (s.datasize ≤ (machine.disklist.getD i {}).totalsector))
        || decide ((machine.disklist.getD i {}).totalsector = disksize)))) (disks : List Nat) :
    machine.firstFallback disksize s none disks
      = match disks.find? p with
        | some i =>
          if !(machine.disklist.getD i {}).formatted
              ∧ s.datasize ≤ (machine.disklist.getD i {}).totalsector then ⟨some i, none⟩
          else ⟨none, some i⟩
        | none => ⟨none, none⟩ := by
  -- The loop takes the first disk that has one of the two kinds.
  induction disks with
  | nil => rfl
  | cons i rest ih =>
    rw [LinuxMachine.firstFallback, List.find?_cons]
    cases usable : machine.usable s.datadisk i with
    | false =>
      have passes : p i = false := by rw [kinds, usable, Bool.false_and]
      rw [passes]
      exact ih
    | true =>
      rw [if_neg (by decide)]
      by_cases large : (!(machine.disklist.getD i {}).formatted) = true
          ∧ s.datasize ≤ (machine.disklist.getD i {}).totalsector
      · have ends : p i = true := by
          rw [kinds, usable, large.1, decide_eq_true large.2]
          rfl
        rw [if_pos ⟨large.1, large.2, rfl⟩, ends]
        dsimp only
        rw [if_pos large]
      · rw [if_neg fun both => large ⟨both.1, both.2.1⟩]
        have notLarge : (!(machine.disklist.getD i {}).formatted
            && decide (s.datasize ≤ (machine.disklist.getD i {}).totalsector)) = false := by
          rw [Bool.eq_false_iff, ne_eq, Bool.and_eq_true, decide_eq_true_iff]
          exact large
        by_cases same : (machine.disklist.getD i {}).totalsector = disksize
        · have ends : p i = true := by
            rw [kinds, usable, decide_eq_true same, Bool.or_true]
            rfl
          rw [if_pos ⟨same, rfl⟩, ends]
          dsimp only
          rw [if_neg large]
        · have passes : p i = false := by
            rw [kinds, notLarge, decide_eq_false same, Bool.or_false, Bool.and_false]
          rw [if_neg fun both => same both.1, passes]
          exact ih

/-- The second loop ends at the first large disk that is unformatted, or keeps the first large one. -/
theorem secondFallback_eq (s : LinuxMatch) (destdisk candidate : Option Nat) (p q : Nat → Bool)
    (kinds : ∀ i, p i = (machine.usable s.datadisk i
      && decide (s.datasize ≤ (machine.disklist.getD i {}).totalsector)))
    (unformatted : ∀ i, q i = (p i && !(machine.disklist.getD i {}).formatted))
    (disks : List Nat) :
    (machine.secondFallback s destdisk candidate disks).destdisk = (disks.find? q).or destdisk
      ∧ (disks.find? q = none →
        (machine.secondFallback s destdisk candidate disks).candidate
          = candidate.or (disks.find? p)) := by
  -- A disk without a file system ends the loop; before it the first other one is kept.
  induction disks generalizing candidate with
  | nil =>
    refine ⟨rfl, fun _ => ?_⟩
    rw [List.find?_nil, Option.or_none]
    rfl
  | cons i rest ih =>
    rw [LinuxMachine.secondFallback, List.find?_cons, List.find?_cons]
    cases usable : machine.usable s.datadisk i with
    | false =>
      have small : p i = false := by rw [kinds, usable, Bool.false_and]
      have passes : q i = false := by rw [unformatted, small, Bool.false_and]
      rw [passes, small]
      exact ih candidate
    | true =>
      rw [if_neg (by decide)]
      by_cases large : s.datasize ≤ (machine.disklist.getD i {}).totalsector
      · have fits : p i = true := by
          rw [kinds, usable, decide_eq_true large]
          rfl
        cases formatted : (machine.disklist.getD i {}).formatted with
        | false =>
          have ends : q i = true := by
            rw [unformatted, fits, formatted]
            rfl
          rw [if_pos ⟨rfl, large⟩, ends]
          exact ⟨rfl, fun never => by cases never⟩
        | true =>
          have passes : q i = false := by
            rw [unformatted, formatted, Bool.not_true, Bool.and_false]
          rw [if_neg fun both => Bool.noConfusion both.1, passes, fits]
          obtain ⟨dest, kept⟩ := ih (if s.datasize ≤ (machine.disklist.getD i {}).totalsector
            ∧ candidate = none then some i else candidate)
          refine ⟨dest, fun none_ => (kept none_).trans ?_⟩
          cases candidate with
          | none => rw [if_pos ⟨large, rfl⟩]; rfl
          | some c => rw [if_neg fun both => by cases both.2]; rfl
      · have small : p i = false := by rw [kinds, decide_eq_false large, Bool.and_false]
        have passes : q i = false := by rw [unformatted, small, Bool.false_and]
        rw [if_neg fun both => large both.2, if_neg fun both => large both.1, passes, small]
        exact ih candidate

/-- The first element with a property is the first with a stronger one, if it has that too. -/
theorem find_of_stronger {p q : Nat → Bool} {disks : List Nat} {i : Nat}
    (first : disks.find? p = some i) (stronger : ∀ j, q j = true → p j = true) (has : q i = true) :
    disks.find? q = some i := by
  obtain ⟨-, before, behind, split_, none_⟩ := List.find?_eq_some_iff_append.mp first
  refine List.find?_eq_some_iff_append.mpr ⟨has, before, behind, split_, fun j member => ?_⟩
  rw [Bool.not_eq_true', Bool.eq_false_iff]
  intro yes
  have passes := none_ j member
  rw [stronger j yes] at passes
  cases passes

/-- Without a disk that stands, the fallback loops take the first disk of the first kind, or the second. -/
theorem fallback_eq (disksize : Nat) (s : LinuxMatch) (p q : Nat → Bool)
    (first : ∀ i, p i = (machine.usable s.datadisk i
      && ((!(machine.disklist.getD i {}).formatted
          && decide (s.datasize ≤ (machine.disklist.getD i {}).totalsector))
        || decide ((machine.disklist.getD i {}).totalsector = disksize))))
    (second : ∀ i, q i = (machine.usable s.datadisk i
      && decide (s.datasize ≤ (machine.disklist.getD i {}).totalsector))) :
    (machine.fallback disksize s ⟨none, none⟩).destdisk.or
        (machine.fallback disksize s ⟨none, none⟩).candidate
      = (machine.firstDisk p).or (machine.firstDisk q) := by
  have loop := firstFallback_eq disksize s p first (List.range machine.disklist.length)
  -- A disk that the second loop would take at once is one that the first has looked for.
  have stronger : ∀ j, (q j && !(machine.disklist.getD j {}).formatted) = true → p j = true := by
    intro j yes
    rw [second, Bool.and_eq_true, Bool.and_eq_true] at yes
    rw [first, yes.1.1, yes.1.2, yes.2]
    rfl
  rw [LinuxMachine.fallback, if_pos rfl, LinuxMachine.firstDisk, LinuxMachine.firstDisk]
  cases found : (List.range machine.disklist.length).find? p with
  | none =>
    have noneLarge : (List.range machine.disklist.length).find?
        (fun j => q j && !(machine.disklist.getD j {}).formatted) = none := by
      rw [List.find?_eq_none] at found ⊢
      exact fun j member yes => found j member (stronger j yes)
    obtain ⟨dest, kept⟩ := secondFallback_eq s none none q _ second (fun _ => rfl)
      (List.range machine.disklist.length)
    rw [found] at loop
    rw [loop, if_pos rfl, dest, kept noneLarge, noneLarge]
    rfl
  | some i =>
    rw [found] at loop
    dsimp only at loop
    by_cases large : (!(machine.disklist.getD i {}).formatted) = true
        ∧ s.datasize ≤ (machine.disklist.getD i {}).totalsector
    · have usable : machine.usable s.datadisk i = true := by
        have has := List.find?_some found
        rw [first, Bool.and_eq_true] at has
        exact has.1
      have has : (q i && !(machine.disklist.getD i {}).formatted) = true := by
        rw [second, usable, decide_eq_true large.2, large.1]
        rfl
      obtain ⟨dest, -⟩ := secondFallback_eq s (some i) none q _ second (fun _ => rfl)
        (List.range machine.disklist.length)
      rw [if_pos large] at loop
      rw [loop, if_pos rfl, dest, find_of_stronger found stronger has]
      rfl
    · rw [if_neg large] at loop
      rw [loop]
      rfl

/-- With a candidate the first loop finds nothing. -/
theorem firstFallback_candidate (disksize : Nat) (s : LinuxMatch) (d : Nat) (disks : List Nat) :
    machine.firstFallback disksize s (some d) disks = ⟨none, some d⟩ := by
  induction disks with
  | nil => rfl
  | cons i rest ih =>
    have taken : ¬ some d = (none : Option Nat) := fun no => by cases no
    rw [LinuxMachine.firstFallback]
    cases machine.usable s.datadisk i with
    | false => exact ih
    | true =>
      rw [if_neg (by decide), if_neg fun both => taken both.2.2, if_neg fun both => taken both.2]
      exact ih

/-- A disk that stands and is large enough is chosen, whatever its size says about the original one. -/
theorem fallback_stands (disksize : Nat) (s : LinuxMatch) (d : Nat) {destdisk : Option Nat}
    (same : destdisk = none ∨ destdisk = some d) :
    (machine.fallback disksize s ⟨destdisk, some d⟩).destdisk.or
        (machine.fallback disksize s ⟨destdisk, some d⟩).candidate = some d := by
  cases same with
  | inl none_ =>
    subst none_
    rw [LinuxMachine.fallback, if_pos rfl, firstFallback_candidate]
    rfl
  | inr stands =>
    subst stands
    rfl

/-! ### The choice -/

/-- The whole function, when the loop over the partitions stays inside the list. -/
theorem getDestinationDisk_Linux_inside (head : LinuxHeader)
    (inside : machine.Inside (findings head machine) none) :
    getDestinationDisk_Linux head machine
      = match machine.standing (findings head machine) with
        | some d =>
          if (machine.disklist.getD d {}).totalsector ≤ u64 head.dataSectors then none
          else some (some d)
        | none =>
          some ((machine.firstDisk
              (machine.first (findings head machine) head.disksize (u64 head.dataSectors))).or
            (machine.firstDisk (machine.second (findings head machine) (u64 head.dataSectors)))) := by
  have size_ : u64 (0 + head.dataSectors) = u64 head.dataSectors := by rw [Nat.zero_add]
  have loop := @matchLoop_inside machine head.backupdisk head.partition
    ⟨none, 0, machine.datadisk⟩ inside (Nat.two_pow_pos 64)
  have after : machine.after head.backupdisk head.partition ⟨none, 0, machine.datadisk⟩
      = ⟨machine.standing (findings head machine), u64 head.dataSectors,
        fun i => machine.datadisk i || dataFound (findings head machine) i⟩ := by
    rw [← size_]
    rfl
  rw [after] at loop
  rw [getDestinationDisk_Linux, loop]
  show (machine.checkSize head.disksize _).bind _ = _
  rw [LinuxMachine.checkSize]
  cases stands : machine.standing (findings head machine) with
  | some d =>
    have found := standing_inside inside stands fun e no => by cases no
    dsimp only
    rw [getElem_inside found.1]
    show (if _ then _ else _ : Option LinuxChoice).bind _ = _
    by_cases small : (machine.disklist.getD d {}).totalsector ≤ u64 head.dataSectors
    · rw [if_pos small, if_pos small]
      rfl
    · rw [if_neg small, if_neg small]
      -- A disk of another size is set to −1, and stays the candidate.
      split
      · exact congrArg some (fallback_stands head.disksize _ d (Or.inl rfl))
      · exact congrArg some (fallback_stands head.disksize _ d (Or.inr rfl))
  | none =>
    exact congrArg some (fallback_eq head.disksize _ _ _ (fun i => rfl) (fun i => rfl))

/-- A disk the fallback loops take is free. -/
theorem free_of_found {found : List Finding} {disksize datasize i : Nat}
    (chosen : ((machine.firstDisk (machine.first found disksize datasize)).or
      (machine.firstDisk (machine.second found datasize))) = some i) :
    i < machine.disklist.length ∧ machine.free found i = true := by
  rw [Option.or_eq_some_iff] at chosen
  cases chosen with
  | inl first =>
    have has := List.find?_some first
    rw [LinuxMachine.first, Bool.and_eq_true] at has
    exact ⟨List.mem_range.mp (List.mem_of_find?_eq_some first), has.1⟩
  | inr second =>
    have has := List.find?_some second.2
    rw [LinuxMachine.second, Bool.and_eq_true] at has
    exact ⟨List.mem_range.mp (List.mem_of_find?_eq_some second.2), has.1⟩

/-- The choice is safe exactly on the inputs that lead to a safe one. -/
theorem getDestinationDisk_Linux_safe_iff (head : LinuxHeader) (machine : LinuxMachine) :
    SafeChoice head machine ↔ SafeInput head machine := by
  by_cases inside : machine.Inside (findings head machine) none
  · have whole := getDestinationDisk_Linux_inside head inside
    rw [SafeChoice, whole]
    cases stands : machine.standing (findings head machine) with
    | some d =>
      have fixed := standing_inside inside stands fun e no => by cases no
      dsimp only
      refine ⟨fun safe => ⟨inside, fun e same => ?_, fun none_ => ?_⟩, fun input => ?_⟩
      · rw [stands, Option.some.injEq] at same
        subst same
        obtain ⟨result, chosen, sound⟩ := safe
        by_cases small : (machine.disklist.getD d {}).totalsector ≤ u64 head.dataSectors
        · rw [if_pos small] at chosen
          cases chosen
        · rw [if_neg small, Option.some.injEq] at chosen
          obtain ⟨disk, at_, -, large, noData⟩ := sound d chosen.symm
          rw [getElem_inside fixed.1, Option.some.injEq] at at_
          rw [at_] at small ⊢
          exact ⟨Nat.lt_of_not_le small, large, noData⟩
      · rw [stands] at none_
        cases none_
      · obtain ⟨wider, large, noData⟩ := input.stands d stands
        refine ⟨some d, if_neg (Nat.not_le.mpr wider), fun e same => ?_⟩
        rw [← Option.some.inj same]
        exact ⟨_, getElem_inside fixed.1, fixed.2, large, noData⟩
    | none =>
      dsimp only
      refine ⟨fun safe => ⟨inside, fun e same => ?_, fun _ i chosen => ?_⟩, fun input => ?_⟩
      · rw [stands] at same
        cases same
      · obtain ⟨result, same, sound⟩ := safe
        rw [Option.some.injEq] at same
        obtain ⟨disk, at_, -, large, -⟩ := sound i (same ▸ chosen)
        rw [getElem_inside (free_of_found chosen).1, Option.some.injEq] at at_
        rw [at_]
        exact large
      · refine ⟨_, rfl, fun i chosen => ?_⟩
        obtain ⟨inList, free⟩ := free_of_found chosen
        rw [LinuxMachine.free, Bool.not_eq_true', Bool.or_eq_false_iff, Bool.or_eq_false_iff] at free
        exact ⟨_, getElem_inside inList, free.1, input.other stands i chosen, free.2.2⟩
  · -- An access outside the list leaves no result.
    have none_ : getDestinationDisk_Linux head machine = none := by
      rw [getDestinationDisk_Linux,
        @matchLoop_outside machine head.backupdisk head.partition ⟨none, 0, machine.datadisk⟩ inside]
      rfl
    rw [SafeChoice, none_]
    refine ⟨fun safe => ?_, fun input => absurd input.inside inside⟩
    obtain ⟨result, chosen, -⟩ := safe
    cases chosen

/-- Two disks, each with a partition of 600 sectors that the image backed up. -/
def twoDiskMachine : LinuxMachine where
  disklist := [{ totalsector := 1000, formatted := true }, { totalsector := 1000, formatted := true }]
  partitions :=
    [{ bootBegin := 63, totalSectors := 600, diskNumber := 0 },
      { bootBegin := 126, totalSectors := 600, diskNumber := 1 }]

/-- The image of both. -/
def twoDiskImage : LinuxHeader where
  partition :=
    [{ bootBegin := 63, totalSectors := 600, bIfBackup := true, diskNumber := 0 },
      { bootBegin := 126, totalSectors := 600, bIfBackup := true, diskNumber := 1 }]
  disksize := 1000

/-- Together they are larger than the disk of the first, which is set to −1 and then read. -/
theorem getDestinationDisk_Linux_outside : ¬ SafeChoice twoDiskImage twoDiskMachine := by
  intro safe
  obtain ⟨result, chosen, -⟩ := safe
  have outside : getDestinationDisk_Linux twoDiskImage twoDiskMachine = none := by decide
  rw [outside] at chosen
  cases chosen

end Okr
