import Okr.Proofs.ExclusionWalk

/-! When the sectors that the backup leaves out of an NTFS volume are the file's own. -/

namespace Okr

open Blocks (Extent)

/-! ### Where the runs of an attribute are -/

/-- The clusters of the runs that have some, behind a run that starts at the cluster `lcn`. -/
def placedRuns : List ClusterRun → Int → List Extent
  | [], _ => []
  | r :: runs, lcn =>
    (match r.delta with
      | some _ => [⟨(lcn + r.shift).toNat, r.length⟩]
      | none => []) ++ placedRuns runs (lcn + r.shift)

/-- The clusters of an attribute. -/
def DataPiece.places (p : DataPiece) : List Extent := placedRuns p.runs 0

/-- The sectors of some clusters. -/
def extentSectors (sectorsPerClr : Nat) (e : Extent) : Extent where
  start := e.start * sectorsPerClr
  number := e.number * sectorsPerClr

/-- A range that starts in an extent, and does not go beyond it. -/
def BelongsTo (e outer : Extent) : Prop := outer.Has e.start ∧ e.stop ≤ outer.stop

/-- The attribute has no name. -/
def DataPiece.Unnamed (p : DataPiece) : Prop := attributeNameLength p.record p.attr = 0

/--
A file that is to be left out: what its record leads to, and what is its own.

`own` are the parts of its unnamed data, of which its record may not have all.
No file has the cluster of the boot sector, no two attributes have one cluster, and the sectors of a
volume have numbers of 64 bits.
-/
structure ExcludedFile where
  volume : ExclusionVolume
  tried : List DataPiece
  own : List DataPiece
  tries : Tries volume.getNtfsFileRecord volume.record tried
  unnamed : ∀ p ∈ tried, p.Unnamed → p ∈ own
  sectors : 0 < volume.sectorsPerClr
  placed : ∀ p ∈ tried ++ own, ∀ e ∈ p.places, 1 ≤ e.start ∧ e.stop * volume.sectorsPerClr ≤ 2 ^ 64
  apart : ∀ p ∈ tried, ¬ p.Unnamed → ∀ q ∈ own, ∀ e ∈ p.places, ∀ o ∈ q.places, ∀ x, e.Has x → ¬ o.Has x

/-- All that is left out for the file are sectors of its unnamed data. -/
def ExcludedFile.OwnSectorsOnly (f : ExcludedFile) (maxListNumber : Nat) : Prop :=
  ∃ enough, ∀ fuel ≥ enough, ∃ list, dumpFileSectorListNtfs fuel f.volume maxListNumber = some list
    ∧ ∀ e ∈ list, ∃ p ∈ f.own, ∃ o ∈ p.places, BelongsTo e (extentSectors f.volume.sectorsPerClr o)

/-- The file has been found. -/
def ExcludedFile.Found (f : ExcludedFile) : Prop := f.volume.loadMFT = true ∧ f.volume.inode ≠ 0

instance (f : ExcludedFile) : Decidable f.Found := inferInstanceAs (Decidable (_ ∧ _))

/-- A run that is reached and has a difference is where it is placed. -/
theorem mem_placedRuns {runs : List ClusterRun} {base vcn : Nat} {lcn : Int} {x : ReachedRun}
    (wellFormed : WellFormedRuns runs base lcn) (low : base ≤ vcn)
    (member : x ∈ runsFrom runs base lcn vcn) :
    x.skipped < x.run.length
      ∧ (x.run.delta ≠ none → 0 ≤ x.cluster ∧ ⟨x.cluster.toNat, x.run.length⟩ ∈ placedRuns runs lcn) := by
  induction runs generalizing base lcn vcn with
  | nil => cases member
  | cons r runs ih =>
    obtain ⟨positive, -, placed, later⟩ := wellFormed
    rw [runsFrom] at member
    rw [placedRuns]
    split_ifs at member with here
    · rcases List.mem_cons.mp member with rfl | behind
      · dsimp only
        refine ⟨by omega, fun real => ⟨(placed real).1, ?_⟩⟩
        cases difference : r.delta with
        | none => exact absurd difference real
        | some delta => exact List.mem_append_left _ List.mem_cons_self
      · obtain ⟨skipped, rest⟩ := ih later (Nat.le_refl _) behind
        exact ⟨skipped, fun real => ⟨(rest real).1, List.mem_append_right _ (rest real).2⟩⟩
    · obtain ⟨skipped, rest⟩ := ih later (Nat.not_lt.mp here) member
      exact ⟨skipped, fun real => ⟨(rest real).1, List.mem_append_right _ (rest real).2⟩⟩

/-- A run that is reached in an attribute. -/
theorem DataPiece.mem_places {p : DataPiece} {vcn : Nat} {x : ReachedRun} (member : x ∈ p.from_ vcn) :
    x.skipped < x.run.length
      ∧ (x.run.delta ≠ none → 0 ≤ x.cluster ∧ ⟨x.cluster.toNat, x.run.length⟩ ∈ p.places) := by
  unfold DataPiece.from_ at member
  split_ifs at member with low
  · rcases p.form with ⟨-, -, none_⟩ | ⟨-, of, -⟩
    · rw [none_] at member
      cases member
    · exact mem_placedRuns of.wellFormed low member
  · cases member

/-- What is reached is reached in one of the attributes. -/
theorem mem_reachedRuns {pieces : List DataPiece} {vcn : Nat} {p : DataPiece} {x : ReachedRun}
    (member : (p, x) ∈ reachedRuns pieces vcn) : p ∈ pieces ∧ ∃ position, x ∈ p.from_ position := by
  induction pieces generalizing vcn with
  | nil => cases member
  | cons q pieces ih =>
    rw [reachedRuns] at member
    rcases List.mem_append.mp member with here | later
    · obtain ⟨y, inside, same⟩ := List.mem_map.mp here
      cases same
      exact ⟨List.mem_cons_self, vcn, inside⟩
    · obtain ⟨inside, position⟩ := ih later
      exact ⟨List.mem_cons_of_mem _ inside, position⟩

/-! ### One range of the list -/

section
variable (f : ExcludedFile) {p : DataPiece} {x : ReachedRun} {vcn : Nat}

/-- A run with a difference is told where it is: its sectors are those of its place. -/
theorem inSectors_placed (tried : p ∈ f.tried) (member : x ∈ p.from_ vcn) (real : x.run.shift ≠ 0) :
    ∃ e ∈ p.places, e.Has (x.cluster.toNat + x.skipped)
      ∧ (inSectors f.volume.sectorsPerClr x.told).start
        = (x.cluster.toNat + x.skipped) * f.volume.sectorsPerClr
      ∧ BelongsTo (inSectors f.volume.sectorsPerClr x.told) (extentSectors f.volume.sectorsPerClr e) := by
  have difference : x.run.delta ≠ none := by
    intro none_
    rw [ClusterRun.shift, none_] at real
    exact real rfl
  obtain ⟨skipped, place⟩ := DataPiece.mem_places member
  obtain ⟨positive, inside⟩ := place difference
  obtain ⟨-, limit⟩ := f.placed p (List.mem_append_left _ tried) _ inside
  have sectors := f.sectors
  have told : x.told = ⟨x.cluster.toNat + x.skipped, x.run.length - x.skipped⟩ := by
    rw [ReachedRun.told, if_neg real]
    congr 1
    omega
  simp only [Extent.stop] at limit
  -- The start has 64 bits, as the end of the run has, and a number that is cut only gets smaller.
  have before : (x.cluster.toNat + x.skipped) * f.volume.sectorsPerClr
      < (x.cluster.toNat + x.run.length) * f.volume.sectorsPerClr :=
    Nat.mul_lt_mul_of_pos_right (by omega) sectors
  have start : u64 ((x.cluster.toNat + x.skipped) * f.volume.sectorsPerClr)
      = (x.cluster.toNat + x.skipped) * f.volume.sectorsPerClr := u64_eq (by omega)
  have number : u32 ((x.run.length - x.skipped) * f.volume.sectorsPerClr)
      ≤ (x.run.length - x.skipped) * f.volume.sectorsPerClr := Nat.mod_le _ _
  have whole : (x.cluster.toNat + x.skipped) * f.volume.sectorsPerClr
      + (x.run.length - x.skipped) * f.volume.sectorsPerClr
        = x.cluster.toNat * f.volume.sectorsPerClr + x.run.length * f.volume.sectorsPerClr := by
    rw [← Nat.add_mul, ← Nat.add_mul]
    congr 1
    omega
  rw [Nat.add_mul x.cluster.toNat x.run.length] at before
  refine ⟨_, inside, ⟨by dsimp only; omega, by simp only [Extent.stop]; omega⟩, ?_, ?_⟩
  · rw [told, inSectors, start]
  · rw [told]
    simp only [BelongsTo, Extent.Has, Extent.stop, inSectors, extentSectors, start]
    refine ⟨⟨Nat.mul_le_mul_right _ (Nat.le_add_right _ _), before⟩, by omega⟩

/-- A run without a difference is told at the boot sector, where no file is. -/
theorem inSectors_sparse (zero : x.run.shift = 0) {q : DataPiece} (own : q ∈ f.own) {o : Extent}
    (place : o ∈ q.places) :
    ¬ BelongsTo (inSectors f.volume.sectorsPerClr x.told) (extentSectors f.volume.sectorsPerClr o) := by
  rintro ⟨⟨low, -⟩, -⟩
  obtain ⟨start, -⟩ := f.placed q (List.mem_append_right _ own) o place
  have some_ := Nat.mul_pos start f.sectors
  have told : (inSectors f.volume.sectorsPerClr x.told).start = 0 := by
    simp only [inSectors, ReachedRun.told, if_pos zero, Nat.zero_mul]
    rfl
  rw [told] at low
  exact absurd low (Nat.not_le.mpr some_)

/-- What is told of a run is the file's own exactly if its attribute is, and it has a difference. -/
theorem inSectors_own_iff (tried : p ∈ f.tried) (member : x ∈ p.from_ vcn) :
    (∃ q ∈ f.own, ∃ o ∈ q.places,
        BelongsTo (inSectors f.volume.sectorsPerClr x.told) (extentSectors f.volume.sectorsPerClr o))
      ↔ p.Unnamed ∧ x.run.shift ≠ 0 := by
  constructor
  · rintro ⟨q, own, o, place, belongs⟩
    have real : x.run.shift ≠ 0 := fun zero => inSectors_sparse f zero own place belongs
    refine ⟨?_, real⟩
    by_contra named
    -- The cluster it starts at is one of the attribute with a name.
    obtain ⟨e, placed, has, start, -⟩ := inSectors_placed f tried member real
    refine f.apart p tried named q own e placed o place _ has ?_
    obtain ⟨⟨low, high⟩, -⟩ := belongs
    rw [start] at low high
    simp only [extentSectors, Extent.stop, ← Nat.add_mul] at low high
    exact ⟨Nat.le_of_mul_le_mul_right low f.sectors, Nat.lt_of_mul_lt_mul_right high⟩
  · rintro ⟨unnamed, real⟩
    obtain ⟨e, placed, -, -, belongs⟩ := inSectors_placed f tried member real
    exact ⟨p, f.unnamed p tried unnamed, e, placed, belongs⟩

end

/-- What is left out for a file that is found: the sectors of all runs that are reached. -/
theorem dumpFileSectorListNtfs_eq {f : ExcludedFile} (found : f.Found) (maxListNumber : Nat) :
    ∃ enough, ∀ fuel ≥ enough, dumpFileSectorListNtfs fuel f.volume maxListNumber
      = some (((reachedRuns f.tried 0).take maxListNumber).map
        fun x => inSectors f.volume.sectorsPerClr x.2.told) := by
  obtain ⟨enough, lists⟩ := getInodeVcnList_eq f.tries
  refine ⟨enough, fun fuel le => ?_⟩
  rw [dumpFileSectorListNtfs, if_neg (by simp [found.1, found.2]), lists fuel le, Option.map_some,
    List.map_map]
  rfl

/--
Only the file's own sectors are left out exactly if all runs that the list is made from are its own.

A run is one of them if the attribute it was reached in has no name, and if it has a difference: a sparse
run looks like one at the boot sector.
-/
theorem dumpFileSectorListNtfs_own_iff (f : ExcludedFile) (maxListNumber : Nat) :
    f.OwnSectorsOnly maxListNumber
      ↔ ¬ f.Found ∨ ∀ x ∈ (reachedRuns f.tried 0).take maxListNumber,
          x.1.Unnamed ∧ x.2.run.shift ≠ 0 := by
  have own : ∀ x ∈ (reachedRuns f.tried 0).take maxListNumber,
      (∃ q ∈ f.own, ∃ o ∈ q.places, BelongsTo (inSectors f.volume.sectorsPerClr x.2.told)
        (extentSectors f.volume.sectorsPerClr o)) ↔ x.1.Unnamed ∧ x.2.run.shift ≠ 0 := by
    intro x member
    obtain ⟨tried, position, reached⟩ := mem_reachedRuns (List.mem_of_mem_take member)
    exact inSectors_own_iff f tried reached
  by_cases found : f.Found
  · obtain ⟨enough, dumped⟩ := dumpFileSectorListNtfs_eq found maxListNumber
    constructor
    · rintro ⟨enough', all⟩
      -- What is left out is what the reached runs tell, so the condition is one on these.
      obtain ⟨list, result, belongs⟩ := all (max enough enough') (Nat.le_max_right _ _)
      cases (dumped _ (Nat.le_max_left _ _)).symm.trans result
      exact .inr fun x member => (own x member).mp (belongs _ (List.mem_map_of_mem member))
    · intro condition
      have reached := condition.resolve_left (not_not_intro found)
      refine ⟨enough, fun fuel le => ⟨_, dumped fuel le, fun e member => ?_⟩⟩
      obtain ⟨x, inside, rfl⟩ := List.mem_map.mp member
      exact (own x inside).mpr (reached x inside)
  · -- Nothing is left out for a file that is not found.
    refine ⟨fun _ => .inl found, fun _ => ⟨0, fun fuel _ => ⟨[], ?_, fun e member => nomatch member⟩⟩⟩
    rw [dumpFileSectorListNtfs, if_pos]
    by_contra both
    rw [not_or, not_not] at both
    exact found both

/-! ### A file that begins with a sparse run -/

/-- A record whose data has two clusters that are nowhere, and one at the cluster 5. -/
def sparseRecord (a : Nat) : Byte :=
  if a = 20 then 56
  else if a = 56 then 0x80
  else if a = 64 then 1
  else if a = 80 then 2
  else if a = 88 then 64
  else if 120 ≤ a then UInt8.ofNat ([0x01, 2, 0x11, 1, 5].getD (a - 120) 0)
  else 0

/-- Its data. -/
def sparsePiece : DataPiece where
  record := sparseRecord
  attr := 56
  runs := [⟨2, none⟩, ⟨1, some 5⟩]
  form := by
    refine .inr ⟨by decide, ⟨?_, ?_, by decide⟩, by decide⟩
    · exact ⟨1, 0, by decide, by decide, by decide, by decide, by decide, 1, 1, by decide, by decide,
        by decide, by decide, by decide, by rw [MappingPairs]; decide⟩
    · simp [WellFormedRuns, ClusterRun.shift, sparseRecord, le64, le32, le16]

/-- The file on a volume with eight sectors in a cluster. -/
def sparseFile : ExcludedFile where
  volume := ⟨8, true, 40, sparseRecord, fun _ _ => sparseRecord, fun _ => 0⟩
  tried := [sparsePiece]
  own := [sparsePiece]
  tries := .direct rfl ⟨1, by decide⟩
  unnamed := fun _ member _ => member
  sectors := Nat.succ_pos 7
  placed := by
    intro p member e place
    simp only [List.cons_append, List.nil_append, List.mem_cons, List.not_mem_nil, or_false, or_self]
      at member
    subst member
    have only : e = ⟨5, 1⟩ := List.mem_singleton.mp place
    rw [only]
    decide
  apart := by
    intro p member named
    rw [List.mem_singleton.mp member] at named
    exact absurd (by unfold DataPiece.Unnamed; decide) named

/-- Its sparse run is left out as the sectors from the boot sector on. -/
theorem dumpFileSectorListNtfs_bootSector : ¬ sparseFile.OwnSectorsOnly 4096 := by
  rintro ⟨enough', all⟩
  obtain ⟨enough, dumped⟩ := dumpFileSectorListNtfs_eq (f := sparseFile) (by decide) 4096
  obtain ⟨list, result, belongs⟩ := all (max enough enough') (Nat.le_max_right _ _)
  cases (dumped _ (Nat.le_max_left _ _)).symm.trans result
  have first : (sparsePiece, ⟨⟨2, none⟩, 0, 0⟩) ∈ (reachedRuns sparseFile.tried 0).take 4096 :=
    List.mem_cons_self
  obtain ⟨q, own, o, place, own_⟩ := belongs _ (List.mem_map_of_mem first)
  exact inSectors_sparse sparseFile rfl own place own_

end Okr
