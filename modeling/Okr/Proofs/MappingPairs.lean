import Mathlib.Tactic.Ring
import Okr.Scan.MappingPairs

/-! `FindRun` gives the clusters that the mapping pairs define, but for long runs and zero differences. -/

namespace Okr

variable {record : Image} {run n m : Nat}

/-! ### The fields of a run -/

/-- The nibbles of the first byte are the bytes of the two numbers. -/
theorem runBytes (few : n ≤ 8) (header : (record run).toNat = 16 * m + n) :
    runCountBytes record run = n ∧ runLcnBytes record run = m := by
  rw [runCountBytes, runLcnBytes, header]
  omega

/-- Shifting the bytes in makes their number, behind the one that was there. -/
theorem shiftIn_eq (record : Image) (first n : Nat) {x : Nat} (small : x < 2 ^ 64) :
    shiftIn record first n x = u64 (x * 256 ^ n + unsignedAt record first n) := by
  induction n generalizing x with
  | zero =>
    rw [shiftIn, unsignedAt, u64]
    omega
  | succ n ih =>
    -- The highest byte is shifted in first, and the others come behind it.
    have fits : u64 (x * 2 ^ 8 + (record (first + n)).toNat) < 2 ^ 64 := Nat.mod_lt _ (by decide)
    rw [shiftIn, ih fits, unsignedAt, u64, u64, u64, Nat.add_mod, Nat.mod_mul_mod, ← Nat.add_mod]
    congr 1
    ring

/-- `RunCount` is the length, cut to 32 bits. -/
theorem runCount_eq (few : n ≤ 8) (header : (record run).toNat = 16 * m + n) :
    runCount record run = u32 (pairAt record run n m).length := by
  rw [runCount, (runBytes few header).1, shiftIn_eq _ _ _ (by decide), pairAt, Nat.zero_mul,
    Nat.zero_add, u32, u32, u64]
  exact Nat.mod_mod_of_dvd _ (by decide)

/-- A byte widened to 64 bits is its signed value, but for a multiple of the width. -/
theorem signExtend_eq (b : Byte) :
    (signExtend b : Int) = b.toNat - (if 128 ≤ b.toNat then 256 else 0)
      + 2 ^ 64 * (if 128 ≤ b.toNat then 1 else 0) := by
  -- A byte from 0x80 on stands for a number that is 256 less.
  have byte := b.toNat_lt
  unfold signExtend
  split <;> split <;> omega

/-- `RunLCN` is the signed difference, in 64 bits. -/
theorem runLCN_eq (few : n ≤ 8) (header : (record run).toNat = 16 * m + n) :
    (runLCN record run : Int) = (pairAt record run n m).shift % 2 ^ 64 := by
  obtain ⟨countBytes, lcnBytes⟩ := runBytes few header
  rw [runLCN]
  simp only [countBytes, lcnBytes, pairAt, ClusterRun.shift]
  cases m with
  | zero => rfl
  | succ k =>
    -- The last byte of the difference has its sign, and the others are shifted in behind it.
    have last : run + n + (k + 1) = run + 1 + n + k := by omega
    have first : run + n + 1 = run + 1 + n := by omega
    have sign : run + 1 + n + (k + 1) - 1 = run + 1 + n + k := by omega
    have small : signExtend (record (run + 1 + n + k)) < 2 ^ 64 := by
      have byte := (record (run + 1 + n + k)).toNat_lt
      unfold signExtend
      split <;> omega
    rw [if_neg (Nat.succ_ne_zero k), if_neg (Nat.succ_ne_zero k), Option.getD_some, signedAt, sign,
      last, first, Nat.add_sub_cancel, shiftIn_eq _ _ _ small, unsignedAt, u64]
    push_cast
    rw [signExtend_eq]
    -- For a negative number the sides differ by a multiple of the width.
    split
    · have negative : ((record (run + 1 + n + k)).toNat - 256 + 2 ^ 64 * 1 : Int) * 256 ^ k
            + unsignedAt record (run + 1 + n) k
          = (unsignedAt record (run + 1 + n) k + 256 ^ k * (record (run + 1 + n + k)).toNat
              - 256 ^ (k + 1)) + 18446744073709551616 * 256 ^ k := by
        ring
      rw [negative, Int.add_mul_emod_self_left]
    · congr 1
      ring

/-! ### One run -/

/-- What is counted behind a position fits 32 bits. -/
theorem findRunLoop_count {vcn fuel base lcn : Nat} {found : FoundRun}
    (finds : findRunLoop record vcn fuel run base lcn = some (some found)) :
    found.count < 2 ^ 32 := by
  induction fuel generalizing run base lcn with
  | zero => cases finds
  | succ fuel ih =>
    simp only [findRunLoop] at finds
    split at finds
    · cases finds
    · split at finds
      -- What is left of the run is stored in a 32-bit variable.
      · cases finds
        exact Nat.mod_lt _ (by decide)
      · exact ih finds

/-- A run that is well formed between those before and behind it. -/
structure FitRun (r : ClusterRun) (base : Nat) (lcn : Int) : Prop where
  some_ : 0 < r.length
  positions : base + r.length ≤ 2 ^ 63
  before : 0 ≤ lcn ∧ lcn < 2 ^ 63
  after : 0 ≤ lcn + r.shift ∧ lcn + r.shift < 2 ^ 63
  clusters : r.delta ≠ none → lcn + r.shift + r.length ≤ 2 ^ 63

/-- The first run of well-formed ones. -/
theorem WellFormedRuns.first {r : ClusterRun} {runs : List ClusterRun} {base : Nat} {lcn : Int}
    (wellFormed : WellFormedRuns (r :: runs) base lcn) (before : 0 ≤ lcn ∧ lcn < 2 ^ 63) :
    FitRun r base lcn := by
  obtain ⟨some_, positions, placed, -⟩ := wellFormed
  refine ⟨some_, positions, before, ?_, fun real => (placed real).2⟩
  -- A sparse run leaves the cluster number, and another one has its own.
  by_cases sparse : r.delta = none
  · rw [ClusterRun.shift, sparse, Option.getD_none, Int.add_zero]
    exact before
  · have := placed sparse
    omega

/-- One round of `FindRun`: the position is in the run, as far as its length has 32 bits, or not. -/
theorem findRunLoop_step {vcn fuel base : Nat} {lcn : Int} (some_ : 1 ≤ n) (few : n ≤ 8)
    (header : (record run).toNat = 16 * m + n) (fit : FitRun (pairAt record run n m) base lcn) :
    findRunLoop record vcn (fuel + 1) run base lcn.toNat
      = if base ≤ vcn ∧ vcn < base + u32 (pairAt record run n m).length then
          some (some
            { lcn :=
                if (pairAt record run n m).shift = 0 then 0
                else (lcn + (pairAt record run n m).shift + (vcn - base : Nat)).toNat
              count := u32 (pairAt record run n m).length - (vcn - base) })
        else
          findRunLoop record vcn fuel (run + 1 + n + m)
            (base + u32 (pairAt record run n m).length)
            (lcn + (pairAt record run n m).shift).toNat := by
  have difference := runLCN_eq few header
  have length := runCount_eq few header
  have bytes : runLength record run = 1 + n + m := by
    rw [runLength, (runBytes few header).1, (runBytes few header).2]
    omega
  have going : record run ≠ 0 := by
    intro zero
    rw [zero] at header
    have none_ : (0 : Byte).toNat = 0 := rfl
    omega
  obtain ⟨-, positions, before, after, -⟩ := fit
  generalize pairAt record run n m = r at *
  -- The source walks by the length it has cut, which is no longer than the run.
  have cut : u32 r.length ≤ r.length := Nat.mod_le _ _
  have short : u32 r.length < 2 ^ 32 := Nat.mod_lt _ (by decide)
  -- The sums of the source stay below 64 bits.
  have sum : u64 (lcn.toNat + runLCN record run) = (lcn + r.shift).toNat := by
    unfold u64
    omega
  have end_ : u64 (base + u32 r.length) = base + u32 r.length := by
    unfold u64
    omega
  have sparse : runLCN record run = 0 ↔ r.shift = 0 := by omega
  simp only [findRunLoop, if_neg going, length, sum, end_, bytes, sparse]
  by_cases inside : base ≤ vcn ∧ vcn < base + u32 r.length
  · have cluster : sub64 (u64 ((lcn + r.shift).toNat + vcn)) base
        = (lcn + r.shift + (vcn - base : Nat)).toNat := by
      unfold sub64 u64
      omega
    have left : u32 (u32 r.length + 2 ^ 32 - u32 (sub64 vcn base)) = u32 r.length - (vcn - base) := by
      generalize u32 r.length = count at *
      unfold u32 sub64
      omega
    rw [if_pos inside, if_pos inside, cluster, left]
  · rw [if_neg inside, if_neg inside, Nat.add_assoc run, Nat.add_assoc run]

/-! ### All runs -/

variable {r : ClusterRun} {runs : List ClusterRun} {base vcn : Nat} {lcn : Int}

/-- Without runs there are no clusters. -/
theorem clusters_nil : clusters [] = 0 := rfl

/-- The clusters of a run, and those of the runs behind it. -/
theorem clusters_cons (r : ClusterRun) (runs : List ClusterRun) :
    clusters (r :: runs) = r.length + clusters runs := by
  rw [clusters, List.map_cons, List.sum_cons, clusters]

/-- A position of the first run. -/
theorem locate_here (low : base ≤ vcn) (high : vcn < base + r.length) :
    locate (r :: runs) base lcn vcn = some
      { cluster := r.delta.map fun delta => lcn + delta + (vcn - base : Nat)
        remaining := r.length - (vcn - base) } := if_pos ⟨low, high⟩

/-- A position behind the first run. -/
theorem locate_behind (high : base + r.length ≤ vcn) :
    locate (r :: runs) base lcn vcn = locate runs (base + r.length) (lcn + r.shift) vcn :=
  if_neg fun here => Nat.not_lt_of_le high here.2

/-- A position before the runs or behind them has no place. -/
theorem locate_outside (runs : List ClusterRun) (base : Nat) (lcn : Int)
    (outside : vcn < base ∨ base + clusters runs ≤ vcn) : locate runs base lcn vcn = none := by
  induction runs generalizing base lcn with
  | nil => rfl
  | cons r runs ih =>
    have all := clusters_cons r runs
    rw [locate, if_neg (by omega)]
    exact ih _ _ (by omega)

/-- The cluster of a run that is not taken for a sparse one, or does not differ from it. -/
theorem found_here (told : r.delta = some 0 → lcn = 0 ∧ r.length = 1) (low : base ≤ vcn)
    (high : vcn < base + r.length) :
    (if r.shift = 0 then 0 else (lcn + r.shift + (vcn - base : Nat)).toNat)
      = ((r.delta.map fun delta => lcn + delta + (vcn - base : Nat)).getD 0).toNat := by
  cases sparse : r.delta with
  | none =>
    have zero : r.shift = 0 := by rw [ClusterRun.shift, sparse, Option.getD_none]
    rw [if_pos zero]
    rfl
  | some delta =>
    have shift : r.shift = delta := by rw [ClusterRun.shift, sparse, Option.getD_some]
    rw [Option.map_some, Option.getD_some, shift]
    by_cases zero : delta = 0
    · obtain ⟨first, single⟩ := told (by rw [sparse, zero])
      rw [if_pos zero, first, zero]
      omega
    · rw [if_neg zero]

/--
The loop of `FindRun` gives every position its place exactly when it can tell the runs.

The induction is on the runs, of which each one stands behind those the loop passed.
-/
theorem findRunLoop_locates_iff {fuel : Nat} (pairs : MappingPairs record run runs)
    (wellFormed : WellFormedRuns runs base lcn) (before : 0 ≤ lcn ∧ lcn < 2 ^ 63)
    (enough : runs.length < fuel) :
    (∀ vcn, base ≤ vcn → vcn < base + clusters runs →
        findRunLoop record vcn fuel run base lcn.toNat
          = some ((locate runs base lcn vcn).map ClusterPlace.found))
      ↔ ToldRuns runs lcn := by
  induction runs generalizing run base lcn fuel with
  | nil =>
    refine ⟨fun _ => trivial, fun _ vcn low high => ?_⟩
    have none_ := clusters_nil
    omega
  | cons r runs ih =>
    obtain ⟨n, m, some_, few, -, header, rfl, pairs⟩ := pairs
    have fit := wellFormed.first before
    have positive := fit.some_
    obtain ⟨fuel, rfl⟩ : ∃ k, fuel = k + 1 := ⟨fuel - 1, by omega⟩
    have all := clusters_cons (pairAt record run n m) runs
    -- One round decides about this run, and the others are left to the rest of the loop.
    have step := fun vcn => @findRunLoop_step record run n m vcn fuel base lcn some_ few header fit
    have rest := @ih (run + 1 + n + m) (base + (pairAt record run n m).length)
      (lcn + (pairAt record run n m).shift) fuel pairs wellFormed.2.2.2 fit.after
      (Nat.lt_of_succ_lt_succ enough)
    generalize pairAt record run n m = r at *
    rw [all, ToldRuns]
    constructor
    · intro locates
      -- At its first position the whole length is left, so it has 32 bits.
      have first := locates base (Nat.le_refl _) (by omega)
      rw [locate_here (Nat.le_refl _) (by omega)] at first
      have short := findRunLoop_count first
      simp only [ClusterPlace.found, Nat.sub_self, Nat.sub_zero] at short
      have whole : u32 r.length = r.length := Nat.mod_eq_of_lt short
      simp only [whole] at step
      refine ⟨short, fun zero => ?_, rest.mp fun vcn low high => ?_⟩
      · have shift : r.shift = 0 := by rw [ClusterRun.shift, zero, Option.getD_some]
        -- The cluster that is found is 0 for each position, so there is one.
        have same : ∀ vcn, base ≤ vcn → vcn < base + r.length → lcn + (vcn - base : Nat) = 0 := by
          intro vcn low high
          have here := locates vcn low (by omega)
          rw [step vcn, if_pos ⟨low, high⟩, if_pos shift, locate_here low high] at here
          simp only [Option.map_some, Option.some_inj, ClusterPlace.found, FoundRun.mk.injEq, zero,
            Option.getD_some] at here
          omega
        have one := same base (Nat.le_refl _) (by omega)
        refine ⟨by omega, ?_⟩
        by_contra more
        have two := same (base + 1) (Nat.le_succ _) (by omega)
        omega
      · have behind := locates vcn (by omega) (by omega)
        rwa [step vcn, if_neg (by omega), locate_behind low] at behind
    · rintro ⟨short, told, later⟩ vcn low high
      have whole : u32 r.length = r.length := Nat.mod_eq_of_lt short
      rw [step vcn, whole]
      -- The position is in this run, or behind it.
      by_cases here : vcn < base + r.length
      · rw [if_pos ⟨low, here⟩, locate_here low here, found_here told low here]
        rfl
      · rw [if_neg (by omega), locate_behind (by omega)]
        exact rest.mpr later vcn (by omega) (by omega)

/-- Behind well-formed runs the positions still have 63 bits. -/
theorem WellFormedRuns.end_ (wellFormed : WellFormedRuns runs base lcn) (some_ : runs ≠ []) :
    0 < clusters runs ∧ base + clusters runs ≤ 2 ^ 63 := by
  induction runs generalizing base lcn with
  | nil => exact absurd rfl some_
  | cons r runs ih =>
    obtain ⟨positive, positions, -, later⟩ := wellFormed
    have all := clusters_cons r runs
    by_cases last : runs = []
    · subst last
      have none_ := clusters_nil
      omega
    · have behind := ih later last
      omega

/-- The attribute's first and last positions are those of its runs. -/
theorem RunsOf.positions {attr : Nat} (of : RunsOf record attr runs) (some_ : runs ≠ []) :
    (vcn < le64 record (attr + 16) ∨ vcn > le64 record (attr + 24))
      ↔ vcn < le64 record (attr + 16) ∨ le64 record (attr + 16) + clusters runs ≤ vcn := by
  have high := of.high
  obtain ⟨positive, bits⟩ := of.wellFormed.end_ some_
  -- No sum of the positions reaches 64 bits.
  unfold u64 at high
  omega

/-- Without runs no position is found. -/
theorem findRun_nil {attr fuel : Nat} (of : RunsOf record attr []) (enough : 0 < fuel) :
    findRun fuel record attr vcn = some none := by
  obtain ⟨fuel, rfl⟩ : ∃ k, fuel = k + 1 := ⟨fuel - 1, by omega⟩
  have pairs : (record (attr + le16 record (attr + 32))).toNat = (0 : Byte).toNat := of.pairs
  rw [findRun]
  split
  · rfl
  · -- The pairs start with the byte that ends them.
    rw [findRunLoop, if_pos (UInt8.toNat_inj.mp pairs)]

/--
`FindRun` gives every position of a file the cluster and the rest of the run that its mapping pairs
define, and fails for all others, exactly when it can tell the runs.
-/
theorem findRun_locates_iff {attr : Nat} (of : RunsOf record attr runs) :
    (∀ fuel vcn, runs.length < fuel →
        findRun fuel record attr vcn
          = some ((locate runs (le64 record (attr + 16)) 0 vcn).map ClusterPlace.found))
      ↔ ToldRuns runs 0 := by
  by_cases empty : runs = []
  · subst empty
    exact ⟨fun _ => trivial, fun _ fuel vcn enough => findRun_nil of enough⟩
  -- `FindRun` checks the position first, and the loop meets those that pass.
  · have loop := fun fuel enough =>
      @findRunLoop_locates_iff record _ runs _ 0 fuel of.pairs of.wellFormed (by decide) enough
    constructor
    · intro locates
      refine (loop (runs.length + 1) (Nat.lt_succ_self _)).mp fun vcn low below => ?_
      have here := locates (runs.length + 1) vcn (Nat.lt_succ_self _)
      rw [findRun, if_neg (by rw [of.positions empty]; omega)] at here
      exact here
    · intro told fuel vcn enough
      rw [findRun]
      split
      · next outside =>
        rw [locate_outside runs _ _ ((of.positions empty).mp outside)]
        rfl
      · next inside =>
        rw [of.positions empty] at inside
        exact (loop fuel enough).mpr told vcn (by omega) (by omega)

/-- A record whose attribute at 0 has the positions from 0 to `high` and these mapping pairs. -/
def attributeRecord (high : Nat) (pairs : List Nat) (a : Nat) : Byte :=
  if a = 24 then UInt8.ofNat high
  else if a = 32 then 64
  else if 64 ≤ a then UInt8.ofNat (pairs.getD (a - 64) 0)
  else 0

/-- Three clusters from 5 on, two clusters that are nowhere, and one at 4. -/
def threeRuns : List ClusterRun := [⟨3, some 5⟩, ⟨2, none⟩, ⟨1, some (-1)⟩]

/-- They stand in seven bytes and a zero. -/
theorem threeRuns_of :
    RunsOf (attributeRecord 5 [0x11, 3, 5, 0x01, 2, 0x11, 1, 0xff]) 0 threeRuns := by
  refine ⟨?_, ?_, by decide⟩
  · exact ⟨1, 1, by decide, by decide, by decide, by decide, by decide, 1, 0, by decide, by decide,
      by decide, by decide, by decide, 1, 1, by decide, by decide, by decide, by decide, by decide,
      by rw [MappingPairs]; decide⟩
  · simp [WellFormedRuns, threeRuns, ClusterRun.shift, attributeRecord, le64, le32, le16]

/-- The places of its positions are found. -/
theorem findRun_locates_threeRuns :
    (∀ fuel vcn, threeRuns.length < fuel →
        findRun fuel (attributeRecord 5 [0x11, 3, 5, 0x01, 2, 0x11, 1, 0xff]) 0 vcn
          = some ((locate threeRuns
            (le64 (attributeRecord 5 [0x11, 3, 5, 0x01, 2, 0x11, 1, 0xff]) (0 + 16)) 0 vcn).map
              ClusterPlace.found))
      ↔ ToldRuns threeRuns 0 :=
  findRun_locates_iff threeRuns_of

/-- The second cluster of a run from cluster 0 on is taken for a sparse one. -/
theorem findRun_losesFirstRun :
    ¬ ∀ (record : Image) (attr : Nat) (runs : List ClusterRun), RunsOf record attr runs →
      ∀ fuel vcn, runs.length < fuel →
        findRun fuel record attr vcn
          = some ((locate runs (le64 record (attr + 16)) 0 vcn).map ClusterPlace.found) := by
  intro always
  -- One run of two clusters, whose offset byte is zero.
  have of : RunsOf (attributeRecord 1 [0x11, 2, 0]) 0 [⟨2, some 0⟩] := by
    refine ⟨?_, ?_, by decide⟩
    · exact ⟨1, 1, by decide, by decide, by decide, by decide, by decide, by rw [MappingPairs]; decide⟩
    · simp [WellFormedRuns, ClusterRun.shift, attributeRecord, le64, le32, le16]
  exact absurd (always _ 0 _ of 2 1 (by decide)) (by decide)

end Okr
