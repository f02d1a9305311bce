import Mathlib.Data.Int.Notation
import Okr.Scan.Ntfs

/-! Mapping pairs as NTFS defines them: runs of clusters, each placed relative to the one before. -/

namespace Okr

/-- The unsigned number some bytes of a record have, the lowest byte first. -/
def unsignedAt (record : Image) (first : Nat) : Nat → Nat
  | 0 => 0
  | n + 1 => unsignedAt record first n + 256 ^ n * (record (first + n)).toNat

/-- The signed number they have in two's complement, whose sign is in the last byte. -/
def signedAt (record : Image) (first n : Nat) : Int :=
  unsignedAt record first n - if 128 ≤ (record (first + n - 1)).toNat then 256 ^ n else 0

/-- A run: its clusters, and how far it is from the run before; a sparse run is nowhere. -/
structure ClusterRun where
  length : Nat
  delta : Option Int
deriving Repr, DecidableEq

/-- The difference a run adds to the cluster number. -/
def ClusterRun.shift (r : ClusterRun) : Int := r.delta.getD 0

/-- The run whose length has `n` bytes and whose difference has `m`; without any it is sparse. -/
def pairAt (record : Image) (run n m : Nat) : ClusterRun where
  length := unsignedAt record (run + 1) n
  delta := if m = 0 then none else some (signedAt record (run + 1 + n) m)

/-- The mapping pairs at an address are those of some runs; a zero byte ends them. -/
def MappingPairs (record : Image) : Nat → List ClusterRun → Prop
  | run, [] => (record run).toNat = 0
  | run, r :: runs =>
    ∃ n m, 1 ≤ n ∧ n ≤ 8 ∧ m ≤ 8 ∧ (record run).toNat = 16 * m + n ∧ r = pairAt record run n m
      ∧ MappingPairs record (run + 1 + n + m) runs

/-- All clusters of the file. -/
def clusters (runs : List ClusterRun) : Nat := (runs.map (·.length)).sum

/--
The runs from a file position on, behind a run that starts at the cluster `lcn`.

Each has a cluster, and the numbers of the clusters and of the positions have 63 bits.
-/
def WellFormedRuns : List ClusterRun → Nat → Int → Prop
  | [], _, _ => True
  | r :: runs, base, lcn =>
    0 < r.length ∧ base + r.length ≤ 2 ^ 63
      ∧ (r.delta ≠ none → 0 ≤ lcn + r.shift ∧ lcn + r.shift + r.length ≤ 2 ^ 63)
      ∧ WellFormedRuns runs (base + r.length) (lcn + r.shift)

/-- Where a position of the file is: its cluster, if it has one, and what is left of its run. -/
structure ClusterPlace where
  cluster : Option Int
  remaining : Nat
deriving Repr, DecidableEq

/-- The position of a file among its runs. -/
def locate : List ClusterRun → Nat → Int → Nat → Option ClusterPlace
  | [], _, _, _ => none
  | r :: runs, base, lcn, vcn =>
    if base ≤ vcn ∧ vcn < base + r.length then
      some
        { cluster := r.delta.map fun delta => lcn + delta + (vcn - base : Nat)
          remaining := r.length - (vcn - base) }
    else locate runs (base + r.length) (lcn + r.shift) vcn

/-- How `FindRun` gives a place: no cluster is the number 0. -/
def ClusterPlace.found (l : ClusterPlace) : FoundRun where
  lcn := (l.cluster.getD 0).toNat
  count := l.remaining

/-- The attribute at an address has the mapping pairs of runs, and says which positions they are. -/
structure RunsOf (record : Image) (attr : Nat) (runs : List ClusterRun) : Prop where
  pairs : MappingPairs record (attr + le16 record (attr + 32)) runs
  wellFormed : WellFormedRuns runs (le64 record (attr + 16)) 0
  high : le64 record (attr + 24) = u64 (le64 record (attr + 16) + clusters runs + (2 ^ 64 - 1))

/--
Runs that `FindRun` can tell: their lengths have 32 bits.

A difference of zero looks like a sparse run, which does no harm only to the cluster 0 alone.
-/
def ToldRuns : List ClusterRun → Int → Prop
  | [], _ => True
  | r :: runs, lcn =>
    r.length < 2 ^ 32 ∧ (r.delta = some 0 → lcn = 0 ∧ r.length = 1) ∧ ToldRuns runs (lcn + r.shift)

end Okr
