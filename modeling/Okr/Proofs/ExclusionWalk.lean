import Mathlib.Data.List.ReduceOption
import Okr.Proofs.MappingPairs
import Okr.Scan.ExclusionList

/-! The runs that the list of a file is made from, over its record and its attribute list. -/

namespace Okr

variable {record : Image} {run base vcn : Nat} {lcn : Int} {runs : List ClusterRun}

/-! ### The runs of an attribute from a position on -/

/-- A run that is reached: where its clusters start, and how many of them are before the position. -/
structure ReachedRun where
  run : ClusterRun
  cluster : Int
  skipped : Nat

/-- What `FindRun` tells of it: a difference of zero is taken for a sparse run. -/
def ReachedRun.told (x : ReachedRun) : FoundRun where
  lcn := if x.run.shift = 0 then 0 else (x.cluster + x.skipped).toNat
  count := x.run.length - x.skipped

/-- The runs from a position on. -/
def runsFrom : List ClusterRun → Nat → Int → Nat → List ReachedRun
  | [], _, _, _ => []
  | r :: runs, base, lcn, vcn =>
    if vcn < base + r.length then
      ⟨r, lcn + r.shift, vcn - base⟩ :: runsFrom runs (base + r.length) (lcn + r.shift) (base + r.length)
    else runsFrom runs (base + r.length) (lcn + r.shift) vcn

/-- The loop of `FindRun` tells the first of the runs from its position on. -/
theorem findRunLoop_from {fuel : Nat} (pairs : MappingPairs record run runs)
    (wellFormed : WellFormedRuns runs base lcn) (before : 0 ≤ lcn ∧ lcn < 2 ^ 63)
    (short : clusters runs < 2 ^ 32) (low : base ≤ vcn) (enough : runs.length < fuel) :
    findRunLoop record vcn fuel run base lcn.toNat
      = some ((runsFrom runs base lcn vcn).head?.map ReachedRun.told) := by
  induction runs generalizing run base lcn fuel with
  | nil =>
    obtain ⟨fuel, rfl⟩ : ∃ k, fuel = k + 1 := ⟨fuel - 1, by omega⟩
    have ended : (record run).toNat = (0 : Byte).toNat := pairs
    rw [findRunLoop, if_pos (UInt8.toNat_inj.mp ended)]
    rfl
  | cons r runs ih =>
    obtain ⟨n, m, some_, few, -, header, rfl, pairs⟩ := pairs
    have fit := wellFormed.first before
    obtain ⟨fuel, rfl⟩ : ∃ k, fuel = k + 1 := ⟨fuel - 1, by omega⟩
    have all := clusters_cons (pairAt record run n m) runs
    have step := @findRunLoop_step record run n m vcn fuel base lcn some_ few header fit
    rw [u32_eq (n := (pairAt record run n m).length) (by omega)] at step
    rw [step, runsFrom]
    -- The position is in this run, or the rest of the loop finds it behind.
    by_cases here : vcn < base + (pairAt record run n m).length
    · rw [if_pos ⟨low, here⟩, if_pos here]
      rfl
    · rw [if_neg fun inside => here inside.2, if_neg here]
      exact ih pairs wellFormed.2.2.2 fit.after (by omega) (Nat.not_lt.mp here)
        (Nat.lt_of_succ_lt_succ enough)

/-- Behind the first of the runs are the others. -/
theorem runsFrom_next {x : ReachedRun} {rest : List ReachedRun} (low : base ≤ vcn)
    (reached : runsFrom runs base lcn vcn = x :: rest) :
    runsFrom runs base lcn (vcn + x.told.count) = rest := by
  induction runs generalizing base lcn with
  | nil => cases reached
  | cons r runs ih =>
    rw [runsFrom] at reached ⊢
    by_cases here : vcn < base + r.length
    · rw [if_pos here] at reached
      obtain ⟨rfl, rfl⟩ := List.cons.inj reached
      have behind : vcn + (r.length - (vcn - base)) = base + r.length := by omega
      rw [ReachedRun.told, behind, if_neg (Nat.lt_irrefl _)]
    · rw [if_neg here] at reached
      rw [if_neg (by omega)]
      exact ih (Nat.not_lt.mp here) reached

/-- Behind all clusters no run is reached. -/
theorem runsFrom_behind (behind : base + clusters runs ≤ vcn) : runsFrom runs base lcn vcn = [] := by
  induction runs generalizing base lcn with
  | nil => rfl
  | cons r runs ih =>
    have all := clusters_cons r runs
    rw [runsFrom, if_neg (by omega)]
    exact ih (by omega)

/-- The clusters from a position on end with those of all the runs. -/
theorem runsFrom_sum (low : base ≤ vcn) :
    vcn + ((runsFrom runs base lcn vcn).map (·.told.count)).sum = max vcn (base + clusters runs) := by
  induction runs generalizing base lcn vcn with
  | nil =>
    have none_ := clusters_nil
    simp [runsFrom]
    omega
  | cons r runs ih =>
    have all := clusters_cons r runs
    rw [runsFrom]
    by_cases here : vcn < base + r.length
    · have later := @ih (base + r.length) (base + r.length) (lcn + r.shift) (Nat.le_refl _)
      rw [if_pos here, List.map_cons, List.sum_cons, ReachedRun.told]
      dsimp only
      omega
    · rw [if_neg here, ih (Nat.not_lt.mp here)]
      omega

/-! ### An attribute of a record -/

/--
A data attribute of a record: its value is in the record, or in runs.

A value in the record stands behind the header of the attribute.
A file system has fewer than 2^32 positions in a file, also where they have no cluster.
-/
structure DataPiece where
  record : Image
  attr : Nat
  runs : List ClusterRun
  form : nonresident record attr = 0 ∧ 0 < valueOffset record attr ∧ runs = []
    ∨ nonresident record attr = 1 ∧ RunsOf record attr runs
      ∧ lowVcn record attr + clusters runs < 2 ^ 32

/-- The runs that are reached from a position of the file. -/
def DataPiece.from_ (p : DataPiece) (vcn : Nat) : List ReachedRun :=
  if lowVcn p.record p.attr ≤ vcn then runsFrom p.runs (lowVcn p.record p.attr) 0 vcn else []

/-- The position behind them. -/
def DataPiece.behind (p : DataPiece) (vcn : Nat) : Nat :=
  vcn + ((p.from_ vcn).map (·.told.count)).sum

/-- A value in the record looks like runs whose first position has more than 32 bits. -/
theorem lowVcn_resident {attr : Nat} (behind : 0 < valueOffset record attr) :
    2 ^ 32 ≤ lowVcn record attr := by
  have high : le16 record (attr + 20) ≤ le32 record (attr + 16 + 4) := by
    unfold le32
    exact Nat.le_add_right _ _
  unfold valueOffset at behind
  unfold lowVcn le64
  omega

/-- The positions stay below 32 bits. -/
theorem DataPiece.behind_lt (p : DataPiece) {vcn : Nat} (small : vcn < 2 ^ 32) : p.behind vcn < 2 ^ 32 := by
  unfold DataPiece.behind DataPiece.from_
  split_ifs with low
  · rw [runsFrom_sum low]
    rcases p.form with ⟨-, behind, -⟩ | ⟨-, -, limit⟩
    · exact absurd (lowVcn_resident behind) (by omega)
    · exact Nat.max_lt.mpr ⟨small, limit⟩
  · simpa using small

/-- `FindRun` tells the first of the runs that are reached. -/
theorem DataPiece.findRun_eq (p : DataPiece) {vcn fuel : Nat} (small : vcn < 2 ^ 32)
    (enough : p.runs.length < fuel) :
    findRun fuel p.record p.attr vcn = some ((p.from_ vcn).head?.map ReachedRun.told) := by
  unfold DataPiece.from_
  rcases p.form with ⟨-, behind, -⟩ | ⟨-, of, limit⟩
  · have far := lowVcn_resident behind
    rw [if_neg (by omega), findRun, if_pos (.inl (by unfold lowVcn at far; omega))]
    rfl
  · have low : lowVcn p.record p.attr = le64 p.record (p.attr + 16) := rfl
    by_cases empty : p.runs = []
    · rw [empty] at of
      rw [findRun_nil of (by omega), empty]
      simp [runsFrom]
    · have positions := @RunsOf.positions p.record p.runs vcn p.attr of empty
      unfold lowVcn at limit ⊢
      by_cases reached : le64 p.record (p.attr + 16) ≤ vcn
      · rw [if_pos reached, findRun]
        by_cases inside : vcn < le64 p.record (p.attr + 16) + clusters p.runs
        · rw [if_neg fun outside => by have := positions.mp outside; omega]
          exact findRunLoop_from of.pairs of.wellFormed (by decide) (by omega) reached enough
        · rw [if_pos (positions.mpr (.inr (Nat.not_lt.mp inside))), runsFrom_behind (Nat.not_lt.mp inside)]
          rfl
      · rw [if_neg reached, findRun, if_pos (.inl (Nat.not_le.mp reached))]
        rfl

/-- Behind the first run that is reached are the others. -/
theorem DataPiece.from_next {p : DataPiece} {vcn : Nat} {x : ReachedRun} {rest : List ReachedRun}
    (reached : p.from_ vcn = x :: rest) : p.from_ (vcn + x.told.count) = rest := by
  unfold DataPiece.from_ at reached ⊢
  split_ifs at reached with low
  rw [if_pos (Nat.le_add_right_of_le low)]
  exact runsFrom_next low reached

/-- The loop over `FindRun` tells the runs that are reached, as far as there is room. -/
theorem DataPiece.vcnLoop_eq (p : DataPiece) {fuel : Nat} (enough : p.runs.length < fuel) (room : Nat) :
    ∀ {vcn : Nat}, vcn < 2 ^ 32 →
      vcnLoop fuel p.record p.attr room vcn
        = some (((p.from_ vcn).take room).map ReachedRun.told,
          vcn + (((p.from_ vcn).take room).map (·.told.count)).sum) := by
  induction room with
  | zero =>
    intro vcn _
    simp [vcnLoop]
  | succ room ih =>
    intro vcn small
    rw [vcnLoop, p.findRun_eq small enough]
    cases reached : p.from_ vcn with
    | nil => simp
    | cons x rest =>
      have next := DataPiece.from_next reached
      have bound := p.behind_lt small
      unfold DataPiece.behind at bound
      rw [reached, List.map_cons, List.sum_cons] at bound
      have position : u32 (vcn + x.told.count) = vcn + x.told.count := u32_eq (by omega)
      simp only [List.head?_cons, Option.map_some, position]
      rw [ih (by omega), next]
      simp only [Option.map_some, List.take_succ_cons, List.map_cons, List.sum_cons, Nat.add_assoc]

/-! ### The attributes that are tried for a file -/

/-- The runs that are reached in some attributes, each from the position behind those before. -/
def reachedRuns : List DataPiece → Nat → List (DataPiece × ReachedRun)
  | [], _ => []
  | p :: pieces, vcn => (p.from_ vcn).map (p, ·) ++ reachedRuns pieces (p.behind vcn)

/-- `FindAttribute` ends, and gives this address or none. -/
def Finds (record : Image) (attrType : Nat) (found : Option Nat) : Prop :=
  ∃ fuel, findAttribute fuel record attrType = some found

/-- More passes than `FindAttribute` needs find the same. -/
theorem findAttributeLoop_mono {attrType attr : Nat} {found : Option Nat} {fuel fuel' : Nat}
    (finds : findAttributeLoop record attrType fuel attr = some found) (le : fuel ≤ fuel') :
    findAttributeLoop record attrType fuel' attr = some found := by
  induction fuel generalizing attr fuel' with
  | zero => cases finds
  | succ fuel ih =>
    obtain ⟨fuel', rfl⟩ : ∃ k, fuel' = k + 1 := ⟨fuel' - 1, by omega⟩
    rw [findAttributeLoop] at finds ⊢
    split_ifs at finds ⊢ with ended same
    · exact finds
    · exact finds
    · exact ih finds (Nat.le_of_succ_le_succ le)

/-- An entry of the attribute list names a record that can be read, with a data attribute or none. -/
def TriedEntry (getNtfsFileRecord : Nat → Image → Image) (reference : Nat) : Option DataPiece → Prop
  | some p => (∀ buffer, getNtfsFileRecord reference buffer = p.record)
    ∧ Finds p.record AttributeData (some p.attr)
  | none => ∃ other, (∀ buffer, getNtfsFileRecord reference buffer = other)
    ∧ Finds other AttributeData none

/--
The entries of data attributes from an address to another, and the attributes they lead to.

`tried` says which attribute, if any, the record of an entry leads to.
-/
inductive DataEntries (tried : Nat → Option DataPiece → Prop) (record : Image) :
    Nat → List (Option DataPiece) → Nat → Prop where
  | stop {entry : Nat} : listedType record entry ≠ AttributeData →
    DataEntries tried record entry [] entry
  | entry {entry stop : Nat} {p : Option DataPiece} {rest : List (Option DataPiece)} :
    listedType record entry = AttributeData → 0 < listedLength record entry →
    tried (listedReference record entry) p →
    DataEntries tried record (entry + listedLength record entry) rest stop →
    DataEntries tried record entry (p :: rest) stop

/-- The first loop over the entries ends, and gives this entry or none. -/
def Skips (record : Image) (attrlistlen attrlist : Nat) (found : Option Nat) : Prop :=
  ∃ fuel, skipEntries record AttributeData attrlistlen fuel attrlist 0 = some found

/-- An attribute list that is in the record, and the attributes its entries of data lead to. -/
structure ListsData (getNtfsFileRecord : Nat → Image → Image) (record : Image) (attrlist : Nat)
    (entries : List (Option DataPiece)) where
  first : Nat
  stop : Nat
  skips : Skips record (le32 record (attrlist + 4)) (attrlist + valueOffset record attrlist) (some first)
  dataEntries : DataEntries (TriedEntry getNtfsFileRecord) record first entries stop
  inside : stop ≤ attrlist + le32 record (attrlist + 4)
  short : le32 record (attrlist + 4) < 2 ^ 16
  ends : stop = attrlist + le32 record (attrlist + 4) ∨ Skips record 1024 stop none

/--
The data attributes that a record leads to, in the order in which they are tried.

It is the first one of the record itself; only a record without any has those of its attribute list.
-/
inductive Tries (getNtfsFileRecord : Nat → Image → Image) (record : Image) : List DataPiece → Prop where
  | direct {p : DataPiece} : p.record = record → Finds record AttributeData (some p.attr) →
    Tries getNtfsFileRecord record [p]
  | missing : Finds record AttributeData none → Finds record AttributeAttributeList none →
    Tries getNtfsFileRecord record []
  | outside {attrlist : Nat} : Finds record AttributeData none →
    Finds record AttributeAttributeList (some attrlist) → nonresident record attrlist = 1 →
    Tries getNtfsFileRecord record []
  | unlisted {attrlist : Nat} : Finds record AttributeData none →
    Finds record AttributeAttributeList (some attrlist) → nonresident record attrlist ≠ 1 →
    Skips record (le32 record (attrlist + 4)) (attrlist + valueOffset record attrlist) none →
    Tries getNtfsFileRecord record []
  | listed {attrlist : Nat} {entries : List (Option DataPiece)} : Finds record AttributeData none →
    Finds record AttributeAttributeList (some attrlist) → nonresident record attrlist ≠ 1 →
    ListsData getNtfsFileRecord record attrlist entries →
    Tries getNtfsFileRecord record entries.reduceOption

/-! ### The loop over an attribute list -/

section
variable {getNtfsFileRecord : Nat → Image → Image} {fuel : Nat}

/-- The record of an entry is searched with so many passes. -/
def TriedWith (getNtfsFileRecord : Nat → Image → Image) (fuel reference : Nat) :
    Option DataPiece → Prop
  | some p => (∀ buffer, getNtfsFileRecord reference buffer = p.record)
    ∧ findAttribute fuel p.record AttributeData = some (some p.attr) ∧ p.runs.length < fuel
  | none => ∃ other, (∀ buffer, getNtfsFileRecord reference buffer = other)
    ∧ findAttribute fuel other AttributeData = some none

/-- All entries are searched with enough passes. -/
theorem DataEntries.with_ {entry stop : Nat} {entries : List (Option DataPiece)}
    (lists : DataEntries (TriedEntry getNtfsFileRecord) record entry entries stop) :
    ∃ enough, ∀ fuel ≥ enough, DataEntries (TriedWith getNtfsFileRecord fuel) record entry entries stop := by
  induction lists with
  | stop other => exact ⟨0, fun _ _ => .stop other⟩
  | @entry entry stop p rest type length tried _ ih =>
    obtain ⟨enough, later⟩ := ih
    cases p with
    | none =>
      obtain ⟨other, read, passes, finds⟩ := tried
      refine ⟨max enough passes, fun fuel le => .entry type length ⟨other, read, ?_⟩ (later fuel (by omega))⟩
      exact findAttributeLoop_mono finds (by omega)
    | some p =>
      obtain ⟨read, passes, finds⟩ := tried
      refine ⟨max enough (max passes (p.runs.length + 1)), fun fuel le =>
        .entry type length ⟨read, ?_, by omega⟩ (later fuel (by omega))⟩
      exact findAttributeLoop_mono finds (by omega)

/-- The entries end behind their start. -/
theorem DataEntries.le {tried : Nat → Option DataPiece → Prop} {entry stop : Nat}
    {entries : List (Option DataPiece)} (lists : DataEntries tried record entry entries stop) :
    entry ≤ stop := by
  induction lists with
  | stop => exact Nat.le_refl _
  | entry _ _ _ _ ih => omega

/-- The first loop goes forward, to an entry of the type. -/
theorem skipEntries_spec {attrType attrlistlen passes attrlist offset found : Nat}
    (skips : skipEntries record attrType attrlistlen passes attrlist offset = some (some found)) :
    attrlist ≤ found ∧ listedType record found = attrType := by
  induction passes generalizing attrlist offset with
  | zero => cases skips
  | succ passes ih =>
    simp only [skipEntries] at skips
    split_ifs at skips with type
    · cases skips
      exact ⟨Nat.le_refl _, type⟩
    · cases skips
    · cases skips
    · obtain ⟨le, type⟩ := ih skips
      exact ⟨by omega, type⟩

/-- More passes than the first loop needs find the same. -/
theorem skipEntries_mono {attrType attrlistlen passes passes' attrlist offset : Nat} {found : Option Nat}
    (skips : skipEntries record attrType attrlistlen passes attrlist offset = some found)
    (le : passes ≤ passes') :
    skipEntries record attrType attrlistlen passes' attrlist offset = some found := by
  induction passes generalizing attrlist offset passes' with
  | zero => cases skips
  | succ passes ih =>
    obtain ⟨passes', rfl⟩ : ∃ k, passes' = k + 1 := ⟨passes' - 1, by omega⟩
    simp only [skipEntries] at skips ⊢
    split_ifs at skips ⊢
    · exact skips
    · exact skips
    · exact skips
    · exact ih skips (Nat.le_of_succ_le_succ le)

/-- An attribute that does not have the position has no runs that are reached from it. -/
theorem DataPiece.from_outside {p : DataPiece} {vcn : Nat} (small : vcn < 2 ^ 32)
    (outside : vcn < lowVcn p.record p.attr ∨ vcn > highVcn p.record p.attr) : p.from_ vcn = [] := by
  have tells := p.findRun_eq small (Nat.lt_succ_self p.runs.length)
  unfold lowVcn highVcn at outside
  rw [findRun, if_pos outside] at tells
  simpa using tells.symm

/-- Nothing is reached in an attribute, and the position stays. -/
theorem reachedRuns_outside {p : DataPiece} {pieces : List DataPiece} {vcn : Nat}
    (none_ : p.from_ vcn = []) : reachedRuns (p :: pieces) vcn = reachedRuns pieces vcn := by
  rw [reachedRuns, DataPiece.behind, none_]
  rfl

/--
The second loop stops at an attribute with the position, or passes all.

What is reached in the attributes it passes is nothing.
-/
theorem tryEntries_spec {entry stop vcn : Nat} {entries : List (Option DataPiece)}
    (lists : DataEntries (TriedWith getNtfsFileRecord fuel) record entry entries stop)
    (small : vcn < 2 ^ 32) : ∀ (passes : Nat) (buffer : Image), entries.length < passes →
      (∃ after, tryEntries fuel getNtfsFileRecord record AttributeData vcn passes entry buffer
          = some (none, after) ∧ reachedRuns entries.reduceOption vcn = [])
      ∨ ∃ (p : DataPiece) (found : Nat) (rest : List (Option DataPiece)),
        tryEntries fuel getNtfsFileRecord record AttributeData vcn passes entry buffer
            = some (some (p.attr, found), p.record)
          ∧ entry ≤ found ∧ p.runs.length < fuel ∧ rest.length < entries.length
          ∧ DataEntries (TriedWith getNtfsFileRecord fuel) record (found + listedLength record found)
              rest stop
          ∧ reachedRuns entries.reduceOption vcn
            = (p.from_ vcn).map (p, ·) ++ reachedRuns rest.reduceOption (p.behind vcn) := by
  induction lists with
  | stop other =>
    intro passes buffer enough
    obtain ⟨passes, rfl⟩ : ∃ k, passes = k + 1 := ⟨passes - 1, by omega⟩
    exact .inl ⟨buffer, by rw [tryEntries, if_pos other], rfl⟩
  | @entry entry stop p rest type length tried later ih =>
    intro passes buffer enough
    obtain ⟨passes, rfl⟩ : ∃ k, passes = k + 1 := ⟨passes - 1, by omega⟩
    have fewer : rest.length < passes := Nat.lt_of_succ_lt_succ enough
    rw [tryEntries, if_neg (not_not_intro type)]
    cases p with
    | none =>
      -- The record has no data attribute, and the next entry is tried.
      obtain ⟨other, read, finds⟩ := tried
      simp only [read, finds, List.reduceOption_cons_of_none]
      rcases ih passes other fewer with passed | ⟨p, found, rest', tries, le, runs, shorter, follow, reached⟩
      · exact .inl passed
      · exact .inr ⟨p, found, rest', tries, by omega, runs, Nat.lt_succ_of_lt shorter, follow, reached⟩
    | some p =>
      obtain ⟨read, finds, runs⟩ := tried
      simp only [read, finds, List.reduceOption_cons_of_some]
      by_cases outside : vcn < lowVcn p.record p.attr ∨ vcn > highVcn p.record p.attr
      · rw [if_pos outside, reachedRuns_outside (DataPiece.from_outside small outside)]
        rcases ih passes p.record fewer with passed | ⟨p', found, rest', tries, le, runs', shorter, follow, reached⟩
        · exact .inl passed
        · exact .inr ⟨p', found, rest', tries, by omega, runs', Nat.lt_succ_of_lt shorter, follow, reached⟩
      · rw [if_neg outside]
        exact .inr ⟨p, entry, rest, rfl, Nat.le_refl _, runs, Nat.lt_succ_self _, later, rfl⟩

/-- At an entry of data, the first loop finds it. -/
theorem DataEntries.skips {tried : Nat → Option DataPiece → Prop} {entry stop attrlistlen : Nat}
    {entries : List (Option DataPiece)} (lists : DataEntries tried record entry entries stop)
    (some_ : entries ≠ []) (enough : 0 < fuel) :
    skipEntries record AttributeData attrlistlen fuel entry 0 = some (some entry) := by
  obtain ⟨fuel, rfl⟩ : ∃ k, fuel = k + 1 := ⟨fuel - 1, by omega⟩
  cases lists with
  | stop => exact absurd rfl some_
  | entry type _ _ _ => rw [skipEntries, if_pos type]

/-- Behind the last entry the list has ended, or the first loop finds no other: nothing is told. -/
theorem attributeListLoop_stop {start attrlistlen stop vcn room passes : Nat} {buffer : Image}
    (ends : stop = start + attrlistlen ∨ skipEntries record AttributeData 1024 fuel stop 0 = some none) :
    attributeListLoop fuel getNtfsFileRecord record attrlistlen (passes + 1) stop false (stop - start) vcn
      room buffer = some [] := by
  rw [attributeListLoop]
  split_ifs with more
  · have unfound := ends.resolve_left (by omega)
    simp [findAttributeFromAttributeListEx, unfound]
  · rfl

/--
The loop over the attribute list tells the runs that are reached, as far as there is room.

`attrlist` is the address it has come to, from which the first loop leads to the next entry of data.
-/
theorem attributeListLoop_eq {start attrlistlen stop : Nat} (short : attrlistlen < 2 ^ 16)
    (inside : stop ≤ start + attrlistlen)
    (ends : stop = start + attrlistlen ∨ skipEntries record AttributeData 1024 fuel stop 0 = some none)
    (n : Nat) :
    ∀ {entries : List (Option DataPiece)} {attrlist entry vcn passes room : Nat} {bAttrHeader : Bool}
      (buffer : Image), entries.length = n → entries ≠ [] →
      DataEntries (TriedWith getNtfsFileRecord fuel) record entry entries stop →
      ¬ (bAttrHeader = true ∧ nonresident record attrlist = 1) →
      skipEntries record AttributeData (if bAttrHeader then le32 record (attrlist + 4) else 1024) fuel
          (if bAttrHeader then attrlist + valueOffset record attrlist else attrlist) 0
        = some (some entry) →
      start ≤ attrlist → vcn < 2 ^ 32 → n < passes → n < fuel →
      attributeListLoop fuel getNtfsFileRecord record attrlistlen passes attrlist bAttrHeader
          (attrlist - start) vcn room buffer
        = some (((reachedRuns entries.reduceOption vcn).take room).map (·.2.told)) := by
  induction n using Nat.strong_induction_on with
  | _ n ih =>
    intro entries attrlist entry vcn passes room bAttrHeader buffer count some_ lists resident skips behind
      small enough fuelled
    obtain ⟨passes, rfl⟩ : ∃ k, passes = k + 1 := ⟨passes - 1, by omega⟩
    have forward : attrlist ≤ entry := by
      refine Nat.le_trans ?_ (skipEntries_spec skips).1
      split_ifs
      · exact Nat.le_add_right _ _
      · exact Nat.le_refl _
    -- There is an entry, so the list has not ended.
    have open_ : entry < stop := by
      cases lists with
      | stop => exact absurd rfl some_
      | entry _ length _ later =>
        have := later.le
        omega
    have finds := tryEntries_spec lists small fuel buffer (by omega)
    rw [attributeListLoop, if_pos (by omega), findAttributeFromAttributeListEx, if_neg resident]
    simp only [skips]
    rcases finds with ⟨after, tries, reached⟩ | ⟨p, found, rest, tries, le, runs, shorter, follow, reached⟩
    · rw [tries, reached]
      simp
    · have foundBelow := follow.le
      have distance : (found - attrlist) % 2 ^ 16 = found - attrlist := Nat.mod_eq_of_lt (by omega)
      have address : attrlist + (found - attrlist) = found := by omega
      rw [tries, reached]
      simp only [Option.map_some, distance, address, p.vcnLoop_eq runs room small, List.length_map,
        List.length_take]
      by_cases full : room ≤ (p.from_ vcn).length
      · rw [if_pos (by omega), List.take_append_of_le_length (by rwa [List.length_map]), ← List.map_take,
          List.map_map]
        rfl
      · have here : (p.from_ vcn).take room = p.from_ vcn := List.take_of_length_le (by omega)
        have offset : (attrlist - start + (found - attrlist) + listedLength record found) % 2 ^ 16
            = found + listedLength record found - start := by
          rw [Nat.mod_eq_of_lt (by omega)]
          omega
        have room_ : room - min room (p.from_ vcn).length = room - (p.from_ vcn).length := by omega
        rw [if_neg (by omega), offset, room_, here]
        have later : attributeListLoop fuel getNtfsFileRecord record attrlistlen passes
            (found + listedLength record found) false (found + listedLength record found - start)
            (p.behind vcn) (room - (p.from_ vcn).length) p.record
              = some (((reachedRuns rest.reduceOption (p.behind vcn)).take
                (room - (p.from_ vcn).length)).map (·.2.told)) := by
          by_cases last : rest = []
          · subst last
            have atStop : found + listedLength record found = stop := by
              cases follow
              rfl
            have nothing : reachedRuns ([] : List (Option DataPiece)).reduceOption (p.behind vcn) = [] := rfl
            obtain ⟨passes, rfl⟩ : ∃ k, passes = k + 1 := ⟨passes - 1, by omega⟩
            rw [atStop, nothing, List.take_nil, List.map_nil]
            exact attributeListLoop_stop ends
          · exact ih rest.length (by omega) p.record rfl last follow (fun header => nomatch header.1)
              (follow.skips last (by omega)) (by omega) (p.behind_lt small) (by omega) (by omega)
        unfold DataPiece.behind at later
        have whole : ((p.from_ vcn).map (p, ·)).take room = (p.from_ vcn).map (p, ·) :=
          List.take_of_length_le (by rw [List.length_map]; omega)
        rw [later, List.take_append, whole, List.length_map, List.map_append, List.map_map]
        rfl

/-- A record without a data attribute, but with an attribute list, leaves it to the loop over that one. -/
theorem getInodeVcnList_byList {attrlist : Nat} (data : Finds record AttributeData none)
    (list : Finds record AttributeAttributeList (some attrlist)) :
    ∃ enough, ∀ fuel ≥ enough, ∀ (heap : Image) (maxListNumber : Nat),
      getInodeVcnList fuel getNtfsFileRecord heap record maxListNumber
        = attributeListLoop fuel getNtfsFileRecord record (le32 record (attrlist + 4)) fuel attrlist true 0 0
          maxListNumber heap := by
  obtain ⟨passes, found⟩ := data
  obtain ⟨passes', found'⟩ := list
  refine ⟨max passes passes', fun fuel le heap maxListNumber => ?_⟩
  have data := findAttributeLoop_mono found (Nat.le_trans (Nat.le_max_left _ _) le)
  have list := findAttributeLoop_mono found' (Nat.le_trans (Nat.le_max_right _ _) le)
  unfold getInodeVcnList findAttribute
  rw [data, list]

/-- The list of a file whose record has an attribute list in it. -/
theorem getInodeVcnList_listed {attrlist : Nat} {entries : List (Option DataPiece)}
    (data : Finds record AttributeData none)
    (list : Finds record AttributeAttributeList (some attrlist)) (resident : nonresident record attrlist ≠ 1)
    (lists : ListsData getNtfsFileRecord record attrlist entries) :
    ∃ enough, ∀ fuel ≥ enough, ∀ (heap : Image) (maxListNumber : Nat),
      getInodeVcnList fuel getNtfsFileRecord heap record maxListNumber
        = some (((reachedRuns entries.reduceOption 0).take maxListNumber).map (·.2.told)) := by
  obtain ⟨start, byList⟩ := @getInodeVcnList_byList record getNtfsFileRecord _ data list
  obtain ⟨first, stop, ⟨passes, skips⟩, dataEntries, inside, short, ends⟩ := lists
  obtain ⟨enough, with_⟩ := dataEntries.with_
  -- The first loop behind the last entry also has enough passes.
  obtain ⟨final, noMore⟩ : ∃ final, ∀ fuel ≥ final, stop = attrlist + le32 record (attrlist + 4)
      ∨ skipEntries record AttributeData 1024 fuel stop 0 = some none := by
    rcases ends with here | ⟨final, none_⟩
    · exact ⟨0, fun _ _ => .inl here⟩
    · exact ⟨final, fun fuel le => .inr (skipEntries_mono none_ le)⟩
  refine ⟨max (max (entries.length + 1) (max enough final)) (max passes start),
    fun fuel le heap maxListNumber => ?_⟩
  -- The first loop has come to an entry of data, so there is one.
  have some_ : entries ≠ [] := by
    rintro rfl
    cases dataEntries with
    | stop other => exact other (skipEntries_spec skips).2
  have skips := skipEntries_mono skips (show passes ≤ fuel by omega)
  have loop := @attributeListLoop_eq record getNtfsFileRecord fuel attrlist _ stop short inside
    (noMore fuel (by omega)) entries.length entries attrlist first 0 fuel maxListNumber true heap rfl some_
    (with_ fuel (by omega)) (fun away => resident away.2) skips (Nat.le_refl _) (by decide) (by omega)
    (by omega)
  rw [Nat.sub_self] at loop
  rw [byList fuel (by omega), loop]

/-- The list of a file is what is reached in the attributes that are tried, as far as it has room. -/
theorem getInodeVcnList_eq {pieces : List DataPiece} (tries : Tries getNtfsFileRecord record pieces) :
    ∃ enough, ∀ fuel ≥ enough, ∀ (heap : Image) (maxListNumber : Nat),
      getInodeVcnList fuel getNtfsFileRecord heap record maxListNumber
        = some (((reachedRuns pieces 0).take maxListNumber).map (·.2.told)) := by
  cases tries with
  | @direct p same finds =>
    obtain ⟨passes, found⟩ := finds
    -- Enough passes for the search of the attribute, and one for each run.
    refine ⟨max passes (p.runs.length + 1), fun fuel le heap maxListNumber => ?_⟩
    have data := findAttributeLoop_mono found (Nat.le_trans (Nat.le_max_left _ _) le)
    unfold getInodeVcnList findAttribute
    rw [data, ← same]
    dsimp only
    rw [p.vcnLoop_eq (by omega) maxListNumber (by decide), reachedRuns, reachedRuns, List.append_nil,
      ← List.map_take, List.map_map]
    rfl
  | missing data list =>
    obtain ⟨passes, found⟩ := data
    obtain ⟨passes', found'⟩ := list
    refine ⟨max passes passes', fun fuel le heap maxListNumber => ?_⟩
    have data := findAttributeLoop_mono found (Nat.le_trans (Nat.le_max_left _ _) le)
    have list := findAttributeLoop_mono found' (Nat.le_trans (Nat.le_max_right _ _) le)
    unfold getInodeVcnList findAttribute
    rw [data, list]
    simp [reachedRuns]
  | outside data list away =>
    obtain ⟨enough, byList⟩ := @getInodeVcnList_byList record getNtfsFileRecord _ data list
    refine ⟨max 1 enough, fun fuel le heap maxListNumber => ?_⟩
    rw [byList fuel (by omega)]
    obtain ⟨fuel, rfl⟩ : ∃ k, fuel = k + 1 := ⟨fuel - 1, by omega⟩
    simp [attributeListLoop, findAttributeFromAttributeListEx, away, reachedRuns]
  | unlisted data list resident skips =>
    obtain ⟨enough, byList⟩ := @getInodeVcnList_byList record getNtfsFileRecord _ data list
    obtain ⟨passes, none_⟩ := skips
    refine ⟨max (max 1 passes) enough, fun fuel le heap maxListNumber => ?_⟩
    have skips := skipEntries_mono none_ (show passes ≤ fuel by omega)
    rw [byList fuel (by omega)]
    obtain ⟨fuel, rfl⟩ : ∃ k, fuel = k + 1 := ⟨fuel - 1, by omega⟩
    simp [attributeListLoop, findAttributeFromAttributeListEx, resident, skips, reachedRuns]
  | listed data list resident lists => exact getInodeVcnList_listed data list resident lists

end

end Okr
