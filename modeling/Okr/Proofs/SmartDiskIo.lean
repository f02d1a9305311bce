import Mathlib.Data.List.Chain
import Okr.Base.SmartDiskIo

/-! Joining requests is not seen by the device, as long as no transfer fails. -/

namespace Okr

variable {device : DiskDevice} {info : ContinueRwdiskInfo} {log : DiskLog} {r : DiskRequest}
variable {requests : List DiskRequest}

/-- The number behind the last sector of a request, and the address behind its buffer. -/
def DiskRequest.nextSector (r : DiskRequest) : Nat := u64 (r.sector + r.number)
def DiskRequest.nextBuffer (r : DiskRequest) : Nat := u64 (r.buffer + 512 * r.number)

/-- A request with sectors is followed by one whose sectors go on where its own end. -/
def SectorsFollow (r r' : DiskRequest) : Prop :=
  r.number ≠ 0 ∧ r'.number ≠ 0 ∧ r'.sector = r.nextSector

/-- The buffers of requests with sectors go on exactly when the sectors do. -/
def BuffersFollow (requests : List DiskRequest) : Prop :=
  requests.IsChain fun r r' => r.number ≠ 0 → r'.number ≠ 0 →
    (r'.sector = r.nextSector ↔ r'.buffer = r.nextBuffer)

/-- How many sectors requests have together. -/
def sectorCount (requests : List DiskRequest) : Nat := (requests.map DiskRequest.number).sum

/-- Requests that continue each other stay below the numbers of a 32-bit count. -/
def RunsShort (requests : List DiskRequest) : Prop :=
  ∀ run, run <:+: requests → run.IsChain SectorsFollow → sectorCount run < 2 ^ 32

/-- The sectors of all transfers with the addresses of their bytes, in the order they were issued. -/
def DiskLog.cells (log : DiskLog) : List (Nat × Nat) := log.flatMap fun entry => entry.1.cells

/-- Some transfer of the log failed. -/
def DiskLog.Failed (log : DiskLog) : Prop := ∃ entry ∈ log, entry.2 = false

/-! ### Sectors and addresses -/

/-- A request without sectors has no cells. -/
theorem cells_none (none_ : r.number = 0) : r.cells = [] := by
  rw [DiskRequest.cells, none_]
  rfl

/-- The cells of a request are those of its first sectors and those behind. -/
theorem cells_first_behind {count : Nat} (inside : count ≤ r.number) :
    r.cells = (r.first count).cells ++ (r.behind count).cells := by
  have split : r.number = count + (r.number - count) := by omega
  simp only [DiskRequest.cells, DiskRequest.first, DiskRequest.behind]
  rw [split, List.range_add, List.map_append, List.map_map, Nat.add_sub_cancel_left]
  congr 1
  refine List.map_congr_left fun k _ => Prod.ext ?_ ?_
  · simp only [Function.comp, u64]
    omega
  · simp only [Function.comp, u64]
    omega

/-- The piece that is issued has sectors, is not too long, and lies in what is pending. -/
theorem smartCount_spec {number : Nat} (some_ : number ≠ 0) :
    0 < smartCount number ∧ smartCount number ≤ SMART_COUNT ∧ smartCount number ≤ number := by
  rw [smartCount, SMART_COUNT]
  split <;> omega

/-! ### The loop over what is pending -/

/-- What the loop issued: pieces of the pending sectors in order, all of them unless the last failed. -/
structure Issues (pending : DiskRequest) (ret : Bool) (issued : DiskLog) : Prop where
  cells : ∃ rest, issued.cells ++ rest = pending.cells ∧ (ret = true → rest = [])
  sizes : ∀ entry ∈ issued, entry.1.number ≤ SMART_COUNT
  failed : ret = false ↔ issued.Failed

/-- Where nothing is pending nothing is issued. -/
theorem issues_none (none_ : r.number = 0) : Issues r true [] where
  cells := ⟨[], (cells_none none_).symm, fun _ => rfl⟩
  sizes entry member := absurd member List.not_mem_nil
  failed := by
    refine iff_of_false Bool.false_ne_true.symm ?_
    rintro ⟨entry, member, -⟩
    exact absurd member List.not_mem_nil

/-- A first piece that fails is all that is issued. -/
theorem issues_failed {transfer : DiskTransfer} {count : Nat} (short : count ≤ SMART_COUNT)
    (inside : count ≤ r.number) (first : transfer.toDiskRequest = r.first count) :
    Issues r false [(transfer, false)] where
  cells := by
    refine ⟨(r.behind count).cells, ?_, fun ok => Bool.noConfusion ok⟩
    rw [DiskLog.cells, List.flatMap_singleton, first, cells_first_behind inside]
  sizes entry member := by
    rw [List.mem_singleton.mp member, first]
    exact short
  failed := iff_of_true rfl ⟨_, List.mem_singleton_self _, rfl⟩

/-- A first piece that succeeds comes in front of what is issued of the rest. -/
theorem Issues.cons {transfer : DiskTransfer} {count : Nat} {ret : Bool} {issued : DiskLog}
    (short : count ≤ SMART_COUNT) (inside : count ≤ r.number)
    (first : transfer.toDiskRequest = r.first count) (issues : Issues (r.behind count) ret issued) :
    Issues r ret ((transfer, true) :: issued) where
  cells := by
    obtain ⟨rest, parts, all⟩ := issues.cells
    refine ⟨rest, ?_, all⟩
    rw [cells_first_behind inside, ← parts, ← first, DiskLog.cells, List.flatMap_cons,
      List.append_assoc]
    rfl
  sizes entry member := by
    rcases List.mem_cons.mp member with here | later
    · rw [here, first]
      exact short
    · exact issues.sizes entry later
  failed := by
    rw [issues.failed]
    constructor
    · -- the first piece succeeded, so what failed is in the rest
      rintro ⟨entry, member, no⟩
      exact ⟨entry, List.mem_cons_of_mem _ member, no⟩
    · rintro ⟨entry, member, no⟩
      rcases List.mem_cons.mp member with here | later
      · rw [here] at no
        cases no
      · exact ⟨entry, later, no⟩

/-- The loop issues what is pending. -/
theorem issuePending_issues (fuel : Nat) :
    ∀ (info : ContinueRwdiskInfo) (log : DiskLog), info.pending.number ≤ fuel →
      ∃ issued, (issuePending device fuel info log).2.2 = log ++ issued
        ∧ Issues info.pending (issuePending device fuel info log).1 issued := by
  -- The induction is on the fuel, which covers the pending sectors.
  induction fuel with
  | zero =>
    exact fun info log bound => ⟨[], (List.append_nil log).symm, issues_none (Nat.le_zero.mp bound)⟩
  | succ fuel ih =>
    intro info log bound
    rw [issuePending]
    by_cases none_ : info.pending.number = 0
    · rw [if_pos none_]
      exact ⟨[], (List.append_nil log).symm, issues_none none_⟩
    · obtain ⟨some_, short, inside⟩ := smartCount_spec none_
      rw [if_neg none_]
      cases answer : device log info.transfer with
      | false => exact ⟨[(info.transfer, false)], rfl, issues_failed short inside rfl⟩
      | true =>
        have less : (info.pending.behind (smartCount info.pending.number)).number ≤ fuel := by
          rw [DiskRequest.behind]
          dsimp only
          omega
        obtain ⟨issued, later, issues⟩ := ih
          { info with pending := info.pending.behind (smartCount info.pending.number) }
          (log ++ [(info.transfer, true)]) less
        rw [if_pos rfl]
        refine ⟨(info.transfer, true) :: issued, ?_, issues.cons short inside rfl⟩
        rw [later, List.append_assoc]
        rfl

/-! ### One call -/

/-- A call that is not joined to what is pending issues that and takes its place. -/
theorem smartDiskIo_issues :
    ∃ issued, (smartDiskIo device info log r).2.2 = log ++ issued
      ∧ (∀ entry ∈ issued, entry.1.number ≤ SMART_COUNT)
      ∧ ((smartDiskIo device info log r).1 = false ↔ DiskLog.Failed issued) := by
  have quiet : ∃ issued : DiskLog, log = log ++ issued
      ∧ (∀ entry ∈ issued, entry.1.number ≤ SMART_COUNT) ∧ (true = false ↔ issued.Failed) := by
    have issues := @issues_none { sector := 0, number := 0, buffer := 0 } rfl
    exact ⟨[], (List.append_nil log).symm, issues.sizes, issues.failed⟩
  rw [smartDiskIo]
  split
  · exact quiet
  · split
    · exact quiet
    · obtain ⟨issued, later, issues⟩ :=
        @issuePending_issues device info.pending.number info log (Nat.le_refl _)
      exact ⟨issued, later, issues.sizes, issues.failed⟩

/-! ### The calls one after the other -/

/-- The cells and addresses of the requests, in the order they were made. -/
def requestCells (requests : List DiskRequest) : List (Nat × Nat) :=
  requests.flatMap DiskRequest.cells

/--
The transfers of the log are what was requested, part by part.

A part that leaves cells out has a transfer that failed.
-/
def DiskLog.Serves (log : DiskLog) (requested : List (Nat × Nat)) : Prop :=
  ∃ parts : List (DiskLog × List (Nat × Nat)),
    log = parts.flatMap Prod.fst
      ∧ requested = parts.flatMap (fun part => part.1.cells ++ part.2)
      ∧ ∀ part ∈ parts, part.2 ≠ [] → part.1.Failed

/-- Where no transfer failed, the transfers are what was requested. -/
theorem DiskLog.Serves.whole {requested : List (Nat × Nat)} (serves : log.Serves requested)
    (sound : ¬ log.Failed) : log.cells = requested := by
  obtain ⟨parts, rfl, rfl, left⟩ := serves
  rw [DiskLog.cells, List.flatMap_assoc]
  refine List.flatMap_congr fun part member => ?_
  have all : part.2 = [] := by
    by_contra some_
    obtain ⟨entry, here, no⟩ := left part member some_
    exact sound ⟨entry, List.mem_flatMap.mpr ⟨part, member, here⟩, no⟩
  rw [all, List.append_nil]
  rfl

/-- One part more. -/
theorem DiskLog.Serves.append {requested rest : List (Nat × Nat)} {issued : DiskLog}
    (serves : log.Serves requested) (left : rest ≠ [] → issued.Failed) :
    DiskLog.Serves (log ++ issued) (requested ++ (issued.cells ++ rest)) := by
  obtain ⟨parts, rfl, rfl, lefts⟩ := serves
  refine ⟨parts ++ [(issued, rest)], ?_, ?_, ?_⟩
  · rw [List.flatMap_append, List.flatMap_singleton]
  · rw [List.flatMap_append, List.flatMap_singleton]
  · intro part member
    rcases List.mem_append.mp member with before | here
    · exact lefts part before
    · rw [List.mem_singleton.mp here]
      exact left

/-- What is pending is a run of the requests made last. -/
def PendingRun (front : List DiskRequest) (pending : DiskRequest) : Prop :=
  pending.number = 0 ∨ ∃ before run last,
    front = before ++ (run ++ [last]) ∧ (run ++ [last]).IsChain SectorsFollow ∧ last.number ≠ 0
      ∧ pending.number = sectorCount (run ++ [last])
      ∧ pending.nextSector = last.nextSector ∧ pending.nextBuffer = last.nextBuffer

/-- After some requests: what was issued and what is pending is what was requested. -/
structure Coalesced (front : List DiskRequest) (info : ContinueRwdiskInfo) (log : DiskLog) :
    Prop where
  serves : ∃ requested, log.Serves requested ∧ requested ++ info.pending.cells = requestCells front
  run : PendingRun front info.pending

variable {front : List DiskRequest}

/-- A request is the run that is pending when it stands alone. -/
theorem pendingRun_alone : PendingRun (front ++ [r]) r := by
  by_cases none_ : r.number = 0
  · exact Or.inl none_
  · refine Or.inr ⟨front, [], r, rfl, List.IsChain.singleton r, none_, ?_, rfl, rfl⟩
    rw [sectorCount, List.nil_append, List.map_singleton, List.sum_singleton]

/-- The requests made are those before and the one made now. -/
theorem requestCells_append : requestCells (front ++ [r]) = requestCells front ++ r.cells := by
  rw [requestCells, List.flatMap_append, List.flatMap_singleton]
  rfl

/-- A request that goes on where the pending run ends makes the run longer. -/
theorem Coalesced.join (coalesced : Coalesced front info log) (follow : BuffersFollow (front ++ [r]))
    (short : RunsShort (front ++ [r])) (pending : info.pending.number ≠ 0) (some_ : r.number ≠ 0)
    (goesOn : r.sector = u64 (info.pending.sector + info.pending.number)) :
    Coalesced (front ++ [r])
      { info with
        pending := { info.pending with number := u32 (info.pending.number + r.number) } } log := by
  obtain ⟨⟨requested, serves, cells⟩, pends⟩ := coalesced
  obtain ⟨before, run, last, rfl, chain, lastSome, count, sector, buffer⟩ :=
    pends.resolve_left pending
  have next : r.sector = last.nextSector := goesOn.trans sector
  -- The buffers go on as the sectors do.
  have address : r.buffer = info.pending.nextBuffer := by
    rw [BuffersFollow, List.isChain_append] at follow
    rw [buffer]
    refine (follow.2.2 last ?_ r rfl lastSome some_).mp next
    rw [← List.append_assoc, List.getLast?_concat]
    rfl
  have longer : (run ++ [last] ++ [r]).IsChain SectorsFollow := by
    refine List.isChain_append.mpr ⟨chain, List.IsChain.singleton r, ?_⟩
    intro a atEnd b atFront
    rw [List.getLast?_concat] at atEnd
    cases atEnd
    cases atFront
    exact ⟨lastSome, some_, next⟩
  have sum : sectorCount (run ++ [last] ++ [r]) = info.pending.number + r.number := by
    rw [count, sectorCount, List.map_append, List.sum_append, List.map_singleton, List.sum_singleton]
    rfl
  have below : info.pending.number + r.number < 2 ^ 32 := by
    rw [← sum]
    exact short _ ⟨before, [], by rw [List.append_nil, ← List.append_assoc, ← List.append_assoc]⟩ longer
  rw [u32_eq below]
  have joined : ({ info.pending with number := info.pending.number + r.number } : DiskRequest).cells
      = info.pending.cells ++ r.cells := by
    have cut := @cells_first_behind
      { info.pending with number := info.pending.number + r.number } info.pending.number
      (Nat.le_add_right _ _)
    have behind : ({ info.pending with number := info.pending.number + r.number } :
        DiskRequest).behind info.pending.number = r := by
      obtain ⟨rSector, rNumber, rBuffer⟩ := r
      dsimp only at goesOn address
      rw [DiskRequest.behind, goesOn, address, DiskRequest.nextBuffer, Nat.mul_comm]
      dsimp only
      rw [Nat.add_sub_cancel_left]
    rw [cut, behind]
    rfl
  refine ⟨⟨requested, serves, ?_⟩, Or.inr ⟨before, run ++ [last], r, ?_, longer, some_, ?_, ?_, ?_⟩⟩
  · rw [requestCells_append, ← cells, List.append_assoc]
    exact congrArg _ joined
  · rw [List.append_assoc]
  · exact sum.symm
  · rw [DiskRequest.nextSector, DiskRequest.nextSector, goesOn, u64, u64, u64]
    dsimp only
    omega
  · rw [DiskRequest.nextBuffer, DiskRequest.nextBuffer, address, DiskRequest.nextBuffer, u64, u64, u64]
    dsimp only
    omega

/-- A call keeps what was issued and what is pending together what was requested. -/
theorem Coalesced.step (coalesced : Coalesced front info log)
    (follow : r.number ≠ 0 → BuffersFollow (front ++ [r]) ∧ RunsShort (front ++ [r])) :
    Coalesced (front ++ [r]) (smartDiskIo device info log r).2.1
      (smartDiskIo device info log r).2.2 := by
  rw [smartDiskIo]
  by_cases pending : info.pending.number = 0
  · rw [if_pos pending]
    obtain ⟨⟨requested, serves, cells⟩, -⟩ := coalesced
    rw [cells_none pending, List.append_nil] at cells
    refine ⟨⟨requested, serves, ?_⟩, pendingRun_alone⟩
    rw [requestCells_append, ← cells]
  · rw [if_neg pending]
    by_cases joins : r.number ≠ 0 ∧ r.sector = u64 (info.pending.sector + info.pending.number)
    · rw [if_pos joins]
      obtain ⟨buffers, short⟩ := follow joins.1
      exact coalesced.join buffers short pending joins.1 joins.2
    · rw [if_neg joins]
      obtain ⟨issued, later, ⟨⟨rest, parts, all⟩, -, failed⟩⟩ :=
        @issuePending_issues device info.pending.number info log (Nat.le_refl _)
      obtain ⟨⟨requested, serves, cells⟩, -⟩ := coalesced
      -- What the loop leaves out is left out for a failure.
      have left : rest ≠ [] → issued.Failed := by
        intro some_
        apply failed.mp
        cases ret : (issuePending device info.pending.number info log).1 with
        | false => rfl
        | true => exact absurd (all ret) some_
      refine ⟨⟨requested ++ (issued.cells ++ rest), ?_, ?_⟩, pendingRun_alone⟩
      · dsimp only
        rw [later]
        exact serves.append left
      · rw [parts, cells, requestCells_append]

/-- All calls keep it. -/
theorem Coalesced.run_ (rest : List DiskRequest) :
    ∀ (front : List DiskRequest) (info : ContinueRwdiskInfo) (log : DiskLog),
      Coalesced front info log → BuffersFollow (front ++ rest) → RunsShort (front ++ rest) →
      Coalesced (front ++ rest) (smartRun device rest info log).2.1
        (smartRun device rest info log).2.2 := by
  induction rest with
  | nil =>
    intro front info log coalesced _ _
    rw [List.append_nil]
    exact coalesced
  | cons r rest ih =>
    intro front info log coalesced follow short
    have cut : front ++ r :: rest = (front ++ [r]) ++ rest := by
      rw [List.append_assoc, List.singleton_append]
    rw [cut] at follow short ⊢
    have now : BuffersFollow (front ++ [r]) ∧ RunsShort (front ++ [r]) := by
      refine ⟨(List.isChain_append.mp follow).1, fun run inside => short run ?_⟩
      exact inside.trans (List.prefix_append _ _).isInfix
    exact ih (front ++ [r]) _ _ (coalesced.step fun _ => now) follow short

/-- Calls after calls. -/
theorem smartRun_append (later : List DiskRequest) (front : List DiskRequest) :
    ∀ (info : ContinueRwdiskInfo) (log : DiskLog),
      (smartRun device (front ++ later) info log).2
        = (smartRun device later (smartRun device front info log).2.1
            (smartRun device front info log).2.2).2 := by
  induction front with
  | nil => exact fun _ _ => rfl
  | cons r front ih => exact fun info log => ih _ _

/-- Every transfer of a log is of this command, on this disk, and not too long. -/
def DiskLog.Fits (log : DiskLog) (diskNumber : Nat) (func : DiskCommand) : Prop :=
  ∀ entry ∈ log, entry.1.number ≤ SMART_COUNT ∧ entry.1.command = func ∧ entry.1.disk = diskNumber

/-- The loop issues transfers of its command on its disk, and keeps to them. -/
theorem issuePending_fits (fuel : Nat) :
    ∀ (info : ContinueRwdiskInfo) (log : DiskLog), log.Fits info.diskNumber info.func →
      DiskLog.Fits (issuePending device fuel info log).2.2 info.diskNumber info.func := by
  induction fuel with
  | zero => exact fun _ _ fits => fits
  | succ fuel ih =>
    intro info log fits
    rw [issuePending]
    by_cases none_ : info.pending.number = 0
    · rw [if_pos none_]
      exact fits
    · have longer : ∀ ret, DiskLog.Fits (log ++ [(info.transfer, ret)]) info.diskNumber info.func := by
        intro ret entry member
        rcases List.mem_append.mp member with before | here
        · exact fits entry before
        · rw [List.mem_singleton.mp here]
          exact ⟨(smartCount_spec none_).2.1, rfl, rfl⟩
      rw [if_neg none_]
      cases answer : device log info.transfer with
      | false => exact longer false
      | true => exact ih _ _ (longer true)

/-- The calls issue transfers of their command on their disk. -/
theorem smartRun_fits (requests : List DiskRequest) :
    ∀ (info : ContinueRwdiskInfo) (log : DiskLog), log.Fits info.diskNumber info.func →
      DiskLog.Fits (smartRun device requests info log).2.2 info.diskNumber info.func := by
  induction requests with
  | nil => exact fun _ _ fits => fits
  | cons r rest ih =>
    intro info log fits
    have call : DiskLog.Fits (smartDiskIo device info log r).2.2
          (smartDiskIo device info log r).2.1.diskNumber (smartDiskIo device info log r).2.1.func
        ∧ (smartDiskIo device info log r).2.1.diskNumber = info.diskNumber
        ∧ (smartDiskIo device info log r).2.1.func = info.func := by
      rw [smartDiskIo]
      split
      · exact ⟨fits, rfl, rfl⟩
      · split
        · exact ⟨fits, rfl, rfl⟩
        · exact ⟨issuePending_fits _ info log fits, rfl, rfl⟩
    obtain ⟨fits', disk, func⟩ := call
    have later := ih _ _ fits'
    rw [disk, func] at later
    exact later

/-- The transfers of the calls are what was requested, apart from what failures leave out. -/
theorem smartLog_serves (diskNumber : Nat) (func : DiskCommand) (follow : BuffersFollow requests)
    (short : RunsShort requests) :
    (smartLog device diskNumber func requests).Serves (requestCells requests) := by
  have start : Coalesced [] (smartDiskIoInit diskNumber func) [] := by
    refine ⟨⟨[], ⟨[], rfl, rfl, ?_⟩, rfl⟩, Or.inl rfl⟩
    intro part member
    exact absurd member List.not_mem_nil
  have calls := @Coalesced.run_ device requests [] _ _ start follow short
  -- The last call has no sectors of its own.
  obtain ⟨⟨requested, serves, cells⟩, -⟩ := @Coalesced.step device _ _ flushRequest _ calls
    fun some_ => absurd rfl some_
  have flushed : requestCells ([] ++ requests ++ [flushRequest]) = requestCells requests := by
    rw [requestCells_append, List.nil_append, cells_none rfl, List.append_nil]
  have nothing : (smartDiskIo device (smartRun device requests (smartDiskIoInit diskNumber func) []).2.1
      (smartRun device requests (smartDiskIoInit diskNumber func) []).2.2
        flushRequest).2.1.pending.cells = [] := by
    rw [smartDiskIo]
    split
    · exact cells_none rfl
    · split
      · next joins => exact absurd rfl joins.1
      · exact cells_none rfl
  rw [nothing, List.append_nil, flushed] at cells
  rw [← cells, smartLog, smartRun_append]
  exact serves

/-- Few sectors have short runs. -/
theorem runsShort_of_count (few : sectorCount requests < 2 ^ 32) : RunsShort requests := by
  rintro run ⟨before, behind, rfl⟩ -
  rw [sectorCount, List.map_append, List.map_append, List.sum_append, List.sum_append] at few
  rw [sectorCount]
  omega

/-- Two blocks in a row, and their buffers. -/
def twoBlocks : List DiskRequest :=
  [{ sector := 0, number := 64, buffer := 0 }, { sector := 64, number := 64, buffer := 32768 }]

/-- A request has as many cells as sectors. -/
theorem length_cells : r.cells.length = r.number := by
  rw [DiskRequest.cells, List.length_map, List.length_range]

/-- Requests have as many cells as sectors together. -/
theorem length_requestCells : (requestCells requests).length = sectorCount requests := by
  rw [requestCells, List.length_flatMap, sectorCount]
  exact congrArg List.sum (List.map_congr_left fun _ _ => length_cells)

/-- Two times 2048 sectors in a row; a device that fails the first transfer; and a run of 2^32 sectors. -/
def longRun : List DiskRequest :=
  [{ sector := 0, number := 2048, buffer := 0 }, { sector := 2048, number := 2048, buffer := 1048576 }]
def failsFirst : DiskDevice := fun log _ => !log.isEmpty
def hugeRun : List DiskRequest :=
  [{ sector := 0, number := 2147483648, buffer := 0 },
    { sector := 2147483648, number := 2147483648, buffer := 1099511627776 }]

end Okr
