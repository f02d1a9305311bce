import Okr.Base.Word

/-! `SmartDiskIo`: requests that continue each other go to the device together. -/

namespace Okr

/-- `COMMAND_READ` and `COMMAND_WRITE`. -/
inductive DiskCommand where
  | read
  | write
deriving Repr, DecidableEq

/-- A request: so many sectors from one on, to or from a buffer. -/
structure DiskRequest where
  sector : Nat
  number : Nat
  buffer : Nat
deriving Repr, DecidableEq

/-- A sector of a request and the address of its bytes, in 64-bit numbers. -/
def DiskRequest.cells (r : DiskRequest) : List (Nat × Nat) :=
  (List.range r.number).map fun k => (u64 (r.sector + k), u64 (r.buffer + 512 * k))

/-- The first sectors of a request, and what is left behind them. -/
def DiskRequest.first (r : DiskRequest) (count : Nat) : DiskRequest := { r with number := count }
def DiskRequest.behind (r : DiskRequest) (count : Nat) : DiskRequest where
  sector := u64 (r.sector + count)
  number := r.number - count
  buffer := u64 (r.buffer + count * 512)

/-- What `DiskRead` or `DiskWrite` is called with. -/
structure DiskTransfer extends DiskRequest where
  command : DiskCommand
  disk : Nat
deriving Repr, DecidableEq

/-- `CONTINUE_RWDISK_INFO`: the command, the disk, and the sectors that are still pending. -/
structure ContinueRwdiskInfo where
  func : DiskCommand
  diskNumber : Nat
  pending : DiskRequest := { sector := 0, number := 0, buffer := 0 }
deriving Repr, DecidableEq

/-- The transfers issued so far and whether each succeeded, the last one last. -/
abbrev DiskLog := List (DiskTransfer × Bool)

/-- What a device answers to a transfer, given all that it was asked before. -/
abbrev DiskDevice := DiskLog → DiskTransfer → Bool

/-- `SmartDiskIoInit`: nothing is pending. -/
def smartDiskIoInit (diskNumber : Nat) (readorwrite : DiskCommand) : ContinueRwdiskInfo where
  func := readorwrite
  diskNumber := diskNumber

/-- Sectors of one transfer at most. -/
def SMART_COUNT : Nat := 2048

/-- How many sectors of so many go into one transfer. -/
def smartCount (number : Nat) : Nat := if number > SMART_COUNT then SMART_COUNT else number

/-- The next transfer of what is pending. -/
def ContinueRwdiskInfo.transfer (info : ContinueRwdiskInfo) : DiskTransfer where
  toDiskRequest := info.pending.first (smartCount info.pending.number)
  command := info.func
  disk := info.diskNumber

/--
The loop of `SmartDiskIo` that issues what is pending, in pieces; a failed one ends it.

The fuel is the number of sectors that are pending.
-/
def issuePending (device : DiskDevice) :
    Nat → ContinueRwdiskInfo → DiskLog → Bool × ContinueRwdiskInfo × DiskLog
  | 0, info, log => (true, info, log)
  | fuel + 1, info, log =>
    if info.pending.number = 0 then (true, info, log)
    else
      let ret := device log info.transfer
      let log := log ++ [(info.transfer, ret)]
      if ret then
        issuePending device fuel
          { info with pending := info.pending.behind (smartCount info.pending.number) } log
      else (false, info, log)

/--
`SmartDiskIo`: a request that continues what is pending joins it, in a 32-bit count.

Any other one makes room first, and takes the place even when that fails.
-/
def smartDiskIo (device : DiskDevice) (info : ContinueRwdiskInfo) (log : DiskLog) (r : DiskRequest) :
    Bool × ContinueRwdiskInfo × DiskLog :=
  if info.pending.number = 0 then (true, { info with pending := r }, log)
  else if r.number ≠ 0 ∧ r.sector = u64 (info.pending.sector + info.pending.number) then
    (true, { info with pending := { info.pending with number := u32 (info.pending.number + r.number) } },
      log)
  else
    let (ret, _, log) := issuePending device info.pending.number info log
    (ret, { info with pending := r }, log)

/-- The call that issues what is left. -/
def flushRequest : DiskRequest := { sector := 0, number := 0, buffer := 0 }

/-- The calls one after the other, with what each returned. -/
def smartRun (device : DiskDevice) :
    List DiskRequest → ContinueRwdiskInfo → DiskLog → List Bool × ContinueRwdiskInfo × DiskLog
  | [], info, log => ([], info, log)
  | r :: rest, info, log =>
    let (ret, info, log) := smartDiskIo device info log r
    let (rets, info, log) := smartRun device rest info log
    (ret :: rets, info, log)

/-- The transfers of the requests, ended by the call that issues what is left. -/
def smartLog (device : DiskDevice) (diskNumber : Nat) (func : DiskCommand) (requests : List DiskRequest) :
    DiskLog :=
  (smartRun device (requests ++ [flushRequest]) (smartDiskIoInit diskNumber func) []).2.2

end Okr
