import Okr.Base.Word
import Okr.Lib.Loop

/-! The progress bar of a backup or a restore, and the loop that fills it up at the end. -/

namespace Okr

/-- The variables of the bar: megabytes but for the count, which is in kilobytes. -/
structure ProgressBar where
  showctrl : Bool
  total : Nat
  interval : Nat
  unit : Nat := 0
  count : Nat := 0
  percent : Nat := 0
  /-- The percentages the control was told to display, the last one first. -/
  shown : List Nat := []
deriving DecidableEq, Repr

/-- `ProcessBarInit`: a control is told to display 0. -/
def processBarInit (showctrl : Bool) (showtotal : Nat) : ProgressBar :=
  { showctrl := showctrl
    total := u32 (showtotal / 1024 / 1024)
    interval := u32 (showtotal / 1024 / 1024) / 100
    shown := if showctrl then [0] else [] }

/-- The number of bytes that stands for the end of all work. -/
def SHOW_ALL : Nat := 0xFFFFFFFF

/-- The percentage a call comes to, and the bar with its counts; nothing when it divides by zero. -/
def countProcess (bar : ProgressBar) (showcount : Nat) : Option (Nat × ProgressBar) :=
  if showcount = SHOW_ALL then some (100, bar)
  else
    let count := u32 (bar.count + showcount / 1024)
    if count / 1024 ≥ bar.interval then
      let unit := u32 (bar.unit + count / 1024)
      if u32 (bar.interval * 100) = 0 then none
      else
        let percent := u32 (unit * 100) / u32 (bar.interval * 100) % 2 ^ 16
        let count := if percent > 0 ∧ percent > bar.percent then 0 else count
        some (percent, { bar with unit := unit, count := count })
    else some (0, { bar with count := count })

/-- `GoProcessBar`: a larger percentage is displayed, as 100 at most. -/
def goProcessBar (bar : ProgressBar) (showcount : Nat) : Option ProgressBar :=
  if bar.showctrl then
    (countProcess bar showcount).map fun (percent, bar) =>
      if percent > bar.percent then
        let percent := if percent > 100 then 100 else percent
        { bar with percent := percent, shown := percent :: bar.shown }
      else bar
  else some bar

/-- The bytes with which `BackupLastProcess` goes on. -/
def lastCount (bar : ProgressBar) : Nat := u32 (bar.interval * 2 * 1024 * 1024 + 1 * 1024 * 1024)

/-- A pass of its loop; the result is nothing when the pass divides by zero. -/
def lastPass (bar : ProgressBar) : Loop.Pass ProgressBar (Option ProgressBar) :=
  if bar.percent > 96 then .done (some bar)
  else
    match goProcessBar bar (lastCount bar) with
    | none => .done none
    | some bar => .next bar

/-- `BackupLastProcess`; nothing when it does not end in so many passes. -/
def backupLastProcess (fuel : Nat) (bar : ProgressBar) : Option (Option ProgressBar) :=
  if bar.percent < 96 then Loop.run lastPass fuel bar else some (some bar)

/-- The calls of `GoProcessBar` in a run. -/
def goProcessBars (bar : ProgressBar) : List UInt32 → Option ProgressBar
  | [] => some bar
  | showcount :: rest => (goProcessBar bar showcount.toNat).bind fun bar => goProcessBars bar rest

end Okr
