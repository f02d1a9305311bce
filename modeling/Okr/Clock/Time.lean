import Okr.Base.Word

/-! The firmware's clock, the seconds the program counts from 1970 on, and the ticks it waits by. -/

namespace Okr

/-- `EFI_TIME`. -/
structure EfiTime where
  year : Nat
  month : Nat
  day : Nat
  hour : Nat
  minute : Nat
  second : Nat
  nanosecond : Nat := 0
  timeZone : Int := 0x07FF
deriving DecidableEq, Repr

/-- The time zone of a clock that keeps local time. -/
def EFI_UNSPECIFIED_TIMEZONE : Int := 0x07FF

def SECSPERMIN : Nat := 60
def SECSPERHOUR : Nat := 60 * 60
def SECSPERDAY : Nat := 24 * SECSPERHOUR

/-- `IsLeap`. -/
def isLeap (y : Nat) : Bool := y % 4 == 0 && (y % 100 != 0 || y % 400 == 0)

/-- The days up to the first of a month (1 to 12); the number at 13 is for the whole year. -/
def cumulativeDays (leap : Bool) (month : Nat) : Nat :=
  if leap then [0, 0, 31, 60, 91, 121, 152, 182, 213, 244, 274, 305, 335, 366].getD month 0
  else [0, 0, 31, 59, 90, 120, 151, 181, 212, 243, 273, 304, 334, 365].getD month 0

/-- The loop of `mytime` over the years in front of a year; nothing when it never comes to it. -/
def mytimeYears (target : Nat) : Nat → Nat → Nat → Option Nat
  | 0, _, _ => none
  | fuel + 1, year, curtime =>
    if year = target then some curtime
    else
      mytimeYears target fuel (u64 (year + 1))
        (u64 (curtime + cumulativeDays (isLeap year) 13 * SECSPERDAY))

/-- `mytime`: the seconds from 1970 on that the clock shows. -/
def mytime (fuel : Nat) (t : EfiTime) : Option Nat :=
  (mytimeYears t.year fuel 1970 0).map fun curtime =>
    let zone := if t.timeZone ≠ EFI_UNSPECIFIED_TIMEZONE then (t.timeZone * 60 % 2 ^ 64).toNat else 0
    let day := if t.day > 0 then t.day - 1 else 0
    u64 (curtime + zone + cumulativeDays (isLeap t.year) t.month * SECSPERDAY + day * SECSPERDAY
      + t.hour * SECSPERHOUR + t.minute * 60 + t.second)

/-- `struct mytm`: the months count from 1 on, the years from 1900 on. -/
structure MyTm where
  tm_sec : Nat
  tm_min : Nat
  tm_hour : Nat
  tm_mday : Nat
  tm_mon : Nat
  tm_year : Nat
  tm_wday : Nat
  tm_yday : Nat
deriving DecidableEq, Repr

/-- The loop of `mygmtime` over the years: the days left, the year, and how many years were passed. -/
def gmtimeYears : Nat → Nat → Nat → Nat → Option (Nat × Nat × Nat)
  | 0, _, _, _ => none
  | fuel + 1, dayNo, year, yearNo =>
    if dayNo > 0 then
      let totalDays := if isLeap year then 366 else 365
      if dayNo ≥ totalDays then gmtimeYears fuel (dayNo - totalDays) (year + 1) (yearNo + 1)
      else some (dayNo, year, yearNo)
    else some (dayNo, year, yearNo)

/-- The loop of `mygmtime` over the months, from December down: the days left, and the month. -/
def gmtimeMonths (leap : Bool) (dayNo : Nat) : Nat → Nat × Nat
  | 0 => (dayNo, 0)
  | monthNo + 1 =>
    if monthNo + 1 > 1 then
      if dayNo ≥ cumulativeDays leap (monthNo + 1) then
        (dayNo - cumulativeDays leap (monthNo + 1), monthNo + 1)
      else gmtimeMonths leap dayNo monthNo
    else (dayNo, monthNo + 1)

/-- `mygmtime`. -/
def mygmtime (fuel timer : Nat) : Option MyTm :=
  let dayNo := u32 (timer / SECSPERDAY)
  let dayRemainder := u32 (timer % SECSPERDAY)
  (gmtimeYears fuel dayNo 1970 0).map fun (left, year, yearNo) =>
    let month := gmtimeMonths (isLeap year) left 12
    { tm_sec := dayRemainder % SECSPERMIN
      tm_min := dayRemainder % SECSPERHOUR / SECSPERMIN
      tm_hour := dayRemainder / SECSPERHOUR
      tm_mday := month.1 + 1
      tm_mon := month.2
      tm_year := yearNo + (1970 - 1900)
      tm_wday := u32 (dayNo + 4) % 7
      tm_yday := left }

/-- The milliseconds `GetTickCount` makes of the time of its first call and of the present one. -/
def tickCount (begintime time : EfiTime) : Nat :=
  let seconds :=
    if time.hour < begintime.hour then u32 (time.hour + 24 - begintime.hour)
    else u32 (time.hour - begintime.hour)
  let seconds := u32 (seconds * 60)
  let seconds := sub32 (u32 (seconds + time.minute)) begintime.minute
  let seconds := u32 (seconds * 60)
  let seconds := sub32 (u32 (seconds + time.second)) begintime.second
  let microSeconds := u64 (u64 (seconds * 1000) * 1000)
  let microSeconds := sub64 (u64 (microSeconds + time.nanosecond)) begintime.nanosecond
  u32 (microSeconds / 1000)

/-- `GetTickCount`: the first call only notes the time. -/
def getTickCount (begintime : Option EfiTime) (time : EfiTime) : Nat × Option EfiTime :=
  match begintime with
  | none => (0, some time)
  | some begintime => (tickCount begintime time, some begintime)

end Okr
