import Okr.Proofs.Calendar

/-! When the ticks are the milliseconds that have passed since the first call. -/

namespace Okr

/-- A valid time of the clock, to the nanosecond. -/
structure Reading extends EfiTime where
  month_pos : 1 ≤ month
  month_le : month ≤ 12
  day_pos : 1 ≤ day
  day_le : day ≤ monthDays (isLeap year) month
  hour_lt : hour < 24
  minute_lt : minute < 60
  second_lt : second < 60
  nanosecond_lt : nanosecond < 10 ^ 9

/-- The days in front of a year. -/
def yearStart : Nat → Nat
  | 0 => 0
  | year + 1 => yearStart year + yearDays year

namespace Reading

/-- The day of a reading, counted through, and the second of that day. -/
def dayNumber (t : Reading) : Nat :=
  yearStart t.year + cumulativeDays (isLeap t.year) t.month + (t.day - 1)
def daySecond (t : Reading) : Nat := t.hour * 3600 + t.minute * 60 + t.second

/-- The nanoseconds up to a reading. -/
def nanoseconds (t : Reading) : Nat := (t.dayNumber * 86400 + t.daySecond) * 10 ^ 9 + t.nanosecond

/-- The milliseconds that have passed since another reading. -/
def elapsed (b t : Reading) : Nat := (t.nanoseconds - b.nanoseconds) / 1000000

/-- A reading less than 24 hours after another one. -/
structure Within24 (b t : Reading) : Prop where
  later : b.nanoseconds ≤ t.nanoseconds
  soon : t.nanoseconds < b.nanoseconds + 86400 * 10 ^ 9

/--
The readings whose difference is counted right.

Their nanoseconds differ by less than a microsecond.
The hour is not the one of the first call on the next day.
-/
structure TicksFit (b t : Reading) : Prop where
  forward : t.nanosecond < b.nanosecond + 1000
  backward : b.nanosecond ≤ t.nanosecond + 1000
  hour : ¬(t.dayNumber = b.dayNumber + 1 ∧ t.hour = b.hour)

end Reading

/-- A first call, and calls within 24 hours from it, in the order of time. -/
structure TickRun where
  first : Reading
  later : List Reading
  window : ∀ t ∈ later, first.Within24 t
  ordered : later.Pairwise fun t t' => t.nanoseconds ≤ t'.nanoseconds

/-- The results of calls, each of which finds the first time the one before left. -/
def tickResults (begintime : Option EfiTime) : List Reading → List Nat
  | [] => []
  | t :: rest =>
    let call := getTickCount begintime t.toEfiTime
    call.1 :: tickResults call.2 rest

/-- All calls of a run return the milliseconds that have passed, and so they never decrease. -/
structure RightTicks (run : TickRun) : Prop where
  elapsed : tickResults none (run.first :: run.later) = (run.first :: run.later).map run.first.elapsed
  rising : (tickResults none (run.first :: run.later)).Pairwise (· ≤ ·)

/-! ### One call -/

variable {b t : Reading}

/-- The seconds of the program, as far as the sum is not negative. -/
def tickSeconds (b t : EfiTime) : Nat :=
  let hours := if t.hour < b.hour then u32 (t.hour + 24 - b.hour) else u32 (t.hour - b.hour)
  let minutes := sub32 (u32 (u32 (hours * 60) + t.minute)) b.minute
  sub32 (u32 (u32 (minutes * 60) + t.second)) b.second

/-- Those seconds in milliseconds, with the nanoseconds that are added to microseconds. -/
theorem tickCount_eq (b t : EfiTime) (below : tickSeconds b t < 2 ^ 32) (near : b.nanosecond < 10 ^ 9)
    (near' : t.nanosecond < 10 ^ 9) :
    tickCount b t
      = (tickSeconds b t * 10 ^ 6 + t.nanosecond + 2 ^ 64 - b.nanosecond) % 2 ^ 64 / 1000 % 2 ^ 32 := by
  have count : tickCount b t
      = u32 (sub64 (u64 (u64 (u64 (tickSeconds b t * 1000) * 1000) + t.nanosecond)) b.nanosecond / 1000) :=
    rfl
  rw [count]
  generalize tickSeconds b t = seconds at below
  simp only [u32, u64, sub64]
  omega

/-- On a later hour, or past midnight on an earlier one, the seconds are the true ones. -/
theorem tickSeconds_eq (valid : b.minute < 60 ∧ t.minute < 60 ∧ b.second < 60 ∧ t.second < 60)
    (hours : b.hour < 24 ∧ t.hour < 24) :
    tickSeconds b.toEfiTime t.toEfiTime
      = (t.daySecond + (if t.hour < b.hour then 86400 else 0) + 2 ^ 32 - b.daySecond) % 2 ^ 32 := by
  -- The hours are brought into one day first.
  simp only [tickSeconds, Reading.daySecond]
  by_cases earlier : t.hour < b.hour
  · rw [if_pos earlier, if_pos earlier]
    simp only [u32, sub32]
    omega
  · rw [if_neg earlier, if_neg earlier]
    simp only [u32, sub32]
    omega

/-- The milliseconds of whole seconds, and of a difference that may be negative. -/
theorem milliseconds_eq {seconds n n' : Nat} (later : n ≤ seconds * 10 ^ 9 + n') :
    (((seconds * 10 ^ 9 + n' - n) / 1000000 : Nat) : Int)
      = seconds * 1000 + ((n' : Int) - n) / 1000000 := by
  have split : ((seconds * 10 ^ 9 + n' - n : Nat) : Int)
      = (n' - n) + seconds * 1000 * 1000000 := by omega
  rw [Int.natCast_ediv, split, Nat.cast_ofNat, Int.add_mul_ediv_right _ _ (by decide), Int.add_comm]

/-- Dividing by 1000 gives what dividing by 1000000 does next to zero only. -/
theorem divides_same_iff (difference : Int) :
    difference / 1000 = difference / 1000000 ↔ -1000 ≤ difference ∧ difference < 1000 := by
  omega

/-- A difference that wrapped below zero comes to more than twelve days. -/
theorem wrapped_large {count : Nat} (low : 2 ^ 64 - 10 ^ 9 ≤ count) (high : count < 2 ^ 64) :
    1270310319 ≤ count / 1000 % 2 ^ 32 := by
  have low' : 18446744072709551 ≤ count / 1000 := by omega
  have high' : count / 1000 ≤ 18446744073709551 := by omega
  omega

/-- True seconds give the milliseconds if the nanoseconds are too close to make a microsecond. -/
theorem counted_iff {seconds n n' : Nat} (day : seconds ≤ 86400) (near : n < 10 ^ 9) (near' : n' < 10 ^ 9)
    (later : n ≤ seconds * 10 ^ 9 + n') :
    (seconds * 10 ^ 6 + n' + 2 ^ 64 - n) % 2 ^ 64 / 1000 % 2 ^ 32 = (seconds * 10 ^ 9 + n' - n) / 1000000 ↔
      n' < n + 1000 ∧ n ≤ n' + 1000 := by
  by_cases enough : n ≤ seconds * 10 ^ 6 + n'
  · -- Nothing wraps: each nanosecond counts as a microsecond.
    have count : (seconds * 10 ^ 6 + n' + 2 ^ 64 - n) % 2 ^ 64 = seconds * 10 ^ 6 + n' - n := by omega
    have narrow : (seconds * 10 ^ 6 + n' - n) / 1000 % 2 ^ 32 = (seconds * 10 ^ 6 + n' - n) / 1000 := by
      apply Nat.mod_eq_of_lt
      omega
    have counted : (((seconds * 10 ^ 6 + n' - n) / 1000 : Nat) : Int)
        = seconds * 1000 + ((n' : Int) - n) / 1000 := by omega
    have passed := milliseconds_eq later
    have same := divides_same_iff ((n' : Int) - n)
    rw [count, narrow]
    omega
  · -- The difference wraps below zero.
    have count : (seconds * 10 ^ 6 + n' + 2 ^ 64 - n) % 2 ^ 64 = seconds * 10 ^ 6 + n' + 2 ^ 64 - n := by omega
    have large := @wrapped_large (seconds * 10 ^ 6 + n' + 2 ^ 64 - n) (by omega) (by omega)
    have passed : (seconds * 10 ^ 9 + n' - n) / 1000000 ≤ 86401000 := by omega
    rw [count]
    omega

/-- In the hour of the first call on the next day, the seconds or the nanoseconds wrap below zero. -/
theorem uncounted {missing n n' : Nat} (hour : missing < 3600) (near : n < 10 ^ 9) (near' : n' < 10 ^ 9)
    (soon : missing = 0 → n' < n) :
    ((2 ^ 32 - missing) % 2 ^ 32 * 10 ^ 6 + n' + 2 ^ 64 - n) % 2 ^ 64 / 1000 % 2 ^ 32
      ≠ ((86400 - missing) * 10 ^ 9 + n' - n) / 1000000 := by
  have low : 82000000 ≤ ((86400 - missing) * 10 ^ 9 + n' - n) / 1000000 := by omega
  have high : ((86400 - missing) * 10 ^ 9 + n' - n) / 1000000 ≤ 86401000 := by omega
  -- What has passed is close to a day; what is counted is far from it.
  generalize ((86400 - missing) * 10 ^ 9 + n' - n) / 1000000 = passed at low high
  by_cases exact_ : missing = 0
  · have less := soon exact_
    have count : ((2 ^ 32 - missing) % 2 ^ 32 * 10 ^ 6 + n' + 2 ^ 64 - n) % 2 ^ 64 = n' + 2 ^ 64 - n := by
      omega
    have large := @wrapped_large (n' + 2 ^ 64 - n) (by omega) (by omega)
    rw [count]
    omega
  · -- The milliseconds come to almost 2^32, or to less than a thousand seconds behind it.
    have narrow : (2 ^ 32 - missing) % 2 ^ 32 = 2 ^ 32 - missing := Nat.mod_eq_of_lt (by omega)
    have count : ((2 ^ 32 - missing) * 10 ^ 6 + n' + 2 ^ 64 - n) % 2 ^ 64
        = (2 ^ 32 - missing) * 10 ^ 6 + n' - n := by omega
    have below : 999 * 2 ^ 32 + 4000000000 ≤ ((2 ^ 32 - missing) * 10 ^ 6 + n' - n) / 1000 := by omega
    have above : ((2 ^ 32 - missing) * 10 ^ 6 + n' - n) / 1000 < 1000 * 2 ^ 32 + 1000000 := by omega
    rw [narrow, count]
    omega

namespace Reading

/-- The day is that of the date. -/
theorem dayNumber_congr {t t' : Reading} (year : t.year = t'.year) (month : t.month = t'.month)
    (day : t.day = t'.day) : t.dayNumber = t'.dayNumber := by
  rw [dayNumber, dayNumber, year, month, day]

/-- The second of the day lies in its hour. -/
theorem daySecond_hour (t : Reading) :
    t.hour * 3600 ≤ t.daySecond ∧ t.daySecond < (t.hour + 1) * 3600 ∧ t.daySecond < 86400 := by
  have hour := t.hour_lt
  have minute := t.minute_lt
  have second := t.second_lt
  rw [daySecond]
  omega

end Reading

/-- A call returns the milliseconds that have passed exactly for a reading that is counted right. -/
theorem tickCount_right_iff (window : b.Within24 t) :
    tickCount b.toEfiTime t.toEfiTime = b.elapsed t ↔ b.TicksFit t := by
  obtain ⟨later, soon⟩ := window
  have near := b.nanosecond_lt
  have near' := t.nanosecond_lt
  obtain ⟨low, high, day⟩ := b.daySecond_hour
  obtain ⟨low', high', day'⟩ := t.daySecond_hour
  have seconds := tickSeconds_eq ⟨b.minute_lt, t.minute_lt, b.second_lt, t.second_lt⟩ ⟨b.hour_lt, t.hour_lt⟩
  have small : tickSeconds b.toEfiTime t.toEfiTime < 2 ^ 32 := by
    rw [seconds]
    exact Nat.mod_lt _ (by decide)
  rw [tickCount_eq _ _ small near near', Reading.elapsed]
  simp only [Reading.nanoseconds] at later soon ⊢
  -- The reading is from the same day or from the next one.
  have days : t.dayNumber = b.dayNumber ∨ t.dayNumber = b.dayNumber + 1 := by omega
  by_cases wrongHour : t.dayNumber = b.dayNumber + 1 ∧ t.hour = b.hour
  · -- The program takes the reading for one of the first day.
    refine iff_of_false ?_ fun fits => fits.hour wrongHour
    obtain ⟨next, hour⟩ := wrongHour
    have missing : tickSeconds b.toEfiTime t.toEfiTime = (2 ^ 32 - (b.daySecond - t.daySecond)) % 2 ^ 32 := by
      rw [seconds, if_neg (by omega)]
      omega
    have passed : (t.dayNumber * 86400 + t.daySecond) * 10 ^ 9 + t.nanosecond
        - ((b.dayNumber * 86400 + b.daySecond) * 10 ^ 9 + b.nanosecond)
        = (86400 - (b.daySecond - t.daySecond)) * 10 ^ 9 + t.nanosecond - b.nanosecond := by
      omega
    rw [missing, passed]
    exact uncounted (by omega) near near' (by omega)
  · -- The seconds are the true ones.
    obtain ⟨passed, real⟩ : ∃ passed, tickSeconds b.toEfiTime t.toEfiTime = passed
        ∧ t.dayNumber * 86400 + t.daySecond = b.dayNumber * 86400 + b.daySecond + passed := by
      rcases days with same | next
      · refine ⟨t.daySecond - b.daySecond, ?_, by omega⟩
        rw [seconds, if_neg (by omega)]
        omega
      · refine ⟨t.daySecond + 86400 - b.daySecond, ?_, by omega⟩
        rw [seconds, if_pos (by omega)]
        omega
    have difference : (t.dayNumber * 86400 + t.daySecond) * 10 ^ 9 + t.nanosecond
        - ((b.dayNumber * 86400 + b.daySecond) * 10 ^ 9 + b.nanosecond)
        = passed * 10 ^ 9 + t.nanosecond - b.nanosecond := by
      omega
    rw [real.1, difference, counted_iff (by omega) near near' (by omega)]
    exact ⟨fun close => ⟨close.1, close.2, wrongHour⟩, fun fits => ⟨fits.forward, fits.backward⟩⟩

/-! ### All calls -/

/-- Every call after the first compares its time with the first one. -/
theorem tickResults_eq (first : Reading) (later : List Reading) :
    tickResults none (first :: later) = 0 :: later.map fun t => tickCount first.toEfiTime t.toEfiTime := by
  -- The time of the first call is kept from call to call.
  have kept : ∀ calls : List Reading, tickResults (some first.toEfiTime) calls
      = calls.map fun t => tickCount first.toEfiTime t.toEfiTime := by
    intro calls
    induction calls with
    | nil => rfl
    | cons t rest ih => rw [tickResults, getTickCount, List.map_cons, ih]
  rw [tickResults, getTickCount, kept]

/-- The results are right, and so never decrease, exactly if every reading is counted right. -/
theorem getTickCount_right_iff (run : TickRun) :
    RightTicks run ↔ ∀ t ∈ run.later, run.first.TicksFit t := by
  have start : run.first.elapsed run.first = 0 := by rw [Reading.elapsed, Nat.sub_self, Nat.zero_div]
  constructor
  · intro right t member
    apply (tickCount_right_iff (run.window t member)).mp
    have all := right.elapsed
    rw [tickResults_eq, List.map_cons] at all
    exact List.map_eq_map_iff.mp (List.cons.inj all).2 t member
  · intro fits
    have all : tickResults none (run.first :: run.later)
        = (run.first :: run.later).map run.first.elapsed := by
      rw [tickResults_eq, List.map_cons, start]
      refine congrArg _ (List.map_congr_left fun t member => ?_)
      exact (tickCount_right_iff (run.window t member)).mpr (fits t member)
    refine ⟨all, ?_⟩
    -- Later readings have more time behind them.
    rw [all, List.map_cons, start, List.pairwise_cons]
    refine ⟨fun _ _ => Nat.zero_le _, List.pairwise_map.mpr (run.ordered.imp fun later => ?_)⟩
    exact Nat.div_le_div_right (Nat.sub_le_sub_right later _)

/-- Readings of one day that differ in their nanoseconds. -/
def tenOClock (nanosecond : Nat) (near : nanosecond < 10 ^ 9) : Reading where
  year := 2026
  month := 1
  day := 5
  hour := 10
  minute := 0
  second := 0
  nanosecond := nanosecond
  month_pos := by decide
  month_le := by decide
  day_pos := by decide
  day_le := by decide
  hour_lt := by decide
  minute_lt := by decide
  second_lt := by decide
  nanosecond_lt := near

/-- Half a second after the first call, the ticks are those of 500 seconds. -/
theorem getTickCount_countsNanoseconds : ¬∀ run : TickRun, RightTicks run := by
  intro always
  have window : (tenOClock 0 (by decide)).Within24 (tenOClock 500000000 (by decide)) := by
    have passed : (tenOClock 0 (by decide)).nanoseconds + 500000000
        = (tenOClock 500000000 (by decide)).nanoseconds := by
      have start : (tenOClock 0 (by decide)).nanosecond = 0 := rfl
      have half : (tenOClock 500000000 (by decide)).nanosecond = 500000000 := rfl
      have day : (tenOClock 500000000 (by decide)).dayNumber = (tenOClock 0 (by decide)).dayNumber :=
        Reading.dayNumber_congr rfl rfl rfl
      have second : (tenOClock 500000000 (by decide)).daySecond = (tenOClock 0 (by decide)).daySecond := rfl
      rw [Reading.nanoseconds, Reading.nanoseconds, day, second, start, half, Nat.add_zero]
    exact ⟨by omega, by omega⟩
  have right := always
    { first := tenOClock 0 (by decide)
      later := [tenOClock 500000000 (by decide)]
      window := fun t only => List.mem_singleton.mp only ▸ window
      ordered := List.pairwise_singleton _ _ }
  have all := right.elapsed
  rw [tickResults_eq, List.map_cons] at all
  have one := (List.cons.inj (List.cons.inj all).2).1
  have fits := ((tickCount_right_iff window).mp one).forward
  exact absurd fits (by decide)

end Okr
