import Okr.Clock.Time

/-! The two calendar loops undo each other, and later times have larger numbers of seconds. -/

namespace Okr

/-- The days of a month. -/
def monthDays (leap : Bool) (month : Nat) : Nat :=
  if month = 2 then if leap then 29 else 28
  else if month = 4 ∨ month = 6 ∨ month = 9 ∨ month = 11 then 30
  else 31

/-- The days of a year. -/
def yearDays (year : Nat) : Nat := if isLeap year then 366 else 365

/-- A date and time of a clock without a time zone, from 1970 on. -/
structure ValidTime extends EfiTime where
  since : 1970 ≤ year
  year_lt : year < 2 ^ 16
  month_pos : 1 ≤ month
  month_le : month ≤ 12
  day_pos : 1 ≤ day
  day_le : day ≤ monthDays (isLeap year) month
  hour_lt : hour < 24
  minute_lt : minute < 60
  second_lt : second < 60
  zone : timeZone = EFI_UNSPECIFIED_TIMEZONE

namespace ValidTime

/-- The order of dates and times. -/
def Before (t t' : ValidTime) : Prop :=
  t.year < t'.year ∨ t.year = t'.year ∧
    (t.month < t'.month ∨ t.month = t'.month ∧
      (t.day < t'.day ∨ t.day = t'.day ∧
        (t.hour < t'.hour ∨ t.hour = t'.hour ∧
          (t.minute < t'.minute ∨ t.minute = t'.minute ∧ t.second < t'.second))))

/-- The fields of a time are those of a valid one. -/
structure Shown (t : ValidTime) (tm : MyTm) : Prop where
  year : 1900 + tm.tm_year = t.year
  month : tm.tm_mon = t.month
  day : tm.tm_mday = t.day
  hour : tm.tm_hour = t.hour
  minute : tm.tm_min = t.minute
  second : tm.tm_sec = t.second

end ValidTime

/-- A loop returns a value, if it may take enough passes. -/
def Returns {α : Type} (loop : Nat → Option α) (r : α) : Prop := ∃ n, ∀ fuel, n < fuel → loop fuel = some r

/-! ### Days -/

/-- The days from 1970 on in front of the year that comes so many years later. -/
def daysBefore : Nat → Nat
  | 0 => 0
  | n + 1 => daysBefore n + yearDays (1970 + n)

/-- The table gives the days of a year. -/
theorem cumulativeDays_year (year : Nat) : cumulativeDays (isLeap year) 13 = yearDays year := by
  rw [yearDays]
  cases isLeap year <;> rfl

/-- The table goes on by the days of a month. -/
theorem cumulativeDays_succ (leap : Bool) {month : Nat} (low : 1 ≤ month) (high : month ≤ 12) :
    cumulativeDays leap (month + 1) = cumulativeDays leap month + monthDays leap month := by
  -- There are 24 sums to compare.
  have all : ∀ leap : Bool, ∀ month ≤ 12, 1 ≤ month →
      cumulativeDays leap (month + 1) = cumulativeDays leap month + monthDays leap month := by decide
  exact all leap month high low

/-- The table grows. -/
theorem cumulativeDays_mono (leap : Bool) {month month' : Nat} (before : month ≤ month')
    (low : 1 ≤ month) (high : month' ≤ 13) : cumulativeDays leap month ≤ cumulativeDays leap month' := by
  induction before with
  | refl => exact Nat.le_refl _
  | @step last before ih =>
    have order : month ≤ last := before
    have here := ih (by omega)
    have next := cumulativeDays_succ leap (by omega : 1 ≤ last) (by omega)
    have same : cumulativeDays leap last.succ = cumulativeDays leap (last + 1) := rfl
    omega

/-- The days before a year grow with it. -/
theorem daysBefore_mono {n m : Nat} (before : n ≤ m) : daysBefore n ≤ daysBefore m := by
  induction before with
  | refl => exact Nat.le_refl _
  | step _ ih => exact Nat.le_trans ih (Nat.le_add_right _ _)

/-- No year has more than 366 days. -/
theorem daysBefore_le (n : Nat) : daysBefore n ≤ 366 * n := by
  induction n with
  | zero => exact Nat.le_refl _
  | succ n ih =>
    have year : yearDays (1970 + n) ≤ 366 := by
      rw [yearDays]
      split <;> omega
    rw [daysBefore]
    omega

/-! ### The loops -/

/-- The loop of `mytime` adds up the years in front. -/
theorem mytimeYears_eq (n k fuel : Nat) (near : k + n < 2 ^ 16) (enough : n < fuel) :
    mytimeYears (1970 + (k + n)) fuel (1970 + k) (daysBefore k * SECSPERDAY)
      = some (daysBefore (k + n) * SECSPERDAY) := by
  -- One pass adds one year, until the year is the one looked for.
  induction n generalizing k fuel with
  | zero =>
    obtain ⟨fuel, rfl⟩ : ∃ rest, fuel = rest + 1 := ⟨fuel - 1, by omega⟩
    rw [mytimeYears, if_pos (by omega), Nat.add_zero]
  | succ n ih =>
    obtain ⟨fuel, rfl⟩ : ∃ rest, fuel = rest + 1 := ⟨fuel - 1, by omega⟩
    have bound := daysBefore_le (k + 1)
    have next : u64 (daysBefore k * SECSPERDAY + cumulativeDays (isLeap (1970 + k)) 13 * SECSPERDAY)
        = daysBefore (k + 1) * SECSPERDAY := by
      rw [cumulativeDays_year, ← Nat.add_mul]
      apply u64_eq
      rw [daysBefore] at bound
      simp only [SECSPERDAY, SECSPERHOUR]
      omega
    have later := ih (k + 1) fuel (by omega) (by omega)
    rw [mytimeYears, if_neg (by omega), next, u64_eq (by omega)]
    have place : k + (n + 1) = k + 1 + n := by omega
    rw [place]
    exact later

/-- The loop of `mygmtime` takes the years off, up to the one in which the days left lie. -/
theorem gmtimeYears_eq (n k fuel days left yearNo : Nat)
    (sum : daysBefore k + days = daysBefore (k + n) + left) (inside : left < yearDays (1970 + (k + n)))
    (enough : n < fuel) :
    gmtimeYears fuel days (1970 + k) yearNo = some (left, 1970 + (k + n), yearNo + n) := by
  -- One pass takes off one year, until what is left is inside a year.
  induction n generalizing k fuel days yearNo with
  | zero =>
    obtain ⟨fuel, rfl⟩ : ∃ rest, fuel = rest + 1 := ⟨fuel - 1, by omega⟩
    have all : days = left := by
      rw [Nat.add_zero] at sum
      omega
    have within : ¬left ≥ yearDays (1970 + k) := Nat.not_le.mpr inside
    rw [yearDays] at within
    rw [gmtimeYears, all]
    simp only [if_neg within, ite_self, Nat.add_zero]
  | succ n ih =>
    obtain ⟨fuel, rfl⟩ : ∃ rest, fuel = rest + 1 := ⟨fuel - 1, by omega⟩
    have place : k + (n + 1) = k + 1 + n := by omega
    rw [place] at sum inside ⊢
    -- The whole of this year is among the days.
    have year : daysBefore (k + 1) = daysBefore k + yearDays (1970 + k) := rfl
    have rest : daysBefore (k + 1) ≤ daysBefore (k + 1 + n) := daysBefore_mono (Nat.le_add_right _ _)
    have positive : 0 < yearDays (1970 + k) := by
      rw [yearDays]
      split <;> omega
    have enough' : days ≥ yearDays (1970 + k) := by omega
    have some_ : days > 0 := by omega
    have later := ih (k + 1) fuel (days - yearDays (1970 + k)) (yearNo + 1) (by omega) inside (by omega)
    rw [yearDays] at enough' later
    rw [gmtimeYears, if_pos some_]
    simp only [if_pos enough']
    rw [show 1970 + k + 1 = 1970 + (k + 1) from rfl, later]
    have count : yearNo + 1 + n = yearNo + (n + 1) := by omega
    rw [count]

/-- The loop over the months comes down to the one in which the day lies. -/
theorem gmtimeMonths_eq (leap : Bool) {month day last : Nat} (low : 1 ≤ month) (high : last ≤ 12)
    (before : month ≤ last) (inside : day < monthDays leap month) :
    gmtimeMonths leap (cumulativeDays leap month + day) last = (day, month) := by
  -- The loop counts the months down, and stops at the first that begins before the day.
  have next := cumulativeDays_succ leap low (by omega : month ≤ 12)
  induction last with
  | zero => omega
  | succ last ih =>
    by_cases here : month = last + 1
    · by_cases first : last + 1 > 1
      · have from_ : cumulativeDays leap month + day ≥ cumulativeDays leap (last + 1) := by
          rw [here]
          omega
        rw [gmtimeMonths, if_pos first, if_pos from_, here]
        have rest : cumulativeDays leap (last + 1) + day - cumulativeDays leap (last + 1) = day := by omega
        rw [rest]
      · -- January has no days in front of it.
        have january : month = 1 := by omega
        have none_ : cumulativeDays leap 1 = 0 := by cases leap <;> rfl
        rw [gmtimeMonths, if_neg first, january, none_, ← here, january, Nat.zero_add]
    · -- A later month begins behind the day.
      have later := cumulativeDays_mono leap (by omega : month + 1 ≤ last + 1) (by omega) (by omega)
      have behind : ¬cumulativeDays leap month + day ≥ cumulativeDays leap (last + 1) := by omega
      have more : last + 1 > 1 := by omega
      rw [gmtimeMonths, if_pos more, if_neg behind]
      exact ih (by omega) (by omega)

/-! ### Seconds -/

namespace ValidTime

variable (t : ValidTime)

/-- The days and the seconds of the day a time shows. -/
def days : Nat := daysBefore (t.year - 1970) + cumulativeDays (isLeap t.year) t.month + (t.day - 1)
def seconds : Nat := t.hour * SECSPERHOUR + t.minute * 60 + t.second

/-- A day has 86400 seconds. -/
theorem seconds_lt : t.seconds < SECSPERDAY := by
  have hour := t.hour_lt
  have minute := t.minute_lt
  have second := t.second_lt
  simp only [seconds, SECSPERDAY, SECSPERHOUR]
  omega

/-- The day lies in its month, and the month in its year. -/
theorem day_inside : t.day - 1 < monthDays (isLeap t.year) t.month
    ∧ cumulativeDays (isLeap t.year) t.month + (t.day - 1) < yearDays t.year := by
  have low := t.day_pos
  have high := t.day_le
  have next := cumulativeDays_succ (isLeap t.year) t.month_pos t.month_le
  have rest := cumulativeDays_mono (isLeap t.year) (by have := t.month_le; omega : t.month + 1 ≤ 13)
    (by omega) (Nat.le_refl _)
  rw [cumulativeDays_year] at rest
  omega

/-- The days of all times fit into 32 bits. -/
theorem days_lt : t.days < 2 ^ 25 := by
  have before := daysBefore_le (t.year - 1970)
  have inside := t.day_inside.2
  have year : yearDays t.year ≤ 366 := by
    rw [yearDays]
    split <;> omega
  have last := t.year_lt
  rw [days]
  omega

/-- `mytime` returns the seconds of the days and of the day. -/
theorem mytime_returns : Returns (fun fuel => mytime fuel t.toEfiTime) (t.days * SECSPERDAY + t.seconds) := by
  refine ⟨t.year - 1970, fun fuel enough => ?_⟩
  have since := t.since
  have last := t.year_lt
  have loop := mytimeYears_eq (t.year - 1970) 0 fuel (by omega) enough
  have place : 1970 + (0 + (t.year - 1970)) = t.year := by omega
  have none_ : daysBefore 0 * SECSPERDAY = 0 := rfl
  rw [place, none_, Nat.zero_add] at loop
  have day : (if t.day > 0 then t.day - 1 else 0) = t.day - 1 := if_pos t.day_pos
  have zone : ¬t.timeZone ≠ EFI_UNSPECIFIED_TIMEZONE := not_not.mpr t.zone
  have days := t.days_lt
  have seconds := t.seconds_lt
  simp only [mytime, loop, Option.map_some, day, if_neg zone]
  -- The sum stays far below 64 bits.
  have sum : daysBefore (t.year - 1970) * SECSPERDAY + 0
      + cumulativeDays (isLeap t.year) t.month * SECSPERDAY + (t.day - 1) * SECSPERDAY
      + t.hour * SECSPERHOUR + t.minute * 60 + t.second = t.days * SECSPERDAY + t.seconds := by
    rw [ValidTime.days, ValidTime.seconds]
    ring
  rw [sum, u64_eq]
  simp only [SECSPERDAY, SECSPERHOUR] at seconds ⊢
  omega

/-- What `mygmtime` makes of a time. -/
def tm : MyTm where
  tm_sec := t.seconds % SECSPERMIN
  tm_min := t.seconds % SECSPERHOUR / SECSPERMIN
  tm_hour := t.seconds / SECSPERHOUR
  tm_mday := t.day - 1 + 1
  tm_mon := t.month
  tm_year := t.year - 1970 + (1970 - 1900)
  tm_wday := u32 (t.days + 4) % 7
  tm_yday := cumulativeDays (isLeap t.year) t.month + (t.day - 1)

/-- Those are the fields of the time. -/
theorem tm_shown : t.Shown t.tm := by
  have since := t.since
  have low := t.day_pos
  have minute := t.minute_lt
  have second := t.second_lt
  constructor <;> simp only [tm, ValidTime.seconds, SECSPERHOUR, SECSPERMIN] <;> omega

/-- `mygmtime` shows the time again. -/
theorem mygmtime_returns :
    Returns (fun fuel => mygmtime fuel (t.days * SECSPERDAY + t.seconds)) t.tm := by
  have since := t.since
  obtain ⟨month, year⟩ := t.day_inside
  have low := t.day_pos
  have seconds := t.seconds_lt
  have dayNo : u32 ((t.days * SECSPERDAY + t.seconds) / SECSPERDAY) = t.days := by
    have days := t.days_lt
    rw [Nat.mul_comm, Nat.mul_add_div (by decide), Nat.div_eq_of_lt seconds, Nat.add_zero]
    exact u32_eq (by omega)
  have dayRemainder : u32 ((t.days * SECSPERDAY + t.seconds) % SECSPERDAY) = t.seconds := by
    rw [Nat.mul_comm, Nat.mul_add_mod, Nat.mod_eq_of_lt seconds]
    simp only [SECSPERDAY, SECSPERHOUR] at seconds
    exact u32_eq (by omega)
  -- The years come off first, and then the months.
  have place : 1970 + (0 + (t.year - 1970)) = t.year := by omega
  have loop := fun fuel enough => gmtimeYears_eq (t.year - 1970) 0 fuel t.days
    (cumulativeDays (isLeap t.year) t.month + (t.day - 1)) 0
    (by rw [days, daysBefore, Nat.zero_add, Nat.zero_add, Nat.add_assoc]) (by rw [place]; exact year) enough
  have months := gmtimeMonths_eq (isLeap t.year) t.month_pos (Nat.le_refl 12) t.month_le month
  refine ⟨t.year - 1970, fun fuel enough => ?_⟩
  have counted := loop fuel enough
  rw [Nat.add_zero, Nat.zero_add (t.year - 1970)] at counted
  rw [Nat.zero_add] at place
  simp only [mygmtime, dayNo, dayRemainder, counted, Option.map_some, place, months, tm]

/-- A date before another one has fewer days in front of it. -/
theorem days_lt_of_before {t t' : ValidTime}
    (before : t.year < t'.year ∨ t.year = t'.year ∧
      (t.month < t'.month ∨ t.month = t'.month ∧ t.day < t'.day)) : t.days < t'.days := by
  have since := t.since
  have low := t.day_pos
  obtain ⟨month, year⟩ := t.day_inside
  rw [days, days]
  -- The year decides, then the month, then the day.
  rcases before with earlier | ⟨sameYear, earlier | ⟨sameMonth, earlier⟩⟩
  · -- The whole year of the first date is in front of the second one.
    have next : daysBefore (t.year - 1970 + 1) = daysBefore (t.year - 1970) + yearDays t.year := by
      rw [daysBefore, Nat.add_sub_cancel' since]
    have rest : daysBefore (t.year - 1970 + 1) ≤ daysBefore (t'.year - 1970) := daysBefore_mono (by omega)
    omega
  · -- The whole month is.
    have next := cumulativeDays_succ (isLeap t.year) t.month_pos t.month_le
    have rest := cumulativeDays_mono (isLeap t.year) (by omega : t.month + 1 ≤ t'.month) (by omega)
      (Nat.le_succ_of_le t'.month_le)
    rw [← sameYear]
    omega
  · rw [← sameYear, ← sameMonth]
    omega

/-- An earlier time has fewer seconds. -/
theorem lt_of_before {t t' : ValidTime} (before : t.Before t') :
    t.days * SECSPERDAY + t.seconds < t'.days * SECSPERDAY + t'.seconds := by
  have inside := t.seconds_lt
  have minute := t.minute_lt
  have second := t.second_lt
  have minute' := t'.minute_lt
  have second' := t'.second_lt
  by_cases date : t.year = t'.year ∧ t.month = t'.month ∧ t.day = t'.day
  · -- On the same day the seconds of the day decide.
    obtain ⟨year, month, day⟩ := date
    have sameDays : t.days = t'.days := by rw [days, days, year, month, day]
    have less : t.seconds < t'.seconds := by
      simp only [Before] at before
      simp only [ValidTime.seconds, SECSPERHOUR]
      omega
    rw [sameDays]
    omega
  · -- An earlier date is a whole day earlier.
    have less : t.days < t'.days := by
      apply days_lt_of_before
      simp only [Before] at before
      omega
    have day : (t.days + 1) * SECSPERDAY ≤ t'.days * SECSPERDAY := Nat.mul_le_mul_right _ less
    rw [Nat.add_mul] at day
    omega

/-- Times in neither order are the same. -/
theorem same_of_not_before {t t' : ValidTime} (first : ¬t.Before t') (second : ¬t'.Before t) :
    t.days * SECSPERDAY + t.seconds = t'.days * SECSPERDAY + t'.seconds := by
  -- All six fields are equal.
  simp only [Before] at first second
  have year : t.year = t'.year := by omega
  have month : t.month = t'.month := by omega
  have day : t.day = t'.day := by omega
  have hour : t.hour = t'.hour := by omega
  have minute : t.minute = t'.minute := by omega
  have second : t.second = t'.second := by omega
  rw [days, days, ValidTime.seconds, ValidTime.seconds, year, month, day, hour, minute, second]

end ValidTime

/-- `mygmtime` undoes `mytime`, whose numbers are in the order of the times. -/
theorem calendar_roundTrip (t t' : ValidTime) :
    ∃ s s' tm, Returns (fun fuel => mytime fuel t.toEfiTime) s
      ∧ Returns (fun fuel => mytime fuel t'.toEfiTime) s'
      ∧ Returns (fun fuel => mygmtime fuel s) tm ∧ t.Shown tm
      ∧ (t.Before t' ↔ s < s') := by
  refine ⟨_, _, t.tm, t.mytime_returns, t'.mytime_returns, t.mygmtime_returns, t.tm_shown,
    ValidTime.lt_of_before, ?_⟩
  intro less
  by_contra later
  by_cases before : t'.Before t
  · exact absurd (ValidTime.lt_of_before before) (Nat.not_lt.mpr (Nat.le_of_lt less))
  · exact absurd (ValidTime.same_of_not_before later before) (Nat.ne_of_lt less)

end Okr
