import Okr.Backup.Progress

/-! When the progress bar divides by no zero, displays no smaller percentage, and can be filled up. -/

namespace Okr

open Loop (Pass Passes Ends)

/-- No number of a call overflows: neither the kilobytes nor a hundred times the megabytes. -/
structure Fits (bar : ProgressBar) (showcount : Nat) : Prop where
  count : bar.count + showcount / 1024 < 2 ^ 32
  unit : 100 * (bar.unit + (bar.count + showcount / 1024) / 1024) < 2 ^ 32

/-- No number overflows in the passes of `BackupLastProcess` up to 96 percent. -/
def LoopFits (bar : ProgressBar) : Prop :=
  ∀ n last, Passes lastPass n bar last → last.percent ≤ 96 → Fits last (lastCount last)

/-- No number overflows in calls below 96 percent, nor in the passes behind them. -/
def StepsFit (bar : ProgressBar) : List UInt32 → Prop
  | [] => bar.percent < 96 → LoopFits bar
  | showcount :: rest =>
    (showcount.toNat = SHOW_ALL ∨ 96 ≤ bar.percent ∨ Fits bar showcount.toNat)
      ∧ ∀ next, goProcessBar bar showcount.toNat = some next → StepsFit next rest

/--
A bar, the calls for it and the loop at their end are safe.

No call divides by zero, the loop ends, and what is displayed never decreases nor exceeds 100.
-/
def ProgressSafe (showctrl : Bool) (showtotal : Nat) (calls : List UInt32) : Prop :=
  ∃ bar fuel last, goProcessBars (processBarInit showctrl showtotal) calls = some bar
    ∧ backupLastProcess fuel bar = some (some last)
    ∧ last.shown.Pairwise (· ≥ ·) ∧ ∀ percent ∈ last.shown, percent ≤ 100

/-- The megabytes of one percent. -/
def showInterval (showtotal : Nat) : Nat := u32 (showtotal / 1024 / 1024) / 100

/--
The runs that are safe.

A control is needed, and without an interval only calls that end the bar.
With one, a call must end the bar, or no number may overflow.
-/
def ProgressFits (showctrl : Bool) (showtotal : Nat) (calls : List UInt32) : Prop :=
  showctrl = true ∧
    if showInterval showtotal = 0 then calls ≠ [] ∧ ∀ c ∈ calls, c.toNat = SHOW_ALL
    else (∃ c ∈ calls, c.toNat = SHOW_ALL) ∨ StepsFit (processBarInit showctrl showtotal) calls

variable {bar next : ProgressBar} {limit showcount : Nat}

/-! ### What is displayed -/

/-- The displayed percentages rise up to the present one, which is 100 at most. -/
structure Displayed (bar : ProgressBar) : Prop where
  rising : bar.shown.Pairwise (· ≥ ·)
  last : ∀ percent ∈ bar.shown, percent ≤ bar.percent
  most : bar.percent ≤ 100

/-- What a call keeps, whatever it counts. -/
structure Kept (bar next : ProgressBar) : Prop where
  showctrl : next.showctrl = bar.showctrl
  interval : next.interval = bar.interval
  displayed : Displayed bar → Displayed next ∧ bar.percent ≤ next.percent

/-- The counts of a call change neither the control, the interval nor what is displayed. -/
theorem countProcess_keeps {percent : Nat} (counted : countProcess bar showcount = some (percent, next)) :
    next.showctrl = bar.showctrl ∧ next.interval = bar.interval ∧ next.percent = bar.percent
      ∧ next.shown = bar.shown := by
  -- Each branch that returns changes the two counts alone.
  simp only [countProcess] at counted
  split at counted
  · cases counted
    exact ⟨rfl, rfl, rfl, rfl⟩
  · split at counted
    · split at counted
      · cases counted
      · cases counted
        exact ⟨rfl, rfl, rfl, rfl⟩
    · cases counted
      exact ⟨rfl, rfl, rfl, rfl⟩

/-- A call displays a larger percentage or none. -/
theorem goProcessBar_keeps (goes : goProcessBar bar showcount = some next) : Kept bar next := by
  rw [goProcessBar] at goes
  -- Without a control the bar is not touched.
  by_cases ctrl : bar.showctrl = true
  · rw [if_pos ctrl] at goes
    cases counted : countProcess bar showcount with
    | none =>
      rw [counted] at goes
      cases goes
    | some counts =>
      obtain ⟨percent, counts⟩ := counts
      obtain ⟨showctrl, interval, same, shown⟩ := countProcess_keeps counted
      rw [counted, Option.map_some] at goes
      by_cases more : percent > counts.percent
      · -- The larger percentage is cut to 100, and put in front of the smaller ones.
        simp only [if_pos more] at goes
        cases goes
        refine ⟨showctrl, interval, fun displayed => ?_⟩
        rw [same] at more
        have cut : bar.percent ≤ (if percent > 100 then 100 else percent)
            ∧ (if percent > 100 then 100 else percent) ≤ 100 := by
          have most := displayed.most
          split <;> omega
        generalize (if percent > 100 then 100 else percent) = next at cut
        have below : ∀ p ∈ counts.shown, p ≤ next := by
          intro p member
          rw [shown] at member
          exact Nat.le_trans (displayed.last p member) cut.1
        refine ⟨⟨List.pairwise_cons.mpr ⟨below, shown ▸ displayed.rising⟩, ?_, cut.2⟩, cut.1⟩
        exact List.forall_mem_cons.mpr ⟨Nat.le_refl _, below⟩
      · simp only [if_neg more] at goes
        cases goes
        refine ⟨showctrl, interval, fun displayed => ⟨⟨?_, ?_, ?_⟩, Nat.le_of_eq same.symm⟩⟩
        · exact shown ▸ displayed.rising
        · rw [shown, same]
          exact displayed.last
        · rw [same]
          exact displayed.most
  · rw [if_neg ctrl] at goes
    cases goes
    exact ⟨rfl, rfl, fun displayed => ⟨displayed, Nat.le_refl _⟩⟩

/-- The end of all work is displayed as 100. -/
theorem goProcessBar_all (ctrl : bar.showctrl = true) (displayed : Displayed bar) :
    ∃ next, goProcessBar bar SHOW_ALL = some next ∧ next.percent = 100 := by
  have most := displayed.most
  have counted : countProcess bar SHOW_ALL = some (100, bar) := by rw [countProcess, if_pos rfl]
  rw [goProcessBar, if_pos ctrl, counted, Option.map_some]
  -- The percentage is displayed unless it is there already.
  by_cases more : 100 > bar.percent
  · exact ⟨_, rfl, by simp [more]⟩
  · exact ⟨_, rfl, by simp only [if_neg more]; omega⟩

/-! ### One call -/

/-- The control and the interval of a bar that counts, and its counts up to a percentage. -/
structure Counts (limit : Nat) (bar : ProgressBar) : Prop where
  showctrl : bar.showctrl = true
  some_ : 0 < bar.interval
  bound : bar.interval ≤ 42949672
  displayed : Displayed bar
  unit : bar.percent < limit → bar.unit / bar.interval = bar.percent
  count : bar.percent < limit → bar.count / 1024 < bar.interval

/-- Counts up to a percentage that is not reached are counts up to any. -/
theorem Counts.raise {limit' : Nat} (counts : Counts limit bar) (early : bar.percent < limit) :
    Counts limit' bar :=
  ⟨counts.showctrl, counts.some_, counts.bound, counts.displayed, fun _ => counts.unit early,
    fun _ => counts.count early⟩

/-- A product with the interval does not overflow, and divides no number by zero. -/
theorem interval_mul (bound : bar.interval ≤ 42949672) : u32 (bar.interval * 100) = bar.interval * 100 :=
  u32_eq (by omega)

/-- A call that does not overflow adds to the count, or shows the next percentages. -/
theorem goProcessBar_fits (counts : Counts limit bar) (early : bar.percent < limit) (most : limit ≤ 100)
    (narrow : showcount < 2 ^ 32) (other : showcount ≠ SHOW_ALL) (fits : Fits bar showcount) :
    (bar.count + showcount / 1024) / 1024 < bar.interval
        ∧ goProcessBar bar showcount = some { bar with count := bar.count + showcount / 1024 }
      ∨ bar.interval ≤ (bar.count + showcount / 1024) / 1024
        ∧ ∃ percent, percent = (bar.unit + (bar.count + showcount / 1024) / 1024) / bar.interval
          ∧ bar.percent < percent
          ∧ goProcessBar bar showcount = some
            { bar with
              unit := bar.unit + (bar.count + showcount / 1024) / 1024
              count := 0
              percent := if percent > 100 then 100 else percent
              shown := (if percent > 100 then 100 else percent) :: bar.shown } := by
  have unit := counts.unit early
  have count := counts.count early
  have some_ := counts.some_
  have sum := fits.count
  have product := fits.unit
  rw [goProcessBar, if_pos counts.showctrl, countProcess, if_neg other, u32_eq sum]
  -- One call adds 4 GiB at most.
  have near : (bar.count + showcount / 1024) / 1024 ≤ bar.interval + 4096 := by omega
  generalize bar.count + showcount / 1024 = total at sum product near
  by_cases full : total / 1024 ≥ bar.interval
  · -- The count makes at least one more interval.
    have larger : (bar.unit + total / 1024) / bar.interval > bar.percent := by
      have more : (bar.unit + bar.interval) / bar.interval ≤ (bar.unit + total / 1024) / bar.interval :=
        Nat.div_le_div_right (Nat.add_le_add_left full _)
      rw [Nat.add_div_right _ some_, unit] at more
      exact more
    refine Or.inr ⟨full, _, rfl, larger, ?_⟩
    have below : (bar.unit + total / 1024) / bar.interval < 2 ^ 16 := by
      apply Nat.div_lt_of_lt_mul
      have units : bar.unit < bar.interval * (bar.percent + 1) := by
        rw [← unit]
        exact Nat.lt_mul_div_succ bar.unit some_
      have hundred : bar.interval * (bar.percent + 1) ≤ bar.interval * 100 :=
        Nat.mul_le_mul_left _ (by omega)
      omega
    have whole : u32 (bar.unit + total / 1024) = bar.unit + total / 1024 := u32_eq (by omega)
    have divisor : ¬bar.interval * 100 = 0 := by omega
    have quotient : u32 ((bar.unit + total / 1024) * 100) / (bar.interval * 100) % 2 ^ 16
        = (bar.unit + total / 1024) / bar.interval := by
      rw [u32_eq (by omega), Nat.mul_div_mul_right _ _ (by decide), Nat.mod_eq_of_lt below]
    have positive : (bar.unit + total / 1024) / bar.interval > 0 := by omega
    simp only [if_pos full, interval_mul counts.bound, if_neg divisor, whole, quotient, Option.map_some,
      if_pos larger, if_pos (And.intro positive larger)]
  · refine Or.inl ⟨Nat.lt_of_not_le full, ?_⟩
    simp only [if_neg full, Option.map_some]
    rw [if_neg (Nat.not_lt_zero _)]

/-- A call at or behind the limit, one that ends the bar, and one that does not overflow keep the counts. -/
theorem goProcessBar_counts (counts : Counts limit bar) (most : limit ≤ 100) (narrow : showcount < 2 ^ 32)
    (fits : showcount = SHOW_ALL ∨ limit ≤ bar.percent ∨ Fits bar showcount) :
    ∃ next, goProcessBar bar showcount = some next ∧ Counts limit next := by
  have divisor : ¬u32 (bar.interval * 100) = 0 := by
    have some_ := counts.some_
    rw [interval_mul counts.bound]
    omega
  -- With an interval no call divides by zero.
  obtain ⟨next, goes⟩ : ∃ next, goProcessBar bar showcount = some next := by
    rw [goProcessBar, if_pos counts.showctrl, countProcess]
    simp only [if_neg divisor]
    split
    · exact ⟨_, rfl⟩
    · split <;> exact ⟨_, rfl⟩
  have kept := goProcessBar_keeps goes
  obtain ⟨displayed, rises⟩ := kept.displayed counts.displayed
  refine ⟨next, goes, kept.showctrl.trans counts.showctrl, ?_, ?_, displayed, fun early => ?_, fun early => ?_⟩
  · rw [kept.interval]
    exact counts.some_
  · rw [kept.interval]
    exact counts.bound
  all_goals
    by_cases other : showcount = SHOW_ALL
    · obtain ⟨last, ends, hundred⟩ := goProcessBar_all counts.showctrl counts.displayed
      rw [other, ends] at goes
      cases goes
      omega
    have before : bar.percent < limit := by omega
    have fit := (fits.resolve_left other).resolve_left (Nat.not_le.mpr before)
    rcases goProcessBar_fits counts before most narrow other fit with ⟨below, adds⟩ | ⟨-, percent, shows, -, adds⟩
    all_goals
      rw [adds] at goes
      cases goes
  · exact counts.unit before
  · -- A percentage below the limit is not cut.
    by_cases large : percent > 100
    · simp only [if_pos large] at early
      omega
    · simp only [if_neg large]
      exact shows.symm
  · exact below
  · show 0 / 1024 < bar.interval
    rw [Nat.zero_div]
    exact counts.some_

/-! ### The loop at the end -/

/-- What is still to be counted up to 97 percent. -/
def leftToShow (bar : ProgressBar) : Nat := (97 - bar.percent) * (bar.interval + 1) - bar.count / 1024

/-- The loop never tells that all work is done, and counts at least a megabyte. -/
theorem lastCount_spec (bar : ProgressBar) :
    lastCount bar < 2 ^ 32 ∧ lastCount bar ≠ SHOW_ALL ∧ 1 ≤ lastCount bar / 1024 / 1024 := by
  -- The count is an odd number of megabytes.
  have odd : lastCount bar = (bar.interval * 2 + 1) % 4096 * 2 ^ 20 := by
    rw [lastCount, u32]
    omega
  have positive : 1 ≤ (bar.interval * 2 + 1) % 4096 := by omega
  simp only [SHOW_ALL]
  omega

/-- A pass that does not overflow comes closer to 97 percent. -/
theorem lastPass_closer (counts : Counts 97 bar) (early : bar.percent ≤ 96)
    (fits : Fits bar (lastCount bar)) :
    ∃ next, lastPass bar = .next next ∧ Counts 97 next ∧ leftToShow next < leftToShow bar := by
  obtain ⟨narrow, other, adds_⟩ := lastCount_spec bar
  obtain ⟨next, goes, counts'⟩ := goProcessBar_counts counts (by decide) narrow (Or.inr (Or.inr fits))
  refine ⟨next, ?_, counts', ?_⟩
  · rw [lastPass, if_neg (Nat.not_lt.mpr early), goes]
  · have before := counts.count (by omega)
    -- What is left is at least one interval and one more.
    have one : bar.interval + 1 ≤ (97 - bar.percent) * (bar.interval + 1) :=
      Nat.le_mul_of_pos_left _ (by omega)
    -- The count grows by a megabyte, or the percentage by one and the count starts anew.
    rcases goProcessBar_fits counts (by omega) (by decide) narrow other fits with
      ⟨below, adds⟩ | ⟨-, percent, -, larger, adds⟩
    · rw [adds] at goes
      cases goes
      simp only [leftToShow]
      omega
    · rw [adds] at goes
      cases goes
      have more : bar.percent + 1 ≤ (if percent > 100 then 100 else percent) := by
        split <;> omega
      have less : (97 - (if percent > 100 then 100 else percent)) * (bar.interval + 1) + (bar.interval + 1)
          ≤ (97 - bar.percent) * (bar.interval + 1) := by
        rw [← Nat.succ_mul]
        exact Nat.mul_le_mul_right _ (by omega)
      simp only [leftToShow, Nat.zero_div]
      omega

/-- Without overflow the loop comes to more than 96 percent. -/
theorem lastLoop_ends (counts : Counts 97 bar) (fits : LoopFits bar) :
    ∃ fuel last, Loop.run lastPass fuel bar = some (some last) ∧ Displayed last := by
  obtain ⟨n, stop, r, passes, done_, last, result, displayed⟩ :=
    @Loop.ends_of_measure _ _ lastPass bar (fun bar => Counts 97 bar ∧ LoopFits bar)
      (fun r => ∃ last, r = some last ∧ Displayed last) leftToShow
      (by
        rintro bar ⟨counts, fits⟩
        by_cases enough : bar.percent > 96
        · exact Or.inl ⟨some bar, by rw [lastPass, if_pos enough], bar, rfl, counts.displayed⟩
        · have early := Nat.le_of_not_lt enough
          obtain ⟨next, goes, counts', closer⟩ :=
            lastPass_closer counts early (fits 0 bar (.here bar) early)
          refine Or.inr ⟨next, goes, ⟨counts', fun n last passes => ?_⟩, closer⟩
          exact fits (n + 1) last (.more goes passes))
      ⟨counts, fits⟩
  exact ⟨n + 1, last, by rw [Loop.run_done passes done_ (Nat.lt_succ_self n), result], displayed⟩

/-- `BackupLastProcess` ends, at once from 96 percent on. -/
theorem backupLastProcess_ends (counts : Counts 96 bar) (fits : bar.percent < 96 → LoopFits bar) :
    ∃ fuel last, backupLastProcess fuel bar = some (some last) ∧ Displayed last := by
  by_cases early : bar.percent < 96
  · obtain ⟨fuel, last, ends, displayed⟩ := lastLoop_ends (counts.raise early) (fits early)
    exact ⟨fuel, last, by rw [backupLastProcess, if_pos early, ends], displayed⟩
  · exact ⟨0, bar, by rw [backupLastProcess, if_neg early], counts.displayed⟩

/-! ### The calls -/

/-- Calls that do not overflow leave a bar that counts. -/
theorem goProcessBars_fits (calls : List UInt32) (counts : Counts 96 bar) (fits : StepsFit bar calls) :
    ∃ last, goProcessBars bar calls = some last ∧ Counts 96 last
      ∧ (last.percent < 96 → LoopFits last) := by
  -- The first call keeps the counts, and the others start from there.
  induction calls generalizing bar with
  | nil => exact ⟨bar, rfl, counts, fits⟩
  | cons showcount rest ih =>
    obtain ⟨first, later⟩ := fits
    obtain ⟨next, goes, counts'⟩ :=
      goProcessBar_counts counts (by decide) (UInt32.toNat_lt showcount) first
    obtain ⟨last, runs, rest⟩ := ih counts' (later next goes)
    refine ⟨last, ?_, rest⟩
    rw [goProcessBars, goes]
    exact runs

/-- Calls one of which ends the bar leave it at 100 percent. -/
theorem goProcessBars_all (calls : List UInt32) (counts : Counts 0 bar) :
    ∃ last, goProcessBars bar calls = some last ∧ Counts 0 last ∧ bar.percent ≤ last.percent
      ∧ ((∃ c ∈ calls, c.toNat = SHOW_ALL) → last.percent = 100) := by
  induction calls generalizing bar with
  | nil => exact ⟨bar, rfl, counts, Nat.le_refl _, fun ⟨c, none_, _⟩ => absurd none_ List.not_mem_nil⟩
  | cons showcount rest ih =>
    obtain ⟨next, goes, counts'⟩ := goProcessBar_counts counts (by decide) (UInt32.toNat_lt showcount)
      (Or.inr (Or.inl (Nat.zero_le _)))
    obtain ⟨last, runs, counts'', rises, ended⟩ := ih counts'
    have first := ((goProcessBar_keeps goes).displayed counts.displayed).2
    refine ⟨last, ?_, counts'', Nat.le_trans first rises, ?_⟩
    · rw [goProcessBars, goes]
      exact runs
    · rintro ⟨c, member, all⟩
      rcases List.mem_cons.mp member with here | behind
      · -- From 100 percent on nothing is displayed that is larger.
        obtain ⟨next', ends, hundred⟩ := goProcessBar_all counts.showctrl counts.displayed
        rw [← here, all, ends] at goes
        cases goes
        have most := counts''.displayed.most
        omega
      · exact ended ⟨c, behind, all⟩

/-- A bar with a control starts to count. -/
theorem processBarInit_counts (limit : Nat) {showtotal : Nat} (some_ : showInterval showtotal ≠ 0) :
    Counts limit (processBarInit true showtotal) where
  showctrl := rfl
  some_ := Nat.pos_of_ne_zero some_
  bound := by
    show u32 (showtotal / 1024 / 1024) / 100 ≤ 42949672
    rw [u32]
    omega
  displayed := ⟨List.pairwise_singleton _ _, fun p only => Nat.le_of_eq (List.mem_singleton.mp only),
    Nat.zero_le _⟩
  unit := fun _ => Nat.zero_div _
  count := fun _ => by
    show 0 / 1024 < showInterval showtotal
    rw [Nat.zero_div]
    exact Nat.pos_of_ne_zero some_

/-- Calls that only end the bar leave it at 100 percent, or did not happen. -/
theorem goProcessBars_only (calls : List UInt32) (only : ∀ c ∈ calls, c.toNat = SHOW_ALL)
    (ctrl : bar.showctrl = true) (displayed : Displayed bar) :
    ∃ last, goProcessBars bar calls = some last ∧ Displayed last
      ∧ (calls = [] ∧ last = bar ∨ last.percent = 100) := by
  -- Each call displays 100, and a call behind it changes nothing.
  induction calls generalizing bar with
  | nil => exact ⟨bar, rfl, displayed, Or.inl ⟨rfl, rfl⟩⟩
  | cons showcount rest ih =>
    obtain ⟨next, goes, hundred⟩ := goProcessBar_all ctrl displayed
    have kept := goProcessBar_keeps goes
    obtain ⟨last, runs, displayed', ended⟩ := ih
      (fun c member => only c (List.mem_cons_of_mem _ member)) (kept.showctrl.trans ctrl)
      (kept.displayed displayed).1
    refine ⟨last, ?_, displayed', Or.inr ?_⟩
    · rw [goProcessBars, only showcount (List.mem_cons_self ..), goes]
      exact runs
    · rcases ended with ⟨-, same⟩ | hundred'
      · rw [same, hundred]
      · exact hundred'

/-! ### The runs that are not safe -/

/-- Without a control no call has an effect. -/
theorem goProcessBar_bare (bare : bar.showctrl = false) (showcount : Nat) :
    goProcessBar bar showcount = some bar := by
  rw [goProcessBar, bare, if_neg Bool.noConfusion]

/-- A bar that every pass leaves at 96 percent or less is never filled up. -/
theorem backupLastProcess_hangs {Inv : ProgressBar → Prop} (below : ∀ bar, Inv bar → bar.percent < 96)
    (keeps : ∀ bar, Inv bar → ∃ next, goProcessBar bar (lastCount bar) = some next ∧ Inv next)
    (inv : Inv bar) (fuel : Nat) : backupLastProcess fuel bar = none := by
  -- The loop ends above 96 percent only, and no pass comes there.
  have endless : ¬Ends lastPass bar := by
    refine @Loop.not_ends _ _ lastPass bar Inv (fun bar inv => ?_) inv
    obtain ⟨next, goes, inv'⟩ := keeps bar inv
    have less := below bar inv
    have early : ¬bar.percent > 96 := by omega
    exact ⟨next, by rw [lastPass, if_neg early, goes], inv'⟩
  rw [backupLastProcess, if_pos (below bar inv)]
  cases result : Loop.run lastPass fuel bar with
  | none => rfl
  | some r =>
    obtain ⟨n, last, -, passes, done_⟩ := Loop.run_some result
    exact absurd ⟨n, last, r, passes, done_⟩ endless

/-- Without a control the calls have no effect. -/
theorem goProcessBars_bare (bare : bar.showctrl = false) (calls : List UInt32) :
    goProcessBars bar calls = some bar := by
  induction calls with
  | nil => rfl
  | cons showcount rest ih =>
    rw [goProcessBars, goProcessBar_bare bare]
    exact ih

/-- Without a control the bar is never filled up. -/
theorem unsafe_bare (showtotal : Nat) (calls : List UInt32) : ¬ProgressSafe false showtotal calls := by
  rintro ⟨bar, fuel, last, runs, ends, -⟩
  rw [goProcessBars_bare rfl] at runs
  cases runs
  have hangs := @backupLastProcess_hangs (processBarInit false showtotal)
    (fun bar => bar.showctrl = false ∧ bar.percent = 0)
    (fun bar inv => by rw [inv.2]; decide)
    (fun bar inv => ⟨bar, goProcessBar_bare inv.1 _, inv⟩) ⟨rfl, rfl⟩ fuel
  rw [hangs] at ends
  cases ends

/-- Without an interval a call that does not end the bar divides by zero. -/
theorem goProcessBar_divides (ctrl : bar.showctrl = true) (zero : bar.interval = 0)
    (other : showcount ≠ SHOW_ALL) : goProcessBar bar showcount = none := by
  have full : u32 (bar.count + showcount / 1024) / 1024 ≥ bar.interval := by
    rw [zero]
    exact Nat.zero_le _
  -- The divisor is the interval times a hundred.
  have divisor : u32 (bar.interval * 100) = 0 := by
    rw [zero]
    rfl
  rw [goProcessBar, if_pos ctrl, countProcess, if_neg other]
  simp only [if_pos full, if_pos divisor, Option.map_none]

/-- So does a run with such a call. -/
theorem goProcessBars_divides (calls : List UInt32) (ctrl : bar.showctrl = true) (zero : bar.interval = 0)
    (some_ : ∃ c ∈ calls, c.toNat ≠ SHOW_ALL) : goProcessBars bar calls = none := by
  induction calls generalizing bar with
  | nil =>
    obtain ⟨c, none_, -⟩ := some_
    cases none_
  | cons showcount rest ih =>
    rw [goProcessBars]
    cases goes : goProcessBar bar showcount.toNat with
    | none => rfl
    | some next =>
      -- The first call ended the bar, so the other one comes later.
      have kept := goProcessBar_keeps goes
      have first : showcount.toNat = SHOW_ALL := by
        by_contra other
        rw [goProcessBar_divides ctrl zero other] at goes
        cases goes
      obtain ⟨c, member, other⟩ := some_
      rcases List.mem_cons.mp member with here | behind
      · exact absurd (here ▸ first) other
      · exact ih (kept.showctrl.trans ctrl) (kept.interval.trans zero) ⟨c, behind, other⟩

/-- Without an interval only calls that end the bar are safe. -/
theorem only_of_safe {showtotal : Nat} {calls : List UInt32} (zero : showInterval showtotal = 0)
    (safe : ProgressSafe true showtotal calls) : calls ≠ [] ∧ ∀ c ∈ calls, c.toNat = SHOW_ALL := by
  obtain ⟨bar, fuel, last, runs, ends, -⟩ := safe
  constructor
  · -- Without a call the first pass of the loop divides by zero.
    intro none_
    rw [none_] at runs
    cases runs
    have start : (processBarInit true showtotal).percent = 0 := rfl
    have first : lastPass (processBarInit true showtotal) = .done none := by
      rw [lastPass, if_neg (by rw [start]; decide), goProcessBar_divides rfl zero (lastCount_spec _).2.1]
    have early : (processBarInit true showtotal).percent < 96 := by
      rw [start]
      decide
    rw [backupLastProcess, if_pos early] at ends
    cases fuel with
    | zero => cases ends
    | succ fuel =>
      rw [Loop.run, first] at ends
      cases ends
  · intro c member
    by_contra other
    rw [goProcessBars_divides calls rfl zero ⟨c, member, other⟩] at runs
    cases runs

/-- A bar with so large an interval that 32 bits hold no 96 percent of it. -/
structure Low (bar : ProgressBar) : Prop where
  showctrl : bar.showctrl = true
  large : 447393 ≤ bar.interval
  bound : bar.interval ≤ 42949672
  percent : bar.percent ≤ 95

/-- Its calls come to 95 percent at most. -/
theorem goProcessBar_low (low : Low bar) (other : showcount ≠ SHOW_ALL) :
    ∃ next, goProcessBar bar showcount = some next ∧ Low next := by
  have large := low.large
  have divisor : ¬u32 (bar.interval * 100) = 0 := by
    rw [interval_mul low.bound]
    omega
  -- The quotient of 32 bits by a hundred intervals is at most 95.
  obtain ⟨percent, counts, counted, less⟩ : ∃ percent counts,
      countProcess bar showcount = some (percent, counts) ∧ percent ≤ 95 := by
    simp only [countProcess, if_neg other]
    split
    · refine ⟨_, _, rfl, Nat.le_trans (Nat.mod_le _ _) (Nat.le_of_lt_succ (Nat.div_lt_of_lt_mul ?_))⟩
      rw [interval_mul low.bound, u32]
      omega
    · exact ⟨_, _, rfl, by decide⟩
  obtain ⟨showctrl, interval, same, -⟩ := countProcess_keeps counted
  have next : Low counts :=
    ⟨showctrl.trans low.showctrl, interval ▸ large, interval ▸ low.bound, same ▸ low.percent⟩
  rw [goProcessBar, if_pos low.showctrl, counted, Option.map_some]
  by_cases more : percent > counts.percent
  · refine ⟨_, rfl, ?_⟩
    simp only [if_pos more, if_neg (by omega : ¬percent > 100)]
    exact ⟨next.showctrl, next.large, next.bound, less⟩
  · refine ⟨_, rfl, ?_⟩
    simp only [if_neg more]
    exact next

/-- With such an interval only a call that ends the bar helps. -/
theorem ended_of_safe {showtotal : Nat} {calls : List UInt32} (large : 447393 ≤ showInterval showtotal)
    (safe : ProgressSafe true showtotal calls) : ∃ c ∈ calls, c.toNat = SHOW_ALL := by
  obtain ⟨bar, fuel, last, runs, ends, -⟩ := safe
  by_contra none_
  -- Calls that only count leave the bar at 95 percent or less.
  have kept : ∀ (calls : List UInt32) (start : ProgressBar), Low start →
      (∀ c ∈ calls, c.toNat ≠ SHOW_ALL) → ∃ stop, goProcessBars start calls = some stop ∧ Low stop := by
    intro calls
    induction calls with
    | nil => exact fun start low _ => ⟨start, rfl, low⟩
    | cons showcount rest ih =>
      intro start low other
      obtain ⟨next, goes, low'⟩ := goProcessBar_low low (other showcount (List.mem_cons_self ..))
      obtain ⟨stop, later, low''⟩ := ih next low' fun c member => other c (List.mem_cons_of_mem _ member)
      refine ⟨stop, ?_, low''⟩
      rw [goProcessBars, goes]
      exact later
  have start : Low (processBarInit true showtotal) :=
    ⟨rfl, large, (processBarInit_counts 0 (by omega)).bound, Nat.zero_le _⟩
  obtain ⟨stop, runs', low⟩ := kept calls _ start fun c member all => none_ ⟨c, member, all⟩
  rw [runs] at runs'
  cases runs'
  -- From there the loop never comes to 96.
  have hangs := @backupLastProcess_hangs bar Low (fun bar low => Nat.lt_succ_of_le low.percent)
    (fun bar low => goProcessBar_low low (lastCount_spec bar).2.1) low fuel
  rw [hangs] at ends
  cases ends

/-! ### Totals that never overflow -/

/-- A bar of such a total, as long as it is below 97 percent. -/
theorem fits_of_small (counts : Counts limit bar) (early : bar.percent < limit) (most : limit ≤ 97)
    (small : bar.interval ≤ 438220) (narrow : showcount < 2 ^ 32) : Fits bar showcount := by
  -- The units are below the next percentage, which is at most 97 intervals.
  have some_ := counts.some_
  have count := counts.count early
  have units : bar.unit < bar.interval * (bar.percent + 1) := by
    rw [← counts.unit early]
    exact Nat.lt_mul_div_succ bar.unit some_
  have all : bar.interval * (bar.percent + 1) ≤ bar.interval * 97 := Nat.mul_le_mul_left _ (by omega)
  constructor
  · omega
  · omega

/-- No run with such a total overflows. -/
theorem stepsFit_of_small (calls : List UInt32) (counts : Counts 96 bar) (small : bar.interval ≤ 438220) :
    StepsFit bar calls := by
  induction calls generalizing bar with
  | nil =>
    intro early n last passes less
    -- Every pass keeps the counts and the interval.
    have kept : Counts 97 last ∧ last.interval ≤ 438220 := by
      refine @Passes.keeps _ _ _ _ _ _ (fun _ bar => Counts 97 bar ∧ bar.interval ≤ 438220) ?_ passes 0
        ⟨counts.raise early, small⟩
      rintro k t t' ⟨counts, small⟩ next
      rw [lastPass] at next
      split at next
      · cases next
      · next more =>
        have fits := fits_of_small counts (by omega) (Nat.le_refl _) small (lastCount_spec t).1
        obtain ⟨after, goes, counts'⟩ := goProcessBar_counts counts (by decide) (lastCount_spec t).1
          (Or.inr (Or.inr fits))
        rw [goes] at next
        cases next
        exact ⟨counts', (goProcessBar_keeps goes).interval ▸ small⟩
    exact fits_of_small kept.1 (by omega) (Nat.le_refl _) kept.2 (lastCount_spec last).1
  | cons showcount rest ih =>
    have fits : 96 ≤ bar.percent ∨ Fits bar showcount.toNat := by
      by_cases early : bar.percent < 96
      · exact Or.inr (fits_of_small counts early (by decide) small (UInt32.toNat_lt showcount))
      · exact Or.inl (Nat.le_of_not_lt early)
    refine ⟨Or.inr fits, fun next goes => ?_⟩
    obtain ⟨next', goes', counts'⟩ :=
      goProcessBar_counts counts (by decide) (UInt32.toNat_lt showcount) (Or.inr fits)
    rw [goes] at goes'
    cases goes'
    exact ih counts' ((goProcessBar_keeps goes).interval ▸ small)

/-! ### All runs -/

/-- A run that meets the condition is safe. -/
theorem safe_of_fits {showctrl : Bool} {showtotal : Nat} {calls : List UInt32}
    (fits : ProgressFits showctrl showtotal calls) : ProgressSafe showctrl showtotal calls := by
  obtain ⟨ctrl, fits⟩ := fits
  rw [ctrl] at fits ⊢
  by_cases zero : showInterval showtotal = 0
  · -- All calls end the bar, so the loop is not entered.
    rw [if_pos zero] at fits
    obtain ⟨last, runs, displayed, ended⟩ := @goProcessBars_only (processBarInit true showtotal) calls fits.2
      rfl ⟨List.pairwise_singleton _ _, fun p only => Nat.le_of_eq (List.mem_singleton.mp only),
        Nat.zero_le _⟩
    have hundred : last.percent = 100 := ended.resolve_left fun none_ => fits.1 none_.1
    have late : ¬last.percent < 96 := by omega
    refine ⟨last, 0, last, runs, by rw [backupLastProcess, if_neg late], displayed.rising, fun p member => ?_⟩
    exact Nat.le_trans (displayed.last p member) displayed.most
  · rw [if_neg zero] at fits
    rcases fits with ended | steps
    · obtain ⟨last, runs, counts, -, hundred⟩ := goProcessBars_all calls (processBarInit_counts 0 zero)
      have late : ¬last.percent < 96 := by
        have all := hundred ended
        omega
      refine ⟨last, 0, last, runs, by rw [backupLastProcess, if_neg late], counts.displayed.rising,
        fun p member => ?_⟩
      exact Nat.le_trans (counts.displayed.last p member) counts.displayed.most
    · obtain ⟨bar, runs, counts, loop⟩ := goProcessBars_fits calls (processBarInit_counts 96 zero) steps
      obtain ⟨fuel, last, ends, displayed⟩ := backupLastProcess_ends counts loop
      refine ⟨bar, fuel, last, runs, ends, displayed.rising, fun p member => ?_⟩
      exact Nat.le_trans (displayed.last p member) displayed.most

/--
Every run that meets the condition is safe.

It is needed but for the totals between 41.7 and 42.7 TiB (438221 to 447392 MiB for one percent).
Below them a control is all that is needed.
-/
theorem progress_safe (showctrl : Bool) (showtotal : Nat) (calls : List UInt32) :
    (ProgressFits showctrl showtotal calls → ProgressSafe showctrl showtotal calls)
      ∧ (showInterval showtotal ≤ 438220 ∨ 447393 ≤ showInterval showtotal →
        (ProgressSafe showctrl showtotal calls ↔ ProgressFits showctrl showtotal calls))
      ∧ (0 < showInterval showtotal → showInterval showtotal ≤ 438220 →
        (ProgressFits showctrl showtotal calls ↔ showctrl = true)) := by
  have below : ∀ ctrl : Bool, 0 < showInterval showtotal → showInterval showtotal ≤ 438220 → ctrl = true →
      ProgressFits ctrl showtotal calls := by
    intro ctrl some_ small on
    have steps := stepsFit_of_small calls (processBarInit_counts 96 (Nat.ne_of_gt some_)) small
    rw [ProgressFits, if_neg (Nat.ne_of_gt some_), on]
    exact ⟨rfl, Or.inr steps⟩
  refine ⟨safe_of_fits, fun outside => ⟨fun safe => ?_, safe_of_fits⟩,
    fun some_ small => ⟨fun fits => fits.1, below showctrl some_ small⟩⟩
  cases showctrl with
  | false => exact absurd safe (unsafe_bare showtotal calls)
  | true =>
    rcases Nat.eq_zero_or_pos (showInterval showtotal) with zero | some_
    · exact ⟨rfl, by rw [if_pos zero]; exact only_of_safe zero safe⟩
    · rcases outside with small | large
      · exact below true some_ small rfl
      · exact ⟨rfl, by rw [if_neg (Nat.ne_of_gt some_)]; exact Or.inl (ended_of_safe large safe)⟩

/-- With less than 100 MiB of work, the first call divides by zero. -/
theorem progress_divides :
    ¬∀ (showctrl : Bool) (showtotal : Nat) (calls : List UInt32), ProgressSafe showctrl showtotal calls := by
  intro always
  have zero : showInterval 50000000 = 0 := by decide
  have only := (only_of_safe zero (always true 50000000 [65536])).2 65536 (List.mem_singleton_self _)
  exact absurd only (by decide)

end Okr
