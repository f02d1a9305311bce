import Mathlib.Data.Option.Basic

/-! A loop by its passes: what a run of it returns, and whether it ever ends. -/

namespace Loop

variable {σ ρ : Type*}

/-- A pass leads to another one, or it is the last and gives the loop's result. -/
inductive Pass (σ ρ : Type*) where
  | next (s : σ)
  | done (r : ρ)

variable (pass : σ → Pass σ ρ)

/-- The result of the loop, if it takes at most so many passes. -/
def run : Nat → σ → Option ρ
  | 0, _ => none
  | fuel + 1, s =>
    match pass s with
    | .next s' => run fuel s'
    | .done r => some r

/-- So many passes lead from one state to another, and the loop goes on there. -/
inductive Passes : Nat → σ → σ → Prop where
  | here (s : σ) : Passes 0 s s
  | more {n : Nat} {s s' s'' : σ} : pass s = .next s' → Passes n s' s'' → Passes (n + 1) s s''

/-- The loop comes to a last pass. -/
def Ends (s : σ) : Prop := ∃ n s' r, Passes pass n s s' ∧ pass s' = .done r

variable {pass} {fuel n : Nat} {s s' : σ} {r : ρ}

/-- A run takes the passes that lead to a state, and goes on from there. -/
theorem run_passes (passes : Passes pass n s s') : run pass (fuel + n) s = run pass fuel s' := by
  induction passes with
  | here s => rfl
  | more first _ ih =>
    rw [← Nat.add_assoc, run, first]
    exact ih

/-- A run that may take all the passes gives the result of the last one. -/
theorem run_done (passes : Passes pass n s s') (last : pass s' = .done r) (enough : n < fuel) :
    run pass fuel s = some r := by
  obtain ⟨rest, count⟩ : ∃ rest, fuel = rest + 1 + n := ⟨fuel - n - 1, by omega⟩
  rw [count, run_passes passes, run, last]

/-- A result is that of a last pass the loop came to. -/
theorem run_some (result : run pass fuel s = some r) :
    ∃ n s', n < fuel ∧ Passes pass n s s' ∧ pass s' = .done r := by
  induction fuel generalizing s with
  | zero => cases result
  | succ fuel ih =>
    rw [run] at result
    cases first : pass s with
    | next s₁ =>
      rw [first] at result
      obtain ⟨n, s', enough, passes, last⟩ := ih result
      exact ⟨n + 1, s', by omega, .more first passes, last⟩
    | done r' =>
      rw [first] at result
      cases result
      exact ⟨0, s, by omega, .here s, first⟩

/-- More passes than a run needs do not change its result. -/
theorem run_mono {fuel' : Nat} (result : run pass fuel s = some r) (le : fuel ≤ fuel') :
    run pass fuel' s = some r := by
  obtain ⟨n, s', enough, passes, last⟩ := run_some result
  exact run_done passes last (Nat.lt_of_lt_of_le enough le)

/-- All runs that end have one result. -/
theorem run_unique {fuel' : Nat} {r' : ρ} (result : run pass fuel s = some r)
    (result' : run pass fuel' s = some r') : r = r' := by
  have one := run_mono result (Nat.le_add_right fuel fuel')
  rw [run_mono result' (Nat.le_add_left fuel' fuel)] at one
  exact (Option.some.inj one).symm

/-- A loop that never comes to so many passes gives a result. -/
theorem run_total (count : ∀ n t, Passes pass n s t → n < fuel) : ∃ r, run pass fuel s = some r := by
  induction fuel generalizing s with
  | zero => exact absurd (count 0 s (.here s)) (Nat.not_lt_zero 0)
  | succ fuel ih =>
    rw [run]
    cases first : pass s with
    | next s' =>
      refine ih fun n t passes => ?_
      have later := count (n + 1) t (.more first passes)
      omega
    | done r => exact ⟨r, rfl⟩

/-- What each pass takes from one count of passes to the next holds along all of them. -/
theorem Passes.keeps {Inv : Nat → σ → Prop}
    (step : ∀ k t t', Inv k t → pass t = .next t' → Inv (k + 1) t') (passes : Passes pass n s s') :
    ∀ k, Inv k s → Inv (k + n) s' := by
  induction passes with
  | here s => exact fun k inv => inv
  | more first _ ih =>
    intro k inv
    have later := ih (k + 1) (step k _ _ inv first)
    rw [Nat.add_assoc, Nat.add_comm 1] at later
    exact later

/-- The loop ends with a result of a kind, if every pass of it gets closer to one. -/
theorem ends_of_measure {Inv : σ → Prop} {Post : ρ → Prop} (measure : σ → Nat)
    (step : ∀ t, Inv t → (∃ r, pass t = .done r ∧ Post r)
      ∨ ∃ t', pass t = .next t' ∧ Inv t' ∧ measure t' < measure t) (inv : Inv s) :
    ∃ n t r, Passes pass n s t ∧ pass t = .done r ∧ Post r := by
  induction size : measure s using Nat.strongRecOn generalizing s with
  | ind size' ih =>
    rcases step s inv with ⟨r, last, post⟩ | ⟨s', goes, inv', less⟩
    · exact ⟨0, s, r, .here s, last, post⟩
    · obtain ⟨n, t, r, passes, last, post⟩ := ih (measure s') (by omega) inv' rfl
      exact ⟨n + 1, t, r, .more goes passes, last, post⟩

/-- A run that may take as many passes as the measure counts comes to a result of that kind. -/
theorem run_of_measure {Inv : σ → Prop} {Post : ρ → Prop} (measure : σ → Nat)
    (step : ∀ t, Inv t → (∃ r, pass t = .done r ∧ Post r)
      ∨ ∃ t', pass t = .next t' ∧ Inv t' ∧ measure t' < measure t) (inv : Inv s)
    (enough : measure s < fuel) : ∃ r, run pass fuel s = some r ∧ Post r := by
  induction fuel generalizing s with
  | zero => exact absurd enough (Nat.not_lt_zero _)
  | succ fuel ih =>
    rw [run]
    rcases step s inv with ⟨r, last, post⟩ | ⟨s', goes, inv', less⟩
    · rw [last]
      exact ⟨r, rfl, post⟩
    · rw [goes]
      exact ih inv' (by omega)

/-- The loop never ends, if a state that every pass keeps has no last pass. -/
theorem not_ends {Inv : σ → Prop} (goes : ∀ t, Inv t → ∃ t', pass t = .next t' ∧ Inv t')
    (inv : Inv s) : ¬ Ends pass s := by
  rintro ⟨n, t, r, passes, last⟩
  have kept : Inv t := by
    refine @Passes.keeps _ _ _ _ _ _ (fun _ t => Inv t) ?_ passes 0 inv
    intro k t t' inv next
    obtain ⟨t'', next', inv'⟩ := goes t inv
    rw [next'] at next
    cases next
    exact inv'
  obtain ⟨t', next, -⟩ := goes t kept
  rw [last] at next
  cases next

/-- A loop that runs along a sequence is at its members, as long as there is a next pass. -/
theorem passes_along {at_ : Nat → σ} (along : ∀ j t, pass (at_ j) = .next t → t = at_ (j + 1)) :
    Passes pass n (at_ 0) s ↔ s = at_ n ∧ ∀ j < n, pass (at_ j) = .next (at_ (j + 1)) := by
  -- The claim for a start anywhere in the sequence is by induction on the passes.
  suffices general : ∀ k, Passes pass n (at_ k) s
      ↔ s = at_ (k + n) ∧ ∀ j < n, pass (at_ (k + j)) = .next (at_ (k + j + 1)) by
    simpa only [Nat.zero_add] using general 0
  induction n with
  | zero =>
    intro k
    constructor
    · intro passes
      cases passes
      exact ⟨rfl, fun j less => absurd less (Nat.not_lt_zero j)⟩
    · rintro ⟨rfl, -⟩
      exact .here _
  | succ n ih =>
    intro k
    have shift : ∀ j, k + (j + 1) = k + 1 + j := fun j => by omega
    constructor
    · intro passes
      cases passes with
      | more first later =>
        have next := along k _ first
        subst next
        obtain ⟨last, goes⟩ := (ih (k + 1)).mp later
        refine ⟨by rw [last, shift n], fun j less => ?_⟩
        match j with
        | 0 => exact first
        | j + 1 =>
          rw [shift j]
          exact goes j (by omega)
    · rintro ⟨last, goes⟩
      refine .more (goes 0 (by omega)) ((ih (k + 1)).mpr ⟨by rw [last, shift n], fun j less => ?_⟩)
      rw [← shift j]
      exact goes (j + 1) (by omega)

/-! ### What the passes put out -/

section Emitted

variable {α σ' ρ' : Type*} {out : σ → List α} {pass' : σ' → Pass σ' ρ'} {out' : σ' → List α}

/-- What the passes of a run put out, one after the other. -/
def emitted (pass : σ → Pass σ ρ) (out : σ → List α) : Nat → σ → List α
  | 0, _ => []
  | fuel + 1, s =>
    out s ++
      match pass s with
      | .next s' => emitted pass out fuel s'
      | .done _ => []

/-- Whatever is put out comes from a pass the loop takes. -/
theorem mem_emitted {x : α} (member : x ∈ emitted pass out fuel s) :
    ∃ n t, Passes pass n s t ∧ x ∈ out t := by
  induction fuel generalizing s with
  | zero => cases member
  | succ fuel ih =>
    rw [emitted] at member
    cases List.mem_append.mp member with
    | inl here => exact ⟨0, s, .here s, here⟩
    | inr later =>
      cases first : pass s with
      | next s' =>
        rw [first] at later
        obtain ⟨n, t, passes, there⟩ := ih later
        exact ⟨n + 1, t, .more first passes, there⟩
      | done r =>
        rw [first] at later
        cases later

/-- Two loops whose passes go together put out the same. -/
theorem emitted_congr {Rel : σ → σ' → Prop} (alike : ∀ t t', Rel t t' → out t = out' t')
    (step : ∀ t t', Rel t t' → (∃ u u', pass t = .next u ∧ pass' t' = .next u' ∧ Rel u u')
      ∨ ∃ r r', pass t = .done r ∧ pass' t' = .done r') (fuel : Nat) :
    ∀ s s', Rel s s' → emitted pass out fuel s = emitted pass' out' fuel s' := by
  induction fuel with
  | zero => exact fun _ _ _ => rfl
  | succ fuel ih =>
    intro s s' related
    rw [emitted, emitted, alike s s' related]
    rcases step s s' related with ⟨u, u', goes, goes', next⟩ | ⟨r, r', ends, ends'⟩
    · rw [goes, goes']
      exact congrArg _ (ih u u' next)
    · rw [ends, ends']

end Emitted

end Loop
