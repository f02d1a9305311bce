import Okr.Lz4.Decompress

/-! The copies of the decompression stay in the output, and bring what a match stands for. -/

namespace Okr

open Lz77 (Periodic)

/-- Memory that shows a content up to a place. -/
def Agrees (dest : Image) (content : Nat → Byte) (n : Nat) : Prop := ∀ i < n, dest i = content i

/-- Memory that is the same from a place on. -/
def SameBehind (oend : Nat) (dest dest' : Image) : Prop := ∀ i, oend ≤ i → dest' i = dest i

variable {dest dest' dest₀ : Image} {content : Nat → Byte} {oend op ref cpy e d s count fuel : Nat}
  {source bytes : Bytes} {load : Image → Nat → Option Bytes}

theorem SameBehind.refl (dest : Image) : SameBehind oend dest dest := fun _ _ => rfl

theorem SameBehind.trans (first : SameBehind oend dest₀ dest) (second : SameBehind oend dest dest') :
    SameBehind oend dest₀ dest' := fun i behind => (second i behind).trans (first i behind)

/-- What is the same from a place on is the same from a later one on. -/
theorem SameBehind.mono {later : Nat} (same : SameBehind oend dest dest') (le : oend ≤ later) :
    SameBehind later dest dest' := fun i behind => same i (Nat.le_trans le behind)

/-- A store in front of a place leaves what is behind it. -/
theorem SameBehind.put (inside : op + bytes.length ≤ oend) : SameBehind oend dest (putBytes dest op bytes) :=
  fun _ behind => putBytes_other (Or.inr (Nat.le_trans inside behind))

/-- Memory that shows a content goes on doing so when the next bytes of it are stored. -/
theorem Agrees.put (agrees : Agrees dest content op)
    (next : ∀ k < bytes.length, bytes.getD k 0 = content (op + k)) :
    Agrees (putBytes dest op bytes) content (op + bytes.length) := by
  intro i below
  by_cases old : i < op
  · rw [putBytes_other (Or.inl old)]
    exact agrees i old
  · rw [putBytes, if_pos (by omega), next (i - op) (by omega), Nat.add_sub_cancel' (by omega)]

/-- Memory that shows a content shows less of it, too. -/
theorem Agrees.mono {n m : Nat} (agrees : Agrees dest content n) (le : m ≤ n) : Agrees dest content m :=
  fun i below => agrees i (Nat.lt_of_lt_of_le below le)

/-- A part of a buffer has the bytes of the buffer. -/
theorem bytesAt_getD {k : Nat} (below : k < count) : (bytesAt dest ref count).getD k 0 = dest (ref + k) := by
  rw [bytesAt, List.getD_eq_getElem?_getD, List.getElem?_map, List.getElem?_range below, Option.map_some,
    Option.getD_some]

@[simp] theorem length_bytesAt : (bytesAt dest ref count).length = count := by
  rw [bytesAt, List.length_map, List.length_range]

/-- Bytes copied from further in front stand for the next ones of a content that repeats itself. -/
theorem Agrees.copy (agrees : Agrees dest content op) (apart : ref + count ≤ op)
    (same : ∀ k < count, content (op + k) = content (ref + k)) :
    Agrees (putBytes dest op (bytesAt dest ref count)) content (op + count) := by
  have put := @Agrees.put dest content op (bytesAt dest ref count) agrees fun k below => by
    rw [length_bytesAt] at below
    rw [bytesAt_getD below, same k below]
    exact agrees (ref + k) (by omega)
  rw [length_bytesAt] at put
  exact put

theorem loadDest_some (inside : ref + count ≤ oend) :
    loadDest oend count dest ref = some (bytesAt dest ref count) := if_pos inside

theorem storeDest_some (inside : op + bytes.length ≤ oend) :
    storeDest oend dest op bytes = some (putBytes dest op bytes) := if_pos inside

theorem loadSource_some {ip : Nat} (inside : ip + count ≤ source.length) :
    loadSource source count ip = some (Overlay.window source ip count) := if_pos inside

/-- A load and a store inside the output. -/
theorem copy_some (load : ref + count ≤ oend) (store : op + count ≤ oend) :
    (loadDest oend count dest ref).bind (storeDest oend dest op)
      = some (putBytes dest op (bytesAt dest ref count)) := by
  rw [loadDest_some load, Option.bind_some, storeDest_some (by rw [length_bytesAt]; exact store)]

/-- What every word keeps holds behind a copy of words, which ends with the word that reaches `e`. -/
theorem wildCopy_keeps {P : Image → Nat → Nat → Prop}
    (step : ∀ dest d s, op ≤ d → (d = op ∨ d < e) → P dest d s →
      ∃ bytes, load dest s = some bytes ∧ bytes.length = STEPSIZE ∧ d + STEPSIZE ≤ oend
        ∧ P (putBytes dest d bytes) (d + STEPSIZE) (s + STEPSIZE))
    (reached : op ≤ d) (first : d = op ∨ d < e) (start : P dest d s) (enough : (e - d) / STEPSIZE < fuel) :
    ∃ dest' d' s', wildCopy load oend e fuel dest d s = some (dest', d', s') ∧ P dest' d' s' ∧ e ≤ d'
      ∧ op + STEPSIZE ≤ d' := by
  -- By induction on the words that may still come.
  induction fuel generalizing dest d s with
  | zero => exact absurd enough (Nat.not_lt_zero _)
  | succ fuel ih =>
    obtain ⟨bytes, loaded, length, inside, next⟩ := step dest d s reached first start
    have stored : (load dest s).bind (storeDest oend dest d) = some (putBytes dest d bytes) := by
      rw [loaded, Option.bind_some, storeDest_some (by rw [length]; exact inside)]
    rw [wildCopy, stored]
    dsimp only
    by_cases more : d + STEPSIZE < e
    · rw [if_pos more]
      refine ih (Nat.le_trans reached (Nat.le_add_right _ _)) (Or.inr more) next ?_
      rw [STEPSIZE] at more enough ⊢
      omega
    · rw [if_neg more]
      exact ⟨_, _, _, rfl, next, Nat.not_lt.mp more, Nat.add_le_add_right reached _⟩

/-- Copying bytes one by one inside the output. -/
theorem byteCopy_spec (apart : ref ≤ op) (inside : op + count ≤ oend) :
    ∃ dest', byteCopy oend count dest op ref = some (dest', op + count, ref + count)
      ∧ SameBehind oend dest dest'
      ∧ ∀ content, ref < op → (∀ k < count, content (op + k) = content (ref + k)) →
        Agrees dest content op → Agrees dest' content (op + count) := by
  induction count generalizing dest op ref with
  | zero => exact ⟨dest, rfl, .refl dest, fun _ _ _ agrees => agrees⟩
  | succ count ih =>
    obtain ⟨dest', copied, same, shows⟩ := @ih (putBytes dest op (bytesAt dest ref 1)) (op + 1) (ref + 1)
      (by omega) (by omega)
    refine ⟨dest', ?_, .trans (.put (by rw [length_bytesAt]; omega)) same, ?_⟩
    · rw [byteCopy, copy_some (by omega) (by omega)]
      dsimp only
      rw [copied, Nat.add_right_comm op, Nat.add_right_comm ref]
      rfl
    · intro content before equal agrees
      have first := @Agrees.copy dest content op ref 1 agrees (by omega) fun k below => equal k (by omega)
      have rest := shows content (by omega) (fun k below => by
        rw [Nat.add_right_comm, Nat.add_right_comm ref]
        exact equal (k + 1) (by omega)) first
      rw [Nat.add_right_comm] at rest
      exact rest

/-- What the two tables do for each short offset: both distances are whole multiples of it. -/
theorem tables_spec : ∀ offset < STEPSIZE,
    dec32table.getD offset 0 ≤ 3 ∧ -1 ≤ dec64table.getD offset 0
      ∧ dec32table.getD offset 0 + dec64table.getD offset 0 ≤ 3
      ∧ (0 < offset → 4 ≤ offset + dec32table.getD offset 0
        ∧ (STEPSIZE : Int) ≤ offset + dec32table.getD offset 0 + 4 + dec64table.getD offset 0
        ∧ offset ∣ offset + dec32table.getD offset 0
        ∧ offset ∣ (offset + dec32table.getD offset 0 + 4 + dec64table.getD offset 0 : Int).toNat) := by
  decide

/-- Behind its first word a match is copied from at least a word in front, and at the same phase. -/
theorem firstWord_spec (apart : ref ≤ op) (room : op + STEPSIZE ≤ oend) :
    ∃ dest' ref', firstWord oend dest op ref = some (dest', op + STEPSIZE, ref')
      ∧ ref ≤ ref' ∧ ref' ≤ op + STEPSIZE ∧ SameBehind oend dest dest'
      ∧ ∀ content, Periodic content op (op - ref) → Agrees dest content op →
        Agrees dest' content (op + STEPSIZE) ∧ ref' ≤ op
          ∧ ∃ times, op + STEPSIZE - ref' = times * (op - ref) := by
  unfold firstWord
  by_cases short : op - ref < STEPSIZE
  · obtain ⟨low32, low64, high64, phase⟩ := tables_spec (op - ref) short
    obtain ⟨first, copied, same, shows⟩ := @byteCopy_spec dest oend op ref 4 apart
      (by rw [STEPSIZE] at room; omega)
    have still : op + 4 - (ref + 4) = op - ref := by omega
    rw [if_pos short, copied]
    dsimp only
    rw [still]
    generalize small : dec32table.getD (op - ref) 0 = dec32 at low32 phase ⊢
    generalize dec64table.getD (op - ref) 0 = dec64 at low64 high64 phase ⊢
    rw [STEPSIZE] at room phase ⊢
    rw [copy_some (by omega) (by omega)]
    refine ⟨_, _, rfl, by omega, by omega, same.trans (.put (by rw [length_bytesAt]; omega)), ?_⟩
    intro content periodic agrees
    obtain ⟨wide, far, second, third⟩ := phase periodic.positive
    have front := shows content (by have := periodic.positive; omega) (fun k below => by
      -- The four bytes are copied from one offset in front.
      rw [periodic.back (op + k) (by omega)]
      congr 1
      omega) agrees
    have back : ∀ k < 4, content (op + 4 + k) = content (ref + 4 - dec32 + k) := by
      intro k below
      obtain ⟨times, multiple⟩ := second
      rw [Nat.mul_comm] at multiple
      rw [periodic.back_mul times (by omega)]
      congr 1
      omega
    refine ⟨front.copy (by omega) back, by omega, ?_⟩
    obtain ⟨times, multiple⟩ := third
    exact ⟨times, by rw [Nat.mul_comm, ← multiple]; omega⟩
  · rw [if_neg short, copy_some (by omega) room]
    refine ⟨_, _, rfl, by omega, by omega, .put (by rw [length_bytesAt]; exact room), ?_⟩
    intro content periodic agrees
    rw [STEPSIZE] at short ⊢
    refine ⟨agrees.copy (by omega) fun k below => ?_, by omega, 1, by omega⟩
    rw [periodic.back (op + k) (by omega)]
    congr 1
    omega

/-- Copying words of a match: it stays at its phase, whatever the distance is. -/
theorem matchWords_spec (reached : s ≤ d) (near : e < d + STEPSIZE ∨ e + STEPSIZE ≤ oend + 1)
    (inside : d + STEPSIZE ≤ oend) (some_ : 0 < oend) :
    ∃ dest' d' s', wildCopy (loadDest oend STEPSIZE) oend e oend dest d s = some (dest', d', s')
      ∧ s' ≤ d' ∧ d' ≤ oend ∧ e ≤ d' ∧ SameBehind oend dest dest'
      ∧ ∀ content, s + STEPSIZE ≤ d → (∀ k, content (d + k) = content (s + k)) →
        Agrees dest content d → Agrees dest' content d' ∧ s' + STEPSIZE ≤ d'
          ∧ ∀ k, content (d' + k) = content (s' + k) := by
  have words := @wildCopy_keeps dest oend d e d s oend (loadDest oend STEPSIZE)
    (fun dest' d' s' => (d' = d ∨ d + STEPSIZE ≤ d') ∧ d' ≤ oend ∧ s' + d = s + d' ∧ SameBehind oend dest dest'
      ∧ ∀ content, s + STEPSIZE ≤ d → (∀ k, content (d + k) = content (s + k)) →
        Agrees dest content d → Agrees dest' content d')
    ?_ (Nat.le_refl d) (Or.inl rfl)
    ⟨Or.inl rfl, by omega, rfl, .refl dest, fun _ _ _ agrees => agrees⟩ ?_
  · obtain ⟨dest', d', s', copied, ⟨later, within, apart, same, shows⟩, ends, -⟩ := words
    refine ⟨dest', d', s', copied, by omega, within, ends, same, ?_⟩
    intro content far phase agrees
    refine ⟨shows content far phase agrees, by omega, fun k => ?_⟩
    have there := phase (d' - d + k)
    rw [show d + (d' - d + k) = d' + k by omega, show s + (d' - d + k) = s' + k by omega] at there
    exact there
  · rintro dest₁ d₁ s₁ behind place ⟨later, -, apart, same, shows⟩
    have room : d₁ + STEPSIZE ≤ oend := by
      rcases place with first | more
      · rw [first]
        exact inside
      · rcases near with one | fits
        · omega
        · omega
    refine ⟨_, loadDest_some (by omega), length_bytesAt, room, by omega, room, by omega,
      same.trans (.put (by rw [length_bytesAt]; exact room)), ?_⟩
    intro content far phase agrees
    refine (shows content far phase agrees).copy (by omega) fun k _ => ?_
    have there := phase (d₁ - d + k)
    rw [show d + (d₁ - d + k) = d₁ + k by omega, show s + (d₁ - d + k) = s₁ + k by omega] at there
    exact there
  · rw [STEPSIZE] at near inside ⊢
    omega

/-- The last bytes of a match are copied one by one. -/
theorem lastBytes_spec (reached : s ≤ d) (within : d ≤ oend) (ends : cpy ≤ oend) :
    ∃ dest', (byteCopy oend (cpy - d) dest d s).map (fun r => some r.1) = some (some dest')
      ∧ SameBehind oend dest dest'
      ∧ ∀ content, s + STEPSIZE ≤ d → (∀ k, content (d + k) = content (s + k)) →
        Agrees dest content d → Agrees dest' content cpy := by
  obtain ⟨dest', copied, same, shows⟩ := @byteCopy_spec dest oend d s (cpy - d) reached (by omega)
  refine ⟨dest', by rw [copied]; rfl, same, fun content far phase agrees => ?_⟩
  rw [STEPSIZE] at far
  exact (shows content (by omega) (fun k _ => phase k) agrees).mono (by omega)

/-- A match in the output ends where it should, or is refused when that is too close to the end. -/
theorem copyRepeated_spec (apart : ref ≤ op) (room : op + MFLIMIT ≤ oend) (least : op + 4 ≤ cpy) :
    (oend < cpy + LASTLITERALS ∧ copyRepeated oend cpy dest op ref = some none)
      ∨ (cpy + LASTLITERALS ≤ oend ∧ ∃ dest', copyRepeated oend cpy dest op ref = some (some dest')
        ∧ SameBehind oend dest dest'
        ∧ ∀ content, Periodic content op (op - ref) → Agrees dest content op → Agrees dest' content cpy) := by
  have numbers : MFLIMIT = 12 ∧ COPYLENGTH = 8 ∧ LASTLITERALS = 5 ∧ STEPSIZE = 8 := by decide
  obtain ⟨limit, copy, last, step⟩ := numbers
  obtain ⟨first, ref', word, later, near, same, shows⟩ :=
    @firstWord_spec dest oend op ref apart (by omega)
  -- Behind the first word a content that fits the match repeats itself at the new distance.
  have phase : ∀ content, Periodic content op (op - ref) → Agrees dest content op →
      Agrees first content (op + STEPSIZE) ∧ ref' + STEPSIZE ≤ op + STEPSIZE
        ∧ ∀ k, content (op + STEPSIZE + k) = content (ref' + k) := by
    intro content periodic agrees
    obtain ⟨front, far, times, multiple⟩ := shows content periodic agrees
    refine ⟨front, by omega, fun k => ?_⟩
    rw [periodic.back_mul times (by omega), ← multiple]
    congr 1
    omega
  rw [copyRepeated, word]
  dsimp only
  by_cases tight : cpy + COPYLENGTH + (STEPSIZE - 4) > oend
  · rw [if_pos tight]
    by_cases late : cpy + LASTLITERALS > oend
    · exact Or.inl ⟨late, by rw [if_pos late]⟩
    · refine Or.inr ⟨Nat.not_lt.mp late, ?_⟩
      rw [if_neg late]
      by_cases secure : op + STEPSIZE + COPYLENGTH < oend
      · rw [if_pos secure]
        obtain ⟨dest₂, d₂, s₂, copied, before, within, -, same₂, shows₂⟩ :=
          @matchWords_spec first oend (oend - COPYLENGTH) (op + STEPSIZE) ref' near (by omega)
            (by omega) (by omega)
        obtain ⟨dest', rest, same₃, shows₃⟩ := @lastBytes_spec dest₂ oend cpy d₂ s₂ before within (by omega)
        rw [copied]
        refine ⟨dest', rest, (same.trans same₂).trans same₃, fun content periodic agrees => ?_⟩
        obtain ⟨front, far, back⟩ := phase content periodic agrees
        obtain ⟨front₂, far₂, back₂⟩ := shows₂ content far back front
        exact shows₃ content far₂ back₂ front₂
      · rw [if_neg secure]
        obtain ⟨dest', rest, same₃, shows₃⟩ := @lastBytes_spec first oend cpy (op + STEPSIZE) ref' near
          (by omega) (by omega)
        refine ⟨dest', rest, same.trans same₃, fun content periodic agrees => ?_⟩
        obtain ⟨front, far, back⟩ := phase content periodic agrees
        exact shows₃ content far back front
  · rw [if_neg tight]
    refine Or.inr ⟨by omega, ?_⟩
    obtain ⟨dest', d', s', copied, -, -, ends, same₂, shows₂⟩ :=
      @matchWords_spec first oend cpy (op + STEPSIZE) ref' near (by omega)
        (by omega) (by omega)
    rw [copied]
    refine ⟨dest', rfl, same.trans same₂, fun content periodic agrees => ?_⟩
    obtain ⟨front, far, back⟩ := phase content periodic agrees
    exact (shows₂ content far back front).1.mono ends

/-- Literals are copied in whole words, of which the last one may reach past their end. -/
theorem copyLiterals_spec {ip length : Nat} (room : op + length + STEPSIZE ≤ oend)
    (inside : ip + length + STEPSIZE ≤ source.length) :
    ∃ dest' d' s', wildCopy (fun _ => loadSource source STEPSIZE) oend (op + length) oend dest op ip
        = some (dest', d', s') ∧ SameBehind (op + length + STEPSIZE) dest dest'
      ∧ ∀ content, (∀ k < length + STEPSIZE, source.getD (ip + k) 0 = content (op + k)) →
        Agrees dest content op → Agrees dest' content (op + length) := by
  have words := @wildCopy_keeps dest oend op (op + length) op ip oend (fun _ => loadSource source STEPSIZE)
    (fun dest' d' s' => (d' = op ∨ op + STEPSIZE ≤ d') ∧ s' + op = ip + d'
      ∧ SameBehind (op + length + STEPSIZE) dest dest'
      ∧ ∀ content, (∀ k < length + STEPSIZE, source.getD (ip + k) 0 = content (op + k)) →
        Agrees dest content op → Agrees dest' content d')
    ?_ (Nat.le_refl op) (Or.inl rfl) ⟨Or.inl rfl, rfl, .refl dest, fun _ _ agrees => agrees⟩ ?_
  · obtain ⟨dest', d', s', copied, ⟨-, -, same, shows⟩, ends, -⟩ := words
    exact ⟨dest', d', s', copied, same, fun content equal agrees => (shows content equal agrees).mono ends⟩
  · rintro dest₁ d₁ s₁ behind place ⟨later, apart, same, shows⟩
    have early : d₁ < op + length + 1 := by omega
    have loaded : (Overlay.window source s₁ STEPSIZE).length = STEPSIZE := by
      rw [Overlay.length_window]
      omega
    refine ⟨_, loadSource_some (by omega), loaded, by omega, by omega, by omega,
      same.trans (.put (by rw [loaded]; omega)), fun content equal agrees => ?_⟩
    have put := @Agrees.put dest₁ content d₁ (Overlay.window source s₁ STEPSIZE) (shows content equal agrees) fun k below => by
      rw [loaded] at below
      have there := equal (d₁ - op + k) (by omega)
      rw [show ip + (d₁ - op + k) = s₁ + k by omega, show op + (d₁ - op + k) = d₁ + k by omega] at there
      rw [← there, List.getD_eq_getElem?_getD, Overlay.getElem?_window, if_pos below,
        List.getD_eq_getElem?_getD]
    rw [loaded] at put
    exact put
  · rw [STEPSIZE] at room ⊢
    omega

end Okr
