import Mathlib.Data.List.GetD
import Mathlib.Data.Nat.Bitwise
import Okr.Lz4.Compress
import Okr.Proofs.Lz4Copy

/-! The search of the compression: a match it finds has the same bytes as the place it refers to. -/

namespace Okr

open Loop (Pass)

variable {source : Bytes} {ip ref count matchlimit fuel : Nat} {t : TableType} {a b : Bytes}

/-! ### Numbers of bytes -/

/-- Lists of one length with the same number are the same. -/
theorem leNat_inj (length : a.length = b.length) (same : leNat a = leNat b) : a = b := by
  induction a generalizing b with
  | nil => exact (List.length_eq_zero_iff.mp length.symm).symm
  | cons x a ih =>
    obtain ⟨y, b, rfl⟩ := List.exists_cons_of_ne_nil (l := b) (by rintro rfl; cases length)
    have low := x.toNat_lt
    have low' := y.toNat_lt
    rw [leNat, leNat, List.foldr_cons, List.foldr_cons] at same
    have first : x.toNat = y.toNat := by omega
    have rest : leNat a = leNat b := by
      unfold leNat
      omega
    rw [UInt8.toNat_inj.mp first, ih (Nat.succ.inj length) rest]

/-- A bit of a number of bytes is a bit of one of them. -/
theorem testBit_leNat (bytes : Bytes) (i : Nat) :
    (leNat bytes).testBit i = (bytes.getD (i / 8) 0).toNat.testBit (i % 8) := by
  induction bytes generalizing i with
  | nil => simp [leNat]
  | cons x bytes ih =>
    have number : leNat (x :: bytes) = 2 ^ 8 * leNat bytes + x.toNat := by
      rw [leNat, leNat, List.foldr_cons]
      omega
    rw [number, Nat.testBit_two_pow_mul_add _ x.toNat_lt]
    by_cases first : i < 8
    · rw [if_pos first, Nat.div_eq_of_lt first, Nat.mod_eq_of_lt first, List.getD_cons_zero]
    · obtain ⟨j, rfl⟩ : ∃ j, i = j + 8 := ⟨i - 8, by omega⟩
      rw [if_neg first, Nat.add_sub_cancel, ih, Nat.add_div_right _ (by decide), Nat.add_mod_right,
        List.getD_cons_succ]

/-- The number of equal bytes in front of the first different one. -/
theorem nbCommonBytes_spec (length : a.length = STEPSIZE) (length' : b.length = STEPSIZE)
    (differ : leNat a ^^^ leNat b ≠ 0) :
    nbCommonBytes (leNat a ^^^ leNat b) < STEPSIZE
      ∧ (∀ k < nbCommonBytes (leNat a ^^^ leNat b), a.getD k 0 = b.getD k 0)
      ∧ a.getD (nbCommonBytes (leNat a ^^^ leNat b)) 0 ≠ b.getD (nbCommonBytes (leNat a ^^^ leNat b)) 0 := by
  -- The bit that is scanned for is the lowest one in which two bytes differ.
  have bits : ∀ i, (leNat a ^^^ leNat b).testBit i
      = ((a.getD (i / 8) 0).toNat ^^^ (b.getD (i / 8) 0).toNat).testBit (i % 8) := by
    intro i
    rw [Nat.testBit_xor, Nat.testBit_xor, testBit_leNat, testBit_leNat]
  obtain ⟨i, set_, least⟩ : ∃ i, (leNat a ^^^ leNat b).testBit i = true
      ∧ ∀ j < i, (leNat a ^^^ leNat b).testBit j = false := by
    obtain ⟨i, set_⟩ := Nat.exists_testBit_of_ne_zero differ
    classical
    have some_ : ∃ i, (leNat a ^^^ leNat b).testBit i = true := ⟨i, set_⟩
    refine ⟨Nat.find some_, Nat.find_spec some_, fun j below => ?_⟩
    exact Bool.eq_false_of_not_eq_true (Nat.find_min some_ below)
  have inside : i < 64 := by
    by_contra high
    have past : i / 8 ≥ STEPSIZE := by
      rw [STEPSIZE]
      omega
    rw [bits, List.getD_eq_default _ _ (by omega), List.getD_eq_default _ _ (by omega), Nat.xor_self,
      Nat.zero_testBit] at set_
    cases set_
  have scanned : bitScanForward64 (leNat a ^^^ leNat b) = i := by
    have found : (List.range 64).find? (fun i => (leNat a ^^^ leNat b).testBit i) = some i := by
      rw [List.find?_range_eq_some]
      exact ⟨set_, List.mem_range.mpr inside, fun j below => by simp [least j below]⟩
    rw [bitScanForward64, found]
    rfl
  rw [nbCommonBytes, scanned]
  refine ⟨by rw [STEPSIZE]; omega, fun k below => ?_, fun same => ?_⟩
  · -- All bits of an earlier byte are the same.
    apply UInt8.toNat_inj.mp
    rw [← Nat.xor_eq_zero_iff]
    apply Nat.eq_of_testBit_eq
    intro j
    rw [Nat.zero_testBit]
    by_cases low : j < 8
    · have earlier := least (8 * k + j) (by omega)
      rw [bits, show (8 * k + j) / 8 = k by omega, show (8 * k + j) % 8 = j by omega] at earlier
      exact earlier
    · rw [Nat.testBit_xor]
      have high : 2 ^ 8 ≤ 2 ^ j := Nat.pow_le_pow_right (by decide) (by omega)
      rw [Nat.testBit_lt_two_pow (Nat.lt_of_lt_of_le (UInt8.toNat_lt _) high),
        Nat.testBit_lt_two_pow (Nat.lt_of_lt_of_le (UInt8.toNat_lt _) high)]
      rfl
  · rw [bits, same, Nat.xor_self, Nat.zero_testBit] at set_
    cases set_

/-! ### Places of the input -/

/-- So many bytes at two places of the input are the same. -/
def SameBytes (source : Bytes) (count ref ip : Nat) : Prop :=
  ∀ k < count, source[ip + k]? = source[ref + k]?

theorem load_some (inside : ip + count ≤ source.length) :
    load count source ip = some (leNat (Overlay.window source ip count)) := by
  rw [load, loadSource_some inside, Option.map_some]

/-- Parts of the input are the same when their bytes are. -/
theorem window_eq_iff : Overlay.window source ref count = Overlay.window source ip count
    ↔ SameBytes source count ref ip := by
  constructor
  · intro same k below
    have there := congrArg (fun w => w[k]?) same
    simp only [Overlay.getElem?_window, if_pos below] at there
    exact there.symm
  · intro same
    refine List.ext_getElem? fun k => ?_
    rw [Overlay.getElem?_window, Overlay.getElem?_window]
    by_cases below : k < count
    · rw [if_pos below, if_pos below, same k below]
    · rw [if_neg below, if_neg below]

/-- Numbers at two places of the input are compared by their bytes. -/
theorem sameAt_spec (inside : ref + count ≤ source.length) (inside' : ip + count ≤ source.length) :
    ∃ same, sameAt count source ref ip = some same ∧ (same = true ↔ SameBytes source count ref ip) := by
  rw [sameAt, load_some inside, load_some inside']
  refine ⟨_, rfl, ?_⟩
  rw [beq_iff_eq, ← window_eq_iff]
  refine ⟨fun same => leNat_inj ?_ same, fun same => by rw [same]⟩
  rw [Overlay.length_window, Overlay.length_window]
  omega

/-- A comparison of more bytes is one of the first and one of the others. -/
theorem SameBytes.append {n : Nat} (first : SameBytes source n ref ip)
    (rest : SameBytes source count (ref + n) (ip + n)) : SameBytes source (n + count) ref ip := by
  intro k below
  by_cases early : k < n
  · exact first k early
  · have later := rest (k - n) (by omega)
    rw [Nat.add_assoc, Nat.add_assoc, Nat.add_sub_cancel' (by omega)] at later
    exact later

/-- Where the count of a match ends: at the limit, or in front of the first different byte. -/
structure Counted (source : Bytes) (matchlimit ip ref last : Nat) : Prop where
  least : ip ≤ last
  most : last ≤ matchlimit
  same : SameBytes source (last - ip) ref ip
  stops : last = matchlimit ∨ source[last]? ≠ source[ref + (last - ip)]?

/-- A count goes on from bytes that are the same. -/
theorem Counted.from {n last : Nat} (counted : Counted source matchlimit (ip + n) (ref + n) last)
    (same : SameBytes source n ref ip) : Counted source matchlimit ip ref last := by
  have parts : last - ip = n + (last - (ip + n)) := by
    have := counted.least
    omega
  refine ⟨by have := counted.least; omega, counted.most, ?_, ?_⟩
  · rw [parts]
    exact same.append counted.same
  · rw [parts, ← Nat.add_assoc]
    exact counted.stops

/-- The limit, or a different byte, is among the next so many. -/
def StopsWithin (source : Bytes) (matchlimit count ref ip : Nat) : Prop :=
  matchlimit < ip + count ∨ ¬ SameBytes source count ref ip

/-- A comparison halves the stretch in which a count must stop. -/
theorem countPart_spec (positive : 0 < count) (before : ref < ip) (within : ip ≤ matchlimit)
    (inside : matchlimit ≤ source.length) (stops : StopsWithin source matchlimit (count + count) ref ip) :
    ∃ n, countPart source matchlimit count (ip, ref) = some (ip + n, ref + n)
      ∧ SameBytes source n ref ip ∧ ip + n ≤ matchlimit
      ∧ StopsWithin source matchlimit count (ref + n) (ip + n) := by
  have nothing : SameBytes source 0 ref ip := fun k below => absurd below (Nat.not_lt_zero k)
  unfold countPart
  by_cases room : ip + (count - 1) < matchlimit
  · obtain ⟨same, compared, meaning⟩ := @sameAt_spec source ip ref count (by omega) (by omega)
    rw [if_pos room, compared]
    dsimp only [Option.map_some]
    cases same with
    | false => exact ⟨0, rfl, nothing, within, Or.inr fun equal => Bool.false_ne_true (meaning.mpr equal)⟩
    | true =>
      have equal := meaning.mp rfl
      refine ⟨count, rfl, equal, by omega, ?_⟩
      rcases stops with limit | different
      · exact Or.inl (by omega)
      · exact Or.inr fun rest => different (equal.append rest)
  · rw [if_neg room]
    exact ⟨0, rfl, nothing, within, Or.inl (by omega)⟩

/-- At the end four, two and one bytes are enough to find where the match stops. -/
theorem countRest_spec (before : ref < ip) (within : ip ≤ matchlimit) (inside : matchlimit ≤ source.length)
    (tail : matchlimit < ip + STEPSIZE) :
    ∃ last, countRest source matchlimit ip ref = some last ∧ Counted source matchlimit ip ref last := by
  obtain ⟨n₄, four, same₄, within₄, stops₄⟩ :=
    @countPart_spec source ip ref 4 matchlimit (by decide) before within inside (Or.inl tail)
  obtain ⟨n₂, two, same₂, within₂, stops₂⟩ :=
    @countPart_spec source (ip + n₄) (ref + n₄) 2 matchlimit (by decide) (Nat.add_lt_add_right before n₄) within₄ inside stops₄
  obtain ⟨n₁, one, same₁, within₁, stops₁⟩ := @countPart_spec source (ip + n₄ + n₂) (ref + n₄ + n₂) 1 matchlimit (by decide)
    (Nat.add_lt_add_right (Nat.add_lt_add_right before n₄) n₂) within₂ inside stops₂
  refine ⟨ip + n₄ + n₂ + n₁, ?_, ?_⟩
  · rw [countRest, four, Option.bind_some, two, Option.bind_some, one]
    rfl
  · refine Counted.from (Counted.from (Counted.from (n := n₁) ?_ same₁) same₂) same₄
    refine ⟨Nat.le_refl _, within₁, fun k below => by omega, ?_⟩
    rw [Nat.sub_self, Nat.add_zero]
    rcases stops₁ with limit | different
    · exact Or.inl (by omega)
    · refine Or.inr fun equal => different fun k below => ?_
      rw [Nat.lt_one_iff.mp below]
      exact equal

/-- The count ends where the match does. -/
theorem countMatch_spec (before : ref < ip) (within : ip ≤ matchlimit) (inside : matchlimit ≤ source.length)
    (enough : matchlimit - ip < fuel) :
    ∃ last, countMatch source matchlimit fuel ip ref = some last ∧ Counted source matchlimit ip ref last := by
  induction fuel generalizing ip ref with
  | zero => exact absurd enough (Nat.not_lt_zero _)
  | succ fuel ih =>
    rw [countMatch]
    by_cases word : ip + (STEPSIZE - 1) < matchlimit
    · have step : STEPSIZE = 8 := rfl
      rw [if_pos word, load_some (by omega), load_some (by omega)]
      dsimp only
      have length : (Overlay.window source ref STEPSIZE).length = STEPSIZE := by
        rw [Overlay.length_window]
        omega
      have length' : (Overlay.window source ip STEPSIZE).length = STEPSIZE := by
        rw [Overlay.length_window]
        omega
      by_cases whole : leNat (Overlay.window source ref STEPSIZE) ^^^ leNat (Overlay.window source ip STEPSIZE) = 0
      · rw [if_pos whole]
        have same : SameBytes source STEPSIZE ref ip :=
          window_eq_iff.mp (leNat_inj (length.trans length'.symm) (Nat.xor_eq_zero_iff.mp whole))
        obtain ⟨last, result, counted⟩ := @ih (ip + STEPSIZE) (ref + STEPSIZE) (by omega) (by omega) (by omega)
        exact ⟨last, result, counted.from same⟩
      · rw [if_neg whole]
        obtain ⟨small, equal, different⟩ := nbCommonBytes_spec length length' whole
        generalize nbCommonBytes _ = n at small equal different ⊢
        -- The bytes of the two words are those of the input.
        have byte : ∀ p k, k < STEPSIZE → p + STEPSIZE ≤ source.length →
            source[p + k]? = some ((Overlay.window source p STEPSIZE).getD k 0) := by
          intro p k below room
          rw [List.getD_eq_getElem?_getD, Overlay.getElem?_window, if_pos below,
            List.getElem?_eq_getElem (by omega)]
          rfl
        refine ⟨ip + n, rfl, Nat.le_add_right _ _, by omega, ?_, Or.inr ?_⟩
        · rw [Nat.add_sub_cancel_left]
          intro k below
          rw [byte ip k (by omega) (by omega), byte ref k (by omega) (by omega), equal k below]
        · rw [Nat.add_sub_cancel_left, byte ip n small (by omega), byte ref n small (by omega), ne_eq,
            Option.some_inj]
          exact fun same => different same.symm
    · rw [if_neg word]
      exact countRest_spec before within inside (by rw [STEPSIZE] at word ⊢; omega)

/-- Catching up moves both places back over the same bytes. -/
theorem catchUp_spec {anchor : Nat} (behind : anchor ≤ ip) :
    ∃ n, catchUp source anchor ip ref = (ip - n, ref - n) ∧ n ≤ ref ∧ anchor + n ≤ ip
      ∧ SameBytes source n (ref - n) (ip - n) := by
  induction ref generalizing ip with
  | zero => exact ⟨0, rfl, Nat.le_refl _, behind, fun k below => absurd below (Nat.not_lt_zero k)⟩
  | succ ref ih =>
    rw [catchUp]
    by_cases back : ip > anchor ∧ source[ip - 1]? = source[ref]?
    · obtain ⟨n, caught, enough, room, same⟩ := @ih (ip - 1) (by omega)
      rw [if_pos back, caught]
      refine ⟨n + 1, by congr 1 <;> omega, by omega, by omega, ?_⟩
      rw [Nat.add_sub_add_right, show ip - (n + 1) = ip - 1 - n by omega]
      refine same.append fun k below => ?_
      rw [Nat.lt_one_iff.mp below, Nat.add_zero, Nat.add_zero, Nat.sub_add_cancel (by omega),
        Nat.sub_add_cancel enough]
      exact back.2
    · rw [if_neg back]
      exact ⟨0, rfl, Nat.zero_le _, behind, fun k below => absurd below (Nat.not_lt_zero k)⟩

/-- The cells of the hash table are places in front of one. -/
def TableBelow (table : Nat → Nat) (ip : Nat) : Prop := ∀ h, table h < ip

/-- A place that is entered stays in front of the next ones. -/
theorem TableBelow.put {table : Nat → Nat} {p next : Nat} (below : TableBelow table p) (h : Nat)
    (later : p < next) : TableBelow (putPositionOnHash t p h table) next := by
  intro h'
  have cell : ∀ v ≤ p, Function.update table h v h' < next := by
    intro v small
    by_cases here : h' = h
    · rw [here, Function.update_self]
      omega
    · rw [Function.update_of_ne here]
      exact Nat.lt_trans (below h') later
  cases t with
  | byU16 => exact cell _ (Nat.mod_le _ _)
  | byU32 => exact cell _ (Nat.mod_le _ _)

theorem hashPosition_some (inside : ip + 4 ≤ source.length) : ∃ h, hashPosition t source ip = some h := by
  rw [hashPosition, load_some inside]
  exact ⟨_, rfl⟩

/-- A match that may be taken: not too far back, with the same four bytes, and not at the end. -/
structure IsMatch (source : Bytes) (ref ip : Nat) : Prop where
  before : ref < ip
  near : ip ≤ ref + MAX_DISTANCE
  same : SameBytes source MINMATCH ref ip
  room : ip + MFLIMIT ≤ source.length

/-- The loop that looks for a match ends, with a match or at the end of the input. -/
theorem findRun_spec {s : FindState} (attempts : 2 ^ SKIPSTRENGTH ≤ s.findMatchAttempts)
    (below : TableBelow s.table s.forwardIp) :
    Loop.run (findPass t source) (source.length + 1) s = some (some none)
      ∨ ∃ found : Found, Loop.run (findPass t source) (source.length + 1) s = some (some (some found))
        ∧ s.forwardIp ≤ found.ip ∧ IsMatch source found.ref found.ip
        ∧ TableBelow found.table (found.ip + 1) := by
  have limit : MFLIMIT = 12 := by decide
  have step : ∀ s' : FindState, (2 ^ SKIPSTRENGTH ≤ s'.findMatchAttempts ∧ s.forwardIp ≤ s'.forwardIp
        ∧ TableBelow s'.table s'.forwardIp) →
      (∃ r, findPass t source s' = .done r ∧ (r = some none ∨ ∃ found : Found, r = some (some found)
        ∧ s.forwardIp ≤ found.ip ∧ IsMatch source found.ref found.ip ∧ TableBelow found.table (found.ip + 1)))
      ∨ ∃ s'', findPass t source s' = .next s''
        ∧ (2 ^ SKIPSTRENGTH ≤ s''.findMatchAttempts ∧ s.forwardIp ≤ s''.forwardIp
          ∧ TableBelow s''.table s''.forwardIp)
        ∧ source.length - s''.forwardIp < source.length - s'.forwardIp := by
    intro s' ⟨attempts, later, below⟩
    have forward : 1 ≤ s'.findMatchAttempts / 2 ^ SKIPSTRENGTH :=
      (Nat.one_le_div_iff (by decide)).mpr attempts
    unfold findPass
    dsimp only
    by_cases end_ : s'.forwardIp + s'.findMatchAttempts / 2 ^ SKIPSTRENGTH + MFLIMIT > source.length
    · rw [if_pos end_]
      exact Or.inl ⟨_, rfl, Or.inl rfl⟩
    · rw [if_neg end_]
      obtain ⟨forwardH, hashed⟩ := @hashPosition_some source
        (s'.forwardIp + s'.findMatchAttempts / 2 ^ SKIPSTRENGTH) t (by omega)
      rw [hashed]
      dsimp only
      -- A pass that goes on has entered its place in front of the next one.
      have again := @TableBelow.put t _ _ (s'.forwardIp + s'.findMatchAttempts / 2 ^ SKIPSTRENGTH) below
        s'.forwardH (by omega)
      by_cases far : s'.table s'.forwardH + MAX_DISTANCE < s'.forwardIp
      · rw [if_pos far]
        exact Or.inr ⟨_, rfl, ⟨Nat.le_succ_of_le attempts, by dsimp only; omega, again⟩, by dsimp only; omega⟩
      · have earlier := below s'.forwardH
        obtain ⟨same, compared, meaning⟩ := @sameAt_spec source s'.forwardIp (s'.table s'.forwardH) 4
          (by omega) (by omega)
        rw [if_neg far, compared]
        cases same with
        | false =>
          exact Or.inr ⟨_, rfl, ⟨Nat.le_succ_of_le attempts, by dsimp only; omega, again⟩,
            by dsimp only; omega⟩
        | true =>
          refine Or.inl ⟨_, rfl, Or.inr ⟨_, rfl, later, ?_, below.put _ (Nat.lt_succ_self _)⟩⟩
          exact ⟨earlier, Nat.not_lt.mp far, meaning.mp rfl, by dsimp only; omega⟩
  obtain ⟨r, run, result⟩ := Loop.run_of_measure (fun s' : FindState => source.length - s'.forwardIp) step
    ⟨attempts, Nat.le_refl _, below⟩ (Nat.lt_succ_of_le (Nat.sub_le _ _))
  rcases result with rfl | ⟨found, rfl, facts⟩
  · exact Or.inl run
  · exact Or.inr ⟨found, run, facts⟩

end Okr
