import Mathlib.Data.List.Flatten
import Okr.Images.NameList

/-! Packing the names of the images' files and walking through them: when the walk comes to what was packed. -/

namespace Okr

open Strings

/-! ### Where the names are stored -/

/-- The stores of names that follow one another from a position on. -/
def storesFrom : Nat → List (List UInt16) → List (Nat × List UInt16)
  | _, [] => []
  | p, name :: rest => (p, strnCpy name NAME_COPY_CHARS) :: storesFrom (p + (name.length + 1)) rest

@[simp] theorem spaceOf_nil : spaceOf [] = 0 := rfl

@[simp] theorem spaceOf_cons (name : List UInt16) (rest : List (List UInt16)) :
    spaceOf (name :: rest) = name.length + 1 + spaceOf rest := by
  rw [spaceOf, List.map_cons, List.sum_cons, spaceOf]

@[simp] theorem spaceOf_append (names rest : List (List UInt16)) :
    spaceOf (names ++ rest) = spaceOf names + spaceOf rest := by
  rw [spaceOf, List.map_append, List.sum_append, spaceOf, spaceOf]

/-- The stores of more names follow behind those in front. -/
theorem storesFrom_append (p : Nat) (names rest : List (List UInt16)) :
    storesFrom p (names ++ rest) = storesFrom p names ++ storesFrom (p + spaceOf names) rest := by
  induction names generalizing p with
  | nil => rfl
  | cons name names later =>
    rw [List.cons_append, storesFrom, later, storesFrom, List.cons_append, spaceOf_cons, Nat.add_assoc p]

/-- A store begins where the names in front of it end, and is one copy long. -/
theorem mem_storesFrom {p : Nat} {names : List (List UInt16)} {c : Nat × List UInt16}
    (member : c ∈ storesFrom p names) :
    p ≤ c.1 ∧ c.1 < p + spaceOf names ∧ c.2.length = NAME_COPY_CHARS := by
  induction names generalizing p with
  | nil => cases member
  | cons name names later =>
    rw [spaceOf_cons]
    rcases List.mem_cons.mp member with rfl | behind
    · exact ⟨Nat.le_refl p, by dsimp only; omega, List.takeD_length _ _ _⟩
    · obtain ⟨low, high, whole⟩ := later behind
      exact ⟨by omega, by omega, whole⟩

/-- All stores are inside as soon as the last one is. -/
theorem storesFrom_inside_iff (bytes : Nat) (names : List (List UInt16)) :
    (∀ c ∈ storesFrom 0 names, 2 * (c.1 + c.2.length) ≤ bytes)
      ↔ (names ≠ [] → 2 * (spaceOf names.dropLast + NAME_COPY_CHARS) ≤ bytes) := by
  rcases List.eq_nil_or_concat' names with rfl | ⟨front, last, rfl⟩
  · exact ⟨fun _ some_ => absurd rfl some_, fun _ c member => nomatch member⟩
  · rw [List.dropLast_concat, storesFrom_append, Nat.zero_add]
    have lastStore : storesFrom (spaceOf front) [last]
        = [(spaceOf front, strnCpy last NAME_COPY_CHARS)] := rfl
    have whole : (strnCpy last NAME_COPY_CHARS).length = NAME_COPY_CHARS := List.takeD_length _ _ _
    rw [lastStore]
    constructor
    · intro inside _
      have last_ := inside _ (List.mem_append_right _ List.mem_cons_self)
      rwa [whole] at last_
    · intro room c member
      have room := room (by simp)
      rcases List.mem_append.mp member with inFront | isLast
      · obtain ⟨-, before, whole'⟩ := mem_storesFrom inFront
        rw [whole']
        omega
      · rw [List.mem_singleton.mp isLast, whole]
        exact room

/-! ### What the listing packs -/

/-- The variables once these names have been packed. -/
def NameBuffer.holding (size : Int) (names : List (List UInt16)) : NameBuffer where
  filelist := spaceOf names
  size := size - spaceOf names
  stores := storesFrom 0 names

theorem NameBuffer.holding_put (size : Int) (names : List (List UInt16)) (name : FileName) :
    (NameBuffer.holding size names).put name = .holding size (names ++ [name.chars]) := by
  simp only [NameBuffer.put, NameBuffer.holding, spaceOf_append, spaceOf_cons, spaceOf_nil,
    storesFrom_append, storesFrom, Nat.zero_add, NameBuffer.mk.injEq, and_true, Nat.add_zero, true_and]
  omega

@[simp] theorem namesOf_nil : namesOf [] = [] := rfl

@[simp] theorem namesOf_failed (reads : List (Option FileName)) : namesOf (none :: reads) = [] := rfl

@[simp] theorem namesOf_name (name : FileName) (reads : List (Option FileName)) :
    namesOf (some name :: reads)
      = if name.isDots then namesOf reads else name.chars :: namesOf reads := by
  by_cases dots : name.isDots <;> simp [namesOf, dots]

/-- No name has a zero. -/
theorem namesOf_ended {reads : List (Option FileName)} {name : List UInt16}
    (member : name ∈ namesOf reads) : 0 ∉ name := by
  obtain ⟨fileName, -, rfl⟩ := List.mem_map.mp member
  exact fileName.ended

/-- With room for all names of a directory, they are packed, and counted unless a read fails. -/
theorem namelistLoop_all {size : Int} (reads : List (Option FileName)) (ret : Nat)
    (names : List (List UInt16)) (room : (spaceOf (names ++ namesOf reads) : Int) < size) :
    namelistLoop reads ret (.holding size names)
      = (if reads.all Option.isSome then some (ret + (namesOf reads).length) else none,
          .holding size (names ++ namesOf reads)) := by
  induction reads generalizing ret names with
  | nil => simp [namelistLoop]
  | cons read reads rest =>
    -- There is room for the next name, so the loop reads on.
    have goesOn : 0 < (NameBuffer.holding size names).size := by
      rw [spaceOf_append] at room
      simp only [NameBuffer.holding]
      omega
    cases read with
    | none => simp [namelistLoop, goesOn]
    | some name =>
      rw [namelistLoop, if_pos goesOn]
      rw [namesOf_name] at room ⊢
      by_cases dots : name.isDots
      · simp only [dots, if_true] at room ⊢
        rw [rest ret names room]
        simp
      · simp only [dots, Bool.false_eq_true, if_false] at room ⊢
        -- The name is packed behind the others, and the rest behind it.
        rw [NameBuffer.holding_put, rest (ret + 1) (names ++ [name.chars]) (by
          rwa [List.append_assoc, List.singleton_append])]
        simp only [List.all_cons, Option.isSome_some, Bool.true_and, List.length_cons, List.append_assoc,
          List.singleton_append, Nat.add_assoc, Nat.add_comm 1]

/-- Without the room, names are packed and counted up to the one that exhausts it. -/
theorem namelistLoop_cut {size : Int} (reads : List (Option FileName)) (ret : Nat)
    (names : List (List UInt16)) (full : size ≤ spaceOf (names ++ namesOf reads)) :
    ∃ k ≤ (namesOf reads).length,
      namelistLoop reads ret (.holding size names)
          = (some (ret + k), .holding size (names ++ (namesOf reads).take k))
        ∧ size ≤ spaceOf (names ++ (namesOf reads).take k) := by
  induction reads generalizing ret names with
  | nil =>
    refine ⟨0, Nat.le_refl 0, ?_, full⟩
    simp [namelistLoop]
  | cons read reads rest =>
    by_cases goesOn : 0 < (NameBuffer.holding size names).size
    · cases read with
      | none =>
        -- A failing read brings no further name, so the size was exhausted before.
        rw [namesOf_failed, List.append_nil] at full
        simp only [NameBuffer.holding] at goesOn
        omega
      | some name =>
        rw [namelistLoop, if_pos goesOn]
        rw [namesOf_name] at full ⊢
        by_cases dots : name.isDots
        · simp only [dots, if_true] at full ⊢
          exact rest ret names full
        · simp only [dots, Bool.false_eq_true, if_false] at full ⊢
          obtain ⟨k, le, packed, exhausted⟩ := rest (ret + 1) (names ++ [name.chars]) (by
            rwa [List.append_assoc, List.singleton_append])
          rw [List.append_assoc, List.singleton_append] at packed exhausted
          refine ⟨k + 1, Nat.succ_le_succ le, ?_, exhausted⟩
          rw [NameBuffer.holding_put, packed, Nat.add_assoc, Nat.add_comm 1 k, List.take_succ_cons]
    · -- Nothing is read any more.
      have stops : namelistLoop (read :: reads) ret (.holding size names)
          = (some ret, .holding size names) := by
        cases read <;> rw [namelistLoop, if_neg goesOn]
      simp only [NameBuffer.holding] at goesOn
      refine ⟨0, Nat.zero_le _, by rw [stops]; simp, ?_⟩
      rw [List.take_zero, List.append_nil]
      omega

/-- How many names a directory counts: all of them, or none where it cannot be read to its end. -/
def NameDir.counted (dir : NameDir) : Nat := if dir.isListed then dir.readable.length else 0

theorem addNamelist_all {size : Int} (dir : NameDir) (ret : Nat) (names : List (List UInt16))
    (room : (spaceOf (names ++ dir.readable) : Int) < size) :
    addNamelist dir ret (.holding size names)
      = (ret + dir.counted, .holding size (names ++ dir.readable)) := by
  unfold NameDir.readable at room
  by_cases opens : dir.opens
  · rw [if_pos opens] at room
    simp only [addNamelist, getFileNamelistFunc, NameDir.counted, NameDir.isListed, NameDir.readable,
      opens, if_true, Bool.true_and, namelistLoop_all dir.reads 0 names room, Nat.zero_add]
    by_cases whole : dir.reads.all Option.isSome <;> simp [whole]
  · simp [addNamelist, getFileNamelistFunc, NameDir.counted, NameDir.isListed, NameDir.readable, opens]

theorem addNamelist_cut {size : Int} (dir : NameDir) (ret : Nat) (names : List (List UInt16))
    (full : size ≤ spaceOf (names ++ dir.readable)) :
    ∃ k ≤ dir.readable.length,
      addNamelist dir ret (.holding size names)
          = (ret + k, .holding size (names ++ dir.readable.take k))
        ∧ size ≤ spaceOf (names ++ dir.readable.take k) := by
  by_cases opens : dir.opens
  · simp only [NameDir.readable, opens, if_true] at full ⊢
    obtain ⟨k, le, packed, exhausted⟩ := namelistLoop_cut dir.reads 0 names full
    refine ⟨k, le, ?_, exhausted⟩
    rw [addNamelist, getFileNamelistFunc, if_pos opens, packed, Nat.zero_add]
  · simp only [NameDir.readable, opens, if_false, Bool.false_eq_true, List.append_nil] at full ⊢
    refine ⟨0, Nat.le_refl 0, ?_, by simpa using full⟩
    simp [addNamelist, getFileNamelistFunc, opens]

/-- The directories are listed one after the other, into what is left of the buffer. -/
theorem getFileNamelist_eq (v : NameVolume) (size : Int) :
    getFileNamelist v size
      = v.dirs.foldl (fun list dir => addNamelist dir list.1 list.2) (0, .holding size []) := by
  have start : ({ size := size } : NameBuffer) = .holding size [] := by
    simp [NameBuffer.holding, storesFrom]
  rw [getFileNamelist, NameVolume.dirs, start]
  by_cases lenovo : v.isLenovoPart
  · simp [lenovo]
  · by_cases customer : v.customer.exists_ <;> by_cases dir : v.dir.exists_ <;>
      simp [lenovo, customer, dir]

/-- The names of the listed directories among some. -/
def listedIn (dirs : List NameDir) : List (List UInt16) :=
  (dirs.filter NameDir.isListed).flatMap NameDir.readable

@[simp] theorem listedIn_cons (dir : NameDir) (dirs : List NameDir) :
    listedIn (dir :: dirs) = (if dir.isListed then dir.readable else []) ++ listedIn dirs := by
  by_cases listed : dir.isListed <;> simp [listedIn, listed]

theorem counted_eq (dir : NameDir) :
    dir.counted = (if dir.isListed then dir.readable else []).length := by
  rw [NameDir.counted]
  split_ifs <;> rfl

/-- With room for all names, all of them are packed, and those of the listed directories counted. -/
theorem foldl_addNamelist_all {size : Int} (dirs : List NameDir) (ret : Nat)
    (names : List (List UInt16))
    (room : (spaceOf (names ++ dirs.flatMap NameDir.readable) : Int) < size) :
    dirs.foldl (fun list dir => addNamelist dir list.1 list.2) (ret, .holding size names)
      = (ret + (listedIn dirs).length, .holding size (names ++ dirs.flatMap NameDir.readable)) := by
  induction dirs generalizing ret names with
  | nil => simp [listedIn]
  | cons dir dirs rest =>
    rw [List.flatMap_cons, ← List.append_assoc] at room ⊢
    have first : (spaceOf (names ++ dir.readable) : Int) < size := by
      rw [spaceOf_append] at room
      omega
    rw [List.foldl_cons, addNamelist_all dir ret names first, rest _ _ room, listedIn_cons,
      List.length_append, counted_eq, Nat.add_assoc]

theorem getFileNamelist_all {v : NameVolume} {size : Int} (room : (spaceOf v.readable : Int) < size) :
    getFileNamelist v size = (v.listed.length, .holding size v.readable) := by
  rw [getFileNamelist_eq, foldl_addNamelist_all v.dirs 0 [] room, Nat.zero_add, List.nil_append]
  rfl

/-- Two directories at most are listed. -/
theorem NameVolume.dirs_cases (v : NameVolume) :
    v.dirs = [] ∨ (∃ d, v.dirs = [d]) ∨ ∃ d d', v.dirs = [d, d'] := by
  rw [NameVolume.dirs]
  by_cases lenovo : v.isLenovoPart
  · exact .inr (.inl ⟨v.dir, if_pos lenovo⟩)
  · rw [if_neg lenovo]
    by_cases customer : v.customer.exists_ <;> by_cases dir : v.dir.exists_ <;> simp [customer, dir]

/-- The names of a directory have no zero. -/
theorem readable_ended {dir : NameDir} {name : List UInt16} (member : name ∈ dir.readable) :
    0 ∉ name := by
  rw [NameDir.readable] at member
  split_ifs at member with opens
  · exact namesOf_ended member
  · cases member

/--
The last name that is packed exhausts the size.

If the first names, as many as are counted, are the listed ones, it is one of them.
-/
def Exhausts (size : Int) (listed : List (List UInt16)) (list : Nat × NameBuffer) : Prop :=
  ∃ packed, list.2 = .holding size packed ∧ size ≤ spaceOf packed ∧ list.1 ≤ packed.length
    ∧ (∀ name ∈ packed, 0 ∉ name)
    ∧ (packed.take list.1 = listed → ∀ last ∈ packed.getLast?, last ∈ listed)

/-- Where all names that are packed are counted, the last one is. -/
theorem Exhausts.of_counted {size : Int} {packed : List (List UInt16)} (listed : List (List UInt16))
    (exhausted : size ≤ spaceOf packed) (ended : ∀ name ∈ packed, 0 ∉ name) {count : Nat}
    (all : count = packed.length) : Exhausts size listed (count, .holding size packed) := by
  refine ⟨packed, rfl, exhausted, all.le, ended, fun same last isLast => ?_⟩
  rw [all, List.take_length] at same
  rw [← same]
  exact List.mem_of_getLast? isLast

/-- The names of two directories, the first of which exhausts the size. -/
theorem exhausts_first {size : Int} (d d' : NameDir) (listed : List (List UInt16))
    (first : size ≤ spaceOf d.readable) :
    Exhausts size listed (addNamelist d' (addNamelist d 0 (.holding size [])).1
      (addNamelist d 0 (.holding size [])).2) := by
  obtain ⟨k, le, packed, exhausted⟩ := addNamelist_cut d 0 [] first
  rw [List.nil_append] at packed exhausted
  have full : size ≤ spaceOf (d.readable.take k ++ d'.readable) := by
    rw [spaceOf_append]
    omega
  obtain ⟨k', le', packed', exhausted'⟩ := addNamelist_cut d' (0 + k) (d.readable.take k) full
  rw [packed, packed']
  refine .of_counted listed exhausted' (fun name member => ?_) ?_
  · rcases List.mem_append.mp member with here | here
    · exact readable_ended (List.mem_of_mem_take here)
    · exact readable_ended (List.mem_of_mem_take here)
  · rw [List.length_append, List.length_take_of_le le, List.length_take_of_le le', Nat.zero_add]

/-- The names of two directories, the second of which exhausts the size. -/
theorem exhausts_second {size : Int} (d d' : NameDir) (room : spaceOf d.readable < size)
    (full : size ≤ spaceOf (d.readable ++ d'.readable)) :
    Exhausts size (listedIn [d, d']) (addNamelist d' (addNamelist d 0 (.holding size [])).1
      (addNamelist d 0 (.holding size [])).2) := by
  have first := addNamelist_all d 0 [] (by rwa [List.nil_append])
  obtain ⟨k, le, packed, exhausted⟩ := addNamelist_cut d' (0 + d.counted) ([] ++ d.readable) full
  rw [first, packed, Nat.zero_add]
  rw [List.nil_append] at exhausted ⊢
  have taken : (d'.readable.take k).length = k := List.length_take_of_le le
  have length : (d.readable ++ d'.readable.take k).length = d.readable.length + k := by
    rw [List.length_append, taken]
  have ended : ∀ name ∈ d.readable ++ d'.readable.take k, 0 ∉ name := by
    intro name member
    rcases List.mem_append.mp member with here | here
    · exact readable_ended here
    · exact readable_ended (List.mem_of_mem_take here)
  -- With the first directory listed, every name that is packed is counted.
  by_cases isListed : d.isListed
  · exact .of_counted _ exhausted ended (by rw [length, NameDir.counted, if_pos isListed])
  · -- The names of the first are not counted: those of the second have to be the listed ones.
    have uncounted : d.counted = 0 := by rw [NameDir.counted, if_neg isListed]
    have some_ : d'.readable.take k ≠ [] := by
      intro empty
      rw [empty, List.append_nil] at exhausted
      omega
    rw [listedIn_cons, if_neg isListed, listedIn_cons, List.nil_append, uncounted, Nat.zero_add]
    refine ⟨_, rfl, exhausted, by dsimp only; omega, ended, fun same last isLast => ?_⟩
    have lengths := congrArg List.length same
    rw [List.length_take_of_le (by omega)] at lengths
    rw [List.getLast?_append_of_ne_nil _ some_] at isLast
    have member := List.mem_of_mem_take (List.mem_of_getLast? isLast)
    by_cases isListed' : d'.isListed
    · rw [if_pos isListed']
      exact List.mem_append_left _ member
    · rw [if_neg isListed'] at lengths
      have zero : k = 0 := lengths
      rw [zero] at some_
      exact absurd rfl some_

/-- Without room for all names, the last that is packed exhausts the size. -/
theorem getFileNamelist_cut {v : NameVolume} {size : Int} (positive : 0 < size)
    (full : size ≤ spaceOf v.readable) : Exhausts size v.listed (getFileNamelist v size) := by
  have listed : v.listed = listedIn v.dirs := rfl
  rw [getFileNamelist_eq, listed]
  rw [NameVolume.readable] at full
  rcases v.dirs_cases with none_ | ⟨d, one⟩ | ⟨d, d', two⟩
  · rw [none_, List.flatMap_nil, spaceOf_nil] at full
    omega
  · rw [one, List.flatMap_cons, List.flatMap_nil, List.append_nil] at full
    obtain ⟨k, le, packed, exhausted⟩ := addNamelist_cut d 0 [] full
    rw [List.nil_append] at packed exhausted
    rw [one, List.foldl_cons, List.foldl_nil, packed]
    refine .of_counted _ exhausted (fun name member => readable_ended (List.mem_of_mem_take member)) ?_
    rw [List.length_take_of_le le, Nat.zero_add]
  · rw [two, List.flatMap_cons, List.flatMap_cons, List.flatMap_nil, List.append_nil] at full
    rw [two, List.foldl_cons, List.foldl_cons, List.foldl_nil]
    by_cases first : size ≤ spaceOf d.readable
    · exact exhausts_first d d' _ first
    · exact exhausts_second d d' (Int.not_le.mp first) full

/-! ### What the walk comes to -/

/-- A copy has the characters of the name, and zeros behind them. -/
theorem strnCpy_getElem {source : List UInt16} {n k : Nat} (below : k < (strnCpy source n).length) :
    (strnCpy source n)[k] = (source[k]?).getD 0 := by
  unfold strnCpy at below ⊢
  induction n generalizing source k with
  | zero => cases below
  | succ n rest =>
    cases source with
    | nil => cases k <;> simp
    | cons c source =>
      cases k with
      | zero => rfl
      | succ k => exact rest _

/-- A name that a copy does not cut stands where it is stored, with its zero. -/
theorem strnCpy_at {m : Nat → UInt16} {p : Nat} {name : List UInt16} (ended : 0 ∉ name)
    (short : name.length < NAME_COPY_CHARS) :
    At 0 (lay m p (strnCpy name NAME_COPY_CHARS)) p name := by
  have whole : (strnCpy name NAME_COPY_CHARS).length = NAME_COPY_CHARS := List.takeD_length _ _ _
  refine ⟨ended, fun k below => ?_, ?_⟩
  · rw [lay_at (by omega), strnCpy_getElem, List.getElem?_eq_getElem below, Option.getD_some]
  · rw [lay_at (by omega), strnCpy_getElem, List.getElem?_eq_none (Nat.le_refl _), Option.getD_none]

/-- The names that are stored behind one leave the memory up to where they begin. -/
theorem layAll_storesFrom {m : Nat → UInt16} {p a : Nat} {names : List (List UInt16)} (before : a < p) :
    layAll m (storesFrom p names) a = m a :=
  layAll_before fun _ member => Nat.lt_of_lt_of_le before (mem_storesFrom member).1

/-- A name that a copy does not cut stands there also when the names behind it have been stored. -/
theorem storesFrom_at {m : Nat → UInt16} {p : Nat} {name : List UInt16} (rest : List (List UInt16))
    (ended : 0 ∉ name) (short : name.length < NAME_COPY_CHARS) :
    At 0 (layAll m (storesFrom p (name :: rest))) p name := by
  refine (strnCpy_at (m := m) ended short).congr fun a _ upTo => ?_
  exact layAll_storesFrom (p := p + (name.length + 1)) (by omega)

section
variable {State : Type} {check : State → List UInt16 → State × Bool}

/-- A walk over names that no copy cuts comes to each of them. -/
theorem walkNames_storesFrom {fuel : Nat} (enough : NAME_COPY_CHARS ≤ fuel) {names : List (List UInt16)}
    {count : Nat} (counted : count ≤ names.length)
    (short : ∀ name ∈ names.take count, 0 ∉ name ∧ name.length < NAME_COPY_CHARS)
    (m : Nat → UInt16) (p : Nat) (s : State) :
    walkNames fuel (layAll m (storesFrom p names)) check p count s
      = some (visitNames check (names.take count) s) := by
  induction names generalizing m p count s with
  | nil =>
    rw [Nat.le_zero.mp counted]
    rfl
  | cons name names rest =>
    cases count with
    | zero => rfl
    | succ count =>
      obtain ⟨ended, cut⟩ := short name List.mem_cons_self
      have at_ := storesFrom_at (m := m) (p := p) names ended cut
      -- Behind the name, the walk is one over the others in the memory with its copy.
      have later := rest (Nat.le_of_succ_le_succ counted)
        (fun name' member => short name' (List.mem_cons_of_mem name member))
        (lay m p (strnCpy name NAME_COPY_CHARS)) (p + (name.length + 1)) (visitName check s name).1
      rw [walkNames, at_.length_eq (by omega), List.take_succ_cons, visitNames]
      simp only [at_.window_eq]
      by_cases full : (visitName check s name).2
      · rw [if_pos full, if_pos full]
      · rw [if_neg full, if_neg full]
        change Option.map _ (walkNames fuel (layAll (lay m p (strnCpy name NAME_COPY_CHARS))
          (storesFrom (p + (name.length + 1)) names)) check _ count _) = _
        rw [later]
        rfl

end

/-- A walk that only looks at the names. -/
def lookAt (s : Unit) (_ : List UInt16) : Unit × Bool := (s, false)

theorem visitNames_lookAt (names : List (List UInt16)) : visitNames lookAt names () = (names, ()) := by
  have goesOn : ∀ name, visitName lookAt () name = ((), false) := by
    intro name
    simp [visitName, lookAt]
  induction names with
  | nil => rfl
  | cons name names rest => simp [visitNames, goesOn, rest]

/-- The first name that a walk has come to, and the walk behind it. -/
theorem walkNames_lookAt {fuel : Nat} {m : Nat → UInt16} {p count : Nat} {seen : List (List UInt16)}
    (walked : walkNames fuel m lookAt p (count + 1) () = some (seen, ())) :
    ∃ n rest, Strings.length 0 m fuel p = some n ∧ seen = window m p n :: rest
      ∧ walkNames fuel m lookAt (p + (n + 1)) count () = some (rest, ()) := by
  rw [walkNames] at walked
  cases found : Strings.length 0 m fuel p with
  | none => simp [found] at walked
  | some n =>
    have goesOn : visitName lookAt () (window m p n) = ((), false) := by simp [visitName, lookAt]
    simp only [found, goesOn, Bool.false_eq_true, if_false] at walked
    obtain ⟨⟨rest, u⟩, later, same⟩ := Option.map_eq_some_iff.mp walked
    cases same
    exact ⟨n, rest, rfl, rfl, later⟩

/-- Behind a copy there is what was there: the string of a name that is cut goes on, or does not. -/
theorem cut_string {fuel n p : Nat} {m : Nat → UInt16} {name : List UInt16} (rest : List (List UInt16))
    (ended : 0 ∉ name) (cut : NAME_COPY_CHARS ≤ name.length)
    (found : Strings.length 0 m fuel p = some n)
    {before : Nat → UInt16} (stored : m = layAll before (storesFrom p (name :: rest))) :
    if before (p + NAME_COPY_CHARS) = 0 then n = NAME_COPY_CHARS else NAME_COPY_CHARS < n := by
  have whole : (strnCpy name NAME_COPY_CHARS).length = NAME_COPY_CHARS := List.takeD_length _ _ _
  have later : ∀ a < p + (name.length + 1),
      m a = lay before p (strnCpy name NAME_COPY_CHARS) a := by
    intro a upTo
    rw [stored]
    exact layAll_storesFrom upTo
  -- The copy is of characters of the name, and none of them ends the string.
  have goesOn : ∀ k < NAME_COPY_CHARS, m (p + k) ≠ 0 := by
    intro k below
    have inside : k < name.length := by omega
    rw [later (p + k) (by omega), lay_at (by omega), strnCpy_getElem,
      List.getElem?_eq_getElem inside, Option.getD_some]
    exact fun zero => ended (zero ▸ List.getElem_mem inside)
  have behind : m (p + NAME_COPY_CHARS) = before (p + NAME_COPY_CHARS) := by
    rw [later _ (by omega), lay_behind (by omega)]
  have notBefore : NAME_COPY_CHARS ≤ n := by
    by_contra early
    exact goesOn n (by omega) (length_marked found)
  split_ifs with zero
  · by_contra other
    exact length_unmarked found (k := NAME_COPY_CHARS) (by omega) (behind.trans zero)
  · refine Nat.lt_of_le_of_ne notBefore fun same => zero ?_
    rw [← behind, same]
    exact length_marked found

/--
A walk that comes to the same names in two memories has come to none that a copy cuts.

The one memory ends the string of such a name where the copy ends, the other one does not.
-/
theorem walkNames_uncut {fuel : Nat} {zeros ones : Nat → UInt16} {p : Nat}
    {names seen : List (List UInt16)} {count : Nat} (counted : count ≤ names.length)
    (ended : ∀ name ∈ names, 0 ∉ name)
    (isZero : ∀ a, p + NAME_COPY_CHARS ≤ a → zeros a = 0)
    (isOne : ∀ a, p + NAME_COPY_CHARS ≤ a → ones a = 1)
    (walked : walkNames fuel (layAll zeros (storesFrom p names)) lookAt p count () = some (seen, ()))
    (walked' : walkNames fuel (layAll ones (storesFrom p names)) lookAt p count () = some (seen, ())) :
    ∀ name ∈ names.take count, name.length < NAME_COPY_CHARS := by
  induction names generalizing zeros ones p count seen with
  | nil =>
    intro name member
    rw [List.take_nil] at member
    cases member
  | cons name names rest =>
    cases count with
    | zero =>
      intro name member
      cases member
    | succ count =>
      obtain ⟨n, later, found, isSeen, behind⟩ := walkNames_lookAt walked
      obtain ⟨n', later', found', isSeen', behind'⟩ := walkNames_lookAt walked'
      have copied : (strnCpy name NAME_COPY_CHARS).length = NAME_COPY_CHARS := List.takeD_length _ _ _
      -- Both strings have the same length.
      have both := List.cons.inj (isSeen.symm.trans isSeen')
      have lengths : n = n' := by
        have same := congrArg List.length both.1
        simpa [window] using same
      have unmarked := ended name List.mem_cons_self
      have short : name.length < NAME_COPY_CHARS := by
        by_contra cut
        rw [Nat.not_lt] at cut
        have atEnd := cut_string names unmarked cut found rfl
        have behindEnd := cut_string names unmarked cut found' rfl
        rw [if_pos (isZero _ (Nat.le_refl _))] at atEnd
        rw [if_neg (by rw [isOne _ (Nat.le_refl _)]; decide)] at behindEnd
        omega
      -- So the string is the name, and the walk goes on where the next one is stored.
      have whole : n = name.length := (storesFrom_at names unmarked short).found found
      rw [whole] at behind
      rw [← lengths, whole, ← both.2] at behind'
      have kept : ∀ (m : Nat → UInt16) (a : Nat), p + (name.length + 1) + NAME_COPY_CHARS ≤ a →
          lay m p (strnCpy name NAME_COPY_CHARS) a = m a :=
        fun m a from_ => lay_behind (by rw [copied]; omega)
      have zeros' : ∀ a, p + (name.length + 1) + NAME_COPY_CHARS ≤ a →
          lay zeros p (strnCpy name NAME_COPY_CHARS) a = 0 :=
        fun a from_ => (kept zeros a from_).trans (isZero a (by omega))
      have ones' : ∀ a, p + (name.length + 1) + NAME_COPY_CHARS ≤ a →
          lay ones p (strnCpy name NAME_COPY_CHARS) a = 1 :=
        fun a from_ => (kept ones a from_).trans (isOne a (by omega))
      have others := rest (Nat.le_of_succ_le_succ counted)
        (fun other member => ended other (List.mem_cons_of_mem name member)) zeros' ones' behind behind'
      intro name' member
      rcases List.mem_cons.mp member with rfl | inRest
      · exact short
      · exact others name' inRest

/-! ### When the walk comes to the names of the listed directories -/

/-- Names without a zero are packed: the walk comes to those that are counted, if no copy cuts them. -/
theorem walkBackupNames_packed {State : Type} {v : NameVolume} {count : Nat} {packed : List (List UInt16)}
    (listed : getFileNamelist v NAME_BUFFER_SIZE = (count, .holding NAME_BUFFER_SIZE packed))
    (counted : count ≤ packed.length)
    (short : ∀ name ∈ packed.take count, 0 ∉ name ∧ name.length < NAME_COPY_CHARS)
    (m : Nat → UInt16) (check : State → List UInt16 → State × Bool) (s : State) {fuel : Nat}
    (enough : NAME_COPY_CHARS ≤ fuel) :
    walkBackupNames fuel v m check s = some (visitNames check (packed.take count) s) := by
  rw [walkBackupNames, listed]
  exact walkNames_storesFrom enough counted short m 0 s

/-- Where the names round-trip, those that are counted are the listed ones, and no copy cuts them. -/
theorem NameVolume.RoundTrips.packed {v : NameVolume} (trips : v.RoundTrips) {count : Nat}
    {packed : List (List UInt16)}
    (listed : getFileNamelist v NAME_BUFFER_SIZE = (count, .holding NAME_BUFFER_SIZE packed))
    (counted : count ≤ packed.length) (ended : ∀ name ∈ packed, 0 ∉ name) :
    packed.take count = v.listed ∧ ∀ name ∈ v.listed, name.length < NAME_COPY_CHARS := by
  obtain ⟨enough, walked⟩ := trips.2 (fun _ => 0) Unit lookAt ()
  obtain ⟨enough', walked'⟩ := trips.2 (fun _ => 1) Unit lookAt ()
  have inZeros := walked (max NAME_COPY_CHARS (max enough enough')) (by omega)
  have inOnes := walked' (max NAME_COPY_CHARS (max enough enough')) (by omega)
  rw [visitNames_lookAt, walkBackupNames, listed] at inZeros inOnes
  -- The walk is looked at over a buffer of zeros and over one of ones.
  have uncut := walkNames_uncut counted ended (fun _ _ => rfl) (fun _ _ => rfl) inZeros inOnes
  have short : ∀ name ∈ packed.take count, 0 ∉ name ∧ name.length < NAME_COPY_CHARS :=
    fun name member => ⟨ended name (List.mem_of_mem_take member), uncut name member⟩
  have inList := walkBackupNames_packed listed counted short (fun _ => 0) lookAt ()
    (Nat.le_max_left NAME_COPY_CHARS (max enough enough'))
  rw [walkBackupNames, listed] at inList
  have same := inList.symm.trans inZeros
  rw [visitNames_lookAt] at same
  have names : packed.take count = v.listed := congrArg Prod.fst (Option.some.inj same)
  exact ⟨names, names ▸ uncut⟩

/-- The names that can be read have no zero. -/
theorem NameVolume.readable_ended {v : NameVolume} {name : List UInt16} (member : name ∈ v.readable) :
    0 ∉ name := by
  obtain ⟨dir, -, inDir⟩ := List.mem_flatMap.mp member
  exact Okr.readable_ended inDir

/-- The listed names are some of those that can be read. -/
theorem NameVolume.listed_length_le (v : NameVolume) : v.listed.length ≤ v.readable.length :=
  (List.filter_sublist.flatMap NameDir.readable).length_le

/-- Where the names pack, the walk comes to the listed ones. -/
theorem NameVolume.Packs.walkBackupNames_eq {State : Type} {v : NameVolume} (packs : v.Packs)
    (m : Nat → UInt16) (check : State → List UInt16 → State × Bool) (s : State) {fuel : Nat}
    (enough : NAME_COPY_CHARS ≤ fuel) :
    walkBackupNames fuel v m check s = some (visitNames check v.listed s) := by
  have listed := getFileNamelist_all (v := v) (Int.ofNat_lt.mpr packs.size)
  have first : v.readable.take v.listed.length = v.listed := (List.prefix_iff_eq_take.mp packs.first).symm
  rw [walkBackupNames_packed listed v.listed_length_le _ m check s enough, first]
  intro name member
  have inBoth := member
  rw [first] at inBoth
  exact ⟨v.readable_ended (List.mem_of_mem_take member), packs.short name inBoth⟩

/-- Names that round-trip have exhausted the size of the buffer at no point. -/
theorem NameVolume.RoundTrips.size {v : NameVolume} (trips : v.RoundTrips) :
    spaceOf v.readable < NAME_BUFFER_SIZE := by
  by_contra full
  rw [Nat.not_lt] at full
  obtain ⟨packed, holds, exhausted, counted, ended, lastListed⟩ :=
    getFileNamelist_cut (v := v) (Int.natCast_pos.mpr (by decide)) (Int.ofNat_le.mpr full)
  have listed : getFileNamelist v NAME_BUFFER_SIZE
      = ((getFileNamelist v NAME_BUFFER_SIZE).1, .holding NAME_BUFFER_SIZE packed) := by rw [← holds]
  obtain ⟨names, short⟩ := trips.packed listed counted ended
  have inside := trips.1
  rw [listed] at inside
  have room := (storesFrom_inside_iff NAME_BUFFER_SIZE packed).mp inside
  -- All but the last name take half of the size, so the last one is far longer than a copy.
  rcases List.eq_nil_or_concat' packed with rfl | ⟨front, last, rfl⟩
  · exact absurd (Int.ofNat_le.mp exhausted) (by decide)
  · have room := room (by simp)
    have cut := short last (lastListed names last (by simp))
    have exhausted := Int.ofNat_le.mp exhausted
    rw [List.dropLast_concat] at room
    rw [spaceOf_append, spaceOf_cons, spaceOf_nil] at exhausted
    simp only [NAME_BUFFER_SIZE, NAME_COPY_CHARS] at room cut exhausted
    omega

/--
The names are packed inside the buffer and the walk comes to those of the listed directories, exactly if there
is room for all that can be read, no copy cuts one that is listed, and the listed ones are the first of them.
-/
theorem getFileNamelist_roundTrips_iff (v : NameVolume) : v.RoundTrips ↔ v.Packs := by
  constructor
  · intro trips
    have listed := getFileNamelist_all (v := v) (Int.ofNat_lt.mpr trips.size)
    obtain ⟨names, short⟩ := trips.packed listed v.listed_length_le fun _ => v.readable_ended
    have inside := trips.1
    rw [listed] at inside
    exact
      { size := trips.size
        room := (storesFrom_inside_iff NAME_BUFFER_SIZE v.readable).mp inside
        short := short
        first := names ▸ List.take_prefix _ _ }
  · intro packs
    refine ⟨?_, fun m State check s => ⟨NAME_COPY_CHARS, fun fuel enough => ?_⟩⟩
    · rw [getFileNamelist_all (Int.ofNat_lt.mpr packs.size)]
      exact (storesFrom_inside_iff NAME_BUFFER_SIZE v.readable).mpr packs.room
    · exact packs.walkBackupNames_eq m check s enough

/-- A volume with one image in each directory, where a read of the first directory fails behind its image. -/
def failedVolume : NameVolume where
  isLenovoPart := false
  dir := ⟨true, true, [some ⟨[98], by simp⟩]⟩
  customer := ⟨true, true, [some ⟨[97], by simp⟩, none]⟩

/-- The walk comes to the image of the directory that was not listed, and not to that of the other. -/
theorem getFileNamelist_failedCustomer : ¬ failedVolume.RoundTrips := by
  intro trips
  -- Both names have been packed, and one of them is counted.
  have packed : getFileNamelist failedVolume NAME_BUFFER_SIZE
      = (1, .holding NAME_BUFFER_SIZE [[97], [98]]) := rfl
  have names : [[97]] = failedVolume.listed := (trips.packed packed (by decide) (by simp)).1
  have listed : failedVolume.listed = [[98]] := rfl
  rw [listed] at names
  exact absurd names (by decide)

/-! ### The headers of the images that the walk comes to -/

/-- What the walk makes of the names is what the loop over their files makes of them. -/
theorem visitNames_listFiles (partindex : Nat) (bReadOnly : Bool) (maxnum : Int)
    {file : List UInt16 → BackupFile} (named : ∀ name, (file name).name.length = name.length)
    (names : List (List UInt16)) (count : Int) (s : HeaderList) :
    (visitNames (checkFile partindex bReadOnly maxnum file) names (count, s)).2.2
      = listFiles partindex bReadOnly maxnum count (names.map file) s := by
  induction names generalizing count s with
  | nil => rfl
  | cons name names rest =>
    rw [visitNames, List.map_cons, listFiles]
    by_cases passed : name.length = 0 ∨ ¬ name.length + 1 ≤ FILE_NAME_CHARS
    · -- The loop over the files passes over the same names.
      have visited : visitName (checkFile partindex bReadOnly maxnum file) (count, s) name
          = ((count, s), false) := by
        rw [visitName]
        split_ifs with empty fits
        · rfl
        · exact absurd fits (passed.resolve_left empty)
        · rfl
      have unchecked : (file name).checked = none := by
        rw [BackupFile.checked, if_neg]
        rintro ⟨some_, fits, -⟩
        rw [named] at fits
        exact passed.elim (fun empty => some_ (List.eq_nil_of_length_eq_zero (by rw [named, empty])))
          (fun long => long fits)
      rw [visited, unchecked]
      exact rest count s
    · rw [not_or, not_not] at passed
      have visited : visitName (checkFile partindex bReadOnly maxnum file) (count, s) name
          = checkFile partindex bReadOnly maxnum file (count, s) name := by
        rw [visitName, if_neg passed.1, if_pos passed.2]
      rw [visited, checkFile]
      cases (file name).checked with
      | none => exact rest count s
      | some header =>
        by_cases complete : header.bComplete
        · by_cases full : count + 1 ≥ maxnum
          · simp [complete, full]
          · simpa [complete, full] using rest (count + 1) (s.add partindex (file name) header.image)
        · simpa [complete] using rest count (s.reject partindex bReadOnly (file name))

/-- Where the names pack, the headers are those of the files of the listed directories. -/
theorem NameVolume.Packs.headers {v : NameVolume} (packs : v.Packs) (partindex : Nat) (bReadOnly : Bool)
    (maxnum : Int) {file : List UInt16 → BackupFile}
    (named : ∀ name, (file name).name.length = name.length) (m : Nat → UInt16) (s : HeaderList) {fuel : Nat}
    (enough : NAME_COPY_CHARS ≤ fuel) :
    (walkBackupNames fuel v m (checkFile partindex bReadOnly maxnum file) (0, s)).map (·.2.2)
      = some (listFiles partindex bReadOnly maxnum 0 (v.listed.map file) s) := by
  rw [packs.walkBackupNames_eq m _ _ enough, Option.map_some,
    visitNames_listFiles partindex bReadOnly maxnum named]

end Okr
