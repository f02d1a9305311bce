import Okr.Images.FindAll
import Okr.Lib.ExchangeSort

/-! The list of the images starts with the factory image, and the others follow by their times. -/

namespace Okr

open ExchangeSort

variable {machine : Machine} {s : HeaderList} {images : List ImageHeader} {first n i j : Nat}

/-- A list of images from the oldest to the newest. -/
def FromOldest (images : List ImageHeader) : Prop :=
  images.Pairwise fun a b => a.fileTime ≤ b.fileTime

/--
What the list of the images is meant to be, for the headers that were found.

The first factory image stands in front, and every other image follows by its time.
-/
def ImagesOrdered (machine : Machine) (found ordered : List ImageHeader) : Prop :=
  ordered.Perm found ∧
    match found.find? (isFactoryImage machine) with
    | none => FromOldest ordered
    | some factory => ∃ rest, ordered = factory :: rest ∧ FromOldest rest

/-- The headers of a buffer by their slots. -/
def slots (images : List ImageHeader) : Nat → ImageHeader := fun k => images.getD k {}

/-- A list holds so many headers, and they are those of a table. -/
structure InTable (n : Nat) (images : List ImageHeader) (t : Nat → ImageHeader) : Prop where
  length : images.length = n
  slots : slots images = t

/-! ### The list and its slots -/

/-- A slot of the list holds its header. -/
theorem slot_inside (inside : i < images.length) : images.getD i {} = images[i] := by
  rw [List.getD_eq_getElem?_getD, List.getElem?_eq_getElem inside, Option.getD_some]

/-- The list is its slots in their order. -/
theorem slots_list : images = (List.range' 0 images.length).map (slots images) := by
  apply List.ext_getElem
  · rw [List.length_map, List.length_range']
  · intro k inside _
    rw [List.getElem_map, List.getElem_range', slots, Nat.zero_add, Nat.one_mul,
      slot_inside inside]

/-- Two headers that change places in the buffer change places in the table. -/
theorem swap_holds {t : Nat → ImageHeader} (holds : InTable n s.images t) (firstIn : i < n)
    (secondIn : j < n) : InTable n (s.swap i j).images (swap t i j) := by
  obtain ⟨length, rfl⟩ := holds
  constructor
  · rw [HeaderList.swap, List.length_set, List.length_set, length]
  · funext k
    rw [slots, HeaderList.swap, ExchangeSort.swap, List.getD_eq_getElem?_getD, List.getElem?_set,
      List.length_set, length]
    split
    · next here =>
      rw [if_pos here.symm]
      rfl
    · next away =>
      rw [if_neg (Ne.symm away), List.getElem?_set, length]
      split
      · next here =>
        rw [if_pos here.symm]
        rfl
      · next away =>
        rw [if_neg (Ne.symm away), slots, List.getD_eq_getElem?_getD]

/-- One pass over the buffer is the inner loop of the exchange sort. -/
theorem sortPass_holds {t : Nat → ImageHeader} (holds : InTable n s.images t) (inside : i < n) :
    InTable n (sortPass i s).images (sortBehind (·.fileTime) (fun _ => ()) t i (n - (i + 1))) := by
  rw [sortPass, sortBehind, holds.length]
  refine @List.foldl_rel _ _ _ _ _ _ _ _ (fun (u : HeaderList) t => InTable n u.images t) holds
    fun j member u t holds => ?_
  have place := List.mem_range'_1.mp member
  have read : ∀ k, u.images.getD k {} = t k := fun k => congrFun holds.slots k
  rw [exchange, read, read]
  by_cases wrong : (t j).fileTime < (t i).fileTime
  · rw [if_pos wrong, if_pos ⟨wrong, rfl⟩]
    exact swap_holds holds inside (by omega)
  · rw [if_neg wrong, if_neg fun both => wrong both.1]
    exact holds

/-- The passes from a slot on are the exchange sort from there on. -/
theorem sortPasses_holds {t : Nat → ImageHeader} (holds : InTable n s.images t) :
    InTable n ((List.range' first (n - first)).foldl (fun s i => sortPass i s) s).images
      (sortFrom (·.fileTime) (fun _ => ()) n t first (n - first)) := by
  rw [sortFrom]
  refine @List.foldl_rel _ _ _ _ _ _ _ _ (fun (u : HeaderList) t => InTable n u.images t) holds
    fun i member u t holds => ?_
  have place := List.mem_range'_1.mp member
  exact sortPass_holds holds (by omega)

/-- Sorted slots are a list from the oldest to the newest. -/
theorem sorted_fromOldest {t : Nat → ImageHeader}
    (sorted : Sorted (·.fileTime) (fun _ => ()) first n t) :
    FromOldest ((List.range' first (n - first)).map t) := by
  rw [FromOldest, List.pairwise_map]
  refine List.Pairwise.imp_of_mem ?_ List.pairwise_lt_range'
  intro a b memberA memberB order
  have placeA := List.mem_range'_1.mp memberA
  have placeB := List.mem_range'_1.mp memberB
  exact sorted a b placeA.1 order (by omega) rfl

/-! ### The sort of `GetAllBackupFiles` -/

/-- What `GetAllBackupFiles` does with the headers that were found. -/
def orderImages (machine : Machine) (s : HeaderList) : HeaderList :=
  let num := s.images.length
  let factory := s.images.findIdx? (isFactoryImage machine)
  let s :=
    match factory with
    | none => s
    | some i => if i ≠ 0 then s.swap 0 i else s
  (List.range num).foldl (fun s i => if i = 0 ∧ factory.isSome then s else sortPass i s) s

/-- Without a factory image all slots are sorted. -/
theorem orderImages_none (none_ : s.images.findIdx? (isFactoryImage machine) = none) :
    (orderImages machine s).images.Perm s.images ∧ FromOldest (orderImages machine s).images := by
  have passes : orderImages machine s
      = (List.range' 0 (s.images.length - 0)).foldl (fun s i => sortPass i s) s := by
    rw [orderImages, none_, List.range_eq_range']
    simp
  have holds := @sortPasses_holds s 0 s.images.length (slots s.images) ⟨rfl, rfl⟩
  obtain ⟨shuffled, sorted⟩ := @sortFrom_sorted _ _ _ _ _ (fun (h : ImageHeader) => h.fileTime)
    (fun _ => ()) 0 s.images.length (slots s.images) (Nat.zero_le _)
  rw [← passes] at holds
  have ends : (orderImages machine s).images
      = (List.range' 0 (s.images.length - 0)).map
        (sortFrom (·.fileTime) (fun _ => ()) s.images.length (slots s.images) 0
          (s.images.length - 0)) := by
    rw [← holds.slots, Nat.sub_zero, ← holds.length]
    exact slots_list
  rw [ends]
  constructor
  · refine shuffled.perm.trans (.of_eq ?_)
    rw [Nat.sub_zero]
    exact slots_list.symm
  · exact sorted_fromOldest sorted

/-- The factory image comes to the front, wherever it was found. -/
theorem factoryFirst_holds {f : Nat} (found : s.images.findIdx? (isFactoryImage machine) = some f) :
    InTable s.images.length (if f ≠ 0 then s.swap 0 f else s).images
      (swap (slots s.images) 0 f) := by
  obtain ⟨inside, -⟩ := List.findIdx?_eq_some_iff_getElem.mp found
  split
  · exact swap_holds ⟨rfl, rfl⟩ (by omega) inside
  · next here =>
    have zero : f = 0 := Decidable.not_not.mp here
    refine ⟨rfl, ?_⟩
    rw [zero, swap_eq, Equiv.swap_self]
    rfl

/-- With a factory image the slots behind the first one are sorted. -/
theorem orderImages_some {f : Nat} (found : s.images.findIdx? (isFactoryImage machine) = some f) :
    (orderImages machine s).images.Perm s.images
      ∧ ∃ rest, (orderImages machine s).images = slots s.images f :: rest ∧ FromOldest rest := by
  obtain ⟨inside, -⟩ := List.findIdx?_eq_some_iff_getElem.mp found
  have passes : orderImages machine s
      = (List.range' 1 (s.images.length - 1)).foldl (fun s i => sortPass i s)
        (if f ≠ 0 then s.swap 0 f else s) := by
    obtain ⟨count, length⟩ : ∃ count, s.images.length = count + 1 :=
      ⟨s.images.length - 1, by omega⟩
    rw [orderImages, found, List.range_eq_range', length, List.range'_succ, List.foldl_cons]
    refine List.foldl_ext _ _ _ fun u i member => ?_
    have place := List.mem_range'_1.mp member
    exact if_neg fun both => by omega
  have holds := @sortPasses_holds _ 1 _ _ (factoryFirst_holds found)
  obtain ⟨shuffled, sorted⟩ := @sortFrom_sorted _ _ _ _ _ (fun (h : ImageHeader) => h.fileTime)
    (fun _ => ()) 1 s.images.length (swap (slots s.images) 0 f) (by omega)
  rw [← passes] at holds
  generalize sortFrom (·.fileTime) (fun _ => ()) s.images.length (swap (slots s.images) 0 f) 1
    (s.images.length - 1) = t at holds shuffled sorted
  have ends : (orderImages machine s).images = (List.range' 0 s.images.length).map t := by
    rw [← holds.slots, ← holds.length]
    exact slots_list
  constructor
  · -- Both the exchange and the passes only move headers.
    have exchanged : Shuffled (fun _ => ()) 0 s.images.length (slots s.images)
        (swap (slots s.images) 0 f) :=
      swap_shuffled ⟨Nat.zero_le 0, by omega⟩ ⟨Nat.zero_le f, inside⟩ rfl
    have moved := exchanged.trans (shuffled.widen (Nat.zero_le 1) (by omega))
    rw [ends]
    refine moved.perm.trans (.of_eq ?_)
    exact slots_list.symm
  · refine ⟨(List.range' 1 (s.images.length - 1)).map t, ?_, sorted_fromOldest sorted⟩
    have front : t 0 = slots s.images f := by
      rw [shuffled.outside 0 (Or.inl Nat.one_pos), ExchangeSort.swap]
      split
      · next here => rw [here]
      · rw [if_pos rfl]
    obtain ⟨count, length⟩ : ∃ count, s.images.length = count + 1 :=
      ⟨s.images.length - 1, by omega⟩
    rw [ends, length, List.range'_succ, List.map_cons, front]
    rfl

/-- Whatever was found, the headers end in the order that is meant. -/
theorem orderImages_ordered : ImagesOrdered machine s.images (orderImages machine s).images := by
  rw [ImagesOrdered, List.find?_eq_bind_findIdx?_getElem?]
  cases found : s.images.findIdx? (isFactoryImage machine) with
  | none => exact orderImages_none found
  | some f =>
    obtain ⟨inside, -⟩ := List.findIdx?_eq_some_iff_getElem.mp found
    obtain ⟨perm, rest, front, oldest⟩ := orderImages_some found
    rw [slots, slot_inside inside] at front
    rw [Option.bind_some, List.getElem?_eq_getElem inside]
    exact ⟨perm, rest, front, oldest⟩

/--
`GetAllBackupFiles` orders the headers that `GetBackupFileList` found on all volumes.

They are the same headers, the first factory image in front and the others by their times.
-/
theorem getAllBackupFiles_ordered (machine : Machine) (volumes : ImageVolumes)
    (names : Nat → List BackupFile) (g_dwTotalPartitions : Nat) :
    ImagesOrdered machine
      (listVolumes machine volumes names (HEADLISTBUFFER / OKR_HEADER_MIN_SIZE)
        (List.range g_dwTotalPartitions) 0 {}).2.images
      (getAllBackupFiles machine volumes names g_dwTotalPartitions).list.images :=
  orderImages_ordered

end Okr
