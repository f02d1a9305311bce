import Okr.File.Split
import Okr.Proofs.Segments

/-! Writing in segments puts whole writes into each of them, one behind the other. -/

namespace Okr

/-! ### One write -/

/-- A FAT file that was only appended to, without a fault to come. -/
def appended (data : Bytes) : FatFile := { data := data, pos := data.length }

/-- The firmware appends all of the buffer, or nothing where the file would become too long. -/
theorem efiWrite_appended (data buffer : Bytes) :
    efiWrite (appended data) buffer =
      if MAX_FAT_FILE ≤ data.length + buffer.length then (false, appended data)
      else (true, appended (data ++ buffer)) := by
  rw [efiWrite, appended, FatFile.nextFault]
  dsimp only
  split
  · rfl
  · rw [Overlay.write_end, appended, List.length_append]

/-- What a write may leave behind: all of the buffer, or a part of it and a failure. -/
def Appends (data buffer : Bytes) (result : Bool × FatFile) : Prop :=
  ∃ n, result.2 = appended (data ++ buffer.take n) ∧
    (result.1 = true → buffer.length ≤ n) ∧
    (data.length < MAX_FAT_FILE → (data ++ buffer.take n).length < MAX_FAT_FILE)

/-- One call of the firmware appends. -/
theorem efiWrite_appends (data buffer : Bytes) :
    Appends data buffer (efiWrite (appended data) buffer) := by
  rw [efiWrite_appended]
  split
  · refine ⟨0, ?_, fun other => Bool.noConfusion other, ?_⟩
    · rw [List.take_zero, List.append_nil]
    · rw [List.take_zero, List.append_nil]
      exact id
  · next fits =>
    refine ⟨buffer.length, ?_, fun _ => Nat.le_refl _, fun _ => ?_⟩
    · rw [List.take_length]
    · rw [List.take_length, List.length_append]
      omega

/-- The pieces of a long write append one after the other, up to the first that fails. -/
theorem segWriteLoop_appends (fuel : Nat) :
    ∀ data rest, rest.length ≤ fuel → Appends data rest (segWriteLoop fuel rest (appended data)) := by
  induction fuel with
  | zero =>
    intro data rest short
    have empty : rest = [] := List.eq_nil_of_length_eq_zero (by omega)
    rw [empty]
    exact ⟨0, by rw [List.take_nil, List.append_nil]; rfl, fun _ => Nat.le_refl _,
      by rw [List.take_nil, List.append_nil]; exact id⟩
  | succ fuel ih =>
    intro data rest short
    rw [segWriteLoop]
    by_cases empty : rest = []
    · rw [if_pos empty, empty]
      exact ⟨0, by rw [List.take_nil, List.append_nil], fun _ => Nat.le_refl _,
        by rw [List.take_nil, List.append_nil]; exact id⟩
    rw [if_neg empty]
    have some_ := List.length_pos_of_ne_nil empty
    by_cases full : MAX_FAT_FILE ≤ data.length + (rest.take MY_DEFINE_BUFFER_SIZE).length
    · rw [efiWrite_appended, if_pos full]
      refine ⟨0, ?_, fun other => Bool.noConfusion other, ?_⟩
      · rw [List.take_zero, List.append_nil]
      · rw [List.take_zero, List.append_nil]
        exact id
    · rw [efiWrite_appended, if_neg full]
      -- The rest is appended behind the first piece.
      have piece : 0 < MY_DEFINE_BUFFER_SIZE := by decide
      obtain ⟨n, result, whole, bound⟩ :=
        ih (data ++ rest.take MY_DEFINE_BUFFER_SIZE) (rest.drop MY_DEFINE_BUFFER_SIZE)
          (by rw [List.length_drop]; omega)
      have joined : data ++ rest.take MY_DEFINE_BUFFER_SIZE ++ (rest.drop MY_DEFINE_BUFFER_SIZE).take n
          = data ++ rest.take (MY_DEFINE_BUFFER_SIZE + n) := by
        rw [List.append_assoc, ← List.take_add]
      rw [joined] at result bound
      refine ⟨MY_DEFINE_BUFFER_SIZE + n, result, fun done => ?_, fun _ => ?_⟩
      · have whole := whole done
        rw [List.length_drop] at whole
        omega
      · apply bound
        rw [List.length_append]
        omega

/-- `SegFileWrite` appends all of the buffer, or a part of it and fails. -/
theorem segFileWrite_appends (data buffer : Bytes) :
    Appends data buffer (segFileWrite (appended data) buffer) := by
  rw [segFileWrite]
  split
  · exact efiWrite_appends data buffer
  · exact segWriteLoop_appends buffer.length data buffer (Nat.le_refl _)

/-- As long as the file stays short enough, all of the buffer is appended. -/
theorem segFileWrite_fits {data buffer : Bytes} (fits : data.length + buffer.length < MAX_FAT_FILE) :
    (segFileWrite (appended data) buffer).1 = true := by
  rw [segFileWrite]
  split
  · rw [efiWrite_appended, if_neg (by omega)]
  · -- Every piece fits, as all of them do.
    have loop : ∀ fuel data rest, rest.length ≤ fuel → data.length + rest.length < MAX_FAT_FILE →
        (segWriteLoop fuel rest (appended data)).1 = true := by
      intro fuel
      induction fuel with
      | zero =>
        intro data rest short _
        have empty : rest = [] := List.eq_nil_of_length_eq_zero (by omega)
        rw [empty]
        rfl
      | succ fuel ih =>
        intro data rest short fits
        rw [segWriteLoop]
        by_cases empty : rest = []
        · rw [if_pos empty]
        have some_ := List.length_pos_of_ne_nil empty
        have piece : 0 < MY_DEFINE_BUFFER_SIZE := by decide
        have taken := List.length_take (i := MY_DEFINE_BUFFER_SIZE) (l := rest)
        rw [if_neg empty, efiWrite_appended, if_neg (by omega)]
        apply ih
        · rw [List.length_drop]
          omega
        · rw [List.length_append, List.length_drop]
          omega
    exact loop buffer.length data buffer (Nat.le_refl _) fits

/-! ### The writer's run -/

/-- What a write of a block weighs. -/
def blockSize (b : Block) : Nat := b.bytes.length

/-- A group of blocks is as long as they are together. -/
theorem length_bytesOf (group : List Block) : (bytesOf group).length = Split.total blockSize group := by
  rw [bytesOf, List.length_flatMap, Split.total]
  rfl

/-- The bytes of a further block stand behind the others. -/
theorem bytesOf_append (group more : List Block) : bytesOf (group ++ more) = bytesOf group ++ bytesOf more :=
  List.flatMap_append

/-- The writer has closed some groups of blocks and has one open. -/
structure SegFile.Writing (f : SegFile) (closed : List (List Block)) (group : List Block) : Prop where
  backend : f.backend = .fat
  segmented : f.ifneedseg = true
  current : f.currentfileseg = closed.length
  size : f.currentfilesize = (bytesOf group).length
  opened : f.opened = some (.fat (appended (bytesOf group)))
  volume : ∀ k, k ≠ closed.length → f.volume k = closed[k]?.map bytesOf
  light : (bytesOf group).length ≤ SPLIT_SIZE

variable {f : SegFile} {closed : List (List Block)} {group : List Block} {blocks : List Block}

/-- Closing stores what the open segment holds beside the closed ones. -/
theorem close_stores {data : Bytes} (opened : f.opened = some (.fat (appended data))) (k : Nat) :
    f.close.volume k = if k = f.currentfileseg then some data else f.volume k := by
  rw [SegFile.close, opened]
  rfl

/-- A group more is found behind the others. -/
theorem getElem?_closed (closed : List (List Block)) (group : List Block) (k : Nat) :
    (closed ++ [group])[k]?.map bytesOf
      = if k = closed.length then some (bytesOf group) else closed[k]?.map bytesOf := by
  split
  · next eq =>
    rw [eq, List.getElem?_append_right (Nat.le_refl _), Nat.sub_self]
    rfl
  · next other =>
    by_cases inside : k < closed.length
    · rw [List.getElem?_append_left inside]
    · have past : closed.length ≤ k := by omega
      have behind : (closed ++ [group]).length ≤ k := by
        rw [List.length_append, List.length_singleton]
        omega
      rw [List.getElem?_eq_none past, List.getElem?_eq_none behind]

/-- Closing stores the open group behind the closed ones. -/
theorem SegFile.Writing.close (writing : f.Writing closed group) (k : Nat) :
    f.close.volume k = (closed ++ [group])[k]?.map bytesOf := by
  rw [close_stores writing.opened, getElem?_closed, writing.current]
  split
  · rfl
  · next other => exact writing.volume k other

/-- The segments are bounded where the groups are, and the one that is open. -/
theorem bounded_close {data : Bytes} (current : f.currentfileseg = closed.length)
    (opened : f.opened = some (.fat (appended data)))
    (volume : ∀ k, k ≠ closed.length → f.volume k = closed[k]?.map bytesOf)
    (fits : ∀ g ∈ closed, SegmentFits blocks (bytesOf g)) (last : SegmentFits blocks data) :
    Bounded blocks f.close.volume := by
  intro k stored eq
  rw [close_stores opened, current] at eq
  split at eq
  · cases eq
    exact last
  · next other =>
    rw [volume k other] at eq
    obtain ⟨g, found, eq⟩ := Option.map_eq_some_iff.mp eq
    rw [← eq]
    exact fits g (List.mem_of_getElem? found)

/-- A group that was light before its last block is not too long with it. -/
theorem segmentFits_more {b : Block} {n : Nat} (member : b ∈ blocks)
    (light : (bytesOf group).length ≤ SPLIT_SIZE)
    (short : (bytesOf group ++ b.bytes.take n).length < MAX_FAT_FILE) :
    SegmentFits blocks (bytesOf group ++ b.bytes.take n) := by
  refine ⟨short, Or.inr ⟨b, member, ?_⟩⟩
  have part := List.length_take (i := n) (l := b.bytes)
  rw [List.length_append]
  omega

/-- The writer goes on with the block in its group, and with a new group where this one is full. -/
def Continues (f : SegFile) (closed : List (List Block)) (group : List Block) (b : Block) : Prop :=
  if SPLIT_SIZE < Split.total blockSize (group ++ [b]) then f.Writing (closed ++ [group ++ [b]]) []
  else f.Writing closed (group ++ [b])

/-- A write that fills its segment creates the next one, unless the volume refuses it. -/
theorem nextSegment_writing {data : Bytes} (backend : f.backend = .fat) (segmented : f.ifneedseg = true)
    (current : f.currentfileseg = closed.length) (opened : f.opened = some (.fat (appended data)))
    (volume : ∀ k, k ≠ closed.length → f.volume k = closed[k]?.map bytesOf)
    (holds : data = bytesOf group) :
    (({ f.close with currentfilesize := 0 } : SegFile).openCreate (f.currentfileseg + 1) false).Writing
      (closed ++ [group]) [] := by
  have stored : ∀ k, f.close.volume k = (closed ++ [group])[k]?.map bytesOf := by
    intro k
    rw [close_stores opened, getElem?_closed, current, holds]
    split
    · rfl
    · next other => exact volume k other
  have length : (closed ++ [group]).length = closed.length + 1 := by
    rw [List.length_append, List.length_singleton]
  have same : f.close.backend = .fat ∧ f.close.ifneedseg = true := by
    rw [SegFile.close, opened]
    exact ⟨backend, segmented⟩
  -- The name of the next segment is not in use.
  have fresh : f.close.volume (f.currentfileseg + 1) = none := by
    rw [stored, List.getElem?_eq_none (by omega)]
    rfl
  refine ⟨same.1, same.2, ?_, rfl, ?_, ?_, Nat.zero_le _⟩
  · rw [length, ← current]
    rfl
  · rw [SegFile.openCreate, if_neg Bool.false_ne_true]
    dsimp only
    rw [fresh, same.1]
    rfl
  · intro k other
    rw [SegFile.openCreate, if_neg Bool.false_ne_true]
    dsimp only
    rw [storeSegment, if_neg (by omega), stored]

/-- One write goes into the open segment as a whole, or it fails and leaves no segment too long. -/
theorem fileWrite_writing (writing : f.Writing closed group) {b : Block} (member : b ∈ blocks)
    (fits : ∀ g ∈ closed, SegmentFits blocks (bytesOf g)) :
    ((fileWrite f b.bytes b.refused).1 = true →
        Continues (fileWrite f b.bytes b.refused).2 closed group b
          ∧ SegmentFits blocks (bytesOf (group ++ [b])))
      ∧ ((fileWrite f b.bytes b.refused).1 = false →
        Bounded blocks (fileWrite f b.bytes b.refused).2.close.volume) := by
  obtain ⟨n, appends, whole, short⟩ := segFileWrite_appends (bytesOf group) b.bytes
  have limit : SPLIT_SIZE < MAX_FAT_FILE := by decide
  have short := short (Nat.lt_of_le_of_lt writing.light limit)
  have last : SegmentFits blocks (bytesOf group ++ b.bytes.take n) :=
    segmentFits_more member writing.light short
  have write : f.writeOpen b.bytes
      = (if (segFileWrite (appended (bytesOf group)) b.bytes).1 then .wrote b.bytes.length else .failed,
          { f with opened := some (.fat (appended (bytesOf group ++ b.bytes.take n))) }) := by
    rw [SegFile.writeOpen, writing.opened, ← appends]
    rfl
  rw [fileWrite, write]
  cases done : (segFileWrite (appended (bytesOf group)) b.bytes).1 with
  | false =>
    -- A part may have been written, and counts for nothing.
    rw [if_neg Bool.false_ne_true]
    dsimp only
    exact ⟨fun other => Bool.noConfusion other,
      fun _ => bounded_close writing.current rfl writing.volume fits last⟩
  | true =>
    have all : b.bytes.take n = b.bytes := List.take_of_length_le (whole done)
    have joined : bytesOf group ++ b.bytes = bytesOf (group ++ [b]) := by
      rw [bytesOf_append]
      simp [bytesOf]
    rw [all, joined] at last
    rw [if_pos rfl, all, joined]
    dsimp only
    rw [if_neg (by simp)]
    have size : f.currentfilesize + b.bytes.length = Split.total blockSize (group ++ [b]) := by
      rw [← length_bytesOf, ← joined, List.length_append, writing.size]
    rw [Continues]
    by_cases full : SPLIT_SIZE < Split.total blockSize (group ++ [b])
    · have goesOn : f.ifneedseg = true ∧ SPLIT_SIZE < f.currentfilesize + b.bytes.length := by
        rw [size]
        exact ⟨writing.segmented, full⟩
      rw [if_pos goesOn, if_pos full]
      cases b.refused with
      | true =>
        refine ⟨fun other => Bool.noConfusion other, fun _ => ?_⟩
        have bounded := bounded_close
          (f := { f with
            currentfilesize := f.currentfilesize + b.bytes.length
            opened := some (.fat (appended (bytesOf (group ++ [b])))) })
          writing.current rfl writing.volume fits last
        exact bounded
      | false =>
        refine ⟨fun _ => ⟨?_, last⟩, fun other => Bool.noConfusion other⟩
        have next := nextSegment_writing
          (f := { f with
            currentfilesize := f.currentfilesize + b.bytes.length
            opened := some (.fat (appended (bytesOf (group ++ [b])))) })
          writing.backend writing.segmented writing.current rfl writing.volume rfl
        exact next
    · have stays : ¬(f.ifneedseg = true ∧ SPLIT_SIZE < f.currentfilesize + b.bytes.length) := by
        rw [size]
        exact fun both => full both.2
      rw [if_neg stays, if_neg full]
      refine ⟨fun _ => ⟨⟨writing.backend, writing.segmented, writing.current, ?_, rfl, writing.volume, ?_⟩,
        last⟩, fun other => Bool.noConfusion other⟩
      · dsimp only
        rw [size, length_bytesOf]
      · rw [length_bytesOf]
        omega

/-- The run puts the blocks into groups, or it fails and leaves no segment too long. -/
theorem writeRun_writing (rest : List Block) :
    ∀ (f : SegFile) (closed : List (List Block)) (group : List Block), f.Writing closed group →
      (∀ b ∈ rest, b ∈ blocks) → (∀ g ∈ closed, SegmentFits blocks (bytesOf g)) →
      SegmentFits blocks (bytesOf group) →
      Bounded blocks (writeRun f rest).2.close.volume ∧
        ((writeRun f rest).1 = true → ∀ k, (writeRun f rest).2.close.volume k =
          (closed ++ Split.groups blockSize SPLIT_SIZE group rest)[k]?.map bytesOf) := by
  -- on the blocks left; `Writing` says which groups are closed and which one is open
  induction rest with
  | nil =>
    intro f closed group writing _ fits last
    rw [writeRun, Split.groups]
    exact ⟨bounded_close writing.current writing.opened writing.volume fits last,
      fun _ => writing.close⟩
  | cons b rest ih =>
    intro f closed group writing members fits last
    obtain ⟨goes, stops⟩ := fileWrite_writing writing (members b List.mem_cons_self) fits
    rw [writeRun, Split.groups]
    generalize fileWrite f b.bytes b.refused = result at goes stops
    obtain ⟨ok, f'⟩ := result
    cases ok with
    | false => exact ⟨stops rfl, fun other => Bool.noConfusion other⟩
    | true =>
      obtain ⟨next, more⟩ := goes rfl
      have members' : ∀ b ∈ rest, b ∈ blocks := fun c member => members c (List.mem_cons_of_mem b member)
      rw [Continues] at next
      dsimp only at next ⊢
      -- behind a full segment the group is closed and the next one starts empty
      by_cases full : SPLIT_SIZE < Split.total blockSize (group ++ [b])
      · rw [if_pos full] at next ⊢
        have fits' : ∀ g ∈ closed ++ [group ++ [b]], SegmentFits blocks (bytesOf g) := by
          intro g member
          cases List.mem_append.mp member with
          | inl before => exact fits g before
          | inr this =>
            rw [List.mem_singleton.mp this]
            exact more
        have empty : SegmentFits blocks (bytesOf []) := ⟨by decide, Or.inl (Nat.zero_le _)⟩
        obtain ⟨bounded, stored⟩ := ih f' _ _ next members' fits' empty
        refine ⟨bounded, fun done => ?_⟩
        rw [List.append_cons]
        exact stored done
      · rw [if_neg full] at next ⊢
        exact ih f' closed _ next members' fits more

/-- A file just created is being written, with nothing in its group. -/
theorem createFile_writing : createFile.Writing [] [] := by
  refine ⟨rfl, rfl, rfl, rfl, rfl, ?_, Nat.zero_le _⟩
  intro k other
  rw [createFile, SegFile.openCreate, if_neg Bool.false_ne_true]
  dsimp only
  rw [storeSegment, if_neg (by exact other)]
  rfl

/-- What a writer leaves behind: no segment too long, and whole blocks in each if none failed. -/
theorem written_spec (blocks : List Block) :
    Bounded blocks (written blocks) ∧
      ((writeRun createFile blocks).1 = true → ∀ k, written blocks k =
        (Split.groups blockSize SPLIT_SIZE [] blocks)[k]?.map bytesOf) :=
  writeRun_writing blocks createFile [] [] createFile_writing (fun _ member => member)
    (fun _ member => by cases member) ⟨by decide, Or.inl (Nat.zero_le _)⟩

end Okr
