import Okr.Proofs.RestoreUnit

/-! The rounds of a restore over the units of one partition, with and without the second thread. -/

namespace Okr

open BufferRing (Buffers Holds advance_mod)

/-- The units of a partition as a backup wrote them: a record for the blocks of each, and where they end. -/
structure UnitsInFile where
  source : Image
  p : PartitionInfo
  bitmap : Bytes
  record : List Nat → UnitRecord
  file : Bytes
  before : Nat → Image
  rest : Bytes
  stop : Nat
  total : Nat

/-- The bytes of the units for some blocks, of which the first one is the item `i` of the file. -/
def UnitsInFile.bytes (u : UnitsInFile) (i : Nat) (units : List (List Nat)) : Bytes :=
  itemsWritten u.before i (units.map fun blocks => .unit (u.record blocks))

/-- What is decompressed of a unit, and nothing behind the last one. -/
def UnitsInFile.dataOf (u : UnitsInFile) : Option (List Nat) → Bytes × Nat
  | none => ([], 0)
  | some blocks => (blockData u.source u.p blocks, (blockData u.source u.p blocks).length)

/-- The file stands in front of the units, and the loop counts their bytes. -/
structure UnitsAhead (j : RecoverJob) (u : UnitsInFile) (i : Nat) (units : List (List Nat)) (s : RecoverState) :
    Prop where
  stands : ∀ blocks ∈ units, (u.record blocks).StandsFor j.compressBlockSize (blockData u.source u.p blocks)
  file : u.file.drop s.filepos = u.bytes i units ++ u.rest
  place : s.filepos + (u.bytes i units).length = u.stop
  size : s.currentdata + (units.map fun blocks => (u.record blocks).align_lz4_size).sum = u.total

variable {j : RecoverJob} {u : UnitsInFile} {s : RecoverState} {i fuel taken : Nat}
variable {units : List (List Nat)} {held : Option (List Nat)} {dest : Image}

/-- A read takes the next unit, and nothing once they have all been read. -/
theorem UnitsAhead.readUnit (reading : UnitsAhead j u i units s) (smooth : j.Smooth) (reads : j.Reads u.file)
    (lz4 : j.LZ4_decompress_safe = lz4DecompressSafe dest j.compressBlockSize) (small : u.total < 2 ^ 64)
    (buffer : RecoverBuffer) :
    ∃ buffer' filepos head currentdata, j.readUnit u.total buffer s
        = some (buffer', { s with filepos := filepos, lz4_buffer_head := head, currentdata := currentdata })
      ∧ j.decompress buffer' = some (u.dataOf units.head?)
      ∧ UnitsAhead j u (i + 1) units.tail
        { s with filepos := filepos, lz4_buffer_head := head, currentdata := currentdata } := by
  have size := reading.size
  cases units with
  | nil =>
    rw [List.map_nil, List.sum_nil, Nat.add_zero] at size
    refine ⟨{ buffer with usedsize := 0 }, s.filepos, s.lz4_buffer_head, s.currentdata, ?_, rfl, ?_⟩
    · rw [RecoverJob.readUnit, if_neg (by omega)]
    · exact ⟨fun blocks member => absurd member List.not_mem_nil, reading.file, reading.place, reading.size⟩
  | cons blocks units =>
    have stands := reading.stands blocks List.mem_cons_self
    have file := reading.file
    have place := reading.place
    have positive := List.length_pos_iff.mpr stands.some_
    have least := (calcAliginSize_bounds ((u.record blocks).data.length + LZ4_BUFFER_HEAD_SIZE)).1
    rw [← stands.align_lz4_size] at least
    rw [UnitsInFile.bytes, List.map_cons, itemsWritten, FileItem.written] at file place
    rw [List.append_assoc] at file
    rw [List.length_append, UnitRecord.length_written] at place
    rw [List.map_cons, List.sum_cons] at size
    obtain ⟨buffer', head, read, opens⟩ := readUnit_written reads stands smooth.fits smooth.room lz4
      (show s.currentdata < u.total by omega) file (by omega) buffer
    refine ⟨buffer', _, head, _, read, opens, fun b member => reading.stands b (List.mem_cons_of_mem _ member),
      ?_, ?_, ?_⟩
    · show u.file.drop (s.filepos + (u.record blocks).align_lz4_size) = _
      rw [← List.drop_drop, file, List.drop_left' (UnitRecord.length_written _ _)]
      rfl
    · show s.filepos + (u.record blocks).align_lz4_size + _ = _
      rw [← place, Nat.add_assoc]
      rfl
    · show s.currentdata + (u.record blocks).align_lz4_size + _ = _
      rw [← size, Nat.add_assoc]
      rfl

/-- What the rounds of a partition leave: the file behind its units, and the blocks with their content. -/
structure Restored (u : UnitsInFile) (blocks : List Nat) (s after : RecoverState) : Prop where
  file : u.file.drop after.filepos = u.rest
  place : after.filepos = u.stop
  written : ∀ a, u.p.InBlocks blocks (a / SECTOR_SIZE) → after.disk a = u.source a
  other : ∀ a, ¬ u.p.InBlocks blocks (a / SECTOR_SIZE) → after.disk a = s.disk a

/-- Blocks that were written, and those the rounds behind write. -/
theorem WroteBlocks.restored {blocks rest : List Nat} {after last : RecoverState}
    (wrote : WroteBlocks u.source u.p u.bitmap blocks rest s after) (restored : Restored u rest after last) :
    Restored u (blocks ++ rest) s last where
  file := restored.file
  place := restored.place
  written a inside := by
    by_cases later : u.p.InBlocks rest (a / SECTOR_SIZE)
    · exact restored.written a later
    · rw [restored.other a later]
      exact wrote.written a ⟨inside.1, (List.mem_append.mp inside.2).resolve_right fun there => later ⟨inside.1, there⟩⟩
  other a outside := by
    rw [restored.other a fun there => outside ⟨there.1, List.mem_append_right _ there.2⟩]
    exact wrote.other a fun there => outside ⟨there.1, List.mem_append_left _ there.2⟩

/-- Where nothing is left the loop is over. -/
theorem endRound_none (smooth : j.Smooth) (p : PartitionInfo) (bitmap : Bytes) (s : RecoverState) :
    ∃ after, j.endRound p bitmap (some (u.dataOf none)) s = .done (some (true, after))
      ∧ after.filepos = s.filepos ∧ after.disk = s.disk := by
  refine ⟨{ s with breaks := s.breaks + 1, memory := putBytes s.memory j.g_lz4_buffer [] }, ?_, rfl, rfl⟩
  unfold RecoverJob.endRound
  rw [smooth.unbroken]
  rfl

/-- What surrounds the rounds of a partition: they are smooth, and read the file and decompress its units. -/
structure RecoverJob.Serves (j : RecoverJob) (u : UnitsInFile) : Prop where
  smooth : j.Smooth
  reads : j.Reads u.file
  lz4 : ∃ dest, j.LZ4_decompress_safe = lz4DecompressSafe dest j.compressBlockSize
  small : u.total < 2 ^ 64
  ends : u.p.bootBegin + u.p.totalSectors < 2 ^ 64

/-- The variables of the loop stand in front of blocks that are still to be written. -/
structure InFront (j : RecoverJob) (u : UnitsInFile) (units : List (List Nat)) (s : RecoverState) : Prop where
  marks : markedFrom u.p u.bitmap s.currentblock = units.flatten
  some_ : ∀ blocks ∈ units, blocks ≠ [] ∧ blocks.length * BLOCK_BYTES ≤ j.compressBlockSize
  within : s.currentblock ≤ maxblock u.p
  idle : s.info.pending.number = 0
  func : s.info.func = .write

/-- The end of a round that got the first unit's data writes it. -/
theorem InFront.endRound {blocks : List Nat} (front : InFront j u (blocks :: units) s) (serves : j.Serves u) :
    ∃ after, j.endRound u.p u.bitmap (some (u.dataOf (some blocks))) s = .next after
      ∧ WroteBlocks u.source u.p u.bitmap blocks units.flatten s after ∧ InFront j u units after := by
  obtain ⟨some_, short⟩ := front.some_ blocks List.mem_cons_self
  obtain ⟨after, next, wrote⟩ := @endRound_unit j u.p u.bitmap s u.source blocks units.flatten serves.smooth
    serves.ends front.marks some_ short front.within front.idle front.func
  exact ⟨after, next, wrote, wrote.marks, fun b member => front.some_ b (List.mem_cons_of_mem _ member),
    wrote.within, wrote.idle, wrote.func⟩

/-- A round with one thread is the read of a unit and the end of the round with its data. -/
theorem UnitsAhead.single (reading : UnitsAhead j u i units s) (serves : j.Serves u) (free : s.ring.valid 0 = false) :
    ∃ s', j.syncRound false u.p u.bitmap u.total s
        = j.endRound u.p u.bitmap (some (u.dataOf units.head?)) s'
      ∧ UnitsAhead j u (i + 1) units.tail s' ∧ s'.ring.valid 0 = false ∧ s'.disk = s.disk
      ∧ s'.currentblock = s.currentblock ∧ s'.info = s.info := by
  obtain ⟨dest, lz4⟩ := serves.lz4
  have before : UnitsAhead j u i units { s with breaks := s.breaks + 1 } :=
    ⟨reading.stands, reading.file, reading.place, reading.size⟩
  obtain ⟨buffer', filepos, head, currentdata, read, opens, after⟩ := before.readUnit serves.smooth serves.reads lz4
    serves.small (s.ring.content 0)
  have content : ((s.ring.fill 0 buffer').publish 0).content 0 = buffer' := by
    simp only [Buffers.publish, Buffers.fill, Function.update_self]
  refine ⟨{ s with
      breaks := s.breaks + 1
      filepos := filepos
      lz4_buffer_head := head
      currentdata := currentdata
      ring := ((s.ring.fill 0 buffer').publish 0).clear 0 }, ?_, ⟨after.stands, after.file, after.place, after.size⟩,
    by simp only [Buffers.clear, Function.update_self], rfl, rfl, rfl⟩
  rw [RecoverJob.syncRound]
  simp only [RecoverState.slot, RecoverState.taken, RecoverJob.advance, Bool.false_eq_true, if_false,
    serves.smooth.unbroken, free, read, Bool.false_and, content, opens]

/-- With one thread the rounds write the units one after the other. -/
theorem rounds_single (serves : j.Serves u) (fuel : Nat) :
    ∀ (i : Nat) (units : List (List Nat)) (s : RecoverState), UnitsAhead j u i units s → InFront j u units s →
      s.ring.valid 0 = false → units.length < fuel →
      ∃ after, Loop.run (j.syncRound false u.p u.bitmap u.total) fuel s = some (some (true, after))
        ∧ Restored u units.flatten s after := by
  induction fuel with
  | zero => exact fun i units s _ _ _ enough => absurd enough (Nat.not_lt_zero _)
  | succ fuel ih =>
    intro i units s reading front free enough
    obtain ⟨s', round, after, free', disk, block, info⟩ := reading.single serves free
    rw [Loop.run, round]
    cases units with
    | nil =>
      obtain ⟨last, done, filepos, same⟩ := @endRound_none j u serves.smooth u.p u.bitmap s'
      have file := after.file
      have place := after.place
      rw [List.head?_nil, done]
      refine ⟨last, rfl, ?_, ?_, fun a inside => absurd inside.2 List.not_mem_nil, fun a _ => by rw [same, disk]⟩
      · rw [filepos]
        exact file
      · rw [filepos]
        exact place
    | cons blocks units =>
      have front' : InFront j u (blocks :: units) s' :=
        ⟨by rw [block]; exact front.marks, front.some_, by rw [block]; exact front.within,
          by rw [info]; exact front.idle, by rw [info]; exact front.func⟩
      obtain ⟨next, ended, wrote, behind⟩ := front'.endRound serves
      obtain ⟨last, run, restored⟩ := ih (i + 1) units next
        ⟨after.stands, by rw [wrote.filepos]; exact after.file, by rw [wrote.filepos]; exact after.place,
          by rw [wrote.currentdata]; exact after.size⟩
        behind (by rw [wrote.ring]; exact free') (by rw [List.length_cons] at enough; omega)
      have all := wrote.restored restored
      rw [List.head?_cons, ended]
      exact ⟨last, run, all.file, all.place, all.written, fun a outside => by rw [← disk]; exact all.other a outside⟩

/-! ### With the second thread -/

/-- Between two rounds the ring holds a buffer with a unit, or with nothing once all have been read. -/
structure RecoverState.Holding (j : RecoverJob) (u : UnitsInFile) (s : RecoverState) (taken : Nat)
    (held : Option (List Nat)) : Prop where
  ring : ∃ buffer, Holds j.number s.ring taken [buffer] ∧ j.decompress buffer = some (u.dataOf held)
  consumer : s.consumer = taken % j.number
  producer : s.producer = (taken + 1) % j.number

/-- A ring of a program with multiple threads has buffers. -/
theorem RecoverJob.number_pos (j : RecoverJob) : 0 < j.number := Nat.lt_of_lt_of_le Nat.two_pos j.number_ge

/-- A round reads the next unit while the one that is held is decompressed, and ends with its data. -/
theorem RecoverState.Holding.round (holding : s.Holding j u taken held) (reading : UnitsAhead j u i units s)
    (serves : j.Serves u) :
    ∃ s', j.syncRound true u.p u.bitmap u.total s = j.endRound u.p u.bitmap (some (u.dataOf held)) s'
      ∧ UnitsAhead j u (i + 1) units.tail s' ∧ s'.Holding j u (taken + 1) units.head? ∧ s'.disk = s.disk
      ∧ s'.currentblock = s.currentblock ∧ s'.info = s.info := by
  obtain ⟨dest, lz4⟩ := serves.lz4
  obtain ⟨old, holds, data⟩ := holding.ring
  have before : UnitsAhead j u i units { s with breaks := s.breaks + 1 } :=
    ⟨reading.stands, reading.file, reading.place, reading.size⟩
  obtain ⟨buffer', filepos, head, currentdata, read, opens, after⟩ := before.readUnit serves.smooth serves.reads lz4
    serves.small (s.ring.content s.producer)
  -- The buffer behind the one that is held is free, and filled it stands behind it in the ring.
  obtain ⟨free, both⟩ := holds.handOver j.number_ge buffer' holding.producer
  have started : s.ring.valid s.consumer = true := by
    rw [holding.consumer, holds.front_valid j.number_pos]
    rfl
  have content : ((s.ring.fill s.producer buffer').publish s.producer).content s.consumer = old := by
    rw [holding.consumer]
    exact both.front_content
  refine ⟨{ s with
      breaks := s.breaks + 1
      filepos := filepos
      lz4_buffer_head := head
      currentdata := currentdata
      ring := ((s.ring.fill s.producer buffer').publish s.producer).clear s.consumer
      producer := BufferRing.advance j.number s.producer
      consumer := BufferRing.advance j.number s.consumer }, ?_,
    ⟨after.stands, after.file, after.place, after.size⟩, ⟨⟨buffer', ?_, opens⟩, ?_, ?_⟩, rfl, rfl, rfl⟩
  · rw [RecoverJob.syncRound]
    simp only [RecoverState.slot, RecoverState.taken, RecoverJob.advance, if_true, Bool.true_and,
      serves.smooth.unbroken, Bool.false_eq_true, if_false, free, read, started, Bool.not_true, content, data]
  · dsimp only
    rw [holding.consumer]
    exact both.clear
  · dsimp only
    rw [holding.consumer]
    exact advance_mod j.number_pos taken
  · dsimp only
    rw [holding.producer]
    exact advance_mod j.number_pos (taken + 1)

/-- The first round only reads, since no buffer waits to be decompressed. -/
theorem UnitsAhead.firstRound (reading : UnitsAhead j u i units s) (serves : j.Serves u)
    (empty : Holds j.number s.ring 0 []) (consumer : s.consumer = 0) (producer : s.producer = 0) :
    ∃ s', j.syncRound true u.p u.bitmap u.total s = .next s' ∧ UnitsAhead j u (i + 1) units.tail s'
      ∧ s'.Holding j u 0 units.head? ∧ s'.disk = s.disk ∧ s'.currentblock = s.currentblock
      ∧ s'.info = s.info := by
  obtain ⟨dest, lz4⟩ := serves.lz4
  have before : UnitsAhead j u i units { s with breaks := s.breaks + 1 } :=
    ⟨reading.stands, reading.file, reading.place, reading.size⟩
  obtain ⟨buffer', filepos, head, currentdata, read, opens, after⟩ := before.readUnit serves.smooth serves.reads lz4
    serves.small (s.ring.content 0)
  obtain ⟨free, one⟩ := @Holds.handOver RecoverBuffer j.number 0 s.ring [] empty j.number_pos buffer' 0
    (Nat.zero_mod _).symm
  have waits : s.ring.valid 0 = false := free
  have next := advance_mod j.number_pos 0
  rw [Nat.zero_mod] at next
  refine ⟨{ s with
      breaks := s.breaks + 1 + 1
      filepos := filepos
      lz4_buffer_head := head
      currentdata := currentdata
      ring := (s.ring.fill 0 buffer').publish 0
      producer := BufferRing.advance j.number 0
      memory := putBytes s.memory j.g_lz4_buffer [] }, ?_,
    ⟨after.stands, after.file, after.place, after.size⟩, ⟨⟨buffer', one, opens⟩, ?_, next⟩, rfl, rfl, rfl⟩
  · simp only [consumer, producer] at read
    rw [RecoverJob.syncRound]
    simp only [RecoverState.slot, RecoverState.taken, RecoverJob.advance, if_true, Bool.true_and, consumer, producer,
      serves.smooth.unbroken, Bool.false_eq_true, if_false, waits, read, Bool.not_false]
    unfold RecoverJob.endRound
    rw [serves.smooth.unbroken]
    rfl
  · dsimp only
    rw [consumer, Nat.zero_mod]

/-- With the second thread the rounds write the unit that is held and the units left. -/
theorem rounds_ring (serves : j.Serves u) (fuel : Nat) :
    ∀ (i taken : Nat) (held : Option (List Nat)) (units : List (List Nat)) (s : RecoverState),
      UnitsAhead j u i units s → InFront j u (held.toList ++ units) s → s.Holding j u taken held →
      (held = none → units = []) → held.toList.length + units.length < fuel →
      ∃ after, Loop.run (j.syncRound true u.p u.bitmap u.total) fuel s = some (some (true, after))
        ∧ Restored u (held.toList ++ units).flatten s after := by
  induction fuel with
  | zero => exact fun i taken held units s _ _ _ _ enough => absurd enough (Nat.not_lt_zero _)
  | succ fuel ih =>
    intro i taken held units s reading front holding gone enough
    obtain ⟨s', round, after, holding', disk, block, info⟩ := holding.round reading serves
    rw [Loop.run, round]
    cases held with
    | none =>
      -- The buffer that is held has nothing, and the loop ends.
      obtain rfl := gone rfl
      obtain ⟨last, done, filepos, same⟩ := @endRound_none j u serves.smooth u.p u.bitmap s'
      have file := after.file
      have place := after.place
      rw [done]
      refine ⟨last, rfl, ?_, ?_, fun a inside => absurd inside.2 List.not_mem_nil, fun a _ => by rw [same, disk]⟩
      · rw [filepos]
        exact file
      · rw [filepos]
        exact place
    | some blocks =>
      have front' : InFront j u (blocks :: units) s' :=
        ⟨by rw [block]; exact front.marks, front.some_, by rw [block]; exact front.within,
          by rw [info]; exact front.idle, by rw [info]; exact front.func⟩
      obtain ⟨next, ended, wrote, behind⟩ := front'.endRound serves
      have again : units.head?.toList ++ units.tail = units := by
        cases units <;> rfl
      obtain ⟨last, run, restored⟩ := ih (i + 1) (taken + 1) units.head? units.tail next
        ⟨after.stands, by rw [wrote.filepos]; exact after.file, by rw [wrote.filepos]; exact after.place,
          by rw [wrote.currentdata]; exact after.size⟩
        (by rw [again]; exact behind)
        ⟨by rw [wrote.ring]; exact holding'.ring, by rw [wrote.consumer]; exact holding'.consumer,
          by rw [wrote.producer]; exact holding'.producer⟩
        (fun none_ => by rw [List.head?_eq_none_iff.mp none_]; rfl)
        (by
          rw [← List.length_append, again]
          rw [Option.toList_some, List.length_singleton] at enough
          omega)
      rw [again] at restored
      have all := wrote.restored restored
      rw [ended]
      exact ⟨last, run, all.file, all.place, all.written, fun a outside => by rw [← disk]; exact all.other a outside⟩

/-- In either mode the rounds write all units of the partition. -/
theorem rounds_restore (serves : j.Serves u) (bMultiThread : Bool) {fuel : Nat} (reading : UnitsAhead j u i units s)
    (front : InFront j u units s) (empty : ∀ slot, s.ring.valid slot = false) (consumer : s.consumer = 0)
    (producer : s.producer = 0) (enough : units.length + 2 ≤ fuel) :
    ∃ after, Loop.run (j.syncRound bMultiThread u.p u.bitmap u.total) fuel s = some (some (true, after))
      ∧ Restored u units.flatten s after := by
  cases bMultiThread with
  | false => exact rounds_single serves fuel i units s reading front (empty 0) (by omega)
  | true =>
    obtain ⟨fuel, rfl⟩ : ∃ n, fuel = n + 1 := ⟨fuel - 1, by omega⟩
    obtain ⟨s', first, after, holding, disk, block, info⟩ := reading.firstRound serves (.empty empty) consumer producer
    have again : units.head?.toList ++ units.tail = units := by
      cases units <;> rfl
    obtain ⟨last, run, restored⟩ := rounds_ring serves fuel (i + 1) 0 units.head? units.tail s' after
      (by
        rw [again]
        exact ⟨by rw [block]; exact front.marks, front.some_, by rw [block]; exact front.within,
          by rw [info]; exact front.idle, by rw [info]; exact front.func⟩)
      holding (fun none_ => by rw [List.head?_eq_none_iff.mp none_]; rfl)
      (by rw [← List.length_append, again]; omega)
    rw [again] at restored
    rw [Loop.run, first]
    exact ⟨last, run, restored.file, restored.place, restored.written,
      fun a outside => by rw [← disk]; exact restored.other a outside⟩

end Okr
