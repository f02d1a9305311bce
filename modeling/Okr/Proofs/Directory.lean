import Mathlib.Data.List.GetD
import Okr.Scan.Directory

/-! The search of a FAT directory finds an entry only where its steps of forty bytes lead. -/

namespace Okr

/-- A character of a name in upper case. -/
def upper (c : Byte) : Byte := if 0x61 ≤ c.toNat ∧ c.toNat ≤ 0x7a then c - 0x20 else c

/-- A name of at most eight characters, and an extension of at most three. -/
structure Name83 where
  base : Bytes
  extension : Bytes
  some_ : base ≠ []
  base_short : base.length ≤ 8
  extension_short : extension.length ≤ 3
  plain : ∀ c ∈ base ++ extension, c ≠ 0 ∧ c ≠ 0x2e

namespace Name83

/-- The name as it is written, with a point in front of the extension. -/
def text (n : Name83) : Bytes :=
  n.base ++ if n.extension = [] then [] else 0x2e :: n.extension

/-- The eleven characters of the name, in upper case and with spaces in them. -/
def padded (n : Name83) : Bytes :=
  n.base.map upper ++ List.replicate (8 - n.base.length) 0x20
    ++ (n.extension.map upper ++ List.replicate (3 - n.extension.length) 0x20)

/-- The characters as an entry has them: its first byte says that it is deleted when it is 0xE5. -/
def stored (n : Name83) (i : Nat) : Byte :=
  if i = 0 ∧ n.padded.getD 0 0 = 0xe5 then 0x05 else n.padded.getD i 0

end Name83

/-! ### What a directory says -/

/-- The entry at an address is a file or a directory of a name, and not deleted. -/
def EntryNamed (dir : Image) (n : Name83) (entry : Nat) : Prop :=
  dir entry ≠ 0xe5 ∧ dir (entry + 11) &&& 0x08 = 0
    ∧ ∀ i < 11, upper (dir (entry + i)) = n.stored i

instance (dir : Image) (n : Name83) (entry : Nat) : Decidable (EntryNamed dir n entry) :=
  inferInstanceAs (Decidable (_ ∧ _ ∧ _))

/-- The first entry of a name among so many from one on; a zero byte marks the end of all. -/
def namedEntry (dir : Image) (n : Name83) : Nat → Nat → Option Nat
  | 0, _ => none
  | count + 1, j =>
    if dir (32 * j) = 0 then none
    else if EntryNamed dir n (32 * j) then some (32 * j)
    else namedEntry dir n count (j + 1)

/-- The sectors of all pieces. -/
def directorySectors (pieces : List LoadedSectors) : Nat := (pieces.map (·.sectors)).sum

/-- The entry that the directory has of the name. -/
def directoryEntry (dir : Image) (n : Name83) (pieces : List LoadedSectors) : Option Nat :=
  namedEntry dir n (16 * directorySectors pieces) 0

/-- Every pass over the loaded sectors reads inside them. -/
def PieceInside (fileName : Bytes) (buffer : Image) (size : Nat) : Prop :=
  ∀ k s, Loop.Passes (directoryPass (directoryName fileName) buffer) k ⟨0, size % 2 ^ 16⟩ s →
    ∀ a ∈ directoryReads (directoryName fileName) buffer s, a.1 + a.2 ≤ size

/-- The search reads inside every piece that it comes to. -/
def SearchInside (fileName : Bytes) (dir : Image) : List LoadedSectors → Nat → Prop
  | [], _ => True
  | piece :: pieces, first =>
    PieceInside fileName (piece.buffer dir first) (piece.sectors * SECTOR_SIZE)
      ∧ ((∃ fuel, getDirectoryItem fuel fileName (piece.buffer dir first)
            (piece.sectors * SECTOR_SIZE) = some none) →
          SearchInside fileName dir pieces (first + piece.sectors))

/-- The search finds the entry of a name, or that there is none, in the sectors that are loaded. -/
structure FindsEntry (n : Name83) (dir : Image) (pieces : List LoadedSectors) : Prop where
  found : ∃ fuel, searchDirectory fuel n.text dir pieces 0 = some (directoryEntry dir n pieces)
  inside : SearchInside n.text dir pieces 0

/-! ### Where the steps lead -/

/-- A character of the name is at a place of the buffer, in one case or the other. -/
def SpeltAt (n : Name83) (buffer : Image) (pos i : Nat) : Prop :=
  upper (buffer (pos + i)) = n.padded.getD i 0

/-- At a place is no zero byte, and a character inside the piece is the first that is not the name's. -/
def PassedAt (n : Name83) (buffer : Image) (size pos : Nat) : Prop :=
  buffer pos ≠ 0 ∧ ∃ i < 11, pos + i < size ∧ (∀ j < i, SpeltAt n buffer pos j) ∧ ¬ SpeltAt n buffer pos i

/-- The name is at a place, and the byte behind it is inside the piece. -/
def NameAt (n : Name83) (buffer : Image) (size pos : Nat) : Prop :=
  buffer pos ≠ 0 ∧ pos + 12 ≤ size ∧ ∀ i < 11, SpeltAt n buffer pos i

/-- Steps of forty bytes lead to the name. -/
def StridesTo (n : Name83) (buffer : Image) (size pos : Nat) : Prop :=
  ∃ m, pos = FAT_DIRECTORY_ENTRY * m ∧ (∀ j < m, PassedAt n buffer size (FAT_DIRECTORY_ENTRY * j))
    ∧ NameAt n buffer size pos

/-- Steps of forty bytes lead past other names, and to a zero byte or just to the end of the piece. -/
def StridesPast (n : Name83) (buffer : Image) (size : Nat) : Prop :=
  ∃ m, (∀ j < m, PassedAt n buffer size (FAT_DIRECTORY_ENTRY * j))
    ∧ (FAT_DIRECTORY_ENTRY * m = size
      ∨ FAT_DIRECTORY_ENTRY * m < size ∧ buffer (FAT_DIRECTORY_ENTRY * m) = 0)

/--
The steps lead where the directory has its entry.

They go past every piece in front of the one with the entry, and past all when there is none.
-/
def EntryInStride (n : Name83) (dir : Image) (entry : Option Nat) : List LoadedSectors → Nat → Prop
  | [], _ => True
  | piece :: pieces, first =>
    let buffer := piece.buffer dir first
    let size := piece.sectors * SECTOR_SIZE
    match entry with
    | none => StridesPast n buffer size ∧ EntryInStride n dir entry pieces (first + piece.sectors)
    | some e =>
      if e < first * SECTOR_SIZE + size then StridesTo n buffer size (e - first * SECTOR_SIZE)
      else StridesPast n buffer size ∧ EntryInStride n dir entry pieces (first + piece.sectors)

/-! ### The name -/

/-- The letters of a `char` are those of its byte. -/
theorem revertChar_eq (c : Byte) : revertChar c = upper c := by
  have small := c.toNat_lt
  unfold revertChar upper char char8
  split <;> split <;> first | rfl | omega

/-- A small letter loses one bit in upper case. -/
theorem upper_toNat (c : Byte) :
    (upper c).toNat = if 0x61 ≤ c.toNat ∧ c.toNat ≤ 0x7a then c.toNat - 0x20 else c.toNat := by
  -- A small letter has the bit, so nothing is borrowed.
  unfold upper
  split
  · rename_i letter
    exact UInt8.toNat_sub_of_le _ _ (UInt8.le_iff_toNat_le.mpr (by simpa using by omega))
  · rfl

/-- The loop copies characters without a point, as long as there is room. -/
theorem revertLoop_plain {chars : Bytes} (plain : ∀ c ∈ chars, c ≠ 0 ∧ c ≠ 0x2e) (rest : Bytes)
    (i : Nat) (dosName : Bytes) (room : i + chars.length ≤ 11) :
    revertLoop (chars ++ rest) i dosName
      = revertLoop rest (i + chars.length) (dosName ++ chars.map upper) := by
  -- Each character is copied, and the rest of the name is left for later.
  induction chars generalizing i dosName with
  | nil => simp
  | cons c chars ih =>
    have notPoint := (plain c (List.mem_cons_self ..)).2
    rw [List.length_cons] at room
    have step := ih (fun d mem => plain d (List.mem_cons_of_mem _ mem)) (i + 1)
      (dosName ++ [upper c]) (by omega)
    rw [List.append_assoc, List.singleton_append, Nat.add_assoc, Nat.add_comm 1] at step
    rw [List.length_cons, List.map_cons, ← step, List.cons_append]
    cases tail : chars ++ rest with
    | nil => simp [revertLoop, show ¬ i > 11 by omega, notPoint, revertChar_eq]
    | cons next fileName =>
      simp [revertLoop, show ¬ i > 11 by omega, notPoint, revertChar_eq]

/-- The point behind a name leads to the ninth character. -/
theorem revertLoop_point {extension : Bytes} (some_ : extension ≠ []) {i : Nat} (positive : i ≠ 0)
    (short : i ≤ 8) (dosName : Bytes) :
    revertLoop (0x2e :: extension) i dosName
      = revertLoop extension 8 (dosName ++ List.replicate (8 - i) 0x20) := by
  obtain ⟨c, rest, rfl⟩ := List.exists_cons_of_ne_nil some_
  rw [revertLoop, if_neg (by omega), if_neg (by simp), if_neg positive]
  by_cases less : i < 8
  · rw [if_pos less]
  · have eight : i = 8 := by omega
    rw [if_neg less, if_neg (by omega), eight, Nat.sub_self, List.replicate_zero, List.append_nil]

/-- A name and its extension come out in upper case, with spaces behind each. -/
theorem revertFileName_text (n : Name83) : revertFileName n.text = (true, n.padded) := by
  have base := fun c mem => n.plain c (List.mem_append_left _ mem)
  have extension := fun c mem => n.plain c (List.mem_append_right _ mem)
  have short := n.base_short
  have short' := n.extension_short
  rw [revertFileName, Name83.text, revertLoop_plain base _ 0 [] (by omega), List.nil_append,
    Nat.zero_add, Name83.padded]
  -- Without an extension there is no point, either.
  by_cases none_ : n.extension = []
  · rw [if_pos none_, none_, revertLoop]
    -- The spaces of the extension follow those of the name.
    have spaces : 11 - n.base.length = 8 - n.base.length + 3 := by omega
    simp only [List.map_nil, List.length_nil, List.nil_append, List.append_assoc,
      List.replicate_append_replicate, spaces, Nat.sub_zero]
  · rw [if_neg none_, revertLoop_point none_ (by simpa using n.some_) short]
    have all := revertLoop_plain extension [] 8
      (n.base.map upper ++ List.replicate (8 - n.base.length) 0x20) (by omega)
    rw [List.append_nil, revertLoop] at all
    have spaces : 11 - (8 + n.extension.length) = 3 - n.extension.length := by omega
    simp only [all, spaces, List.append_assoc]

/-- A character that a name can have in upper case. -/
def Capital (c : Byte) : Prop := c.toNat ≠ 0 ∧ ¬ (0x61 ≤ c.toNat ∧ c.toNat ≤ 0x7a)

/-- A character in upper case is a capital one, unless it is the zero byte. -/
theorem capital_upper {c : Byte} (some_ : c ≠ 0) : Capital (upper c) := by
  have nonzero : c.toNat ≠ 0 := fun zero => some_ (UInt8.toNat_inj.mp zero)
  unfold Capital
  rw [upper_toNat]
  split <;> omega

/-- All characters of a padded name are capital. -/
theorem Name83.padded_capital (n : Name83) : ∀ c ∈ n.padded, Capital c := by
  -- A character of the padding is a letter in upper case or a space.
  have letters : ∀ c ∈ n.base ++ n.extension, Capital (upper c) := fun c mem =>
    capital_upper (n.plain c mem).1
  have space : Capital 0x20 := by unfold Capital; decide
  intro c mem
  simp only [Name83.padded, List.mem_append, List.mem_map, List.mem_replicate] at mem
  rcases mem with (⟨d, mem, rfl⟩ | ⟨-, rfl⟩) | (⟨d, mem, rfl⟩ | ⟨-, rfl⟩)
  · exact letters d (List.mem_append_left _ mem)
  · exact space
  · exact letters d (List.mem_append_right _ mem)
  · exact space

/-- A padded name has eleven characters. -/
theorem Name83.padded_length (n : Name83) : n.padded.length = 11 := by
  have short := n.base_short
  have short' := n.extension_short
  simp only [Name83.padded, List.length_append, List.length_map, List.length_replicate]
  omega

/-- The array has the padded name. -/
theorem directoryName_text (n : Name83) {i : Nat} (inside : i < 11) :
    directoryName n.text i = n.padded.getD i 0 := by
  rw [directoryName, if_pos inside, revertFileName_text]

/-- Its characters are capital. -/
theorem directoryName_capital (n : Name83) {i : Nat} (inside : i < 11) :
    Capital (directoryName n.text i) := by
  rw [directoryName_text n inside, List.getD_eq_getElem _ _ (by rwa [n.padded_length])]
  exact n.padded_capital _ (List.getElem_mem _)

/-! ### The comparison -/

/-- The loop of `strnicmp` goes on over a capital character just when the other one spells it. -/
theorem strnicmp_goes {a : Byte} (capital : Capital a) (b : Byte) :
    (strnicmpGoes (char a) (char b) = true ∧ ¬ (char a > char b ∧ (char a < 0x61 ∨ char a > 0x7a))
        ∧ ¬ (char a < char b ∧ (char a < 0x41 ∨ char a > 0x5a))) ↔ upper b = a := by
  -- Both sides say the same of the numbers of the two characters.
  have small := a.toNat_lt
  have small' := b.toNat_lt
  obtain ⟨some_, capital⟩ := capital
  rw [← UInt8.toNat_inj, upper_toNat, strnicmpGoes, decide_eq_true_eq]
  unfold char char8
  split <;> omega

variable {str1 str2 : Image} {len i : Nat}

/-- Over a character that is spelt the comparison goes on with the next one. -/
theorem strnicmp_spelt (capital : Capital (str1 i)) (spelt : upper (str2 i) = str1 i) :
    strnicmpFrom str1 str2 (len + 1) i = strnicmpFrom str1 str2 len (i + 1)
      ∧ strnicmpReads str1 str2 (len + 1) i = strnicmpReads str1 str2 len (i + 1) + 1 := by
  obtain ⟨goes, above, below⟩ := (strnicmp_goes capital (str2 i)).mpr spelt
  constructor
  · simp only [strnicmpFrom]
    rw [if_pos goes, if_neg above, if_neg below]
  · simp only [strnicmpReads]
    rw [if_pos goes, if_neg above, if_neg below]

/-- It stops at the first character that is not. -/
theorem strnicmp_differs (capital : Capital (str1 i)) (differs : upper (str2 i) ≠ str1 i) :
    strnicmpFrom str1 str2 (len + 1) i ≠ 0 ∧ strnicmpReads str1 str2 (len + 1) i = 1 := by
  -- One of the conditions of the loop fails, and every way out has a result.
  have stops := mt (strnicmp_goes capital (str2 i)).mp differs
  simp only [strnicmpFrom, strnicmpReads]
  by_cases goes : strnicmpGoes (char (str1 i)) (char (str2 i)) = true
  · rw [if_pos goes, if_pos goes]
    by_cases above : char (str1 i) > char (str2 i) ∧ (char (str1 i) < 0x61 ∨ char (str1 i) > 0x7a)
    · rw [if_pos above, if_pos above]
      exact ⟨by decide, rfl⟩
    · have below := not_not.mp fun below => stops ⟨goes, above, below⟩
      rw [if_neg above, if_neg above, if_pos below, if_pos below]
      exact ⟨by decide, rfl⟩
  · rw [if_neg goes, if_neg goes]
    -- Equal characters would be spelt.
    have unequal : char (str1 i) ≠ char (str2 i) := by
      intro equal
      apply differs
      have small := (str1 i).toNat_lt
      have small' := (str2 i).toNat_lt
      obtain ⟨-, capital⟩ := capital
      rw [← UInt8.toNat_inj, upper_toNat]
      unfold char char8 at equal
      split <;> omega
    rw [if_neg unequal]
    split <;> exact ⟨by decide, rfl⟩

/-- The comparison is without a difference just when all characters are spelt. -/
theorem strnicmp_eq_zero (capital : ∀ k < len, Capital (str1 (i + k))) :
    strnicmpFrom str1 str2 len i = 0 ↔ ∀ k < len, upper (str2 (i + k)) = str1 (i + k) := by
  -- The first character decides, or the comparison is that of the others.
  induction len generalizing i with
  | zero => simp [strnicmpFrom]
  | succ len ih =>
    have first : Capital (str1 i) := capital 0 (by omega)
    have later : ∀ k < len, Capital (str1 (i + 1 + k)) := by
      intro k less
      have := capital (k + 1) (by omega)
      rwa [show i + (k + 1) = i + 1 + k by omega] at this
    rw [Nat.forall_lt_succ_left]
    by_cases spelt : upper (str2 i) = str1 i
    · rw [(strnicmp_spelt first spelt).1, ih later]
      simp only [Nat.add_zero, spelt, true_and, Nat.add_assoc, Nat.add_comm 1]
    · simp only [(strnicmp_differs first spelt).1, Nat.add_zero, spelt, false_and]

/-- A comparison without a difference looks at one character behind the last. -/
theorem strnicmpReads_all (capital : ∀ k < len, Capital (str1 (i + k)))
    (spelt : ∀ k < len, upper (str2 (i + k)) = str1 (i + k)) :
    strnicmpReads str1 str2 len i = len + 1 := by
  -- Every character is read once, and the last look is behind them.
  induction len generalizing i with
  | zero => rfl
  | succ len ih =>
    have next : ∀ k, i + (k + 1) = i + 1 + k := fun k => by omega
    rw [(strnicmp_spelt (i := i) (capital 0 (by omega)) (spelt 0 (by omega))).2, ih]
    · intro k less
      rw [← next]
      exact capital (k + 1) (by omega)
    · intro k less
      rw [← next]
      exact spelt (k + 1) (by omega)

/-- A comparison with a difference looks at no character behind the first one that differs. -/
theorem strnicmpReads_differs {k : Nat} (less : k < len)
    (capital : ∀ j ≤ k, Capital (str1 (i + j)))
    (spelt : ∀ j < k, upper (str2 (i + j)) = str1 (i + j))
    (differs : upper (str2 (i + k)) ≠ str1 (i + k)) :
    strnicmpReads str1 str2 len i = k + 1 := by
  -- The induction is on the characters in front of the difference.
  induction k generalizing len i with
  | zero =>
    obtain ⟨rest, rfl⟩ := Nat.exists_eq_add_of_lt less
    rw [Nat.zero_add]
    exact (strnicmp_differs (capital 0 (by omega)) differs).2
  | succ k ih =>
    obtain ⟨rest, rfl⟩ := Nat.exists_eq_add_of_lt less
    have next : ∀ j, i + (j + 1) = i + 1 + j := fun j => by omega
    rw [(strnicmp_spelt (i := i) (capital 0 (by omega)) (spelt 0 (by omega))).2, ih (by omega)]
    · intro j le
      rw [← next]
      exact capital (j + 1) (by omega)
    · intro j less
      rw [← next]
      exact spelt (j + 1) (by omega)
    · rwa [← next]

/-! ### One piece -/

section Piece

variable {n : Name83} {buffer : Image} {size pos m : Nat}

/-- The search compares equal just where the name is spelt. -/
theorem compare_zero :
    strnicmpFrom (directoryName n.text) (bufferFrom buffer pos) 11 0 = 0
      ↔ ∀ i < 11, SpeltAt n buffer pos i := by
  rw [strnicmp_eq_zero fun k less => by rw [Nat.zero_add]; exact directoryName_capital n less]
  simp only [Nat.zero_add]
  -- The array has the padded name, so both sides speak of the same characters.
  constructor
  · intro spelt i less
    rw [SpeltAt, ← directoryName_text n less]
    exact spelt i less
  · intro spelt i less
    rw [directoryName_text n less]
    exact spelt i less

/-- Where the search is after so many steps. -/
def scanAt (size m : Nat) : DirectoryScan :=
  ⟨FAT_DIRECTORY_ENTRY * m, (size + m * (2 ^ 16 - FAT_DIRECTORY_ENTRY)) % 2 ^ 16⟩

/-- A step has forty bytes. -/
theorem scanAt_pos : (scanAt size m).pos = FAT_DIRECTORY_ENTRY * m := rfl

/-- The counter while the search is in the piece. -/
theorem scanAt_bufferSize (small : size < 2 ^ 16) (inside : FAT_DIRECTORY_ENTRY * m ≤ size) :
    (scanAt size m).bufferSize = size - FAT_DIRECTORY_ENTRY * m := by
  unfold FAT_DIRECTORY_ENTRY at inside
  simp only [scanAt, FAT_DIRECTORY_ENTRY]
  omega

/-- The search goes on from a place. -/
structure GoesOn (n : Name83) (buffer : Image) (s : DirectoryScan) : Prop where
  counter : s.bufferSize ≠ 0
  byte : buffer s.pos ≠ 0
  other : ¬ ∀ i < 11, SpeltAt n buffer s.pos i

/-- The name is where the search is. -/
structure AtName (n : Name83) (buffer : Image) (s : DirectoryScan) : Prop where
  counter : s.bufferSize ≠ 0
  byte : buffer s.pos ≠ 0
  name : ∀ i < 11, SpeltAt n buffer s.pos i

/-- A pass goes on, is at the name or is at an end. -/
theorem directoryPass_cases (n : Name83) (buffer : Image) (s : DirectoryScan) :
    GoesOn n buffer s ∧ directoryPass (directoryName n.text) buffer s = .next
        ⟨s.pos + FAT_DIRECTORY_ENTRY, (s.bufferSize + 2 ^ 16 - FAT_DIRECTORY_ENTRY) % 2 ^ 16⟩
      ∨ AtName n buffer s ∧ directoryPass (directoryName n.text) buffer s = .done (some s.pos)
      ∨ (s.bufferSize = 0 ∨ buffer s.pos = 0)
        ∧ directoryPass (directoryName n.text) buffer s = .done none := by
  -- The counter and the byte are asked first, then the name is compared.
  rw [directoryPass]
  by_cases open_ : s.bufferSize ≠ 0 ∧ buffer s.pos ≠ 0
  · rw [if_pos open_]
    by_cases name : ∀ i < 11, SpeltAt n buffer s.pos i
    · rw [if_pos (compare_zero.mpr name)]
      exact Or.inr (Or.inl ⟨⟨open_.1, open_.2, name⟩, rfl⟩)
    · rw [if_neg (mt compare_zero.mp name)]
      exact Or.inl ⟨⟨open_.1, open_.2, name⟩, rfl⟩
  · rw [if_neg open_]
    refine Or.inr (Or.inr ⟨?_, rfl⟩)
    by_contra neither
    rw [not_or] at neither
    exact open_ neither

/-- The next place is one step further on. -/
theorem scanAt_succ : (⟨(scanAt size m).pos + FAT_DIRECTORY_ENTRY,
      ((scanAt size m).bufferSize + 2 ^ 16 - FAT_DIRECTORY_ENTRY) % 2 ^ 16⟩ : DirectoryScan)
    = scanAt size (m + 1) := by
  simp only [scanAt, FAT_DIRECTORY_ENTRY, DirectoryScan.mk.injEq]
  omega

/-- So many passes lead to the place of as many steps, if the search goes on at all places before. -/
theorem passes_scanAt {s : DirectoryScan} :
    Loop.Passes (directoryPass (directoryName n.text) buffer) m (scanAt size 0) s
      ↔ s = scanAt size m ∧ ∀ j < m, GoesOn n buffer (scanAt size j) := by
  -- A pass goes on just from a place that the search can pass, and by one step.
  have goes : ∀ j t, directoryPass (directoryName n.text) buffer (scanAt size j) = .next t ↔
      t = scanAt size (j + 1) ∧ GoesOn n buffer (scanAt size j) := by
    intro j t
    rcases directoryPass_cases n buffer (scanAt size j) with ⟨goes, next⟩ | ⟨name, done⟩ | ⟨ended, done⟩
    · rw [next, scanAt_succ, Loop.Pass.next.injEq]
      exact ⟨fun equal => ⟨equal.symm, goes⟩, fun equal => equal.1.symm⟩
    · rw [done]
      exact ⟨fun equal => (by cases equal), fun equal => absurd name.name equal.2.other⟩
    · rw [done]
      refine ⟨fun equal => (by cases equal), fun equal => ?_⟩
      rcases ended with counter | byte
      · exact absurd counter equal.2.counter
      · exact absurd byte equal.2.byte
  rw [Loop.passes_along fun j t next => ((goes j t).mp next).1]
  simp only [goes, true_and]

/-- What a pass reads, when it compares: the place, and the name up to where it is decided. -/
theorem reads_inside_iff {s : DirectoryScan} (counter : s.bufferSize ≠ 0) :
    (∀ a ∈ directoryReads (directoryName n.text) buffer s, a.1 + a.2 ≤ size) ↔
      s.pos + 1 ≤ size ∧ (buffer s.pos ≠ 0 →
        s.pos + strnicmpReads (directoryName n.text) (bufferFrom buffer s.pos) 11 0 ≤ size) := by
  rw [directoryReads, if_neg counter]
  split
  · rename_i zero
    simp [zero]
  · rename_i some_
    simp [some_]

/-- The comparison reads up to the first character that differs. -/
theorem compareReads_differs {i : Nat} (less : i < 11) (spelt : ∀ j < i, SpeltAt n buffer pos j)
    (differs : ¬ SpeltAt n buffer pos i) :
    strnicmpReads (directoryName n.text) (bufferFrom buffer pos) 11 0 = i + 1 := by
  apply strnicmpReads_differs less
  · intro j le
    rw [Nat.zero_add]
    exact directoryName_capital n (by omega)
  · intro j earlier
    rw [Nat.zero_add, directoryName_text n (by omega)]
    exact spelt j earlier
  · rw [Nat.zero_add, directoryName_text n less]
    exact differs

/-- At the name it reads one more byte than the name has. -/
theorem compareReads_name (spelt : ∀ i < 11, SpeltAt n buffer pos i) :
    strnicmpReads (directoryName n.text) (bufferFrom buffer pos) 11 0 = 12 := by
  apply strnicmpReads_all
  · intro i less
    rw [Nat.zero_add]
    exact directoryName_capital n less
  · intro i less
    rw [Nat.zero_add, directoryName_text n less]
    exact spelt i less

/-- A comparison that goes on reads inside just when the difference is inside. -/
theorem passedAt_iff {s : DirectoryScan} (goes : GoesOn n buffer s) :
    (∀ a ∈ directoryReads (directoryName n.text) buffer s, a.1 + a.2 ≤ size)
      ↔ PassedAt n buffer size s.pos := by
  rw [reads_inside_iff goes.counter]
  constructor
  · rintro ⟨-, compare⟩
    have differs : ∃ i, i < 11 ∧ ¬ SpeltAt n buffer s.pos i := by
      have other := goes.other
      push Not at other
      exact other
    -- The first difference decides.
    classical
    obtain ⟨less, other⟩ := Nat.find_spec differs
    have spelt : ∀ j < Nat.find differs, SpeltAt n buffer s.pos j := by
      intro j earlier
      have least := Nat.find_min differs earlier
      rw [not_and, not_not] at least
      exact least (by omega)
    have inside := compare goes.byte
    rw [compareReads_differs less spelt other] at inside
    exact ⟨goes.byte, Nat.find differs, less, by omega, spelt, other⟩
  · rintro ⟨-, i, less, inside, spelt, other⟩
    rw [compareReads_differs less spelt other]
    exact ⟨by omega, fun _ => by omega⟩

/-- The search goes on at a place inside that it can pass. -/
theorem PassedAt.goesOn (small : size < 2 ^ 16)
    (passed : PassedAt n buffer size (FAT_DIRECTORY_ENTRY * m)) :
    GoesOn n buffer (scanAt size m) := by
  obtain ⟨byte, i, less, inside, -, other⟩ := passed
  refine ⟨?_, byte, fun all => other (all i less)⟩
  rw [scanAt_bufferSize small (by omega)]
  omega

/-- A search that reads inside passes all places at which it goes on. -/
theorem PieceInside.passed (inside : PieceInside n.text buffer size)
    (goes : ∀ j < m, GoesOn n buffer (scanAt size j)) :
    ∀ j < m, PassedAt n buffer size (FAT_DIRECTORY_ENTRY * j) := by
  -- The search comes to each of these places, and reads inside there.
  intro j less
  apply (passedAt_iff (goes j less)).mp
  exact inside j _ (passes_scanAt.mpr ⟨rfl, fun k earlier => goes k (by omega)⟩)

/-- A search that reads inside does not step over the end of the piece. -/
theorem PieceInside.le (inside : PieceInside n.text buffer size)
    (goes : ∀ j < m, GoesOn n buffer (scanAt size j)) : FAT_DIRECTORY_ENTRY * m ≤ size := by
  -- The last place was still inside, so at most one step leads out.
  cases m with
  | zero => exact Nat.zero_le _
  | succ m =>
    by_contra beyond
    obtain ⟨-, i, -, before, -, -⟩ := inside.passed goes m (Nat.lt_succ_self m)
    -- The counter has stepped over zero, so the byte behind the piece is read.
    have counter : (scanAt size (m + 1)).bufferSize ≠ 0 := by
      unfold FAT_DIRECTORY_ENTRY at before beyond
      simp only [scanAt, FAT_DIRECTORY_ENTRY]
      omega
    have reads := (reads_inside_iff counter).mp
      (inside (m + 1) _ (passes_scanAt.mpr ⟨rfl, goes⟩))
    exact beyond (Nat.le_of_succ_le reads.1)

/-- The search starts in front of the first step. -/
theorem scanAt_zero : (⟨0, size % 2 ^ 16⟩ : DirectoryScan) = scanAt size 0 := by
  simp [scanAt]

/-- The search reads inside, if it can pass all places before one at which it stops and reads inside. -/
theorem pieceInside_of_stop (small : size < 2 ^ 16)
    (passed : ∀ j < m, PassedAt n buffer size (FAT_DIRECTORY_ENTRY * j))
    (stops : ¬ GoesOn n buffer (scanAt size m))
    (last : ∀ a ∈ directoryReads (directoryName n.text) buffer (scanAt size m), a.1 + a.2 ≤ size) :
    PieceInside n.text buffer size := by
  intro k s passes
  rw [scanAt_zero] at passes
  -- The search is at a place before the stop or at it; it never gets behind.
  obtain ⟨rfl, goes⟩ := passes_scanAt.mp passes
  rcases Nat.lt_trichotomy k m with before | rfl | behind
  · exact (passedAt_iff ((passed k before).goesOn small)).mpr (passed k before)
  · exact last
  · exact absurd (goes m behind) stops

/-- A piece is searched with success and inside just when the steps lead to the name. -/
theorem getDirectoryItem_to (small : size < 2 ^ 16) :
    (∃ fuel, getDirectoryItem fuel n.text buffer size = some (some pos))
        ∧ PieceInside n.text buffer size ↔ StridesTo n buffer size pos := by
  unfold getDirectoryItem
  constructor
  · rintro ⟨⟨fuel, result⟩, inside⟩
    rw [scanAt_zero] at result
    obtain ⟨m, s, -, passes, last⟩ := Loop.run_some result
    have read := inside m s (by rwa [scanAt_zero])
    obtain ⟨rfl, goes⟩ := passes_scanAt.mp passes
    -- Of the three kinds of a last pass only the one at the name gives its place.
    rcases directoryPass_cases n buffer (scanAt size m) with ⟨-, next⟩ | ⟨name, done⟩ | ⟨-, done⟩
    · rw [next] at last
      cases last
    · rw [done] at last
      cases last
      have compare := ((reads_inside_iff name.counter).mp read).2 name.byte
      rw [compareReads_name name.name] at compare
      exact ⟨m, rfl, inside.passed goes, name.byte, compare, name.name⟩
    · rw [done] at last
      cases last
  · rintro ⟨m, rfl, passed, byte, inside, spelt⟩
    -- The search goes on up to the name, where it ends.
    have goes := fun j less => (passed j less).goesOn small
    have counter : (scanAt size m).bufferSize ≠ 0 := by
      rw [scanAt_bufferSize small (by omega)]
      omega
    have stops : ¬ GoesOn n buffer (scanAt size m) := fun goes => goes.other spelt
    refine ⟨⟨m + 1, ?_⟩, ?_⟩
    · rw [scanAt_zero]
      refine Loop.run_done (passes_scanAt.mpr ⟨rfl, goes⟩) ?_ (Nat.lt_succ_self m)
      rw [directoryPass, scanAt_pos, if_pos ⟨counter, byte⟩, if_pos (compare_zero.mpr spelt)]
    · apply pieceInside_of_stop small passed stops
      rw [reads_inside_iff counter, scanAt_pos, compareReads_name spelt]
      exact ⟨by omega, fun _ => inside⟩

/-- The name to which the steps lead is inside the piece. -/
theorem StridesTo.inside (leads : StridesTo n buffer size pos) : pos + 12 ≤ size := by
  obtain ⟨-, -, -, -, inside, -⟩ := leads
  exact inside

/-- A piece is searched in vain and inside just when the steps lead past it. -/
theorem getDirectoryItem_past (small : size < 2 ^ 16) :
    (∃ fuel, getDirectoryItem fuel n.text buffer size = some none) ∧ PieceInside n.text buffer size
      ↔ StridesPast n buffer size := by
  unfold getDirectoryItem
  constructor
  · rintro ⟨⟨fuel, result⟩, inside⟩
    rw [scanAt_zero] at result
    obtain ⟨m, s, -, passes, last⟩ := Loop.run_some result
    obtain ⟨rfl, goes⟩ := passes_scanAt.mp passes
    have le := inside.le goes
    refine ⟨m, inside.passed goes, ?_⟩
    -- The last pass is at an end: no byte is left, or a zero byte.
    rcases directoryPass_cases n buffer (scanAt size m) with ⟨-, next⟩ | ⟨-, done⟩ | ⟨ended, -⟩
    · rw [next] at last
      cases last
    · rw [done] at last
      cases last
    · rw [scanAt_bufferSize small le] at ended
      rcases Nat.lt_or_eq_of_le le with less | all
      · exact Or.inr ⟨less, ended.resolve_left (by omega)⟩
      · exact Or.inl all
  · rintro ⟨m, passed, ended⟩
    -- The search goes on up to the end, which it takes for one.
    have goes := fun j less => (passed j less).goesOn small
    have counter := scanAt_bufferSize (m := m) small
      (by rcases ended with all | ⟨less, -⟩ <;> omega)
    have stop : (scanAt size m).bufferSize = 0 ∨ buffer (scanAt size m).pos = 0 := by
      rcases ended with all | ⟨-, zero⟩
      · exact Or.inl (by omega)
      · exact Or.inr zero
    refine ⟨⟨m + 1, ?_⟩, ?_⟩
    · rw [scanAt_zero]
      refine Loop.run_done (passes_scanAt.mpr ⟨rfl, goes⟩) ?_ (Nat.lt_succ_self m)
      rw [directoryPass, if_neg]
      rintro ⟨open_, byte⟩
      exact stop.elim open_ byte
    · refine pieceInside_of_stop small passed (fun goes => stop.elim goes.counter goes.byte) ?_
      rcases ended with all | ⟨less, zero⟩
      · rw [directoryReads, if_pos (by omega)]
        exact fun a mem => absurd mem (List.not_mem_nil)
      · rw [reads_inside_iff (by omega), scanAt_pos]
        exact ⟨less, fun byte => absurd zero byte⟩

end Piece

/-! ### All pieces -/

section Pieces

variable {n : Name83} {dir : Image} {pieces : List LoadedSectors} {first fuel fuel' e : Nat}

/-- More passes than the search of a piece needs do not change what it finds. -/
theorem getDirectoryItem_mono {fileName : Bytes} {buffer : Image} {size : Nat} {item : Option Nat}
    (le : fuel ≤ fuel') (found : getDirectoryItem fuel fileName buffer size = some item) :
    getDirectoryItem fuel' fileName buffer size = some item := Loop.run_mono found le

/-- More passes than the search needs do not change what it finds. -/
theorem searchDirectory_mono {item : Option Nat} (le : fuel ≤ fuel')
    (result : searchDirectory fuel n.text dir pieces first = some item) :
    searchDirectory fuel' n.text dir pieces first = some item := by
  -- Each piece is searched with the same outcome.
  induction pieces generalizing first with
  | nil => exact result
  | cons piece pieces ih =>
    rw [searchDirectory] at result ⊢
    cases found : getDirectoryItem fuel n.text (piece.buffer dir first) (piece.sectors * SECTOR_SIZE) with
    | none =>
      rw [found] at result
      cases result
    | some place =>
      rw [found] at result
      rw [getDirectoryItem_mono le found]
      cases place with
      | none => exact ih result
      | some pos => exact result

/-- An item that is found is not in front of the pieces. -/
theorem searchDirectory_le
    (result : searchDirectory fuel n.text dir pieces first = some (some e)) :
    first * SECTOR_SIZE ≤ e := by
  -- The first piece with an item decides, and the pieces climb.
  induction pieces generalizing first with
  | nil => cases result
  | cons piece pieces ih =>
    rw [searchDirectory] at result
    split at result
    · cases result
    · cases result
      exact Nat.le_add_right ..
    · have later := ih result
      rw [Nat.add_mul] at later
      omega

/-- A piece is smaller than the 16-bit counter can say. -/
theorem LoadedSectors.small (piece : LoadedSectors) : piece.sectors * SECTOR_SIZE < 2 ^ 16 := by
  have fits := piece.fits
  omega

/-- Behind a piece that is searched in vain the search goes on with the others. -/
theorem search_past {piece : LoadedSectors} {item : Option Nat} :
    ((∃ fuel, getDirectoryItem fuel n.text (piece.buffer dir first) (piece.sectors * SECTOR_SIZE)
          = some none ∧ searchDirectory fuel n.text dir (piece :: pieces) first = some item)
        ∧ SearchInside n.text dir (piece :: pieces) first)
      ↔ StridesPast n (piece.buffer dir first) (piece.sectors * SECTOR_SIZE)
        ∧ (∃ fuel, searchDirectory fuel n.text dir pieces (first + piece.sectors) = some item)
        ∧ SearchInside n.text dir pieces (first + piece.sectors) := by
  -- The two runs are brought together by taking all their passes.
  rw [← getDirectoryItem_past piece.small, SearchInside]
  constructor
  · rintro ⟨⟨fuel, vain, result⟩, inside, later⟩
    rw [searchDirectory, vain] at result
    exact ⟨⟨⟨fuel, vain⟩, inside⟩, ⟨fuel, result⟩, later ⟨fuel, vain⟩⟩
  · rintro ⟨⟨⟨fuel, vain⟩, inside⟩, ⟨fuel', result⟩, later⟩
    have vain' := getDirectoryItem_mono (Nat.le_add_right fuel fuel') vain
    refine ⟨⟨fuel + fuel', vain', ?_⟩, inside, fun _ => later⟩
    rw [searchDirectory, vain']
    exact searchDirectory_mono (Nat.le_add_left ..) result

/-- The search comes to an entry among the pieces, or to no one, just when the steps lead there. -/
theorem search_iff {entry : Option Nat} (low : ∀ e ∈ entry, first * SECTOR_SIZE ≤ e)
    (high : ∀ e ∈ entry, e < (first + directorySectors pieces) * SECTOR_SIZE) :
    ((∃ fuel, searchDirectory fuel n.text dir pieces first = some entry)
        ∧ SearchInside n.text dir pieces first) ↔ EntryInStride n dir entry pieces first := by
  induction pieces generalizing first with
  | nil =>
    -- No entry is left to be found.
    have none_ : entry = none := by
      apply Option.eq_none_iff_forall_not_mem.mpr
      intro e mem
      have below := high e mem
      rw [directorySectors, List.map_nil, List.sum_nil, Nat.add_zero] at below
      exact absurd (low e mem) (Nat.not_le.mpr below)
    rw [none_]
    exact ⟨fun _ => trivial, fun _ => ⟨⟨0, rfl⟩, trivial⟩⟩
  | cons piece pieces ih =>
    have whole : first + directorySectors (piece :: pieces)
        = first + piece.sectors + directorySectors pieces := by
      rw [directorySectors, List.map_cons, List.sum_cons, Nat.add_assoc]
      rfl
    rw [whole] at high
    have next : (first + piece.sectors) * SECTOR_SIZE
        = first * SECTOR_SIZE + piece.sectors * SECTOR_SIZE := Nat.add_mul ..
    unfold EntryInStride
    constructor
    · rintro ⟨⟨fuel, result⟩, inside⟩
      -- The first piece has the item, or the search goes on behind it.
      have unfolded := result
      rw [searchDirectory] at unfolded
      split at unfolded
      · cases unfolded
      · rename_i pos found
        cases unfolded
        have leads := (getDirectoryItem_to piece.small).mp ⟨⟨fuel, found⟩, inside.1⟩
        have before := leads.inside
        dsimp only
        rw [if_pos (by omega), Nat.add_sub_cancel_left]
        exact leads
      · rename_i vain
        obtain ⟨past, ⟨fuel', later⟩, inside'⟩ := search_past.mp ⟨⟨fuel, vain, result⟩, inside⟩
        have low' : ∀ e ∈ entry, (first + piece.sectors) * SECTOR_SIZE ≤ e := by
          rintro e rfl
          exact searchDirectory_le later
        have rest := (ih low' high).mp ⟨⟨fuel', later⟩, inside'⟩
        cases entry with
        | none => exact ⟨past, rest⟩
        | some e =>
          have := low' e rfl
          dsimp only
          rw [if_neg (by omega)]
          exact ⟨past, rest⟩
    · -- Where the entry is not in the first piece, both sides go on with the others.
      have goesPast : (∀ e ∈ entry, (first + piece.sectors) * SECTOR_SIZE ≤ e) →
          StridesPast n (piece.buffer dir first) (piece.sectors * SECTOR_SIZE)
            ∧ EntryInStride n dir entry pieces (first + piece.sectors) →
          (∃ fuel, searchDirectory fuel n.text dir (piece :: pieces) first = some entry)
            ∧ SearchInside n.text dir (piece :: pieces) first := by
        rintro low' ⟨past, rest⟩
        obtain ⟨⟨fuel, -, result⟩, inside⟩ := search_past.mpr ⟨past, (ih low' high).mpr rest⟩
        exact ⟨⟨fuel, result⟩, inside⟩
      cases entry with
      | none => exact goesPast (fun e mem => by cases mem)
      | some e =>
        dsimp only
        split
        · intro leads
          obtain ⟨⟨fuel, found⟩, inside⟩ := (getDirectoryItem_to piece.small).mpr leads
          refine ⟨⟨fuel, ?_⟩, inside, ?_⟩
          · rw [searchDirectory, found]
            have := low e rfl
            simp only [Option.some.injEq]
            omega
          · rintro ⟨fuel', vain⟩
            cases Loop.run_unique found vain
        · rename_i behind
          apply goesPast
          rintro e' mem
          cases mem
          omega

end Pieces

/-- An entry is among those that are looked at. -/
theorem namedEntry_bounds {dir : Image} {n : Name83} {count j e : Nat}
    (found : namedEntry dir n count j = some e) : 32 * j ≤ e ∧ e < 32 * (j + count) := by
  -- Each entry that is looked at is 32 bytes behind the one before.
  induction count generalizing j with
  | zero => cases found
  | succ count ih =>
    rw [namedEntry] at found
    split at found
    · cases found
    · split at found
      · cases found
        omega
      · have := ih found
        omega

/-- The search finds what the directory has of a name just when the steps of forty bytes lead there. -/
theorem getDirectoryItem_exact_iff (n : Name83) (dir : Image) (pieces : List LoadedSectors) :
    FindsEntry n dir pieces ↔ EntryInStride n dir (directoryEntry dir n pieces) pieces 0 := by
  rw [← search_iff (fun e _ => by omega)]
  · exact ⟨fun finds => ⟨finds.found, finds.inside⟩, fun finds => ⟨finds.1, finds.2⟩⟩
  · intro e mem
    have bounds := namedEntry_bounds (Option.mem_def.mp mem)
    unfold SECTOR_SIZE
    omega

/-- The files `A` and `B`, in the first two entries of a directory. -/
def directoryAB : Image := fun i =>
  if i = 0 then 0x41 else if i = 32 then 0x42 else if i < 64 ∧ i % 32 < 12 then 0x20 else 0

/-- The name `B`. -/
def nameB : Name83 where
  base := [0x42]
  extension := []
  some_ := by simp
  base_short := by decide
  extension_short := by decide
  plain := by simp

/-- The directory in one sector, with zeros behind it. -/
def directorySector : LoadedSectors where
  sectors := 1
  behind := fun _ => 0
  some_ := Nat.one_pos
  fits := by decide

/-- The second file of a directory is not found. -/
theorem getDirectoryItem_misses : ¬ FindsEntry nameB directoryAB [directorySector] := by
  intro finds
  have entry : directoryEntry directoryAB nameB [directorySector] = some 32 := by decide
  have found := finds.found
  rw [entry] at found
  have leads := (search_iff (by simp) (by simp [directorySectors, directorySector, SECTOR_SIZE])).mp
    ⟨found, finds.inside⟩
  -- The entry is 32 bytes behind the first one, and a step has forty.
  obtain ⟨m, place, -⟩ := leads
  unfold FAT_DIRECTORY_ENTRY at place
  omega

end Okr
