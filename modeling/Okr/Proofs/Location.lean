import Mathlib.Data.List.TakeWhile
import Okr.Backup.Location
import Okr.Proofs.CheckFat

/-! The serial number that is read back has the line's end behind it, so it is never the one written. -/

namespace Okr

/-! ### Strings -/

/-- A string in front of another array is in front of what that holds. -/
theorem strOf_append {a : List Nat} (b : List Nat) (noZero : 0 ∉ a) :
    strOf (a ++ b) = (strOf b).map (a ++ ·) := by
  induction a with
  | nil => exact Option.map_id'.symm
  | cons c rest ih =>
    rw [List.mem_cons, not_or] at noZero
    rw [List.cons_append, strOf, if_neg (Ne.symm noZero.1), ih noZero.2, Option.map_map]
    rfl

/-- `StrStr` passes characters that the first of the pattern is not among. -/
theorem strStr_append (c : Nat) (pattern : List Nat) {a : List Nat} (b : List Nat) (passes : c ∉ a) :
    strStr (c :: pattern) (a ++ b) = strStr (c :: pattern) b := by
  induction a with
  | nil => rfl
  | cons d rest ih =>
    rw [List.mem_cons, not_or] at passes
    have other : (c :: pattern).isPrefixOf (d :: (rest ++ b)) = false := by
      rw [List.isPrefixOf, beq_eq_false_iff_ne.mpr passes.1, Bool.false_and]
    rw [List.cons_append, strStr, if_neg (by rw [other]; exact Bool.noConfusion), ih passes.2]

/-- `StrStr` finds the pattern at the front. -/
theorem strStr_front (c : Nat) (pattern rest : List Nat) :
    strStr (c :: pattern) (c :: pattern ++ rest) = some (c :: pattern ++ rest) := by
  have front : (c :: pattern).isPrefixOf (c :: (pattern ++ rest)) = true :=
    List.isPrefixOf_iff_prefix.mpr ⟨rest, rfl⟩
  rw [List.cons_append, strStr, if_pos front]

/-- Characters that were written as bytes are read as they were. -/
theorem chars16_bytes16 {chars : List Nat} (rest : Bytes) (small : ∀ c ∈ chars, c < 2 ^ 16) :
    chars16 (bytes16 chars ++ rest) = chars ++ chars16 rest := by
  induction chars with
  | nil => rfl
  | cons c others ih =>
    have fits := small c List.mem_cons_self
    have value : (UInt8.ofNat c).toNat + 256 * (UInt8.ofNat (c / 256)).toNat = c := by
      rw [UInt8.toNat_ofNat', UInt8.toNat_ofNat']
      omega
    show chars16 (UInt8.ofNat c :: UInt8.ofNat (c / 256) :: (bytes16 others ++ rest)) = _
    rw [chars16, value, ih fun d member => small d (List.mem_cons_of_mem _ member)]
    rfl

/-- Two bytes for each character. -/
@[simp] theorem length_bytes16 (chars : List Nat) : (bytes16 chars).length = 2 * chars.length := by
  induction chars with
  | nil => rfl
  | cons c rest ih =>
    show (bytes16 rest).length + 2 = 2 * (rest.length + 1)
    omega

/-- The low bytes of a string stand in front of those of what follows it. -/
theorem unicode2Ascii_append {a : List Nat} (b : List Nat) (noZero : ∀ c ∈ a, UInt8.ofNat c ≠ 0) :
    unicode2Ascii (a ++ b) = (unicode2Ascii b).map (a.map UInt8.ofNat ++ ·) := by
  induction a with
  | nil => exact Option.map_id'.symm
  | cons c rest ih =>
    rw [List.cons_append, unicode2Ascii, if_neg (noZero c List.mem_cons_self),
      ih fun d member => noZero d (List.mem_cons_of_mem _ member), Option.map_map]
    rfl

/-- The zero at the end is copied too. -/
theorem unicode2Ascii_ne_nil {chars : List Nat} {ascii : Bytes}
    (copied : unicode2Ascii chars = some ascii) : 0 < ascii.length := by
  cases chars with
  | nil => cases copied
  | cons c rest =>
    rw [unicode2Ascii] at copied
    by_cases zero_ : UInt8.ofNat c = 0
    · rw [if_pos zero_, Option.some.injEq] at copied
      subst copied
      exact Nat.one_pos
    · rw [if_neg zero_, Option.map_eq_some_iff] at copied
      obtain ⟨behind, -, whole⟩ := copied
      subst whole
      exact Nat.succ_pos _

/-! ### The lines -/

/-- The characters of a line that `StrStr` passes on its way to the serial number. -/
def Plain16 (chars : List Nat) : Prop := ∀ c ∈ chars, 0 < c ∧ c < 2 ^ 16 ∧ c ≠ 0x53

/-- A number is printed in digits, and its sign. -/
theorem lld_plain (value : Nat) : Plain16 (lld value) := by
  have digits : ∀ n, Plain16 ((Nat.toDigits 10 n).map Char.toNat) := by
    intro n c member
    obtain ⟨digit, inside, same⟩ := List.mem_map.mp member
    have isDigit := Nat.isDigit_of_mem_toDigits (by decide) (by decide) inside
    rw [Char.isDigit, Bool.and_eq_true, decide_eq_true_iff, decide_eq_true_iff] at isDigit
    have low : 48 ≤ digit.toNat := isDigit.1
    have high : digit.toNat ≤ 57 := isDigit.2
    omega
  rw [lld]
  by_cases positive : value < 2 ^ 63
  · rw [if_pos positive]
    exact digits value
  · rw [if_neg positive, List.map_cons]
    intro c member
    cases List.mem_cons.mp member with
    | inl sign =>
      subst sign
      decide
    | inr behind => exact digits _ c behind

/-- A line of a prefix, a number and its end has no other characters. -/
theorem line_plain {preFix : List Nat} (value : Nat) (plain : Plain16 preFix) :
    Plain16 (sPrint (preFix ++ lld value ++ lineEnd)) := by
  intro c member
  have inside := List.mem_of_mem_take member
  rw [List.mem_append, List.mem_append] at inside
  cases inside with
  | inl front =>
    cases front with
    | inl name => exact plain c name
    | inr number => exact lld_plain value c number
  | inr end_ =>
    have ends : Plain16 lineEnd := by unfold Plain16 lineEnd; decide
    exact ends c end_

/-- The serial number is printed without zeros. -/
theorem printedSn_bytes (disksn stack : Bytes) : ∀ c ∈ printedSn disksn stack, 0 < c ∧ c < 256 := by
  intro c member
  obtain ⟨byte, inside, same⟩ := List.mem_map.mp member
  have some_ : byte ≠ 0 := by simpa using List.mem_takeWhile_imp inside
  have positive : byte.toNat ≠ 0 := fun zero_ => some_ (UInt8.toNat_inj.mp zero_)
  have small := UInt8.toNat_lt byte
  omega

/-- So is its line. -/
theorem snLine_bytes (disksn stack : Bytes) : ∀ c ∈ snLine disksn stack, 0 < c ∧ c < 256 := by
  intro c member
  have inside := List.mem_of_mem_take member
  rw [List.mem_append, List.mem_append] at inside
  have others : ∀ c ∈ snPreFix ++ lineEnd, 0 < c ∧ c < 256 := by
    unfold snPreFix lineEnd
    decide
  cases inside with
  | inl front =>
    cases front with
    | inl name => exact others c (List.mem_append_left _ name)
    | inr number => exact printedSn_bytes disksn stack c number
  | inr end_ => exact others c (List.mem_append_right _ end_)

/-- Its line starts with its prefix. -/
theorem snLine_eq (disksn stack : Bytes) :
    snLine disksn stack = snPreFix ++ (printedSn disksn stack ++ lineEnd).take 46 := by
  rw [snLine, sPrint, List.append_assoc, List.take_append]
  rfl

/-! ### The file -/

/-- Lines that were written stand where they were written. -/
theorem writeLines_data {file after : FatFile} {iPos : Nat} {lines : List (List Nat)}
    (small : iPos + 2 * (lines.map List.length).sum < 2 ^ 32)
    (written : writeLines file iPos lines = some after) :
    after.data = Overlay.write 0 file.data iPos (lines.flatMap bytes16) := by
  induction lines generalizing file iPos with
  | nil =>
    rw [writeLines, Option.some.injEq] at written
    subst written
    rfl
  | cons line rest ih =>
    rw [List.map_cons, List.sum_cons] at small
    rw [writeLines] at written
    have pos : (efiSetPosition file iPos).pos = iPos := if_neg (by omega)
    cases wrote : efiWrite (efiSetPosition file iPos) (bytes16 line) with
    | mk ok next =>
      rw [wrote] at written
      cases ok with
      | false => cases written
      | true =>
        have done : (efiWrite (efiSetPosition file iPos) (bytes16 line)).1 = true := by rw [wrote]
        have data := (efiWrite_done done).2
        rw [wrote, pos] at data
        rw [ih (by omega) written, data, ← length_bytes16, Overlay.write_append]
        rfl

/-- The record as it stands in the file: its three lines, and what is left of the old content. -/
theorem saved_data {disklist : List DiskInfo} {partitions : List PartitionInfo}
    {iBackupPartIndex time : Nat} {stack : Bytes} {file after : FatFile}
    (saved : saveAutoBackupFileLocation disklist partitions iBackupPartIndex time stack file
      = some after) :
    ∃ disksn bootBegin tail, locationOf disklist partitions iBackupPartIndex = some (disksn, bootBegin)
      ∧ after.data = bytes16 (bootBeginLine bootBegin ++ timeLine time ++ snLine disksn stack)
        ++ tail := by
  rw [saveAutoBackupFileLocation] at saved
  cases place : locationOf disklist partitions iBackupPartIndex with
  | none =>
    rw [place] at saved
    cases saved
  | some location =>
    obtain ⟨disksn, bootBegin⟩ := location
    rw [place] at saved
    -- Each line is shorter than its buffer, so all three are written whole.
    have short : ∀ chars, (sPrint chars).length ≤ 49 := fun chars => List.length_take_le 49 chars
    have first := short (bootBeginPreFix ++ lld bootBegin ++ lineEnd)
    have second := short (timePreFix ++ lld time ++ lineEnd)
    have third := short (snPreFix ++ printedSn disksn stack ++ lineEnd)
    have lengths : ([bootBeginLine bootBegin, timeLine time, snLine disksn stack].map
        List.length).sum ≤ 147 := by
      simp only [List.map_cons, List.map_nil, List.sum_cons, List.sum_nil, bootBeginLine, timeLine,
        snLine]
      omega
    have data := writeLines_data (by omega) saved
    have whole : [bootBeginLine bootBegin, timeLine time, snLine disksn stack].flatMap bytes16
        = bytes16 (bootBeginLine bootBegin ++ timeLine time ++ snLine disksn stack) := by
      simp only [List.flatMap_cons, List.flatMap_nil, bytes16, List.flatMap_append,
        List.append_nil, List.append_assoc]
    have some_ : bytes16 (bootBeginLine bootBegin ++ timeLine time ++ snLine disksn stack) ≠ [] := by
      rw [snLine_eq]
      intro none_
      have length_ := congrArg List.length none_
      simp [snPreFix] at length_
    refine ⟨disksn, bootBegin, file.data.drop (0 + (bytes16 (bootBeginLine bootBegin
      ++ timeLine time ++ snLine disksn stack)).length), rfl, ?_⟩
    rw [data, whole, Overlay.write_of_ne_nil 0 _ 0 some_, List.take_zero, Nat.zero_sub,
      List.replicate_zero, List.nil_append, List.nil_append]

/-! ### The serial number -/

/-- A copy that stays in the array holds the whole string. -/
theorem strnCpy100_whole {source copied : List Nat}
    (stays : strnCpy100 source source.length = some copied) :
    ∃ zeros, copied = source ++ zeros := by
  rw [strnCpy100] at stays
  by_cases long : 100 < source.length
  · rw [if_pos long] at stays
    cases stays
  · rw [if_neg long, Option.some.injEq, List.take_length] at stays
    exact ⟨_, stays.symm⟩

/-- A string that fits the caller's array starts what is there afterwards. -/
theorem unicode2Disksn_found {value rest : List Nat} {disksn : Bytes}
    (noZero : ∀ c ∈ value, UInt8.ofNat c ≠ 0)
    (fits : unicode2Disksn (value ++ rest) = some disksn) :
    value.length < 20 ∧ ∃ behind, disksn = value.map UInt8.ofNat ++ behind := by
  rw [unicode2Disksn, unicode2Ascii_append _ noZero] at fits
  cases copied : unicode2Ascii rest with
  | none =>
    rw [copied] at fits
    cases fits
  | some ascii =>
    have some_ := unicode2Ascii_ne_nil copied
    rw [copied, Option.map_some] at fits
    dsimp only at fits
    by_cases long : 20 < (value.map UInt8.ofNat ++ ascii).length
    · rw [if_pos long] at fits
      cases fits
    · rw [if_neg long, Option.some.injEq, List.append_assoc] at fits
      rw [List.length_append, List.length_map] at long
      exact ⟨by omega, _, fits.symm⟩

/-- What is read back starts with what stands behind the prefix, and fits the caller's array. -/
theorem parseLocation_found {front value rest : List Nat} {serial : Bytes} {bootBegin time : Nat}
    (plain : Plain16 front) (short : (front ++ (snPreFix ++ (value ++ rest))).length < 2 ^ 64)
    (noZero : ∀ c ∈ value, UInt8.ofNat c ≠ 0)
    (found : parseLocation (front ++ (snPreFix ++ (value ++ rest))) = .found serial bootBegin time) :
    value.length < 20 ∧ ∃ behind, serial = value.map UInt8.ofNat ++ behind := by
  have passes : (0x53 : Nat) ∉ front := fun member => (plain 0x53 member).2.2 rfl
  have sn : strStr snPreFix (front ++ (snPreFix ++ (value ++ rest)))
      = some (snPreFix ++ (value ++ rest)) :=
    (strStr_append 0x53 [0x4E, 0x3D] _ passes).trans (strStr_front 0x53 [0x4E, 0x3D] _)
  have length_ : lineLength (snPreFix ++ (value ++ rest)) snPreFix [] = (value ++ rest).length := by
    have three : snPreFix.length = 3 := rfl
    have whole : (snPreFix ++ (value ++ rest)).length = 3 + (value ++ rest).length := by
      rw [List.length_append, three]
    rw [List.length_append, whole] at short
    rw [lineLength, List.length_nil, whole, three,
      @sub64_eq (3 + (value ++ rest).length) 3 (by omega) (by omega), sub64_eq] <;> omega
  rw [parseLocation, sn] at found
  cases hasBegin : strStr bootBeginPreFix (front ++ (snPreFix ++ (value ++ rest))) with
  | none =>
    rw [hasBegin] at found
    cases found
  | some begin_ =>
    cases hasTime : strStr timePreFix (front ++ (snPreFix ++ (value ++ rest))) with
    | none =>
      rw [hasBegin, hasTime] at found
      cases found
    | some time_ =>
      rw [hasBegin, hasTime] at found
      have snValue_ : strnCpy100 ((snPreFix ++ (value ++ rest)).drop snPreFix.length)
          (lineLength (snPreFix ++ (value ++ rest)) snPreFix [])
          = strnCpy100 (value ++ rest) (value ++ rest).length := by
        rw [length_, List.drop_left]
      dsimp only at found
      rw [snValue_] at found
      -- Each copy that leaves its array would have ended the reading.
      cases first : strnCpy100 (begin_.drop bootBeginPreFix.length)
          (lineLength (front ++ (snPreFix ++ (value ++ rest))) bootBeginPreFix time_) with
      | none =>
        rw [first] at found
        cases found
      | some bootBeginValue =>
        cases second : strnCpy100 (time_.drop timePreFix.length)
            (lineLength time_ timePreFix (snPreFix ++ (value ++ rest))) with
        | none =>
          rw [first, second] at found
          cases found
        | some timeValue =>
          cases third : strnCpy100 (value ++ rest) (value ++ rest).length with
          | none =>
            rw [first, second, third] at found
            cases found
          | some snValue =>
            obtain ⟨zeros, whole⟩ := strnCpy100_whole third
            cases last : unicode2Disksn snValue with
            | none =>
              rw [first, second, third] at found
              simp only [Option.bind_eq_bind, Option.bind_some, last, Option.bind_none] at found
              cases found
            | some disksn =>
              rw [first, second, third] at found
              simp only [Option.bind_eq_bind, Option.bind_some, last, Option.getD_some,
                Location.found.injEq] at found
              rw [whole, List.append_assoc] at last
              exact found.1 ▸ unicode2Disksn_found noZero last

/-- A string is no longer than its array. -/
theorem strOf_length {chars text : List Nat} (read : strOf chars = some text) :
    text.length ≤ chars.length := by
  induction chars generalizing text with
  | nil => cases read
  | cons c rest ih =>
    rw [strOf] at read
    by_cases zero_ : c = 0
    · rw [if_pos zero_, Option.some.injEq] at read
      subst read
      exact Nat.zero_le _
    · rw [if_neg zero_, Option.map_eq_some_iff] at read
      obtain ⟨behind, inner, whole⟩ := read
      subst whole
      exact Nat.succ_le_succ (ih inner)

/-- There are no more characters than bytes. -/
theorem chars16_length (bytes : Bytes) : (chars16 bytes).length ≤ bytes.length := by
  induction bytes using chars16.induct with
  | case1 low high rest ih =>
    rw [chars16, List.length_cons, List.length_cons, List.length_cons]
    omega
  | case2 bytes other =>
    rw [chars16]
    · exact Nat.zero_le _
    · exact other

/-- What the firmware reads stands in the file at its position. -/
theorem efiRead_some {f : FatFile} {size : Nat} {bytes : Bytes} (read : (efiRead f size).1 = some bytes) :
    bytes = Overlay.window f.data f.pos size := by
  simp only [efiRead, f.nextFault_eq] at read
  split at read
  · cases read
  · exact (Option.some.inj read).symm

/-- A file that starts with a text is read as the text and what follows it. -/
theorem getAutoBackupLocation_text {file : FatFile} {text : List Nat} {tail : Bytes} {serial : Bytes}
    {bootBegin time : Nat} (data : file.data = bytes16 text ++ tail) (start : file.pos = 0)
    (plain : ∀ c ∈ text, 0 < c ∧ c < 2 ^ 16) (short : text.length ≤ 512)
    (found : getAutoBackupLocationFromConfigFile file = .found serial bootBegin time) :
    ∃ rest, (text ++ rest).length < 2 ^ 64
      ∧ parseLocation (text ++ rest) = .found serial bootBegin time := by
  rw [getAutoBackupLocationFromConfigFile] at found
  cases read : (efiRead file 1024).1 with
  | none =>
    rw [read] at found
    cases found
  | some bytes =>
    cases bytes with
    | nil =>
      rw [read] at found
      cases found
    | cons b others =>
      -- The function reads the text, and behind it whatever the file had.
      have window : b :: others = bytes16 text ++ tail.take (1024 - 2 * text.length) := by
        rw [efiRead_some read, start, data, Overlay.window, List.drop_zero, List.take_append,
          List.take_of_length_le (by rw [length_bytes16]; omega), length_bytes16]
      rw [read] at found
      dsimp only at found
      rw [window, List.append_assoc, chars16_bytes16 _ fun c member => (plain c member).2,
        strOf_append _ fun member => absurd (plain 0 member).1 (Nat.lt_irrefl 0)] at found
      cases rest_ : strOf (chars16 (tail.take (1024 - 2 * text.length) ++ List.replicate (1024
          - (bytes16 text ++ tail.take (1024 - 2 * text.length)).length) 0)) with
      | none =>
        rw [rest_] at found
        cases found
      | some rest =>
        rw [rest_] at found
        refine ⟨rest, ?_, found⟩
        have below := Nat.le_trans (strOf_length rest_) (chars16_length _)
        rw [List.length_append, List.length_replicate] at below
        have cut : (tail.take (1024 - 2 * text.length)).length ≤ 1024 :=
          Nat.le_trans (List.length_take_le _ _) (Nat.sub_le _ _)
        rw [List.length_append]
        omega

/-- What is read back is what was printed, with the end of the line behind it. -/
theorem serial_read {disklist : List DiskInfo} {partitions : List PartitionInfo}
    {iBackupPartIndex time bootBegin readTime : Nat} {stack serial : Bytes} {file after : FatFile}
    {faults : List (Option Fault)}
    (saved : saveAutoBackupFileLocation disklist partitions iBackupPartIndex time stack file
      = some after)
    (found : getAutoBackupLocationFromConfigFile { after with pos := 0, faults := faults }
      = .found serial bootBegin readTime) :
    ∃ disksn begin_ behind, locationOf disklist partitions iBackupPartIndex = some (disksn, begin_)
      ∧ (printedSn disksn stack).length < 18
      ∧ serial = (printedSn disksn stack).map UInt8.ofNat ++ (0x0D :: behind) := by
  obtain ⟨disksn, begin_, tail, place, data⟩ := saved_data saved
  have front : Plain16 (bootBeginLine begin_ ++ timeLine time) := by
    have first := @line_plain bootBeginPreFix begin_
      (by unfold Plain16 bootBeginPreFix; decide)
    have second := @line_plain timePreFix time (by unfold Plain16 timePreFix; decide)
    intro c member
    cases List.mem_append.mp member with
    | inl inFirst => exact first c inFirst
    | inr inSecond => exact second c inSecond
  have plain : ∀ c ∈ bootBeginLine begin_ ++ timeLine time ++ snLine disksn stack,
      0 < c ∧ c < 2 ^ 16 := by
    intro c member
    cases List.mem_append.mp member with
    | inl inFront => exact ⟨(front c inFront).1, (front c inFront).2.1⟩
    | inr inSn =>
      have small := snLine_bytes disksn stack c inSn
      omega
  have short : (bootBeginLine begin_ ++ timeLine time ++ snLine disksn stack).length ≤ 512 := by
    have first : (bootBeginLine begin_).length ≤ 49 := List.length_take_le 49 _
    have second : (timeLine time).length ≤ 49 := List.length_take_le 49 _
    have third : (snLine disksn stack).length ≤ 49 := List.length_take_le 49 _
    rw [List.length_append, List.length_append]
    omega
  obtain ⟨rest, fits, parsed⟩ := @getAutoBackupLocation_text
    { after with pos := 0, faults := faults } _ _ _ _ _ data rfl plain short found
  have shape : bootBeginLine begin_ ++ timeLine time ++ snLine disksn stack ++ rest
      = bootBeginLine begin_ ++ timeLine time
        ++ (snPreFix ++ ((printedSn disksn stack ++ lineEnd).take 46 ++ rest)) := by
    rw [snLine_eq]
    simp only [List.append_assoc]
  rw [shape] at fits parsed
  have noZero : ∀ c ∈ (printedSn disksn stack ++ lineEnd).take 46, UInt8.ofNat c ≠ 0 := by
    intro c member zero_
    have inLine : c ∈ snLine disksn stack := by
      rw [snLine_eq]
      exact List.mem_append_right _ member
    have small := snLine_bytes disksn stack c inLine
    have value := congrArg UInt8.toNat zero_
    rw [UInt8.toNat_ofNat'] at value
    have none_ : (0 : UInt8).toNat = 0 := rfl
    omega
  obtain ⟨few, behind, starts⟩ := parseLocation_found front fits noZero parsed
  -- The line was not cut, since what was read of it is shorter.
  have two : lineEnd.length = 2 := rfl
  rw [List.length_take, List.length_append, two] at few
  have whole : (printedSn disksn stack ++ lineEnd).take 46 = printedSn disksn stack ++ lineEnd :=
    List.take_of_length_le (by rw [List.length_append, two]; omega)
  rw [whole, List.map_append, List.append_assoc] at starts
  exact ⟨disksn, begin_, _, place, by omega, starts⟩

/-! ### The serial number of the disk -/

/-- `SaveAutoBackupFileLocation` takes the serial number from here, or leaves its array zero. -/
def serialOf (disklist : List DiskInfo) (partitions : List PartitionInfo) (iBackupPartIndex : Nat) :
    Bytes :=
  match partitions[iBackupPartIndex]? with
  | none => List.replicate 20 0
  | some partition =>
    match disklist[partition.diskNumber]? with
    | none => List.replicate 20 0
    | some disk => List.ofFn disk.disksn

/-- A zero character is two zero bytes. -/
theorem chars16_zero {bytes : Bytes} {n : Nat} (zero_ : (chars16 bytes)[n]? = some 0) :
    bytes[2 * n]? = some 0 := by
  induction bytes using chars16.induct generalizing n with
  | case1 low high rest ih =>
    cases n with
    | zero =>
      rw [chars16, List.getElem?_cons_zero, Option.some.injEq] at zero_
      have low_ : low.toNat = 0 := by omega
      exact congrArg some (UInt8.toNat_inj.mp low_)
    | succ n =>
      rw [chars16, List.getElem?_cons_succ] at zero_
      have behind := ih zero_
      rw [show 2 * (n + 1) = 2 * n + 1 + 1 by omega, List.getElem?_cons_succ,
        List.getElem?_cons_succ]
      exact behind
  | case2 bytes other =>
    rw [chars16] at zero_
    · cases zero_
    · exact other

/-- Behind the string of an array there is a zero. -/
theorem strOf_zero {chars text : List Nat} (read : strOf chars = some text) :
    chars[text.length]? = some 0 := by
  induction chars generalizing text with
  | nil => cases read
  | cons c rest ih =>
    rw [strOf] at read
    by_cases zero_ : c = 0
    · rw [if_pos zero_, Option.some.injEq] at read
      subst read
      exact congrArg some zero_
    · rw [if_neg zero_, Option.map_eq_some_iff] at read
      obtain ⟨behind, inner, whole⟩ := read
      subst whole
      exact ih inner

/-- Where the string in the copy of a serial number ends, the serial number has a zero. -/
theorem copyDisksn_zero {disk : DiskInfo} {disksn : Bytes} {k : Nat}
    (copied : copyDisksn disk = some disksn) (inside : k < 20) (ends : disksn[k]? = some 0)
    (before : ∀ j < k, disksn[j]? ≠ some 0) : (List.ofFn disk.disksn)[k]? = some 0 := by
  rw [copyDisksn, strLen] at copied
  have length_ : (List.ofFn disk.disksn).length = 20 := List.length_ofFn
  cases read : strOf (chars16 (List.ofFn disk.disksn ++ List.ofFn disk.raidDisksn)) with
  | none =>
    rw [read] at copied
    cases copied
  | some text =>
    rw [read, Option.map_some] at copied
    dsimp only at copied
    by_cases fits : text.length ≤ 10
    · rw [if_pos fits, Option.some.injEq] at copied
      subst copied
      have front : ((List.ofFn disk.disksn).take (2 * text.length)).length = 2 * text.length := by
        rw [List.length_take, length_]
        omega
      by_cases inCopy : k < 2 * text.length
      · rw [List.getElem?_append_left (by omega), List.getElem?_take_of_lt inCopy] at ends
        exact ends
      · -- The copy ends with the string, so this is where it ends.
        have end_ : 2 * text.length = k := by
          by_contra other
          refine before (2 * text.length) (by omega) ?_
          rw [List.getElem?_append_right (by omega), front, Nat.sub_self,
            List.getElem?_replicate, if_pos (by omega)]
        have zero_ := chars16_zero (strOf_zero read)
        rw [end_, List.getElem?_append_left (by omega)] at zero_
        exact zero_
    · rw [if_neg fits] at copied
      cases copied

/-- The copy has 20 bytes. -/
theorem copyDisksn_length {disk : DiskInfo} {disksn : Bytes} (copied : copyDisksn disk = some disksn) :
    disksn.length = 20 := by
  rw [copyDisksn] at copied
  have length_ : (List.ofFn disk.disksn).length = 20 := List.length_ofFn
  split at copied
  · split at copied
    · rw [Option.some.injEq] at copied
      rw [← copied, List.length_append, List.length_take, List.length_replicate, length_]
      omega
    · cases copied
  · cases copied

/-- Where the array the record is made from first has a zero, the serial number has one. -/
theorem serialOf_zero {disklist : List DiskInfo} {partitions : List PartitionInfo}
    {iBackupPartIndex bootBegin k : Nat} {disksn : Bytes}
    (place : locationOf disklist partitions iBackupPartIndex = some (disksn, bootBegin))
    (inside : k < 20) (ends : disksn[k]? = some 0) (before : ∀ j < k, disksn[j]? ≠ some 0) :
    (serialOf disklist partitions iBackupPartIndex)[k]? = some 0 := by
  have zeros : (List.replicate 20 (0 : Byte))[k]? = some 0 := by
    rw [List.getElem?_replicate, if_pos inside]
  rw [locationOf] at place
  rw [serialOf]
  cases found : partitions[iBackupPartIndex]? with
  | none => exact zeros
  | some partition =>
    rw [found] at place
    cases hasDisk : disklist[partition.diskNumber]? with
    | none =>
      dsimp only
      rw [hasDisk]
      exact zeros
    | some disk =>
      dsimp only at place ⊢
      rw [hasDisk] at place ⊢
      obtain ⟨copy, copied, same⟩ := Option.map_eq_some_iff.mp place
      rw [Prod.mk.injEq] at same
      exact copyDisksn_zero copied inside (same.1 ▸ ends) (same.1 ▸ before)

/-- The array the record is made from has 20 bytes. -/
theorem locationOf_length {disklist : List DiskInfo} {partitions : List PartitionInfo}
    {iBackupPartIndex bootBegin : Nat} {disksn : Bytes}
    (place : locationOf disklist partitions iBackupPartIndex = some (disksn, bootBegin)) :
    disksn.length = 20 := by
  rw [locationOf] at place
  have zeros : (List.replicate 20 (0 : Byte)).length = 20 := List.length_replicate
  cases found : partitions[iBackupPartIndex]? with
  | none =>
    rw [found, Option.some.injEq, Prod.mk.injEq] at place
    exact place.1 ▸ zeros
  | some partition =>
    rw [found] at place
    dsimp only at place
    cases hasDisk : disklist[partition.diskNumber]? with
    | none =>
      rw [hasDisk, Option.some.injEq, Prod.mk.injEq] at place
      exact place.1 ▸ zeros
    | some disk =>
      rw [hasDisk] at place
      obtain ⟨copy, copied, same⟩ := Option.map_eq_some_iff.mp place
      rw [Prod.mk.injEq] at same
      exact same.1 ▸ copyDisksn_length copied

/-- The bytes in front of the first zero end at it. -/
theorem takeWhile_ends (bytes : Bytes)
    (short : (bytes.takeWhile (· != 0)).length < bytes.length) :
    bytes[(bytes.takeWhile (· != 0)).length]? = some 0
      ∧ ∀ j < (bytes.takeWhile (· != 0)).length, bytes[j]? ≠ some 0 := by
  induction bytes with
  | nil => exact absurd short (Nat.lt_irrefl 0)
  | cons b rest ih =>
    by_cases zero_ : b = 0
    · subst zero_
      exact ⟨rfl, fun j below => absurd below (Nat.not_lt_zero j)⟩
    · have goesOn : (b != 0) = true := bne_iff_ne.mpr zero_
      rw [List.takeWhile_cons, if_pos goesOn, List.length_cons, List.length_cons] at short
      rw [List.takeWhile_cons, if_pos goesOn, List.length_cons]
      obtain ⟨end_, before⟩ := ih (Nat.lt_of_succ_lt_succ short)
      refine ⟨end_, fun j below => ?_⟩
      cases j with
      | zero => exact fun same => zero_ (Option.some.inj same)
      | succ j => exact before j (Nat.lt_of_succ_lt_succ below)

/-- What is printed ends where the array first has a zero. -/
theorem printedSn_ends {disksn stack : Bytes} (length_ : disksn.length = 20)
    (short : (printedSn disksn stack).length < 20) :
    disksn[(printedSn disksn stack).length]? = some 0
      ∧ ∀ j < (printedSn disksn stack).length, disksn[j]? ≠ some 0 := by
  rw [printedSn, List.length_map] at short ⊢
  obtain ⟨end_, before⟩ := takeWhile_ends (disksn ++ stack)
    (Nat.lt_of_lt_of_le short (by rw [List.length_append]; omega))
  rw [List.getElem?_append_left (by omega)] at end_
  refine ⟨end_, fun j below same => before j below ?_⟩
  rw [List.getElem?_append_left (by omega)]
  exact same

/-- `BootBegin` of the partition, or zero. -/
def bootBeginOf (partitions : List PartitionInfo) (iBackupPartIndex : Nat) : Nat :=
  ((partitions[iBackupPartIndex]?).map (·.bootBegin)).getD 0

/--
What was saved is never read back.

The value of the serial number reaches to the end of the text, so the end of its line is read as a
part of it; a serial number of 18 characters or more then does not fit the array it is read into.
-/
theorem getAutoBackupLocation_differs (disklist : List DiskInfo) (partitions : List PartitionInfo)
    (iBackupPartIndex time : Nat) (stack : Bytes) (file after : FatFile)
    (faults : List (Option Fault))
    (saved : saveAutoBackupFileLocation disklist partitions iBackupPartIndex time stack file
      = some after) :
    getAutoBackupLocationFromConfigFile { after with pos := 0, faults := faults }
      ≠ .found (serialOf disklist partitions iBackupPartIndex)
        (bootBeginOf partitions iBackupPartIndex) time := by
  intro found
  obtain ⟨disksn, begin_, behind, place, few, starts⟩ := serial_read saved found
  obtain ⟨end_, before⟩ := printedSn_ends (locationOf_length place) (Nat.lt_trans few (by decide))
  have zero_ := serialOf_zero place (Nat.lt_trans few (by decide)) end_ before
  rw [starts, List.getElem?_append_right (by rw [List.length_map]), List.length_map,
    Nat.sub_self] at zero_
  cases zero_

/-- A disk with a serial number of 20 characters, as disks report it. -/
def fullSerialDisk : DiskInfo where
  disksn := fun _ => 0x41

/-- Its record is written to an empty file, and does not fit the array it is read into. -/
theorem getAutoBackupLocation_differs_full :
    ∃ after, saveAutoBackupFileLocation [fullSerialDisk] [{ bootBegin := 2048 }] 0 1700000000 [0]
        ⟨[], 0, []⟩ = some after
      ∧ getAutoBackupLocationFromConfigFile { after with pos := 0, faults := [] }
        ≠ .found (List.replicate 20 0x41) 2048 1700000000 :=
  ⟨_, rfl, getAutoBackupLocation_differs [fullSerialDisk] [{ bootBegin := 2048 }] 0 1700000000 [0]
    ⟨[], 0, []⟩ _ [] rfl⟩

/-- A disk whose serial number is two characters. -/
def shortSerialDisk : DiskInfo where
  disksn := fun i => if i.val = 0 then 0x53 else if i.val = 1 then 0x31 else 0

/-- Its record is written to an empty file, and is not read as those two characters. -/
theorem getAutoBackupLocation_lineEnd :
    ∃ after, saveAutoBackupFileLocation [shortSerialDisk] [{ bootBegin := 2048 }] 0 1700000000 []
        ⟨[], 0, []⟩ = some after
      ∧ getAutoBackupLocationFromConfigFile { after with pos := 0, faults := [] }
        ≠ .found ([0x53, 0x31] ++ List.replicate 18 0) 2048 1700000000 := by
  refine ⟨_, rfl, fun found => ?_⟩
  obtain ⟨disksn, begin_, behind, place, -, starts⟩ :=
    @serial_read [shortSerialDisk] [{ bootBegin := 2048 }] 0 1700000000 2048 1700000000 [] _
      ⟨[], 0, []⟩ _ [] rfl found
  have array : locationOf [shortSerialDisk] [{ bootBegin := 2048 }] 0
      = some ([0x53, 0x31] ++ List.replicate 18 0, 2048) := by decide
  rw [array, Option.some.injEq, Prod.mk.injEq] at place
  rw [← place.1] at starts
  have printed : printedSn ([0x53, 0x31] ++ List.replicate 18 0) [] = [0x53, 0x31] := by decide
  rw [printed] at starts
  cases starts

end Okr
