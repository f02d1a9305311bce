import Okr.Base.Memory

/-! The partition table of a GPT disk as the program keeps it in a buffer: header and 128 entries. -/

namespace Okr

/-- Bytes of the header's sector and of all entries. -/
def GPT_SIZE : Nat := 16896

/-- Entries of the array. -/
def gptEntries : Nat := 128

/-- Where an entry stands in the buffer. -/
def entryPos (k : Nat) : Nat := 512 + 128 * k

/-- The first sector of an entry. -/
def startingLBA (buffer : Image) (k : Nat) : Nat := le64 buffer (entryPos k + 0x20)

/-- The last sector of an entry, which still belongs to it. -/
def endingLBA (buffer : Image) (k : Nat) : Nat := le64 buffer (entryPos k + 0x28)

/-- An entry is in use when its type is not all zero. -/
def inUse (buffer : Image) (k : Nat) : Prop := ∃ a < 16, buffer (entryPos k + a) ≠ 0

instance (buffer : Image) (k : Nat) : Decidable (inUse buffer k) :=
  inferInstanceAs (Decidable (∃ a < 16, _))

/-- Fields of the header. -/
def headerCrc (buffer : Image) : Nat := le32 buffer 0x10
def myLBA (buffer : Image) : Nat := le64 buffer 0x18
def alternateLBA (buffer : Image) : Nat := le64 buffer 0x20
def firstUsableLBA (buffer : Image) : Nat := le64 buffer 0x28
def lastUsableLBA (buffer : Image) : Nat := le64 buffer 0x30
def arrayCrc (buffer : Image) : Nat := le32 buffer 0x58

/-- `"EFI PART"`. -/
def isEfiPart (buffer : Image) : Bool :=
  bytesAt buffer 0 8 == [0x45, 0x46, 0x49, 0x20, 0x50, 0x41, 0x52, 0x54]

/-- The first entry with a property, or the number of entries when there is none. -/
def findEntry (p : Nat → Bool) : Nat := (List.range gptEntries).findIdx p

/-- `IsGPT`: one of the four entries of sector 0 protects a GPT. -/
def isGPT (disk : Image) : Bool :=
  le16 disk 0x1fe == 0xAA55
    && (List.range 4).any fun i => disk (0x1be + 16 * i + 4) == 0xEE || disk (0x1be + 16 * i + 4) == 0xEF

/-- The table is read from sectors 1 to 33. -/
def readGpt (disk memory : Image) : Image := diskRead disk 1 (GPT_SIZE / 512) memory

/-- Where the copies end on a disk of this size is entered in the header. -/
def fitHeader (totalsector : Nat) (buffer : Image) : Image :=
  let buffer := put 4 buffer 0x10 0
  let buffer := put 8 buffer 0x20 (sub64 totalsector 1)
  put 8 buffer 0x30 (sub64 totalsector 0x22)

/-- The checksum of the header, taken with its own field zero, is entered. -/
def sealHeader (crc32 : Bytes → Nat) (buffer : Image) : Image :=
  let buffer := put 4 buffer 0x10 0
  put 4 buffer 0x10 (crc32 (bytesAt buffer 0 0x5c))

/-- The checksums of the entries and then of the header are entered. -/
def sealGpt (crc32 : Bytes → Nat) (buffer : Image) : Image :=
  sealHeader crc32 (put 4 buffer 0x58 (crc32 (bytesAt buffer 512 16384)))

/-- The header of the copy at the end of the disk: the two places change roles. -/
def backupHeader (crc32 : Bytes → Nat) (buffer : Image) : Image :=
  let temp := le64 buffer 0x20
  let buffer := put 8 buffer 0x20 (le64 buffer 0x18)
  let buffer := put 8 buffer 0x18 temp
  let buffer := put 8 buffer 0x48 (u64 (le64 buffer 0x30 + 1))
  sealHeader crc32 buffer

/-- The table goes to the front of the disk, its entries and header once more to the end. -/
def writeGptCopies (crc32 : Bytes → Nat) (totalsector : Nat) (buffer disk : Image) : Image :=
  let disk := diskWrite disk 1 (GPT_SIZE / 512) buffer
  let disk := diskWrite disk (sub64 totalsector 33) 32 fun a => buffer (512 + a)
  diskWrite disk (sub64 totalsector 1) 1 (backupHeader crc32 buffer)

end Okr
