import Okr.File.Handle

/-! A plain file, what it means for a handle to behave like one, and when it does. -/

namespace Okr

/-- A file that is nothing but its bytes and a position. -/
structure Plain where
  content : Bytes
  pos : Nat := 0
  deriving DecidableEq, Repr

/-- One call on a plain file; a write past the end fills the gap with zeros. -/
def plainStep (p : Plain) : Op → Reply × Plain
  | .setPos pos => (.done, { p with pos := pos })
  | .read size =>
    let bytes := Overlay.window p.content p.pos size
    (.bytes bytes, { p with pos := p.pos + bytes.length })
  | .write buffer =>
    (.wrote buffer.length,
      { content := Overlay.write 0 p.content p.pos buffer, pos := p.pos + buffer.length })
  | .close => (.done, { p with pos := 0 })

/-- Every reply is the plain file's, and whenever the handle is closed the volume stores its bytes. -/
def Conforms : Handle → Plain → List Call → Prop
  | _, _, [] => True
  | h, p, c :: cs =>
    (handleStep h c).1 = (plainStep p c.op).1
      ∧ (c.op = .close → (handleStep h c).2.file.data = p.content)
      ∧ Conforms (handleStep h c).2 (plainStep p c.op).2 cs

/-- The content the handle stands for: the stored file with the cached bytes over it. -/
def Handle.view (h : Handle) : Bytes :=
  Overlay.write 0 h.file.data h.cachedatapos h.cache

/-- Nothing is lost when the cached bytes are dropped. -/
def Handle.Flushed (h : Handle) : Prop :=
  h.view = h.file.data

/--
A read that can do no harm.

Either the cache delivers all of it, or nothing unwritten is in the cache and the position is one
the driver can read from, or what the cache does not deliver is read past it, in whole multiples
of the cache size, from where the stored file already holds the right bytes.
-/
def Handle.ReadSafe (h : Handle) (size : Nat) : Prop :=
  let part := h.cachedPart size
  part = size
    ∨ (h.Flushed ∧ (h.filepos ≤ h.file.data.length
        ∨ (h.misses ∧ h.filepos / 4096 * 4096 = h.file.data.length)))
    ∨ (¬ h.misses ∧ size - part < 2 ^ 32 ∧ (size - part) % DEFAULT_FILE_CACHE_SIZE = 0
        ∧ h.filepos + part ≤ h.file.data.length
        ∧ Overlay.window h.file.data (h.filepos + part) (size - part)
            = Overlay.window h.view (h.filepos + part) (size - part))

/-- What a write has left once the cache is full, or all of it when the cache is empty. -/
def Handle.writeLeft (h : Handle) (size : Nat) : Nat :=
  if h.cache = [] then size
  else if h.filepos ≠ h.cachedatapos + h.cache.length then size - DEFAULT_FILE_CACHE_SIZE
  else size - (DEFAULT_FILE_CACHE_SIZE - h.cache.length)

/--
The call meets no fault and its request is one the handle treats rightly in this state.

A write ends below the driver's largest offset, far from where 64-bit positions wrap.
-/
def Handle.Safe (h : Handle) (c : Call) : Prop :=
  c.faults = [] ∧
    match c.op with
    | .setPos _ => True
    | .read size => h.isOpen ∧ h.ReadSafe size
    | .write buffer =>
      h.isOpen ∧ h.filepos + buffer.length < MAX_OFFSET ∧ h.writeLeft buffer.length < 2 ^ 32
    | .close => True

/-- Every call of the run is safe in the state it meets. -/
def SafeRun : Handle → List Call → Prop
  | _, [] => True
  | h, c :: cs => h.Safe c ∧ SafeRun (handleStep h c).2 cs

instance (h : Handle) : Decidable h.Flushed :=
  inferInstanceAs (Decidable (_ = _))

instance (h : Handle) (size : Nat) : Decidable (h.ReadSafe size) := by
  unfold Handle.ReadSafe
  infer_instance

instance (h : Handle) (c : Call) : Decidable (h.Safe c) :=
  match c with
  | ⟨.setPos _, faults⟩ => inferInstanceAs (Decidable (faults = [] ∧ True))
  | ⟨.read size, faults⟩ => inferInstanceAs (Decidable (faults = [] ∧ _ ∧ h.ReadSafe size))
  | ⟨.write _, faults⟩ => inferInstanceAs (Decidable (faults = [] ∧ _ ∧ _ ∧ _))
  | ⟨.close, faults⟩ => inferInstanceAs (Decidable (faults = [] ∧ True))

instance decidableSafeRun : ∀ (h : Handle) (cs : List Call), Decidable (SafeRun h cs)
  | _, [] => isTrue trivial
  | h, c :: cs =>
    have := decidableSafeRun (handleStep h c).2 cs
    inferInstanceAs (Decidable (h.Safe c ∧ _))

end Okr
