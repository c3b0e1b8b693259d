import DumpRouter.Disk.Basic

/-!
# DumpRouter.Disk.Buffered

Writing through a buffer. A chunk that fits is held back; one that does not fit sends the held bytes
out first, and one that fills a whole buffer is never held.

`Buffered.pending`: what is in the file and what is held, one after the other.
`held_write_le`: no more is held than the buffer has room for.
-/

namespace DumpRouter

structure Buffered where
  handle : Disk.Handle
  capacity : Nat
  /-- Bytes accepted and not yet written. -/
  held : ByteArray
  deriving DecidableEq

namespace Buffered

def create (d : Disk) (p : Path) (fresh : Bool) (capacity : Nat) : Except Fault (Buffered × Disk) :=
  match d.create p fresh with
  | .error e => .error e
  | .ok (l, d') => .ok (⟨⟨l, 0⟩, capacity, .empty⟩, d')

/-- Writes what is held. If that fails the bytes are still held. -/
def flush (w : Buffered) (d : Disk) : Except Fault Unit × Buffered × Disk :=
  match d.write w.handle w.held with
  | .ok (h, d') => (.ok (), { w with handle := h, held := .empty }, d')
  | .error e => (.error e, w, d)

/-- Takes a chunk that there is room for, or that is too long to be held. -/
def accept (w : Buffered) (chunk : ByteArray) (d : Disk) : Except Fault Unit × Buffered × Disk :=
  if w.capacity ≤ chunk.size then
    match d.write w.handle chunk with
    | .ok (h, d') => (.ok (), { w with handle := h }, d')
    | .error e => (.error e, w, d)
  else (.ok (), { w with held := w.held ++ chunk }, d)

/-- Takes one packed chunk. If the held bytes have to go first and cannot, the chunk is refused. -/
def writePacked (w : Buffered) (chunk : ByteArray) (d : Disk) :
    Except Fault Unit × Buffered × Disk :=
  let room := w.capacity - w.held.size
  if chunk.size < room then (.ok (), { w with held := w.held ++ chunk }, d)
  else if room < chunk.size then
    match w.flush d with
    | (.error e, w', d') => (.error e, w', d')
    | (.ok (), w', d') => w'.accept chunk d'
  else w.accept chunk d

def write (w : Buffered) (chunk : Bytes) (d : Disk) : Except Fault Unit × Buffered × Disk :=
  w.writePacked (Bytes.pack chunk) d

/-- What is in the file and then what is held; nothing for a device. -/
def pending (w : Buffered) (d : Disk) : Option Bytes :=
  match d.node? w.handle.location with
  | some (.file c) => some (Bytes.unpack c ++ Bytes.unpack w.held)
  | _ => none

/-- What becomes of the disk when the writer is given up: what is held is written if it can be. -/
def drop (w : Buffered) (d : Disk) : Disk := (w.flush d).2.2

theorem held_flush_le (w : Buffered) (d : Disk) : (w.flush d).2.1.held.size ≤ w.held.size := by
  unfold flush
  split <;> simp

theorem capacity_flush (w : Buffered) (d : Disk) : (w.flush d).2.1.capacity = w.capacity := by
  unfold flush
  split <;> rfl

theorem held_writePacked_le {w : Buffered} (h : w.held.size ≤ w.capacity) (chunk : ByteArray)
    (d : Disk) :
    (w.writePacked chunk d).2.1.held.size ≤ (w.writePacked chunk d).2.1.capacity := by
  have haccept : ∀ (v : Buffered) (e : Disk), v.held.size ≤ v.capacity →
      (chunk.size < v.capacity → v.held.size + chunk.size ≤ v.capacity) →
      (v.accept chunk e).2.1.held.size ≤ (v.accept chunk e).2.1.capacity := by
    intro v e hv hroom
    unfold accept
    split
    · split <;> exact hv
    · next hc => simpa [ByteArray.size_append] using hroom (by omega)
  unfold writePacked
  dsimp only
  split
  · next hc => simp [ByteArray.size_append]; omega
  · split
    · have hf := capacity_flush w d
      unfold flush at hf ⊢
      split
      · next e w' d' heq =>
        split at heq <;> cases heq
        exact h
      · next w' d' heq =>
        split at heq <;> cases heq
        exact haccept _ _ (by simp) (by simp; omega)
    · exact haccept w d h (by omega)

theorem held_write_le {w : Buffered} (h : w.held.size ≤ w.capacity) (chunk : Bytes) (d : Disk) :
    (w.write chunk d).2.1.held.size ≤ (w.write chunk d).2.1.capacity :=
  held_writePacked_le h _ d

end Buffered
end DumpRouter
