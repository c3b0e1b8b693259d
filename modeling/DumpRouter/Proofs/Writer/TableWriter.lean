import DumpRouter.Proofs.Disk.Rewrites
import DumpRouter.Writer.TableWriter

/-!
# DumpRouter.Proofs.Writer.TableWriter

What a writer of a table leaves in its file: each statement it has taken with a newline behind it,
in the order in which it has taken them.

* `TableWriter.Carries w d l c`: the writer is open at `l`, and the bytes `c` have gone into it.
* `write_leaves`: one statement, whether or not the writer is flushed after it.
* `close_received`: after a close that does not fail all the bytes are at the place of the file.
-/

namespace DumpRouter
namespace TableWriter

/-- The writer is open at the place `l`, and the bytes `c` have gone into it. -/
def Carries (w : TableWriter) (d : Disk) (l : Location) (c : Bytes) : Prop :=
  ∃ b, w.output = some b ∧ b.handle.location = l ∧ b.Carries d c

/-- The writer as it is after it has been closed. -/
def closed (w : TableWriter) : TableWriter := { w with output := none }

@[simp] theorem closed_closed (w : TableWriter) : w.closed.closed = w.closed := rfl

variable {w : TableWriter} {d : Disk} {s : Site} {l : Location} {c : Bytes}

theorem Carries.congr {d' : Disk} (h : w.Carries d l c) (hn : d'.node? l = d.node? l) :
    w.Carries d' l c := by
  obtain ⟨b, hb, rfl, hc⟩ := h
  exact ⟨b, hb, rfl, hc.congr hn⟩

/-- What an operation on a writer at `l` that is to leave it with the bytes `c` comes to. -/
structure Leaves (w : TableWriter) (d : Disk) (l : Location) (c : Bytes)
    (r : Except Failure Unit × TableWriter × Site) : Prop where
  table : r.2.1.table = w.table
  path : r.2.1.path = w.path
  touches : d.Touches (· = l) r.2.2.disk
  carries : r.1 = .ok () → r.2.1.Carries r.2.2.disk l c
  fails : ∀ e, r.1 = .error e → d.node? l = some (.device .full)

theorem refuse_leaves {b b' : Buffered} {d' : Disk} {c' : Bytes} {f : Fault}
    (h : b.Leaves d c' (.error f, b', d')) (w : TableWriter) :
    w.Leaves d b.handle.location c (refuse { w with output := some b' } f (s.setDisk d')) where
  table := rfl
  path := rfl
  touches := h.touches
  carries := nofun
  fails _ _ := h.fails f rfl

theorem flushOutput_leaves {b : Buffered} (h : b.Carries s.disk c) (w : TableWriter) :
    w.Leaves s.disk b.handle.location c (w.flushOutput b s) := by
  have hl := Buffered.flush_leaves h
  unfold flushOutput
  cases hf : b.flush s.disk with
  | mk x y =>
    obtain ⟨b', d'⟩ := y
    rw [hf] at hl
    cases x with
    | error f => exact refuse_leaves hl w
    | ok _ => exact ⟨rfl, rfl, hl.touches, fun _ => ⟨b', rfl, hl.location, hl.carries rfl⟩, nofun⟩

/-- A writer that takes a statement carries it with a newline behind it. -/
theorem write_leaves (h : w.Carries s.disk l c) (statement : Bytes) :
    w.Leaves s.disk l (c ++ (statement ++ [10])) (w.write statement s) := by
  obtain ⟨b, hb, rfl, hc⟩ := h
  unfold write
  rw [hb]
  dsimp only
  have h₁ := Buffered.write_leaves hc statement
  cases hw₁ : b.write statement s.disk with
  | mk x y =>
    obtain ⟨b', d'⟩ := y
    rw [hw₁] at h₁
    cases x with
    | error f => exact refuse_leaves h₁ w
    | ok _ =>
      have h₂ := h₁.trans (Buffered.write_leaves (h₁.carries rfl) [10])
      dsimp only
      cases hw₂ : b'.write [10] d' with
      | mk x y =>
        obtain ⟨b'', d''⟩ := y
        rw [hw₂] at h₂
        cases x with
        | error f => exact refuse_leaves h₂ w
        | ok _ =>
          have hcar : b''.Carries d'' (c ++ (statement ++ [10])) := by
            simpa using h₂.carries rfl
          dsimp only
          split
          · -- the file is flushed after this statement
            have h₃ := flushOutput_leaves (s := s.setDisk d'') hcar
              { w with output := some b'', writes := w.writes + 1 }
            rw [h₂.location] at h₃
            refine ⟨h₃.table, h₃.path, h₂.touches.trans h₃.touches, h₃.carries, ?_⟩
            intro e he
            exact (h₂.touches.tree.device _ _).1 (h₃.fails e he)
          · exact ⟨rfl, rfl, h₂.touches, fun _ => ⟨b'', rfl, h₂.location, hcar⟩, nofun⟩

theorem close_writer (w : TableWriter) (s : Site) : (w.close s).2.1 = w.closed := by
  obtain ⟨table, path, output, writes⟩ := w
  unfold close closed
  cases output with
  | none => rfl
  | some b =>
    dsimp only
    split <;> rfl

/-- The disk after a writer has been closed; what is held is tried once more if a flush fails. -/
theorem disk_close {b : Buffered} (hb : w.output = some b) (s : Site) :
    (w.close s).2.2.disk = (b.flush s.disk).2.2 := by
  unfold close
  rw [hb]
  cases hf : b.flush s.disk with
  | mk x y =>
    obtain ⟨b', d'⟩ := y
    cases x with
    | ok _ =>
      dsimp only
      rw [hf]
      rfl
    | error f =>
      obtain ⟨rfl, rfl⟩ := Buffered.flush_error hf
      dsimp only
      rw [hf]
      simp [Site.note, Site.setDisk, Buffered.drop, hf]

theorem close_touches (h : w.Carries s.disk l c) :
    s.disk.Touches (· = l) (w.close s).2.2.disk := by
  obtain ⟨b, hb, rfl, hc⟩ := h
  rw [disk_close hb]
  exact (Buffered.flush_leaves hc).touches

theorem close_received (h : w.Carries s.disk l c) (hc : c ≠ []) (hok : (w.close s).1 = .ok ()) :
    (w.close s).2.2.disk.Received l c := by
  obtain ⟨b, hb, rfl, hcar⟩ := h
  unfold close at hok ⊢
  rw [hb] at hok ⊢
  dsimp only at hok ⊢
  cases hf : b.flush s.disk with
  | mk x y =>
    obtain ⟨b', d'⟩ := y
    cases x with
    | ok _ => exact Buffered.flush_settles hcar hc hf
    | error f => rw [hf] at hok; cases hok

theorem close_fails (h : w.Carries s.disk l c) {e : Failure} (he : (w.close s).1 = .error e) :
    s.disk.node? l = some (.device .full) := by
  obtain ⟨b, hb, rfl, hcar⟩ := h
  have hl := Buffered.flush_leaves hcar
  unfold close at he
  rw [hb] at he
  dsimp only at he
  cases hf : b.flush s.disk with
  | mk x y =>
    obtain ⟨b', d'⟩ := y
    rw [hf] at hl he
    cases x with
    | ok _ => cases he
    | error f => exact hl.fails f rfl

theorem create_carries {table : String} {path : Path} {s' : Site}
    (h : create table path s = (.ok w, s')) :
    w.table = table ∧ w.path = path ∧
      ∃ l, s.disk.Leads path l ∧ s.disk.Touches (· = l) s'.disk ∧ w.Carries s'.disk l [] := by
  unfold create at h
  split at h
  · next b d hb =>
    cases h
    obtain ⟨hl, ht, hc⟩ := Buffered.create_carries hb
    exact ⟨rfl, rfl, _, hl, ht, b, rfl, rfl, hc⟩
  · cases h

theorem create_fails {table : String} {path : Path} {e : Failure} {s' : Site}
    (h : create table path s = (.error e, s')) :
    (∃ cause, e = .writerCreate table path cause) ∧ s'.disk = s.disk := by
  unfold create at h
  split at h
  · cases h
  · next f hf =>
    cases h
    exact ⟨⟨f, rfl⟩, rfl⟩

end TableWriter
end DumpRouter
