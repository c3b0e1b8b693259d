import DumpRouter.Disk.Buffered
import DumpRouter.Proofs.Disk.Tree

/-!
# DumpRouter.Proofs.Disk.Carries

Writing to a file that was opened empty, at its end, through a buffer.

* `Disk.Touches P d d'`: from `d` to `d'` only files at the places `P` have changed.
* `Buffered.Carries w d c`: the bytes `c` have gone into the writer, and each is in the file or
  held.
* `write_takes`: a writer that takes a chunk carries it behind what it carried before, whatever the
  chunk does to the buffer, and fails only on a full device.
* `flush_settles`: what has been flushed is in the file.
-/

namespace DumpRouter

theorem Bytes.unpack_eq_nil {a : ByteArray} (h : a.size = 0) : unpack a = [] :=
  List.eq_nil_of_length_eq_zero (by simp [h])

namespace Disk

/-- The disk `d'` is `d` but for regular files at places in `P`. -/
structure Touches (P : Location → Prop) (d d' : Disk) : Prop where
  tree : SameTree d d'
  other : ∀ l, ¬ P l → d'.node? l = d.node? l

namespace Touches

variable {P Q : Location → Prop} {d d' d'' : Disk}

theorem refl (P : Location → Prop) (d : Disk) : Touches P d d := ⟨.refl d, fun _ _ => rfl⟩

theorem trans (h : Touches P d d') (h' : Touches P d' d'') : Touches P d d'' :=
  ⟨h.tree.trans h'.tree, fun l hl => (h'.other l hl).trans (h.other l hl)⟩

theorem mono (h : Touches P d d') (hPQ : ∀ l, P l → Q l) : Touches Q d d' :=
  ⟨h.tree, fun l hl => h.other l fun hp => hl (hPQ l hp)⟩

end Touches

theorem ne_root_of_file {d : Disk} {l : Location} {c : ByteArray}
    (h : d.node? l = some (.file c)) : l ≠ .root := by
  rintro rfl
  simp [node?] at h

theorem write_nothing (d : Disk) (h : Handle) {data : ByteArray} (hd : data.size = 0) :
    d.write h data = .ok (h, d) := by
  simp [write, hd]

/-- Bytes written at the end of a file are behind those that were there. -/
theorem write_end {d : Disk} {h : Handle} {c : ByteArray} (data : ByteArray)
    (hn : d.node? h.location = some (.file c)) (ho : h.offset = c.size) :
    ∃ d', d.write h data = .ok ({ h with offset := h.offset + data.size }, d') ∧
      d'.node? h.location = some (.file (c ++ data)) ∧ Touches (· = h.location) d d' := by
  by_cases hd : data.size = 0
  · have hempty : data = .empty := Bytes.unpack_inj.1 (Bytes.unpack_eq_nil hd)
    exact ⟨d, by simp [write, hd], by simp [hn, hempty], .refl _ d⟩
  · have hl := ne_root_of_file hn
    refine ⟨_, write_file hd hn ho, by simp [node?_put hl], ?_, fun l hne => ?_⟩
    · exact .put_file hl (.inr ⟨c, hn⟩) _
    · rw [node?_put hl, if_neg hne]

theorem write_null {d : Disk} {h : Handle} (data : ByteArray)
    (hn : d.node? h.location = some (.device .null)) :
    d.write h data = .ok ({ h with offset := h.offset + data.size }, d) := by
  by_cases hd : data.size = 0
  · simp [write, hd]
  · simp [write, hd, hn]

theorem write_full {d : Disk} {h : Handle} {data : ByteArray} (hd : data.size ≠ 0)
    (hn : d.node? h.location = some (.device .full)) :
    d.write h data = .error (.system .noSpace) := by
  simp [write, hd, hn]

/-- What is at a place to which the bytes `c` have gone, and there is room: a file that holds them,
or a device that has dropped them. -/
def Received (d : Disk) (l : Location) (c : Bytes) : Prop :=
  d.node? l = some (.file (Bytes.pack c)) ∨ d.node? l = some (.device .null)

theorem Received.congr {d d' : Disk} {l : Location} {c : Bytes} (h : d.Received l c)
    (hn : d'.node? l = d.node? l) : d'.Received l c := by
  rw [Received, hn]
  exact h

end Disk

namespace Buffered

/-- The bytes `c` are what has gone into the writer since its file was opened. Of those that a
device drops nothing is left; one that is full has taken none. -/
inductive Carries (w : Buffered) (d : Disk) (c : Bytes) : Prop where
  | file (content : ByteArray) (node : d.node? w.handle.location = some (.file content))
      (offset : w.handle.offset = content.size)
      (bytes : Bytes.unpack content ++ Bytes.unpack w.held = c)
  | null (node : d.node? w.handle.location = some (.device .null))
  | full (node : d.node? w.handle.location = some (.device .full))
      (bytes : Bytes.unpack w.held = c)

theorem Carries.congr {w : Buffered} {d d' : Disk} {c : Bytes} (h : w.Carries d c)
    (hn : d'.node? w.handle.location = d.node? w.handle.location) : w.Carries d' c := by
  cases h with
  | file content node offset bytes => exact .file content (hn.trans node) offset bytes
  | null node => exact .null (hn.trans node)
  | full node bytes => exact .full (hn.trans node) bytes

/-- What an operation on the writer `w` that is to leave it with the bytes `c` comes to. -/
structure Leaves (w : Buffered) (d : Disk) (c : Bytes) (r : Except Fault Unit × Buffered × Disk) :
    Prop where
  location : r.2.1.handle.location = w.handle.location
  touches : d.Touches (· = w.handle.location) r.2.2
  carries : r.1 = .ok () → r.2.1.Carries r.2.2 c
  fails : ∀ f, r.1 = .error f → d.node? w.handle.location = some (.device .full)

/-- An operation on what another one has left. -/
theorem Leaves.trans {w w' : Buffered} {d d' : Disk} {c c' : Bytes}
    {r : Except Fault Unit × Buffered × Disk} (h : w.Leaves d c (.ok (), w', d'))
    (h' : w'.Leaves d' c' r) : w.Leaves d c' r where
  location := h'.location.trans h.location
  touches := h.touches.trans (h.location ▸ h'.touches)
  carries := h'.carries
  fails f hf := by
    have := h'.fails f hf
    rw [h.location] at this
    exact (h.touches.tree.device _ _).1 this

variable {w : Buffered} {d : Disk} {c : Bytes}

theorem flush_leaves (h : w.Carries d c) : w.Leaves d c (w.flush d) := by
  cases h with
  | file content node offset bytes =>
    obtain ⟨d', hw, hn, ht⟩ := Disk.write_end w.held node offset
    rw [flush, hw]
    refine ⟨rfl, ht, fun _ => .file _ hn ?_ ?_, nofun⟩
    · simp [offset]
    · simpa using bytes
  | null node =>
    rw [flush, Disk.write_null w.held node]
    exact ⟨rfl, .refl _ d, fun _ => .null node, nofun⟩
  | full node bytes =>
    by_cases hd : w.held.size = 0
    · rw [flush, Disk.write_nothing d w.handle hd]
      refine ⟨rfl, .refl _ d, fun _ => .full node ?_, nofun⟩
      rw [← bytes, Bytes.unpack_eq_nil hd]
      rfl
    · rw [flush, Disk.write_full hd node]
      exact ⟨rfl, .refl _ d, nofun, fun _ _ => node⟩

theorem held_flush {w' : Buffered} {d' : Disk} (h : w.flush d = (.ok (), w', d')) :
    w'.held.size = 0 := by
  unfold flush at h
  split at h <;> cases h
  rfl

theorem flush_settles (h : w.Carries d c) (hc : c ≠ []) {w' : Buffered} {d' : Disk}
    (hf : w.flush d = (.ok (), w', d')) : d'.Received w.handle.location c := by
  have hl := flush_leaves h
  have hempty : Bytes.unpack w'.held = [] := Bytes.unpack_eq_nil (held_flush hf)
  rw [hf] at hl
  cases hl.carries rfl with
  | file content node offset bytes =>
    left
    rw [← hl.location, node, ← bytes, hempty, List.append_nil]
    exact congrArg (some ∘ Node.file) (Bytes.unpack_inj.1 (by simp))
  | null node => exact .inr (hl.location ▸ node)
  | full node bytes => exact absurd (bytes.symm.trans hempty) hc

theorem hold_leaves (h : w.Carries d c) (chunk : ByteArray) :
    w.Leaves d (c ++ Bytes.unpack chunk) (.ok (), { w with held := w.held ++ chunk }, d) := by
  refine ⟨rfl, .refl _ d, ?_, nofun⟩
  intro _
  cases h with
  | file content node offset bytes => exact .file content node offset (by simp [← bytes])
  | null node => exact .null node
  | full node bytes => exact .full node (by simp [← bytes])

/-- A chunk that goes past the buffer must not overtake what is held. -/
theorem accept_leaves (h : w.Carries d c) {chunk : ByteArray}
    (hroom : w.capacity ≤ chunk.size → w.held.size = 0 ∨ chunk.size = 0) :
    w.Leaves d (c ++ Bytes.unpack chunk) (w.accept chunk d) := by
  unfold accept
  split
  · next hcap =>
    have hcomm : Bytes.unpack chunk ++ Bytes.unpack w.held =
        Bytes.unpack w.held ++ Bytes.unpack chunk := by
      rcases hroom hcap with h0 | h0
      · simp [Bytes.unpack_eq_nil h0]
      · simp [Bytes.unpack_eq_nil h0]
    cases h with
    | file content node offset bytes =>
      obtain ⟨d', hw, hn, ht⟩ := Disk.write_end chunk node offset
      rw [hw]
      refine ⟨rfl, ht, fun _ => .file _ hn ?_ ?_, nofun⟩
      · simp [offset]
      · rw [Bytes.unpack_append, List.append_assoc, hcomm, ← bytes, List.append_assoc]
    | null node =>
      rw [Disk.write_null chunk node]
      exact ⟨rfl, .refl _ d, fun _ => .null node, nofun⟩
    | full node bytes =>
      by_cases hd : chunk.size = 0
      · rw [Disk.write_nothing d w.handle hd]
        refine ⟨rfl, .refl _ d, fun _ => .full node ?_, nofun⟩
        rw [Bytes.unpack_eq_nil hd, List.append_nil]
        exact bytes
      · rw [Disk.write_full hd node]
        exact ⟨rfl, .refl _ d, nofun, fun _ _ => node⟩
  · exact hold_leaves h chunk

theorem writePacked_leaves (h : w.Carries d c) (chunk : ByteArray) :
    w.Leaves d (c ++ Bytes.unpack chunk) (w.writePacked chunk d) := by
  unfold writePacked
  dsimp only
  split
  · exact hold_leaves h chunk
  · split
    · have hl := flush_leaves h
      cases hf : w.flush d with
      | mk x y =>
        obtain ⟨w', d'⟩ := y
        rw [hf] at hl
        cases x with
        | error e => exact ⟨hl.location, hl.touches, nofun, hl.fails⟩
        | ok _ => exact hl.trans (accept_leaves (hl.carries rfl) fun _ => .inl (held_flush hf))
    · exact accept_leaves h fun _ => by omega

theorem write_leaves (h : w.Carries d c) (chunk : Bytes) :
    w.Leaves d (c ++ chunk) (w.write chunk d) := by
  have := writePacked_leaves h (Bytes.pack chunk)
  rwa [Bytes.unpack_pack] at this

/-- A new writer carries nothing, and its file stands where a file, a device or nothing was. -/
theorem create_carries {d d' : Disk} {p : Path} {fresh : Bool} {capacity : Nat} {w : Buffered}
    (h : Buffered.create d p fresh capacity = .ok (w, d')) :
    d.Leads p w.handle.location ∧ d.Touches (· = w.handle.location) d' ∧ w.Carries d' [] := by
  unfold create at h
  split at h
  · cases h
  · next l d₁ hc =>
    cases h
    obtain ⟨hl, ⟨hn, rfl⟩ | ⟨⟨k, hn⟩, rfl⟩⟩ := Disk.create_ok hc
    · refine ⟨hl, ⟨.put_file hl.ne_root hn _, ?_⟩, .file .empty ?_ rfl (by simp)⟩
      · intro k hk
        rw [Disk.node?_put hl.ne_root, if_neg hk]
      · simp [Disk.node?_put hl.ne_root]
    · refine ⟨hl, .refl _ _, ?_⟩
      cases k with
      | null => exact .null hn
      | full => exact .full hn rfl

end Buffered
end DumpRouter
