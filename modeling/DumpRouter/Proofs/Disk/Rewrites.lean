import DumpRouter.Proofs.Disk.Carries

/-!
# DumpRouter.Proofs.Disk.Rewrites

What writing through an open file can do to a disk at all, whatever has become of the file since it
was opened: the content of that one file changes, and nothing else.

* `Disk.Rewrites P d d'`: from `d` to `d'` only the content of files at the places `P` has changed.
* `Disk.written`, `node?_write`: what a write makes of the file that it goes to.
* `Disk.write_error_iff`: a write fails where there is no room for it.
* `Buffered.Stays`: what no operation on a buffered writer changes.
* `write_refused`: a chunk that is refused leaves what the writer carries as it was.
-/

namespace DumpRouter
namespace Disk

/-- The disk `d'` is `d` but for the content of regular files at places in `P`. -/
structure Rewrites (P : Location → Prop) (d d' : Disk) : Prop where
  node : ∀ l, d'.node? l = d.node? l ∨
    P l ∧ ∃ c c', d.node? l = some (.file c) ∧ d'.node? l = some (.file c')

namespace Rewrites

variable {P Q : Location → Prop} {d d' d'' : Disk} {l : Location}

theorem refl (P : Location → Prop) (d : Disk) : Rewrites P d d := ⟨fun _ => .inl rfl⟩

theorem mono (h : Rewrites P d d') (hPQ : ∀ l, P l → Q l) : Rewrites Q d d' :=
  ⟨fun l => (h.node l).imp_right fun ⟨hp, hc⟩ => ⟨hPQ l hp, hc⟩⟩

theorem trans (h : Rewrites P d d') (h' : Rewrites P d' d'') : Rewrites P d d'' := by
  refine ⟨fun l => ?_⟩
  rcases h'.node l with h₂ | ⟨hp, c₁, c₂, hn₁, hn₂⟩
  · rcases h.node l with h₁ | ⟨hp, c, c₁, hn, hn₁⟩
    · exact .inl (h₂.trans h₁)
    · exact .inr ⟨hp, c, c₁, hn, h₂.trans hn₁⟩
  · rcases h.node l with h₁ | ⟨-, c, -, hn, -⟩
    · exact .inr ⟨hp, c₁, c₂, h₁ ▸ hn₁, hn₂⟩
    · exact .inr ⟨hp, c, c₂, hn, hn₂⟩

theorem other (h : Rewrites P d d') (hl : ¬ P l) : d'.node? l = d.node? l :=
  (h.node l).resolve_right fun hp => hl hp.1

theorem file_iff (h : Rewrites P d d') (l : Location) :
    (∃ c, d'.node? l = some (.file c)) ↔ ∃ c, d.node? l = some (.file c) := by
  rcases h.node l with he | ⟨-, c, c', hc, hc'⟩
  · rw [he]
  · exact iff_of_true ⟨c', hc'⟩ ⟨c, hc⟩

theorem device_iff (h : Rewrites P d d') (l : Location) (k : Device) :
    d'.node? l = some (.device k) ↔ d.node? l = some (.device k) := by
  rcases h.node l with he | ⟨-, c, c', hc, hc'⟩
  · rw [he]
  · simp [hc, hc']

end Rewrites

/-- Whether bytes can be written at a place. -/
def hasRoom (d : Disk) (l : Location) : Bool :=
  match d.node? l with
  | some (.file _) | some (.device .null) => true
  | _ => false

theorem Rewrites.hasRoom_eq {P : Location → Prop} {d d' : Disk} (h : Rewrites P d d')
    (l : Location) : d'.hasRoom l = d.hasRoom l := by
  unfold hasRoom
  rcases h.node l with he | ⟨-, c, c', hc, hc'⟩
  · rw [he]
  · rw [hc, hc']

/-- What bytes written at an offset make of what is at a place. -/
def written (n : Option Node) (offset : Nat) (data : ByteArray) : Option Node :=
  if data.size = 0 then n
  else match n with
    | some (.file c) => some (.file (overwrite c offset data))
    | n => n

variable {d d' : Disk} {h h' : Handle} {data : ByteArray}

theorem write_error_iff {f : Fault} : d.write h data = .error f ↔
    data.size ≠ 0 ∧ d.hasRoom h.location = false ∧ f = .system .noSpace := by
  unfold write hasRoom
  by_cases hd : data.size = 0
  · simp [hd]
  · rw [if_neg hd]
    cases hn : d.node? h.location with
    | none => simp [hd, eq_comm]
    | some n =>
      cases n with
      | directory => simp [hd, eq_comm]
      | file c => simp
      | device k => cases k <;> simp [hd, eq_comm]

theorem written_of_no_room (hd : d.hasRoom h.location = false) (offset : Nat) :
    written (d.node? h.location) offset data = d.node? h.location := by
  unfold hasRoom at hd
  unfold written
  split
  · rfl
  · split
    · next hn => simp [hn] at hd
    · rfl

/-- A write reaches the place of its file only. -/
theorem node?_write (hw : d.write h data = .ok (h', d')) (l : Location) :
    d'.node? l =
      if l = h.location then written (d.node? h.location) h.offset data else d.node? l := by
  unfold write at hw
  unfold written
  split at hw
  · next hd =>
    cases hw
    rw [if_pos hd]
    split
    · next hl => rw [hl]
    · rfl
  · next hd =>
    rw [if_neg hd]
    split at hw
    · next c hn =>
      cases hw
      rw [hn, node?_put (ne_root_of_file hn)]
    · next hn =>
      cases hw
      rw [hn]
      split
      · next hl => rw [hl, hn]
      · rfl
    · cases hw

theorem rewrites_of_node? {l : Location} {offset : Nat}
    (hn : ∀ k, d'.node? k = if k = l then written (d.node? l) offset data else d.node? k) :
    Rewrites (· = l) d d' := by
  refine ⟨fun k => ?_⟩
  rw [hn]
  split
  · next hk =>
    subst hk
    unfold written
    split
    · exact .inl rfl
    · split
      · next c hc => exact .inr ⟨rfl, c, _, hc, rfl⟩
      · exact .inl rfl
  · exact .inl rfl

theorem write_handle (hw : d.write h data = .ok (h', d')) :
    h'.location = h.location ∧ h.offset ≤ h'.offset := by
  unfold write at hw
  split at hw
  · cases hw
    exact ⟨rfl, Nat.le_refl _⟩
  · split at hw <;> cases hw <;> exact ⟨rfl, Nat.le_add_right ..⟩

end Disk

namespace Buffered

/-- What an operation on the writer `w` leaves as it is, whether or not it fails. -/
structure Stays (w : Buffered) (d : Disk) (r : Except Fault Unit × Buffered × Disk) : Prop where
  location : r.2.1.handle.location = w.handle.location
  capacity : r.2.1.capacity = w.capacity
  offset : w.handle.offset ≤ r.2.1.handle.offset
  rewrites : d.Rewrites (· = w.handle.location) r.2.2

variable {w : Buffered} {d : Disk}

theorem Stays.unchanged (w : Buffered) (d : Disk) (x : Except Fault Unit) : w.Stays d (x, w, d) :=
  ⟨rfl, rfl, Nat.le_refl _, .refl _ d⟩

theorem Stays.trans {w' : Buffered} {d' : Disk} {x : Except Fault Unit}
    {r : Except Fault Unit × Buffered × Disk} (h : w.Stays d (x, w', d')) (h' : w'.Stays d' r) :
    w.Stays d r where
  location := h'.location.trans h.location
  capacity := h'.capacity.trans h.capacity
  offset := Nat.le_trans h.offset h'.offset
  rewrites := h.rewrites.trans (h.location ▸ h'.rewrites)

theorem flush_error {f : Fault} {w' : Buffered} {d' : Disk} (h : w.flush d = (.error f, w', d')) :
    w' = w ∧ d' = d := by
  unfold flush at h
  split at h <;> cases h
  exact ⟨rfl, rfl⟩

/-- What is held goes to the file of the writer, if there is room. -/
theorem node?_flush (w : Buffered) (d : Disk) (l : Location) :
    (w.flush d).2.2.node? l =
      if l = w.handle.location then
        Disk.written (d.node? w.handle.location) w.handle.offset w.held
      else d.node? l := by
  unfold flush
  split
  · next hw => exact Disk.node?_write hw l
  · next hw =>
    obtain ⟨-, hroom, -⟩ := Disk.write_error_iff.1 hw
    rw [Disk.written_of_no_room hroom]
    split
    · next hl => rw [hl]
    · rfl

theorem flush_stays (w : Buffered) (d : Disk) : w.Stays d (w.flush d) := by
  have hr := Disk.rewrites_of_node? (w.node?_flush d)
  unfold flush at hr ⊢
  split
  · next hw =>
    rw [hw] at hr
    obtain ⟨hl, ho⟩ := Disk.write_handle hw
    exact ⟨hl, rfl, ho, hr⟩
  · exact .unchanged w d _

theorem accept_stays (w : Buffered) (chunk : ByteArray) (d : Disk) :
    w.Stays d (w.accept chunk d) := by
  unfold accept
  split
  · split
    · next hw =>
      obtain ⟨hl, ho⟩ := Disk.write_handle hw
      exact ⟨hl, rfl, ho, Disk.rewrites_of_node? (Disk.node?_write hw)⟩
    · exact .unchanged w d _
  · exact ⟨rfl, rfl, Nat.le_refl _, .refl _ d⟩

theorem writePacked_stays (w : Buffered) (chunk : ByteArray) (d : Disk) :
    w.Stays d (w.writePacked chunk d) := by
  unfold writePacked
  dsimp only
  split
  · exact ⟨rfl, rfl, Nat.le_refl _, .refl _ d⟩
  · split
    · have hs := w.flush_stays d
      cases hf : w.flush d with
      | mk x y =>
        obtain ⟨w', d'⟩ := y
        rw [hf] at hs
        cases x with
        | error f => exact hs
        | ok _ => exact hs.trans (w'.accept_stays chunk d')
    · exact w.accept_stays chunk d

theorem write_stays (w : Buffered) (chunk : Bytes) (d : Disk) : w.Stays d (w.write chunk d) :=
  w.writePacked_stays _ d

/-- A chunk that is refused is not taken in part, and nothing that was taken before it is lost. -/
theorem write_refused {c chunk : Bytes} {f : Fault} (h : w.Carries d c)
    (hf : (w.write chunk d).1 = .error f) :
    (w.write chunk d).2.1.Carries (w.write chunk d).2.2 c := by
  have haccept : ∀ (v : Buffered) (e : Disk) (a : ByteArray), v.Carries e c →
      (v.accept a e).1 = .error f → (v.accept a e).2.1.Carries (v.accept a e).2.2 c := by
    intro v e a hv hx
    unfold accept at hx ⊢
    split at hx
    · next hcap =>
      rw [if_pos hcap]
      split at hx
      · cases hx
      · exact hv
    · cases hx
  unfold write writePacked at hf ⊢
  dsimp only at hf ⊢
  split at hf
  · cases hf
  · next hroom =>
    rw [if_neg hroom]
    split at hf
    · next hfull =>
      rw [if_pos hfull]
      have hl := flush_leaves h
      cases hw : w.flush d with
      | mk x y =>
        obtain ⟨w', d'⟩ := y
        rw [hw] at hf hl
        cases x with
        | error f' =>
          obtain ⟨rfl, rfl⟩ := flush_error hw
          exact h
        | ok _ => exact haccept w' d' _ (hl.carries rfl) hf
    · next hfits =>
      rw [if_neg hfits]
      exact haccept w d _ h hf

end Buffered
end DumpRouter
