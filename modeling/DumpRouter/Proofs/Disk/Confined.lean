import DumpRouter.Export.Target
import DumpRouter.Proofs.Disk.Rewrites

/-!
# DumpRouter.Proofs.Disk.Confined

Which part of a disk an operation has to do with: the places that what it does depends on, and those
that it changes. Two operations that keep apart in this sense do not notice each other.

* `Disk.AgreeOn P d d'`: the disks are alike at the places `P`.
* `Footprint`: the places that are looked at and those that are changed.
* `Confined`: an operation keeps to a footprint; `Confined.andThen` is one after another.
* `Buffered.write_keepsPlace`, `flush_keepsPlace`: a writer keeps to its file.
-/

namespace DumpRouter
namespace Disk

structure AgreeOn (P : Location → Prop) (d d' : Disk) : Prop where
  here : d'.here = d.here
  node : ∀ l, P l → d'.node? l = d.node? l

namespace AgreeOn

variable {P Q : Location → Prop} {d d' d'' : Disk}

theorem refl (P : Location → Prop) (d : Disk) : AgreeOn P d d := ⟨rfl, fun _ _ => rfl⟩

theorem trans (h : AgreeOn P d d') (h' : AgreeOn P d' d'') : AgreeOn P d d'' :=
  ⟨h'.here.trans h.here, fun l hl => (h'.node l hl).trans (h.node l hl)⟩

theorem mono (h : AgreeOn P d d') (hQ : ∀ l, Q l → P l) : AgreeOn Q d d' :=
  ⟨h.here, fun l hl => h.node l (hQ l hl)⟩

end AgreeOn
end Disk

/-- The places that an operation looks at, and those that it changes. -/
structure Footprint where
  reads : Location → Prop
  writes : Location → Prop

namespace Footprint

/-- Neither looks at what the other one changes. -/
def Apart (F G : Footprint) : Prop :=
  ∀ l, (F.writes l → ¬ G.reads l) ∧ (G.writes l → ¬ F.reads l)

/-- A single place. -/
def at_ (l : Location) : Footprint := ⟨(· = l), (· = l)⟩

/-- No place. -/
def nowhere : Footprint := ⟨fun _ => False, fun _ => False⟩

theorem Apart.symm {F G : Footprint} (h : F.Apart G) : G.Apart F := fun l => (h l).symm

end Footprint

/-- The operation `f` on something with a disk keeps to the footprint `F`, and so does what comes of
it. The rest of the disk stays as it is, and on disks that agree on what it looks at it answers the
same and does the same there. -/
structure Confined {ω ρ σ : Type} (disk : ω → Disk) (footprint : σ → Footprint) (F : Footprint)
    (f : ω → ρ × σ × ω) : Prop where
  stays : ∀ s, footprint (f s).2.1 = F
  other : ∀ s, Disk.AgreeOn (fun l => ¬ F.writes l) (disk s) (disk (f s).2.2)
  same : ∀ {s s'}, Disk.AgreeOn F.reads (disk s) (disk s') →
    (f s').1 = (f s).1 ∧ (f s').2.1 = (f s).2.1 ∧
      Disk.AgreeOn F.reads (disk (f s).2.2) (disk (f s').2.2)

namespace Confined

variable {ω ρ σ ε : Type} {disk : ω → Disk} {footprint : σ → Footprint} {F : Footprint}

/-- To answer, without a look at the disk. -/
theorem answer (x : ρ) {y : σ} (hy : footprint y = F) {k : ω → ω}
    (hk : ∀ s, disk (k s) = disk s) : Confined disk footprint F fun s => (x, y, k s) where
  stays _ := hy
  other s := by
    dsimp only
    rw [hk]
    exact .refl _ _
  same {s s'} h := by
    dsimp only
    rw [hk, hk]
    exact ⟨rfl, rfl, h⟩

/-- An operation `f` and then, if it has succeeded, another one. -/
theorem andThen {f h : ω → Except ε Unit × σ × ω} {g : σ → ω → Except ε Unit × σ × ω}
    (hf : Confined disk footprint F f)
    (hg : ∀ y, footprint y = F → Confined disk footprint F (g y))
    (error : ∀ {s e y s'}, f s = (.error e, y, s') → h s = (.error e, y, s'))
    (ok : ∀ {s y s'}, f s = (.ok (), y, s') → h s = g y s') :
    Confined disk footprint F h where
  stays s := by
    have hfirst := hf.stays s
    rcases hs : f s with ⟨x, y, s₁⟩
    rw [hs] at hfirst
    cases x with
    | error e => rw [error hs, hfirst]
    | ok _ => rw [ok hs, (hg y hfirst).stays]
  other s := by
    have hfirst := hf.other s
    have hstays := hf.stays s
    rcases hs : f s with ⟨x, y, s₁⟩
    rw [hs] at hfirst hstays
    cases x with
    | error e =>
      rw [error hs]
      exact hfirst
    | ok _ =>
      rw [ok hs]
      exact hfirst.trans ((hg y hstays).other s₁)
  same {s s'} h := by
    obtain ⟨hanswer, hstate, hdisk⟩ := hf.same h
    have hstays := hf.stays s
    rcases hs : f s with ⟨x, y, s₁⟩
    rcases hs' : f s' with ⟨x', y', s₁'⟩
    rw [hs] at hanswer hstate hdisk hstays
    rw [hs'] at hanswer hstate hdisk
    cases hanswer
    cases hstate
    cases x with
    | error e =>
      rw [error hs, error hs']
      exact ⟨rfl, rfl, hdisk⟩
    | ok _ =>
      rw [ok hs, ok hs']
      exact (hg y hstays).same hdisk

/-- An operation of a part of something, and how it went in the words of the whole. -/
theorem lift {ω' ρ' σ' : Type} {disk' : ω' → Disk} {footprint' : σ' → Footprint}
    {f : ω → ρ × σ × ω} {h : ω' → ρ' × σ' × ω'} (hf : Confined disk footprint F f)
    {part : ω' → ω} (told : ρ × σ → ρ' × σ') (hpart : ∀ s, disk (part s) = disk' s)
    (htold : ∀ s, ((h s).1, (h s).2.1) = told ((f (part s)).1, (f (part s)).2.1))
    (hstays : ∀ x y, footprint' (told (x, y)).2 = footprint y)
    (hdisk : ∀ s, disk' (h s).2.2 = disk (f (part s)).2.2) :
    Confined disk' footprint' F h where
  stays s := by
    have hstate := congrArg Prod.snd (htold s)
    exact (congrArg footprint' hstate).trans ((hstays _ _).trans (hf.stays _))
  other s := by
    rw [hdisk, ← hpart]
    exact hf.other _
  same {s s'} hs := by
    rw [← hpart s, ← hpart s'] at hs
    obtain ⟨hanswer, hstate, hafter⟩ := hf.same hs
    have heq := (htold s').trans (hanswer ▸ hstate ▸ (htold s).symm)
    rw [hdisk, hdisk]
    exact ⟨(Prod.mk.inj heq).1, (Prod.mk.inj heq).2, hafter⟩

end Confined

namespace Disk

variable {d d' e : Disk} {h h' : Handle} {data : ByteArray}

theorem here_write (hw : d.write h data = .ok (h', d')) : d'.here = d.here := by
  unfold write at hw
  split at hw
  · cases hw
    rfl
  · split at hw <;> cases hw <;> rfl

/-- Whether a write succeeds, and how far it goes, depends on what is at the place. -/
theorem write_map_fst (hn : e.node? h.location = d.node? h.location) :
    (e.write h data).map Prod.fst = (d.write h data).map Prod.fst := by
  unfold write
  rw [hn]
  split
  · rfl
  · split <;> rfl

end Disk

namespace Buffered

/-- The place of a writer's file. -/
def footprint (w : Buffered) : Footprint := .at_ w.handle.location

/-- Something that a writer does keeps to the place of its file. -/
abbrev KeepsPlace (w : Buffered) (f : Disk → Except Fault Unit × Buffered × Disk) : Prop :=
  Confined id footprint w.footprint f

variable (w : Buffered)

/-- Sending bytes to the file; `next` is the writer when they are out. -/
theorem send_keepsPlace (data : ByteArray) {next : Disk.Handle → Buffered}
    (hnext : ∀ h, (next h).handle = h) :
    w.KeepsPlace fun d =>
      match d.write w.handle data with
      | .ok (h, d') => (Except.ok (), next h, d')
      | .error e => (.error e, w, d) where
  stays d := by
    cases hw : d.write w.handle data with
    | error e => rfl
    | ok r => exact congrArg Footprint.at_ ((hnext r.1).symm ▸ (Disk.write_handle hw).1)
  other d := by
    cases hw : d.write w.handle data with
    | error e => exact .refl _ d
    | ok r =>
      refine ⟨Disk.here_write hw, fun l hl => ?_⟩
      exact (Disk.node?_write hw l).trans (if_neg hl)
  same {d d'} h := by
    have hplace : d'.node? w.handle.location = d.node? w.handle.location := h.node _ rfl
    have hfst : (d'.write w.handle data).map Prod.fst = (d.write w.handle data).map Prod.fst :=
      Disk.write_map_fst hplace
    cases hw : d.write w.handle data with
    | error f =>
      cases hw' : d'.write w.handle data with
      | ok r' => rw [hw, hw'] at hfst; cases hfst
      | error f' =>
        rw [hw, hw'] at hfst
        cases hfst
        exact ⟨rfl, rfl, h⟩
    | ok r =>
      cases hw' : d'.write w.handle data with
      | error f' => rw [hw, hw'] at hfst; cases hfst
      | ok r' =>
        obtain ⟨k, e⟩ := r
        obtain ⟨k', e'⟩ := r'
        rw [hw, hw'] at hfst
        cases hfst
        refine ⟨rfl, rfl, ?_, fun l hl => ?_⟩
        · exact (Disk.here_write hw').trans (h.here.trans (Disk.here_write hw).symm)
        · exact (Disk.node?_write hw' l).trans
            (hplace ▸ h.node l hl ▸ (Disk.node?_write hw l).symm)

theorem flush_keepsPlace : w.KeepsPlace w.flush := w.send_keepsPlace w.held fun _ => rfl

theorem accept_keepsPlace (chunk : ByteArray) : w.KeepsPlace (w.accept chunk) := by
  unfold accept
  split
  · exact w.send_keepsPlace chunk fun _ => rfl
  · refine .answer _ ?_ fun _ => rfl
    rfl

theorem write_keepsPlace (chunk : Bytes) : w.KeepsPlace (w.write chunk) := by
  unfold write writePacked
  dsimp only
  split
  · refine .answer _ ?_ fun _ => rfl
    rfl
  · split
    · refine w.flush_keepsPlace.andThen (g := fun w' => w'.accept (Bytes.pack chunk))
        (fun w' hw' => ?_) ?_ ?_
      · rw [← hw']
        exact w'.accept_keepsPlace _
      · intro d f w' d' hflush
        rw [hflush]
      · intro d w' d' hflush
        rw [hflush]
    · exact w.accept_keepsPlace _

theorem writeChunks_keepsPlace (chunks : List Bytes) :
    w.KeepsPlace fun d => Export.writeChunks w d chunks := by
  induction chunks generalizing w with
  | nil => exact .answer _ rfl fun _ => rfl
  | cons c cs ih =>
    refine (w.write_keepsPlace c).andThen (g := fun w' d => Export.writeChunks w' d cs)
      (fun w' hw' => ?_) ?_ ?_
    · rw [← hw']
      exact ih w'
    · intro d f w' d' hwrite
      rw [Export.writeChunks, hwrite]
    · intro d w' d' hwrite
      rw [Export.writeChunks, hwrite]

end Buffered
end DumpRouter
