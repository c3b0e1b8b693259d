import DumpRouter.Proofs.Disk.Confined

/-!
# DumpRouter.Proofs.Disk.Keeps

Operations on a disk that take nothing away. Directories and files may be new, and some files may
have another content, but whatever was there is there still.

* `Disk.Keeps P d d'`: of what is on `d`, only the content of files at the places `P` is another.
* `Keeps.readFile`: any other file has the content that it had.
* `create_keeps`: a file that is opened is emptied, unless nothing may be there.
-/

namespace DumpRouter
namespace Disk

structure Keeps (P : Location → Prop) (d d' : Disk) : Prop where
  here : d'.here = d.here
  node : ∀ l n, d.node? l = some n →
    d'.node? l = some n ∨ P l ∧ ∃ c c', n = .file c ∧ d'.node? l = some (.file c')

namespace Keeps

variable {P Q : Location → Prop} {d d' d'' : Disk}

theorem refl (P : Location → Prop) (d : Disk) : Keeps P d d := ⟨rfl, fun _ _ hn => .inl hn⟩

theorem mono (h : Keeps P d d') (hQ : ∀ l, P l → Q l) : Keeps Q d d' :=
  ⟨h.here, fun l n hn => (h.node l n hn).imp_right fun ⟨hp, hc⟩ => ⟨hQ l hp, hc⟩⟩

/-- Files that were not there in the beginning may be rewritten later. -/
theorem trans (h : Keeps P d d') (h' : Keeps Q d' d'')
    (hQ : ∀ l, Q l → P l ∨ d.node? l = none) : Keeps P d d'' := by
  refine ⟨h'.here.trans h.here, fun l n hn => ?_⟩
  rcases h.node l n hn with hn' | ⟨hp, c, c', rfl, hn'⟩
  · refine (h'.node l n hn').imp_right fun ⟨hq, hc⟩ => ⟨?_, hc⟩
    rcases hQ l hq with hp | hnone
    · exact hp
    · cases hnone.symm.trans hn
  · rcases h'.node l _ hn' with hn'' | ⟨-, -, c'', -, hn''⟩
    · exact .inr ⟨hp, c, c', rfl, hn''⟩
    · exact .inr ⟨hp, c, c'', rfl, hn''⟩

theorem none (h : Keeps P d d') {l : Location} (hn : d'.node? l = .none) : d.node? l = .none := by
  cases hd : d.node? l with
  | none => rfl
  | some n =>
    rcases h.node l n hd with hn' | ⟨-, c, c', -, hn'⟩
    · cases hn.symm.trans hn'
    · cases hn.symm.trans hn'

theorem keepsDirectories (h : Keeps P d d') : KeepsDirectories d d' := by
  refine ⟨h.here, fun l hn => ?_⟩
  rcases h.node l _ hn with hn' | ⟨-, c, -, hc, -⟩
  · exact hn'
  · cases hc

/-- A file has the content that it had, unless it is one of those that may have another one. -/
theorem readFile (h : Keeps P d d') {q : Path} {content : Bytes}
    (hq : d.readFile q = .ok content) :
    d'.readFile q = .ok content ∨ ∃ l, P l ∧ d'.Leads q l := by
  obtain ⟨l, n, hstat, hn⟩ : ∃ l n, d.stat q = .ok (l, n) ∧ n ≠ .directory := by
    unfold Disk.readFile at hq
    split at hq
    · cases hq
    · cases hq
    · next l c hstat => exact ⟨l, .file c, hstat, by simp⟩
    · next l k hstat => exact ⟨l, .device k, hstat, by simp⟩
  obtain ⟨hleads, hnode⟩ := leads_of_stat hstat hn
  have hleads' := hleads.keeps h.keepsDirectories
  rcases h.node l n hnode with hnode' | ⟨hp, -⟩
  · left
    rw [Disk.readFile, hstat] at hq
    rw [Disk.readFile, hleads'.stat hnode']
    exact hq
  · exact .inr ⟨l, hp, hleads'⟩

end Keeps

theorem AddsDirectories.keeps {d d' : Disk} (h : AddsDirectories d d') (P : Location → Prop) :
    Keeps P d d' := by
  refine ⟨h.here, fun l n hn => ?_⟩
  rcases h.node l with hn' | ⟨hnone, -⟩
  · exact .inl (hn'.trans hn)
  · cases hnone.symm.trans hn

theorem Rewrites.keeps {P : Location → Prop} {d d' : Disk} (h : Rewrites P d d')
    (here : d'.here = d.here) : Keeps P d d' := by
  refine ⟨here, fun l n hn => ?_⟩
  rcases h.node l with hn' | ⟨hp, c, c', hc, hc'⟩
  · exact .inl (hn'.trans hn)
  · rw [hc] at hn
    cases hn
    exact .inr ⟨hp, c, c', rfl, hc'⟩

theorem create_fresh {d d' : Disk} {p : Path} {l : Location}
    (h : d.create p true = .ok (l, d')) : d.node? l = none := by
  obtain ⟨⟨k, name, hr, hlen, rfl⟩, -⟩ := create_ok h
  unfold create at h
  rw [hr] at h
  simp only [Bool.false_eq_true, if_false, find, Nat.not_lt.2 hlen] at h
  cases hn : d.node? (k.below name) with
  | none => rfl
  | some n =>
    rw [hn] at h
    cases h

theorem create_keeps {d d' : Disk} {p : Path} {fresh : Bool} {l : Location}
    (h : d.create p fresh = .ok (l, d')) : Keeps (fun k => fresh = false ∧ k = l) d d' := by
  obtain ⟨hleads, ⟨hn, rfl⟩ | ⟨-, rfl⟩⟩ := create_ok h
  · refine ⟨rfl, fun k n hk => ?_⟩
    rw [node?_put hleads.ne_root]
    by_cases hkl : k = l
    · subst hkl
      rw [hk] at hn
      obtain hn | ⟨c, hn⟩ := hn
      · cases hn
      · cases hn
        cases fresh with
        | true => cases (create_fresh h).symm.trans hk
        | false => exact .inr ⟨⟨rfl, rfl⟩, c, _, rfl, if_pos rfl⟩
    · exact .inl ((if_neg hkl).trans hk)
  · exact .refl _ _

end Disk

namespace Buffered

theorem write_keeps (w : Buffered) (chunk : Bytes) (d : Disk) :
    d.Keeps w.footprint.writes (w.write chunk d).2.2 :=
  (w.write_stays chunk d).rewrites.keeps ((w.write_keepsPlace chunk).other d).here

theorem flush_keeps (w : Buffered) (d : Disk) : d.Keeps w.footprint.writes (w.flush d).2.2 :=
  (w.flush_stays d).rewrites.keeps (w.flush_keepsPlace.other d).here

end Buffered
end DumpRouter
