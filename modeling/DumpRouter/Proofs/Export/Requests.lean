import DumpRouter.Export.Exporter
import DumpRouter.Proofs.Disk.Carries
import DumpRouter.Proofs.Text.Utf8

/-!
# DumpRouter.Proofs.Export.Requests

An exporter that is asked for one thing after the other, and the file that it writes to.

* `Buffered.Fills p w d t`: the text `t` has gone into the writer, whose file `p` is a regular one.
* `Export.openTarget_ok`: an export that has just been opened.
* `Fills.write`, `Fills.flush`: neither fails, and what has been flushed is read from the file.
* `Request`: what an exporter is asked for; `answerAll_keeps` is the induction over requests.
-/

namespace DumpRouter

/-- The text `t` is what has gone into the writer since its file, a regular one at `p`, was
opened. -/
structure Buffered.Fills (p : Path) (w : Buffered) (d : Disk) (t : String) : Prop where
  carries : w.Carries d (Text.encode t)
  leads : d.Leads p w.handle.location
  regular : ∃ c, d.node? w.handle.location = some (.file c)

namespace Disk

theorem not_device_of_regular {d d' : Disk} {l : Location} (ht : SameTree d d')
    (h : ∃ c, d.node? l = some (.file c)) (k : Device) : d'.node? l ≠ some (.device k) := by
  obtain ⟨c, hc⟩ := h
  intro hk
  cases hc.symm.trans ((ht.device l k).1 hk)

end Disk

namespace Buffered

/-- A writer that carries something has a file at its place, or a device. -/
theorem Carries.regular {w : Buffered} {d : Disk} {c : Bytes} (h : w.Carries d c)
    (hdevice : ∀ k, d.node? w.handle.location ≠ some (.device k)) :
    ∃ c, d.node? w.handle.location = some (.file c) := by
  cases h with
  | file content node => exact ⟨content, node⟩
  | null node => exact absurd node (hdevice _)
  | full node => exact absurd node (hdevice _)

theorem capacity_create {d d' : Disk} {p : Path} {fresh : Bool} {capacity : Nat} {w : Buffered}
    (h : Buffered.create d p fresh capacity = .ok (w, d')) : w.capacity = capacity := by
  unfold create at h
  split at h
  · cases h
  · cases h
    rfl

namespace Fills

variable {p : Path} {w : Buffered} {d : Disk} {t : String}

/-- A path that leads to a writer's place, and to a file, leads to its file. -/
theorem of_stat (hc : w.Carries d (Text.encode t)) (hl : d.Leads p w.handle.location)
    (hfile : ∃ l c, d.stat p = .ok (l, .file c)) : w.Fills p d t := by
  refine ⟨hc, hl, hc.regular ?_⟩
  intro k hk
  obtain ⟨l, c, hstat⟩ := hfile
  cases (hl.stat hk).symm.trans hstat

/-- How large the buffer is does not show in what has gone into it. -/
theorem capacity (h : w.Fills p d t) (n : Nat) : Fills p { w with capacity := n } d t := by
  refine ⟨?_, h.leads, h.regular⟩
  cases h.carries with
  | file content node offset bytes => exact .file content node offset bytes
  | null node => exact .null node
  | full node bytes => exact .full node bytes

/-- An operation does not fail on a regular file, and leaves it one. -/
theorem leaves (h : w.Fills p d t) {u : String} {r : Except Fault Unit × Buffered × Disk}
    (hr : w.Leaves d (Text.encode u) r) : ∃ w' d', r = (.ok (), w', d') ∧ w'.Fills p d' u := by
  obtain ⟨x, w', d'⟩ := r
  cases x with
  | error f => exact absurd (hr.fails f rfl) (Disk.not_device_of_regular (.refl d) h.regular _)
  | ok _ =>
    have hcarries := hr.carries rfl
    refine ⟨w', d', rfl, hcarries, ?_, hcarries.regular ?_⟩
    · rw [hr.location]
      exact h.leads.sameTree hr.touches.tree
    · rw [hr.location]
      exact Disk.not_device_of_regular hr.touches.tree h.regular

theorem write (h : w.Fills p d t) (u : String) :
    ∃ w' d', w.write (Text.encode u) d = (.ok (), w', d') ∧ w'.Fills p d' (t ++ u) := by
  have hleaves := write_leaves h.carries (Text.encode u)
  rw [← Text.encode_append] at hleaves
  exact h.leaves hleaves

theorem flush (h : w.Fills p d t) :
    ∃ w' d', w.flush d = (.ok (), w', d') ∧ w'.Fills p d' t ∧
      d'.readFile p = .ok (Text.encode t) := by
  obtain ⟨w', d', hflush, hfills⟩ := h.leaves (flush_leaves h.carries)
  refine ⟨w', d', hflush, hfills, ?_⟩
  have hheld := Bytes.unpack_eq_nil (held_flush hflush)
  cases hfills.carries with
  | file content node offset bytes =>
    rw [hheld, List.append_nil] at bytes
    rw [Disk.readFile, hfills.leads.stat node, ← bytes]
  | null node => exact absurd node (Disk.not_device_of_regular (.refl d') hfills.regular _)
  | full node => exact absurd node (Disk.not_device_of_regular (.refl d') hfills.regular _)

theorem writeChunks (h : w.Fills p d t) (us : List String) :
    ∃ w' d', Export.writeChunks w d (us.map Text.encode) = (.ok (), w', d') ∧
      w'.Fills p d' (t ++ String.join us) := by
  induction us generalizing w d t with
  | nil => exact ⟨w, d, rfl, by simpa using h⟩
  | cons u us ih =>
    obtain ⟨w₁, d₁, hwrite, h₁⟩ := h.write u
    obtain ⟨w', d', hrest, h'⟩ := ih h₁
    refine ⟨w', d', ?_, ?_⟩
    · rw [List.map_cons, Export.writeChunks, hwrite]
      exact hrest
    · simpa [String.append_assoc] using h'

end Fills
end Buffered

theorem Disk.readText_encode {d : Disk} {p : Path} {t : String}
    (h : d.readFile p = .ok (Text.encode t)) : d.readText p = .ok t := by
  rw [readText, h]
  dsimp only
  rw [Text.decode?_encode]

/-- An export that has been opened has nothing in it yet. -/
theorem Export.openTarget_ok {p : Path} {overwrite : Bool} {s s' : Site} {w : Buffered}
    (h : openTarget p overwrite s = (.ok w, s')) :
    s'.disk.Leads p w.handle.location ∧ w.Carries s'.disk [] ∧ w.capacity = bufferSize := by
  unfold openTarget at h
  cases hparent : makeParent p s.disk with
  | mk x d =>
    rw [hparent] at h
    cases x with
    | error f => cases h
    | ok _ =>
      dsimp only at h
      cases hc : Buffered.create d p (!overwrite) bufferSize with
      | error f =>
        rw [hc] at h
        cases h
      | ok r =>
        obtain ⟨b, d'⟩ := r
        rw [hc] at h
        cases h
        obtain ⟨hleads, htouches, hcarries⟩ := Buffered.create_carries hc
        exact ⟨hleads.sameTree htouches.tree, hcarries, Buffered.capacity_create hc⟩

/-! ## Requests -/

/-- What an exporter is asked for. -/
inductive Request where
  | table (t : TableStats)
  | batch (ts : List TableStats)
  | finish
  deriving DecidableEq

namespace Request

/-- The tables that are to be exported. -/
def tables : Request → List TableStats
  | .table t => [t]
  | .batch ts => ts
  | .finish => []

variable {ε : Type} [StatsExporter ε]

def answer (x : ε) (s : Site) : Request → Except Failure Unit × ε × Site
  | .table t => StatsExporter.exportTable x t s
  | .batch ts => StatsExporter.exportBatch x s ts
  | .finish => StatsExporter.finish x s

/-- The answers to requests, none of which waits for the one before it to succeed. -/
def answerAll (x : ε) (s : Site) : List Request → List (Except Failure Unit) × ε × Site
  | [] => ([], x, s)
  | r :: rs =>
    let (y, x', s') := r.answer x s
    let (ys, x'', s'') := answerAll x' s' rs
    (y :: ys, x'', s'')

theorem answerAll_concat {x : ε} {s : Site} (rs : List Request) (r : Request) :
    answerAll x s (rs ++ [r]) =
      match answerAll x s rs with
      | (ys, x', s') =>
        match r.answer x' s' with
        | (y, x'', s'') => (ys ++ [y], x'', s'') := by
  induction rs generalizing x s with
  | nil => rfl
  | cons q rs ih =>
    rw [List.cons_append, answerAll, answerAll]
    dsimp only
    rw [ih]
    rfl

section

variable {Inv : ε → Site → List TableStats → Prop}
  (table : ∀ {x s ts}, Inv x s ts → ∀ t, ∃ x' s',
    StatsExporter.exportTable x t s = (.ok (), x', s') ∧ Inv x' s' (ts ++ [t]))
include table

theorem batch_keeps {x : ε} {s : Site} {ts : List TableStats} (h : Inv x s ts)
    (us : List TableStats) :
    ∃ x' s', StatsExporter.exportBatch x s us = (.ok (), x', s') ∧ Inv x' s' (ts ++ us) := by
  induction us generalizing x s ts with
  | nil => exact ⟨x, s, rfl, by simpa using h⟩
  | cons u us ih =>
    obtain ⟨x₁, s₁, hone, h₁⟩ := table h u
    obtain ⟨x', s', hrest, h'⟩ := ih h₁
    refine ⟨x', s', ?_, ?_⟩
    · rw [StatsExporter.exportBatch, hone]
      exact hrest
    · simpa using h'

/-- What each table that is exported keeps, with that table behind the others, and each end keeps,
all requests keep. -/
theorem answerAll_keeps {rs : List Request}
    (finish : .finish ∈ rs → ∀ {x s ts}, Inv x s ts → ∃ x' s',
      StatsExporter.finish x s = (.ok (), x', s') ∧ Inv x' s' ts)
    {x : ε} {s : Site} {ts : List TableStats} (h : Inv x s ts) :
    ∃ x' s', answerAll x s rs = (rs.map fun _ => .ok (), x', s') ∧
      Inv x' s' (ts ++ rs.flatMap tables) := by
  induction rs generalizing x s ts with
  | nil => exact ⟨x, s, rfl, by simpa using h⟩
  | cons r rs ih =>
    have hone : ∃ x₁ s₁, r.answer x s = (.ok (), x₁, s₁) ∧ Inv x₁ s₁ (ts ++ r.tables) := by
      cases r with
      | table t => exact table h t
      | batch us => exact batch_keeps table h us
      | finish =>
        obtain ⟨x₁, s₁, hanswer, h₁⟩ := finish (by simp) h
        exact ⟨x₁, s₁, hanswer, by simpa [tables] using h₁⟩
    obtain ⟨x₁, s₁, hanswer, h₁⟩ := hone
    obtain ⟨x', s', hrest, h'⟩ := ih (fun hmem => finish (by simp [hmem])) h₁
    refine ⟨x', s', ?_, ?_⟩
    · rw [answerAll, hanswer]
      dsimp only
      rw [hrest]
      rfl
    · simpa using h'

/-- What holds when an exporter has been finished holds when that is the last request. -/
theorem answerAll_finish {P : Site → List TableStats → Prop} {rs : List Request}
    (finish : .finish ∈ rs → ∀ {x s ts}, Inv x s ts → ∃ x' s',
      StatsExporter.finish x s = (.ok (), x', s') ∧ Inv x' s' ts)
    (last : ∀ {x s ts}, Inv x s ts → ∃ x' s',
      StatsExporter.finish x s = (.ok (), x', s') ∧ P s' ts)
    {x : ε} {s : Site} (h : Inv x s []) :
    ∃ x' s', answerAll x s (rs ++ [Request.finish]) =
        ((rs ++ [Request.finish]).map fun _ => .ok (), x', s') ∧ P s' (rs.flatMap tables) := by
  obtain ⟨x₁, s₁, hkeeps, h₁⟩ := answerAll_keeps table finish h
  obtain ⟨x', s', hlast, h'⟩ := last h₁
  refine ⟨x', s', ?_, h'⟩
  rw [answerAll_concat, hkeeps]
  dsimp only [answer]
  rw [hlast, List.map_append]
  rfl

end

end Request
end DumpRouter
