import DumpRouter.Export.Exporter
import DumpRouter.Proofs.Disk.Confined

/-!
# DumpRouter.Proofs.Export.Places

The parts of a disk that exporters have to do with. Those of the library keep to their files.

* `KeepsTo`: exporters that keep to their footprints.
* `Buffered.told`: what a writer did, told by the exporter that has it.
* `Exporter.keepsTo`: the exporters of the library keep to the places of their files.
-/

namespace DumpRouter

/-- Exporters each of which keeps to a footprint, the same one all along. -/
structure KeepsTo {ε : Type} [StatsExporter ε] (footprint : ε → Footprint) : Prop where
  table : ∀ x t, Confined Site.disk footprint (footprint x) (StatsExporter.exportTable x t)
  finish : ∀ x, Confined Site.disk footprint (footprint x) (StatsExporter.finish x)

/-- How something that a writer did went, in the words of an exporter that has it: `done` and
`failed` are the exporter then, and `k` is what it enters in the journal when all went well. -/
def Buffered.told {σ : Type} (done failed : Buffered → σ) (k : Site → Site) (s : Site) :
    Except Fault Unit × Buffered × Disk → Except Failure Unit × σ × Site
  | (.ok (), b, d) => (.ok (), done b, k (s.setDisk d))
  | (.error e, b, d) => (.error (.io e), failed b, s.setDisk d)

theorem Buffered.KeepsPlace.told {σ : Type} {w : Buffered} {footprint : σ → Footprint}
    {f : Disk → Except Fault Unit × Buffered × Disk} (hf : w.KeepsPlace f)
    {done failed : Buffered → σ} {k : Site → Site} (hk : ∀ s, (k s).disk = s.disk)
    (hdone : ∀ b, footprint (done b) = b.footprint)
    (hfailed : ∀ b, footprint (failed b) = b.footprint) :
    Confined Site.disk footprint w.footprint fun s => told done failed k s (f s.disk) := by
  let words : Except Fault Unit × Buffered → Except Failure Unit × σ
    | (.ok (), b) => (.ok (), done b)
    | (.error e, b) => (.error (.io e), failed b)
  refine hf.lift words (fun _ => rfl) (fun s => ?_) (fun x y => ?_) (fun s => ?_)
  · rcases f s.disk with ⟨_ | _, b, d⟩ <;> rfl
  · cases x
    · exact hfailed y
    · exact hdone y
  · rcases f s.disk with ⟨_ | _, b, d⟩
    · rfl
    · exact hk _

namespace CsvExport

def footprint (x : CsvExport) : Footprint := x.output.footprint

variable (x : CsvExport)

theorem ensureHeader_confined : Confined Site.disk footprint x.footprint x.ensureHeader := by
  cases hx : x.headed with
  | true =>
    unfold ensureHeader
    simp only [hx, if_true]
    exact .answer _ rfl fun _ => rfl
  | false =>
    have heq : x.ensureHeader = fun s =>
        Buffered.told (fun b => { x with output := b, headed := true })
          (fun b => { x with output := b }) id s
          (x.output.write (Text.encode header) s.disk) := by
      funext s
      rw [ensureHeader, hx, if_neg Bool.false_ne_true]
      rcases x.output.write (Text.encode header) s.disk with ⟨_ | _, b, d⟩ <;> rfl
    rw [heq]
    exact (x.output.write_keepsPlace _).told (fun _ => rfl) (fun _ => rfl) fun _ => rfl

theorem exportTable_confined (t : TableStats) :
    Confined Site.disk footprint x.footprint (x.exportTable t) := by
  refine x.ensureHeader_confined.andThen (g := fun x' s =>
      Buffered.told (fun b => { x' with output := b, tally := x'.tally.countExported })
        (fun b => { x' with output := b }) id s
        (x'.output.write (Text.encode (String.ofList (row t))) s.disk))
    (fun x' hx' => ?_) ?_ ?_
  · rw [← hx']
    exact (x'.output.write_keepsPlace _).told (fun _ => rfl) (fun _ => rfl) fun _ => rfl
  · intro s e x' s' hheader
    rw [exportTable, hheader]
  · intro s x' s' hheader
    rw [exportTable, hheader]
    dsimp only
    rcases x'.output.write _ s'.disk with ⟨_ | _, b, d⟩ <;> rfl

theorem finish_confined : Confined Site.disk footprint x.footprint x.finish := by
  refine x.ensureHeader_confined.andThen (g := fun x' s =>
      Buffered.told (fun b => { x' with output := b, tally := x'.tally.close })
        (fun b => { x' with output := b })
        (·.note (.summary ("CSV导出完成: " ++ Nat.repr x'.tally.exported.toNat ++ " 个表"))) s
        (x'.output.flush s.disk))
    (fun x' hx' => ?_) ?_ ?_
  · rw [← hx']
    exact x'.output.flush_keepsPlace.told (Site.disk_note · _) (fun _ => rfl) fun _ => rfl
  · intro s e x' s' hheader
    rw [finish, hheader]
  · intro s x' s' hheader
    rw [finish, hheader]
    dsimp only
    rcases x'.output.flush s'.disk with ⟨_ | _, b, d⟩ <;> rfl

end CsvExport

namespace JsonExport

def footprint (x : JsonExport) : Footprint := x.output.footprint

variable (x : JsonExport)

theorem exportTable_confined (t : TableStats) :
    Confined Site.disk footprint x.footprint (x.exportTable t) := by
  have heq : x.exportTable t = fun s =>
      Buffered.told
        (fun b => { x with output := b, fresh := false, tally := x.tally.countExported })
        (fun b => { x with output := b, fresh := false }) id s
        (Export.writeChunks x.output s.disk
          ((if x.fresh then [] else [bytes (separator x.pretty)]) ++
            [bytes (record x.pretty t)])) := by
    funext s
    rw [exportTable]
    rcases Export.writeChunks x.output s.disk _ with ⟨_ | _, b, d⟩ <;> rfl
  rw [heq]
  exact (x.output.writeChunks_keepsPlace _).told (fun _ => rfl) (fun _ => rfl) fun _ => rfl

/-- The end of the array, and what is held. -/
def closed (d : Disk) : Except Fault Unit × Buffered × Disk :=
  match x.output.write (bytes (closing x.pretty x.fresh)) d with
  | (.error f, b, d') => (.error f, b, d')
  | (.ok (), b, d') => b.flush d'

theorem closed_keepsPlace : x.output.KeepsPlace x.closed := by
  refine (x.output.write_keepsPlace (bytes (closing x.pretty x.fresh))).andThen
    (g := Buffered.flush) (fun b hb => ?_) ?_ ?_
  · rw [← hb]
    exact b.flush_keepsPlace
  · intro d f b d' hwrite
    rw [closed, hwrite]
  · intro d b d' hwrite
    rw [closed, hwrite]

theorem finish_confined : Confined Site.disk footprint x.footprint x.finish := by
  have heq : x.finish = fun s =>
      Buffered.told (fun b => { x with output := b, tally := x.tally.close })
        (fun b => { x with output := b })
        (·.note (.summary ("JSON导出完成: " ++ Nat.repr x.tally.exported.toNat ++ " 个表"))) s
        (x.closed s.disk) := by
    funext s
    rw [finish, closed]
    rcases x.output.write _ s.disk with ⟨_ | _, b, d⟩
    · rfl
    · dsimp only
      rcases b.flush d with ⟨_ | _, b', d'⟩ <;> rfl
  rw [heq]
  exact x.closed_keepsPlace.told (Site.disk_note · _) (fun _ => rfl) fun _ => rfl

end JsonExport

namespace Rehearsal

variable (x : Rehearsal)

theorem exportTable_confined (t : TableStats) :
    Confined Site.disk (fun _ => .nowhere) .nowhere (x.exportTable t) := by
  unfold exportTable
  split
  · exact .answer _ rfl (Site.disk_note · _)
  · exact .answer _ rfl fun _ => rfl

theorem finish_confined : Confined Site.disk (fun _ => .nowhere) .nowhere x.finish := by
  unfold finish
  split
  · exact .answer _ rfl (Site.disk_note · _)
  · exact .answer _ rfl fun _ => rfl

end Rehearsal

namespace Exporter

/-- The place of an exporter's file, if it has one. -/
def footprint : Exporter → Footprint
  | .csv x => x.footprint
  | .json x => x.footprint
  | .rehearsal _ => .nowhere

theorem wrap_confined {α : Type} {put : α → Exporter} {place : α → Footprint}
    (hput : ∀ x, (put x).footprint = place x) {F : Footprint}
    {f : Site → Except Failure Unit × α × Site} (hf : Confined Site.disk place F f) :
    Confined Site.disk footprint F fun s => wrap put (f s) :=
  hf.lift (fun r => (r.1, put r.2)) (fun _ => rfl) (fun _ => rfl) (fun _ => hput) fun _ => rfl

theorem keepsTo : KeepsTo footprint where
  table x t := by
    cases x with
    | csv x => exact wrap_confined (fun _ => rfl) (x.exportTable_confined t)
    | json x => exact wrap_confined (fun _ => rfl) (x.exportTable_confined t)
    | rehearsal x => exact wrap_confined (fun _ => rfl) (x.exportTable_confined t)
  finish x := by
    cases x with
    | csv x => exact wrap_confined (fun _ => rfl) x.finish_confined
    | json x => exact wrap_confined (fun _ => rfl) x.finish_confined
    | rehearsal x => exact wrap_confined (fun _ => rfl) x.finish_confined

end Exporter

end DumpRouter
