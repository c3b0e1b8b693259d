import DumpRouter.Writer.Pool

/-!
# DumpRouter.Proofs.Writer.Retold

What a journal says does not show in what writers and pools do. They only ever enter events in it,
and none of these is a report of the meter.

* `Retells`: a way to tell a journal otherwise, which leaves all events but reports in their places.
* `Site.retold`: a site whose journal is told otherwise.
* `TableWriter.write_retold`, `Pool.closeAll_retold` and so on: every operation does the same there.
* `Site.reports_of_retold`: an operation of this kind makes no reports.
-/

namespace DumpRouter

/-- Whether an event is a report of the meter. -/
def Event.isReport : Event → Bool
  | .progress _ => true
  | _ => false

/-- A way to tell a journal otherwise. Only the reports of the meter, and what was in the journal at
first, may change. -/
def Retells (h : List Event → List Event) : Prop :=
  ∀ e j, e.isReport = false → h (e :: j) = e :: h j

namespace Site

def retold (h : List Event → List Event) (s : Site) : Site := ⟨s.disk, h s.journal⟩

/-- The site without the reports of the meter. -/
def unreported (s : Site) : Site := s.retold (·.filter (!·.isReport))

theorem retells_filter : Retells (·.filter (!·.isReport)) :=
  fun e j he => List.filter_cons_of_pos (by simp [he])

theorem retells_append (past : List Event) : Retells (· ++ past) := fun _ _ _ => rfl

theorem note_retold {h : List Event → List Event} (hh : Retells h) (s : Site) {e : Event}
    (he : e.isReport = false) : (s.retold h).note e = (s.note e).retold h :=
  congrArg (Site.mk s.disk) (hh e s.journal he).symm

theorem note_unreported (s : Site) {e : Event} (he : e.isReport = false) :
    s.unreported.note e = (s.note e).unreported :=
  note_retold retells_filter s he

/-- What does the same whatever the journal says makes no reports: it cannot have removed any, and
those that it made would be missed where reports are left out. -/
theorem reports_of_retold {f : Site → Site}
    (hf : ∀ h, Retells h → ∀ s, f (s.retold h) = (f s).retold h) (s : Site) :
    (f s).reports = s.reports := by
  have hadds : (f s).journal = (f ⟨s.disk, []⟩).journal ++ s.journal :=
    congrArg Site.journal (hf _ (retells_append s.journal) ⟨s.disk, []⟩)
  have hquiet : (f ⟨s.disk, []⟩).journal = (f ⟨s.disk, []⟩).journal.filter (!·.isReport) :=
    congrArg Site.journal (hf _ retells_filter ⟨s.disk, []⟩)
  have hnone : ∀ e ∈ (f ⟨s.disk, []⟩).journal, e.isReport = false := fun e he => by
    rw [hquiet] at he
    simpa using (List.mem_filter.1 he).2
  rw [reports, hadds, List.reverse_append, List.filterMap_append, ← reports]
  refine List.append_right_eq_self.2 (List.filterMap_eq_nil_iff.2 fun e he => ?_)
  have := hnone e (List.mem_reverse.1 he)
  cases e <;> first | rfl | cases this

end Site

section

variable {h : List Event → List Event} (hh : Retells h) (s : Site)
include hh

namespace TableWriter

variable (w : TableWriter)

theorem create_retold (table : String) (path : Path) :
    create table path (s.retold h) =
      ((create table path s).1, (create table path s).2.retold h) := by
  unfold create
  dsimp only [Site.retold]
  cases Buffered.create s.disk path false bufferSize with
  | ok r => rfl
  | error f => exact congrArg (Prod.mk _) (Site.note_retold hh s rfl)

theorem refuse_retold (f : Fault) :
    w.refuse f (s.retold h) =
      ((w.refuse f s).1, (w.refuse f s).2.1, (w.refuse f s).2.2.retold h) :=
  congrArg (fun s' => (_, _, s')) (Site.note_retold hh s rfl)

theorem flushOutput_retold (b : Buffered) :
    w.flushOutput b (s.retold h) =
      ((w.flushOutput b s).1, (w.flushOutput b s).2.1, (w.flushOutput b s).2.2.retold h) := by
  unfold flushOutput
  dsimp only [Site.retold]
  rcases b.flush s.disk with ⟨_ | _, b', d⟩
  · exact refuse_retold hh (s.setDisk d) _ _
  · rfl

theorem write_retold (statement : Bytes) :
    w.write statement (s.retold h) =
      ((w.write statement s).1, (w.write statement s).2.1, (w.write statement s).2.2.retold h) := by
  unfold write
  cases w.output with
  | none => exact refuse_retold hh s w _
  | some b =>
    dsimp only [Site.retold]
    rcases b.write statement s.disk with ⟨_ | _, b', d⟩
    · exact refuse_retold hh (s.setDisk d) _ _
    · dsimp only
      rcases b'.write [10] d with ⟨_ | _, b'', d'⟩
      · exact refuse_retold hh (s.setDisk d') _ _
      · dsimp only
        split
        · exact flushOutput_retold hh (s.setDisk d') _ _
        · rfl

theorem close_retold :
    w.close (s.retold h) = ((w.close s).1, (w.close s).2.1, (w.close s).2.2.retold h) := by
  unfold close
  cases w.output with
  | none => rfl
  | some b =>
    dsimp only [Site.retold]
    rcases b.flush s.disk with ⟨_ | _, b', d⟩
    · exact congrArg (fun s' => (_, _, s')) (Site.note_retold hh (s.setDisk (b'.drop d)) rfl)
    · rfl

end TableWriter

namespace Pool

variable (p : Pool) (table : String)

theorem add_retold (path : Path) :
    p.add table path (s.retold h) =
      ((p.add table path s).1, (p.add table path s).2.1, (p.add table path s).2.2.retold h) := by
  unfold add
  rw [TableWriter.create_retold hh]
  rcases TableWriter.create table path s with ⟨_ | _, s'⟩ <;> rfl

theorem get_retold :
    p.get table (s.retold h) =
      ((p.get table s).1, (p.get table s).2.1, (p.get table s).2.2.retold h) := by
  unfold get
  cases p.writers.lookup table with
  | some id => rfl
  | none =>
    dsimp only
    split
    · rw [Site.note_retold hh s rfl]
      exact add_retold hh _ p table _
    · exact add_retold hh s p table _

omit hh in
theorem onWriter_retold (id : WriterId)
    {f : TableWriter → Site → Except Failure Unit × TableWriter × Site}
    (hf : ∀ w, f w (s.retold h) = ((f w s).1, (f w s).2.1, (f w s).2.2.retold h)) :
    p.onWriter id (s.retold h) f =
      ((p.onWriter id s f).1, (p.onWriter id s f).2.1, (p.onWriter id s f).2.2.retold h) := by
  unfold onWriter
  cases p.writer? id with
  | none => rfl
  | some w =>
    dsimp only
    rw [hf]

theorem writeTable_retold (statement : Bytes) :
    p.writeTable table statement (s.retold h) =
      ((p.writeTable table statement s).1, (p.writeTable table statement s).2.1,
        (p.writeTable table statement s).2.2.retold h) := by
  unfold writeTable
  rw [get_retold hh]
  rcases p.get table s with ⟨_ | id, p', s'⟩
  · rfl
  · exact onWriter_retold s' p' id fun w => w.write_retold hh s' statement

theorem closeEach_retold (failed : Option Failure) (ids : List WriterId) :
    closeEach p failed (s.retold h) ids =
      ((closeEach p failed s ids).1, (closeEach p failed s ids).2.1,
        (closeEach p failed s ids).2.2.retold h) := by
  induction ids generalizing p failed s with
  | nil => rfl
  | cons id ids ih =>
    rw [closeEach, onWriter_retold s p id fun w => w.close_retold hh s, closeEach]
    rcases p.onWriter id s TableWriter.close with ⟨_ | _, p', s'⟩
    · cases failed with
      | none => exact ih s' p' _
      | some e =>
        dsimp only
        rw [Site.note_retold hh s' rfl]
        exact ih _ p' _
    · exact ih s' p' failed

theorem closeAll_retold :
    p.closeAll (s.retold h) =
      ((p.closeAll s).1, (p.closeAll s).2.1, (p.closeAll s).2.2.retold h) := by
  unfold closeAll
  rw [closeEach_retold hh]
  generalize closeEach { p with writers := [], claimed := [] } none s (p.sorted.map (·.2)) = r
  rcases r with ⟨_ | _, p', s'⟩ <;> rfl

theorem ensureOutputDir_retold :
    p.ensureOutputDir (s.retold h) =
      ((p.ensureOutputDir s).1, (p.ensureOutputDir s).2.retold h) := by
  unfold ensureOutputDir
  dsimp only [Site.retold]
  rcases s.disk.mkdirAll p.outputDir with ⟨_ | _, d⟩
  · exact congrArg (Prod.mk _) (Site.note_retold hh (s.setDisk d) rfl)
  · rfl

end Pool

end
end DumpRouter
