import DumpRouter.Proofs.Analysis.Counts
import DumpRouter.Proofs.Reader.Metered
import DumpRouter.Proofs.Writer.Retold

/-!
# DumpRouter.Proofs.Split.Unmetered

Runs and analyses without a meter. They are what they are with one: same outcome, same splitter,
same disk, and the same journal but for the reports.

* `Splitter.withMeter`, `Analyzer.withMeter`: the meter switched on or off.
* `route_retold`, `finish_retold` and so on: what does not read has nothing to do with reports.
* `run_unmetered`, `report_unmetered`: whole runs.
-/

namespace DumpRouter

namespace Site

theorem disk_of_unreported {s s' : Site} (h : s.unreported = s'.unreported) : s.disk = s'.disk := by
  have hdisk : s.unreported.disk = s'.unreported.disk := by rw [h]
  exact hdisk

theorem unreported_noteAll (s : Site) (ns : List Nat) :
    (s.noteAll (ns.map .progress)).unreported = s.unreported := by
  induction ns generalizing s with
  | nil => rfl
  | cons n ns ih => exact ih (s.note (.progress n))

end Site

theorem Reader.noteAll_unmetered (r : Reader) (s : Site) :
    s.unreported.noteAll (r.unmetered.takeReports.1.map .progress) =
      (s.noteAll (r.takeReports.1.map .progress)).unreported :=
  (s.unreported_noteAll _).symm

/-! ## The run without a meter -/

namespace Splitter

/-- The splitter with its meter switched on or off. -/
def withMeter (b : Bool) (sp : Splitter) : Splitter := { sp with metered := b }

section

variable {h : List Event → List Event} (hh : Retells h) (b : Bool) (sp : Splitter) (s : Site)
include hh

theorem deliver_retold (table : String) (t : Statement) :
    (sp.withMeter b).deliver table t (s.retold h) =
      ((sp.deliver table t s).1, (sp.deliver table t s).2.1,
        (sp.deliver table t s).2.2.retold h) := by
  have hdry : (sp.withMeter b).dryRun = sp.dryRun := rfl
  unfold deliver
  rw [hdry]
  split
  · rfl
  · exact Pool.writeTable_retold hh s sp.pool table t.bytes

theorem route_retold (t : Statement) :
    (sp.withMeter b).route t (s.retold h) =
      ((sp.route t s).1, (sp.route t s).2.1.withMeter b, (sp.route t s).2.2.retold h) := by
  have hdest : (sp.withMeter b).destination? t = sp.destination? t := rfl
  rw [route_eq, route_eq sp, hdest]
  cases sp.destination? t with
  | none => rfl
  | some table =>
    dsimp only
    rw [deliver_retold hh]
    rcases sp.deliver table t s with ⟨_ | _, p, s'⟩ <;> rfl

theorem prepare_retold :
    (sp.withMeter b).prepare (s.retold h) = ((sp.prepare s).1, (sp.prepare s).2.retold h) := by
  have hdry : (sp.withMeter b).dryRun = sp.dryRun := rfl
  unfold prepare
  rw [hdry]
  split
  · rfl
  · exact Pool.ensureOutputDir_retold hh s sp.pool

theorem finish_retold :
    (sp.withMeter b).finish (s.retold h) =
      ((sp.finish s).1, (sp.finish s).2.1.withMeter b, (sp.finish s).2.2.retold h) := by
  unfold finish
  dsimp only [withMeter]
  rw [Pool.closeAll_retold hh]
  rcases sp.pool.closeAll s with ⟨_ | _, p, s'⟩
  · rfl
  · exact congrArg (fun s' => (_, _, s')) (Site.note_retold hh s' rfl)

theorem abort_retold (e : Failure) :
    (sp.withMeter b).abort e (s.retold h) =
      ((sp.abort e s).1, (sp.abort e s).2.1.withMeter b, (sp.abort e s).2.2.retold h) := by
  unfold abort
  dsimp only [withMeter]
  rw [Pool.closeAll_retold hh]
  rcases sp.pool.closeAll s with ⟨_ | _, p, s'⟩
  · exact congrArg (fun s' => (_, _, s')) (Site.note_retold hh s' rfl)
  · rfl

end

variable (sp : Splitter) (s : Site)

theorem stream_unmetered (r : Reader) :
    (sp.withMeter false).stream r.unmetered s.unreported =
      ((sp.stream r s).1, (sp.stream r s).2.1.withMeter false,
        (sp.stream r s).2.2.unreported) := by
  induction r using Reader.induction_read generalizing sp s with
  | _ r ih =>
    have hread : r.unmetered.read s.unreported.disk = _ := r.read_unmetered s.disk
    rw [stream_eq, stream_eq sp r s, hread]
    rcases hr : r.read s.disk with ⟨x, r'⟩
    dsimp only
    rw [r'.noteAll_unmetered]
    generalize s.noteAll (r'.takeReports.1.map .progress) = s₁
    cases x with
    | finished => rfl
    | failed f =>
      exact congrArg (fun s' => (_, _, s')) (s₁.note_unreported rfl)
    | statement t =>
      have hroute : (sp.withMeter false).route t s₁.unreported = _ :=
        route_retold Site.retells_filter false sp s₁ t
      dsimp only
      rw [hroute]
      rcases sp.route t s₁ with ⟨_ | _, sp', s₂⟩
      · rfl
      · exact ih _ _ _ hr sp' s₂

theorem run_unmetered (source : Source) (inputSize : Nat) :
    (sp.withMeter false).run source inputSize s.unreported =
      ((sp.run source inputSize s).1, (sp.run source inputSize s).2.1.withMeter false,
        (sp.run source inputSize s).2.2.unreported) := by
  have hprep : Splitter.prepare
      { sp.withMeter false with stats := .zero, state := .initializing } s.unreported = _ :=
    prepare_retold Site.retells_filter false
      { sp with stats := .zero, state := .initializing } s
  unfold run
  dsimp only
  rw [hprep]
  rcases Splitter.prepare { sp with stats := .zero, state := .initializing } s with ⟨_ | _, s₁⟩
  · rfl
  · have hnote : (s₁.retold (·.filter (!·.isReport))).note .splitStarted =
        (s₁.note .splitStarted).unreported := s₁.note_unreported rfl
    have hstream : Splitter.stream
        { sp.withMeter false with stats := .zero, state := .streaming }
        (.new (.new source (sp.withMeter false).metered)
          ((sp.withMeter false).portion.getD (portionFor inputSize)))
        (s₁.note .splitStarted).unreported = _ :=
      stream_unmetered { sp with stats := .zero, state := .streaming } (s₁.note .splitStarted)
        (.new (.new source sp.metered) (sp.portion.getD (portionFor inputSize)))
    dsimp only
    rw [hnote, hstream]
    rcases Splitter.stream { sp with stats := .zero, state := .streaming }
        (.new (.new source sp.metered) (sp.portion.getD (portionFor inputSize)))
        (s₁.note .splitStarted) with ⟨e | _, sp₂, s₂⟩
    · exact abort_retold Site.retells_filter false sp₂ s₂ e
    · exact finish_retold Site.retells_filter false { sp₂ with state := .draining } s₂

end Splitter

namespace Analyzer

def withMeter (b : Bool) (a : Analyzer) : Analyzer := { a with metered := b }

variable (a : Analyzer) (s : Site)

theorem fold_unmetered (tables : List TableStats) (r : Reader) :
    (a.withMeter false).fold tables r.unmetered s.unreported =
      ((a.fold tables r s).1, (a.fold tables r s).2.unreported) := by
  induction r using Reader.induction_read generalizing tables s with
  | _ r ih =>
    have hread : r.unmetered.read s.unreported.disk = _ := r.read_unmetered s.disk
    rw [fold_eq, fold_eq a tables r, hread]
    rcases hr : r.read s.disk with ⟨x, r'⟩
    dsimp only
    rw [r'.noteAll_unmetered]
    generalize s.noteAll (r'.takeReports.1.map .progress) = s₁
    cases x with
    | finished => rfl
    | failed f => exact congrArg (Prod.mk _) (s₁.note_unreported rfl)
    | statement t => exact ih _ _ _ hr s₁ (a.count tables t)

theorem report_unmetered (source : Source) (inputSize : Nat) :
    (a.withMeter false).report source inputSize s.unreported =
      ((a.report source inputSize s).1, (a.report source inputSize s).2.unreported) := by
  have hnote : s.unreported.note .analysisStarted = (s.note .analysisStarted).unreported :=
    s.note_unreported rfl
  have hfold : (a.withMeter false).fold [] (.new (.new source (a.withMeter false).metered)
      ((a.withMeter false).portion.getD (portionFor inputSize)))
      (s.note .analysisStarted).unreported = _ :=
    fold_unmetered a (s.note .analysisStarted) []
      (.new (.new source a.metered) (a.portion.getD (portionFor inputSize)))
  unfold report
  dsimp only
  rw [hnote, hfold]
  rcases a.fold [] (.new (.new source a.metered) (a.portion.getD (portionFor inputSize)))
      (s.note .analysisStarted) with ⟨_ | _, s'⟩
  · rfl
  · exact congrArg (Prod.mk _) (s'.note_unreported rfl)

end Analyzer
end DumpRouter
