import DumpRouter.Proofs.Analysis.Counts
import DumpRouter.Proofs.Split.Files

/-!
# DumpRouter.Proofs.Split.DryRun

A dry run writes nothing and counts what a run would write. So it agrees with an analysis of the
same dump, and with the run that it stands for.

* `streams_dry`: streaming when nothing is written.
* `run_dry`: a dry run as a function of the dump.
* `report_agrees_dryRun`: the agreement.
-/

namespace DumpRouter
namespace Splitter

variable {sp sp' : Splitter} {done : List Statement} {s s' : Site}

theorem route_dry (hdry : sp.dryRun = true)
    (hstats : sp.stats = .ofRouted (sp.routed done) done.length) (t : Statement) (s : Site) :
    sp.route t s =
      (.ok (), { sp with
        stats := .ofRouted (sp.routed (done ++ [t])) (done ++ [t]).length }, s) := by
  have hdeliver : ∀ table, sp.deliver table t s = (.ok (), sp.pool, s) := fun table => if_pos hdry
  have hread : sp.stats.countRead = .ofRouted (sp.routed done) (done.length + 1) := by
    rw [hstats, RunStats.countRead_ofRouted]
  rw [route_eq, routed_concat, List.length_append, List.length_singleton]
  cases sp.destination? t with
  | none => simp [hread]
  | some table =>
    dsimp only
    rw [hdeliver]
    dsimp only
    rw [hread, RunStats.countRouted_ofRouted]
    rfl

theorem streams_dry {ts : List Statement} {fault : Option Fault} {x : Except Failure Unit}
    (hs : Streams sp s ts fault x sp' s') (hdry : sp.dryRun = true)
    (hstats : sp.stats = .ofRouted (sp.routed done) done.length) :
    x = fault.elim (.ok ()) (fun f => .error (.read f)) ∧
      sp'.pool = sp.pool ∧ sp'.stats = .ofRouted (sp.routed (done ++ ts)) (done ++ ts).length ∧
      s'.disk = s.disk := by
  induction hs generalizing done with
  | finished notes =>
    rw [List.append_nil]
    exact ⟨rfl, rfl, hstats, Site.disk_noteAll _ notes⟩
  | failed notes fault =>
    rw [List.append_nil]
    exact ⟨rfl, rfl, hstats, Site.disk_noteAll _ notes⟩
  | broken notes hroute =>
    rw [route_dry hdry hstats] at hroute
    cases hroute
  | @routed _ _ _ _ _ _ t ts _ _ notes hroute _ ih =>
    rw [route_dry hdry hstats] at hroute
    cases hroute
    obtain ⟨hx, hpool, hsame, hd⟩ := @ih (done ++ [t]) hdry rfl
    rw [List.append_assoc, List.singleton_append] at hsame
    exact ⟨hx, hpool, hsame, hd.trans (Site.disk_noteAll _ notes)⟩

theorem finish_idle (sp : Splitter) (h : sp.pool.Idle) (s : Site) :
    sp.finish s = (.ok sp.stats, { sp with state := .done }, s.note .splitDone) := by
  rw [finish, h.closeAll]

theorem abort_idle (sp : Splitter) (h : sp.pool.Idle) (e : Failure) (s : Site) :
    sp.abort e s = (.error e, { sp with state := .failed }, s) := by
  rw [abort, h.closeAll]

theorem run_dry (sp : Splitter) (hidle : sp.pool.Idle) (hdry : sp.dryRun = true)
    (script : Script) (inputSize : Nat) (s : Site) :
    (sp.run (.script script) inputSize s).1 =
        (Reader.dump script.events).fault.elim
          (.ok (.ofRouted (sp.routed (Reader.dump script.events).statements)
            (Reader.dump script.events).statements.length))
          (fun f => .error (.read f)) ∧
      (sp.run (.script script) inputSize s).2.2.disk = s.disk := by
  have hprep : sp.prepare s = (.ok (), s) := if_pos hdry
  cases hrun : sp.run (.script script) inputSize s with
  | mk x y =>
    obtain ⟨sp', s'⟩ := y
    rcases run_cases hrun with ⟨e, hp, -⟩ | ⟨s₁, y, sp₂, s₂, hp, hstream, hend⟩
    · cases hprep.symm.trans hp
    · cases hprep.symm.trans hp
      have hs := stream_streams { sp with stats := .zero, state := .streaming }
        (s.note .splitStarted) (Reader.ahead_new script sp.metered
          (sp.portion.getD (portionFor inputSize)))
      rw [← readerOf, hstream] at hs
      have hzero : RunStats.zero = .ofRouted (sp.routed []) ([] : List Statement).length := rfl
      obtain ⟨hy, hpool, hstats, hd⟩ := streams_dry hs hdry hzero
      -- nothing was written, so there is nothing to close
      have hidle' : sp₂.pool.Idle := hpool ▸ hidle
      rcases hend with ⟨rfl, hf⟩ | ⟨e, rfl, ha⟩
      · cases hf.symm.trans (finish_idle _ hidle' s₂)
        cases hfault : (Reader.dump script.events).fault with
        | none => exact ⟨congrArg Except.ok hstats, hd⟩
        | some f =>
          rw [hfault] at hy
          cases hy
      · cases ha.symm.trans (abort_idle sp₂ hidle' e s₂)
        cases hfault : (Reader.dump script.events).fault with
        | none =>
          rw [hfault] at hy
          cases hy
        | some f =>
          rw [hfault] at hy
          cases hy
          exact ⟨rfl, hd⟩

/-- Without a filter a run routes what an analysis with the same limit counts. -/
theorem routed_counted (sp : Splitter) {a : Analyzer} (hlimit : a.limit = sp.limit)
    (hfilter : sp.filter = .all) (ts : List Statement) :
    sp.routed ts = (a.counted ts).map fun c => (c.table, c.statement) := by
  have hone : ∀ t, (sp.destination? t).map (·, t) =
      (a.counted? t).map fun c => (c.table, c.statement) := by
    intro t
    have hknown := (classify t.bytes).known_kind
    unfold destination? Analyzer.counted? accepts
    rw [hlimit, hfilter]
    cases hc : (classify t.bytes).target with
    | none => rfl
    | some target =>
      obtain ⟨kind, table⟩ := target
      have hkind : kind ≠ .unknown := hknown _ hc
      have hall : Filter.all.accepts kind = true := by simpa [Filter.accepts] using hkind
      dsimp only
      rw [hall, Bool.and_true]
      split <;> rfl
  rw [routed, Analyzer.counted, List.map_filterMap]
  exact congrFun (congrArg List.filterMap (funext hone)) ts

/-- An analysis and a dry run without a filter on statements fail alike, or meet the same tables
and count the same. A dry run under any filter leaves the disk as it was, and comes to the counters
of the run that it stands for, unless that one fails. -/
theorem report_agrees_dryRun {a : Analyzer} (hidle : sp.pool.Idle) (hlimit : a.limit = sp.limit)
    (script : Script) (size size' size₁ : Nat) (s s' s₁ : Site) :
    ((∃ f, ({ sp with dryRun := true, filter := .all }.run (.script script) size s).1 =
          .error (.read f) ∧ (a.report (.script script) size' s').1 = .error (.read f)) ∨
        ∃ stats report,
          ({ sp with dryRun := true, filter := .all }.run (.script script) size s).1 = .ok stats ∧
          (a.report (.script script) size' s').1 = .ok report ∧
          stats.tables.Nodup ∧ (report.tables.map (·.name)).Perm stats.tables ∧
          report.read = stats.read ∧
          report.totalStatements = stats.processed.toUInt64 ∧
          report.totalStatements = (report.tables.map (·.statements)).sum ∧
          report.totalBytes = stats.bytes.toUInt64 ∧
          report.totalBytes = (report.tables.map (·.bytes)).sum) ∧
      ({ sp with dryRun := true }.run (.script script) size s).2.2.disk = s.disk ∧
      ∀ stats, ({ sp with dryRun := false }.run (.script script) size₁ s₁).1 = .ok stats →
        ({ sp with dryRun := true }.run (.script script) size s).1 = .ok stats := by
  refine ⟨?_, (run_dry { sp with dryRun := true } hidle rfl script size s).2, ?_⟩
  · have hdry := (run_dry { sp with dryRun := true, filter := .all } hidle rfl script size s).1
    have hreport := a.report_dump script size' s'
    have hsame := routed_counted { sp with dryRun := true, filter := .all } hlimit rfl
      (Reader.dump script.events).statements
    rw [hdry, hreport, hsame]
    cases (Reader.dump script.events).fault with
    | some f => exact .inl ⟨f, rfl, rfl⟩
    | none =>
      refine .inr ⟨_, _, rfl, rfl, RunStats.nodup_eraseDups _, ?_, rfl, ?_,
        Report.totalStatements_eq _ _, ?_, Report.totalBytes_eq _ _⟩
      · refine ((Report.tables_perm _ _).map _).trans ?_
        rw [TableStats.names_tally]
        simp [RunStats.ofRouted, Function.comp_def]
      · rw [Report.totalStatements_ofTables, TableStats.sum_statements]
        simp [RunStats.ofRouted]
      · rw [Report.totalBytes_ofTables, TableStats.sum_bytes]
        simp [RunStats.ofRouted, Function.comp_def]
  · intro stats hreal
    have hpool : { sp with dryRun := false }.pool.Idle := hidle
    obtain ⟨ts, files, hd, -, rfl, -⟩ := run_files hpool rfl (Prod.ext hreal rfl)
    rw [(run_dry { sp with dryRun := true } hidle rfl script size s).1, hd]
    rfl

/-- Statements on two tables, with a setting and a comment between them. -/
def twoTables : Script := [
  .data (Bytes.ascii "CREATE TABLE a (i INT);\nSET x = 1;\n-- rows of b\nINSERT INTO b V".toList),
  .interrupt, .data (Bytes.ascii "ALUES (1);\nINSERT INTO b VALUES (2)".toList)]

theorem report_agrees_dryRun_twoTables :
    (Pool.new ⟨"out"⟩).Idle ∧
      (Analyzer.new ⟨"dump.sql"⟩).limit = (Splitter.new ⟨"dump.sql"⟩ ⟨"out"⟩).limit ∧
      (∃ stats report,
        ({ Splitter.new ⟨"dump.sql"⟩ ⟨"out"⟩ with dryRun := true, filter := .all }.run
          (.script twoTables) 0 (.ofDisk .blank)).1 = .ok stats ∧
        ((Analyzer.new ⟨"dump.sql"⟩).report (.script twoTables) 0 (.ofDisk .blank)).1 = .ok report ∧
        stats = ⟨3, 87, ["a", "b"], 2, 4⟩ ∧ (report.tables.map (·.name)).Perm ["a", "b"] ∧
        report.read = 4 ∧ report.totalStatements = 3 ∧ report.totalBytes = 87) ∧
      ({ Splitter.new ⟨"dump.sql"⟩ ⟨"out"⟩ with filter := .dataOnly, dryRun := true }.run
        (.script twoTables) 0 (.ofDisk .blank)).2.2.disk = .blank ∧
      ({ Splitter.new ⟨"dump.sql"⟩ ⟨"out"⟩ with filter := .dataOnly, dryRun := false }.run
        (.script twoTables) 0 (.ofDisk .blank)).1 = .ok ⟨2, 64, ["b"], 1, 4⟩ ∧
      ({ Splitter.new ⟨"dump.sql"⟩ ⟨"out"⟩ with filter := .dataOnly, dryRun := true }.run
        (.script twoTables) 0 (.ofDisk .blank)).1 = .ok ⟨2, 64, ["b"], 1, 4⟩ := by
  have hdry : ({ Splitter.new ⟨"dump.sql"⟩ ⟨"out"⟩ with dryRun := true, filter := .all }.run
      (.script twoTables) 0 (.ofDisk .blank)).1 = .ok ⟨3, 87, ["a", "b"], 2, 4⟩ := by
    decide +kernel
  have hreal : ({ Splitter.new ⟨"dump.sql"⟩ ⟨"out"⟩ with filter := .dataOnly, dryRun := false }.run
      (.script twoTables) 0 (.ofDisk .blank)).1 = .ok ⟨2, 64, ["b"], 1, 4⟩ := by
    decide +kernel
  have hidle : { Splitter.new ⟨"dump.sql"⟩ ⟨"out"⟩ with filter := .dataOnly }.pool.Idle :=
    Pool.idle_new ⟨"out"⟩
  have hlimit : (Analyzer.new ⟨"dump.sql"⟩).limit = (Splitter.new ⟨"dump.sql"⟩ ⟨"out"⟩).limit := rfl
  obtain ⟨hsame, hdisk, hstats⟩ :=
    report_agrees_dryRun hidle hlimit twoTables 0 0 0 (.ofDisk .blank) (.ofDisk .blank)
      (.ofDisk .blank)
  refine ⟨Pool.idle_new ⟨"out"⟩, hlimit, ?_, hdisk, hreal, hstats _ hreal⟩
  rcases hsame with ⟨f, hf, -⟩ | ⟨stats, report, hx, hy, -, hperm, hread, htotal, -, hbytes, -⟩
  · cases hdry.symm.trans hf
  · cases hdry.symm.trans hx
    exact ⟨_, report, hdry, hy, rfl, hperm, hread, htotal, hbytes⟩

end Splitter
end DumpRouter
