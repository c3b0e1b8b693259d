import DumpRouter.Export.Exporter

/-!
# DumpRouter.Export.Multi

Several exporters at once. Each gets every table, whatever the others do, and what it fails on is
counted for it alone. An exporter and the tally kept of it are one entry: both come in with `add`
and neither ever leaves, so that two lists of them would always go side by side.

* `Multi.exportTable`, `Multi.exportBatch`: tables for all exporters.
* `Multi.finishAll`: the end for all exporters; the first failure is reported.
-/

namespace DumpRouter

/-- Exporters in the order in which they were added, each with the tally kept of it. -/
abbrev Multi (ε : Type) := List (ε × Tally)

namespace Multi

variable {ε : Type} [StatsExporter ε]

def add (m : Multi ε) (x : ε) : Multi ε := m ++ [(x, .opened)]

/-- Exports a table to each exporter and counts how it went. -/
def exportTable (t : TableStats) (s : Site) : Multi ε → Multi ε × Site
  | [] => ([], s)
  | (x, c) :: m =>
    let (entry, s) :=
      match StatsExporter.exportTable x t s with
      | (.ok (), x', s') => ((x', c.countExported), s')
      | (.error _, x', s') => ((x', c.countFailed), s'.note .exportFailed)
    let (m', s) := exportTable t s m
    (entry :: m', s)

def exportBatch (m : Multi ε) (s : Site) : List TableStats → Multi ε × Site
  | [] => (m, s)
  | t :: ts =>
    let (m', s') := m.exportTable t s
    exportBatch m' s' ts

/-- Finishes each exporter. `failed` is the first failure so far. -/
def finishEach (failed : Option Failure) (s : Site) : Multi ε → Option Failure × Multi ε × Site
  | [] => (failed, [], s)
  | (x, c) :: m =>
    match StatsExporter.finish x s with
    | (.ok (), x', s') =>
      let (failed, m', s') := finishEach failed s' m
      (failed, (x', c.close) :: m', s')
    | (.error e, x', s') =>
      let (failed, m', s') := finishEach (failed <|> some e) (s'.note .exportNotFinished) m
      (failed, (x', c) :: m', s')

def finishAll (m : Multi ε) (s : Site) : Except Failure Unit × Multi ε × Site :=
  match m.finishEach none s with
  | (none, m', s') => (.ok (), m', s')
  | (some e, m', s') => (.error e, m', s')

/-- The names of the exporters and the tallies kept of them. -/
def tallies (m : Multi ε) : List (String × Tally) := m.map fun (x, c) => (StatsExporter.name x, c)

/-- Enters the tallies in the journal. -/
def noteTallies (m : Multi ε) (s : Site) : Site :=
  s.noteAll (m.tallies.map fun (n, c) => .summary ("导出器 " ++ n ++ ": " ++ c.text))

def drop (m : Multi ε) (s : Site) : Site := m.foldl (fun s (x, _) => StatsExporter.drop x s) s

theorem tallies_add (m : Multi ε) (x : ε) :
    (m.add x).tallies = m.tallies ++ [(StatsExporter.name x, .opened)] := by
  simp [add, tallies]

end Multi
end DumpRouter
