import DumpRouter.Export.Multi
import DumpRouter.Settings.Basic

/-!
# DumpRouter.Job.Export

Exporting the counts of a dump to every place that the settings name.

* `buildExporters`: an exporter for each place, those of tables with commas first. If one of them
  cannot be opened, those that are open are given up.
* `exportTables`: the counts, written by all of them.
-/

namespace DumpRouter
namespace ExportSettings

def openers (c : ExportSettings) : List (Site → Except Failure Exporter × Site) :=
  (c.csv.map fun e => Exporter.createCsv ⟨e.path⟩ e.overwrite) ++
    c.json.map fun e => Exporter.createJson ⟨e.path⟩ e.overwrite e.pretty

def openAll (m : Multi Exporter) (s : Site) :
    List (Site → Except Failure Exporter × Site) → Except Failure (Multi Exporter) × Site
  | [] => (.ok m, s)
  | o :: os =>
    match o s with
    | (.ok x, s') => openAll (m.add x) s' os
    | (.error e, s') => (.error e, m.drop s')

def buildExporters (c : ExportSettings) (s : Site) : Except Failure (Multi Exporter) × Site :=
  openAll [] s c.openers

/-- Exports counts to all places. If there is no place nothing is done. -/
def exportTables (c : ExportSettings) (tables : List TableStats) (s : Site) :
    Except Failure Unit × Site :=
  match c.buildExporters s with
  | (.error e, s') => (.error e, s')
  | (.ok m, s') =>
    if m.isEmpty then (.ok (), s')
    else
      let (m, s) := m.exportBatch s' tables
      let (result, m, s) := m.finishAll s
      (result, m.drop (m.noteTallies s))

end ExportSettings
end DumpRouter
