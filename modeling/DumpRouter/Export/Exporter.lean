import DumpRouter.Export.Csv
import DumpRouter.Export.Json

/-!
# DumpRouter.Export.Exporter

What an exporter is: something with a state that takes tables one after the other, that is finished
at the end, and that may fail at either.

* `StatsExporter`: the operations of an exporter with states of some type.
* `StatsExporter.exportBatch`: tables up to the first failure.
* `Exporter`: the exporters that the library has. Besides the two formats there is one without a
  file, which fails where it is told to.
-/

namespace DumpRouter

class StatsExporter (ε : Type) where
  name : ε → String
  exportTable : ε → TableStats → Site → Except Failure Unit × ε × Site
  finish : ε → Site → Except Failure Unit × ε × Site
  tally : ε → Tally
  /-- What becomes of the disk when the exporter is given up. -/
  drop : ε → Site → Site

namespace StatsExporter

def exportBatch {ε : Type} [StatsExporter ε] (x : ε) (s : Site) :
    List TableStats → Except Failure Unit × ε × Site
  | [] => (.ok (), x, s)
  | t :: ts =>
    match exportTable x t s with
    | (.ok (), x', s') => exportBatch x' s' ts
    | (.error e, x', s') => (.error e, x', s')

end StatsExporter

/-- An exporter without a file. -/
structure Rehearsal where
  name : String
  failOn : List String
  failFinish : Bool
  deriving DecidableEq, Repr

namespace Rehearsal

/-- A failure in words, entered in the journal. -/
def fail (x : Rehearsal) (message : String) (s : Site) :
    Except Failure Unit × Rehearsal × Site :=
  (.error (.other message), x, s.note (.otherFailed message))

def exportTable (x : Rehearsal) (t : TableStats) (s : Site) :
    Except Failure Unit × Rehearsal × Site :=
  if x.failOn.contains t.name then x.fail (x.name ++ " fails on " ++ t.name) s else (.ok (), x, s)

def finish (x : Rehearsal) (s : Site) : Except Failure Unit × Rehearsal × Site :=
  if x.failFinish then x.fail (x.name ++ " fails") s else (.ok (), x, s)

end Rehearsal

inductive Exporter where
  | csv (x : CsvExport)
  | json (x : JsonExport)
  | rehearsal (x : Rehearsal)
  deriving DecidableEq

namespace Exporter

def name : Exporter → String
  | .csv _ => "CSV"
  | .json _ => "JSON"
  | .rehearsal x => x.name

/-- An exporter's answer with its state put back. -/
def wrap {α : Type} (f : α → Exporter) (r : Except Failure Unit × α × Site) :
    Except Failure Unit × Exporter × Site :=
  (r.1, f r.2.1, r.2.2)

def exportTable (x : Exporter) (t : TableStats) (s : Site) :
    Except Failure Unit × Exporter × Site :=
  match x with
  | .csv y => wrap .csv (y.exportTable t s)
  | .json y => wrap .json (y.exportTable t s)
  | .rehearsal y => wrap .rehearsal (y.exportTable t s)

def finish (x : Exporter) (s : Site) : Except Failure Unit × Exporter × Site :=
  match x with
  | .csv y => wrap .csv (y.finish s)
  | .json y => wrap .json (y.finish s)
  | .rehearsal y => wrap .rehearsal (y.finish s)

def tally : Exporter → Tally
  | .csv y => y.tally
  | .json y => y.tally
  | .rehearsal _ => .zero

def drop (x : Exporter) (s : Site) : Site :=
  match x with
  | .csv y => s.setDisk (y.output.drop s.disk)
  | .json y => s.setDisk (y.output.drop s.disk)
  | .rehearsal _ => s

def createCsv (p : Path) (overwrite : Bool) (s : Site) : Except Failure Exporter × Site :=
  match CsvExport.create p overwrite s with
  | (.ok x, s') => (.ok (.csv x), s')
  | (.error e, s') => (.error e, s')

def createJson (p : Path) (overwrite pretty : Bool) (s : Site) :
    Except Failure Exporter × Site :=
  match JsonExport.create p overwrite pretty s with
  | (.ok x, s') => (.ok (.json x), s')
  | (.error e, s') => (.error e, s')

end Exporter

instance : StatsExporter Exporter where
  name := Exporter.name
  exportTable := Exporter.exportTable
  finish := Exporter.finish
  tally := Exporter.tally
  drop := Exporter.drop

end DumpRouter
