import DumpRouter.Analysis.TableStats
import DumpRouter.Split

/-!
# DumpRouter.Analysis.Report

Counting the statements of a dump by table, without writing anything.

* `Analyzer.fold`: the counts of an input, up to its end or the first failure.
* `Analyzer.report`: the sorted counts and their totals.
-/

namespace DumpRouter

structure Report where
  tables : List TableStats
  /-- All statements read, also those that belong to no table. -/
  read : Nat
  totalStatements : UInt64
  totalBytes : UInt64
  deriving DecidableEq, Repr

namespace Report

def ofTables (tables : List TableStats) (read : Nat) : Report where
  tables := TableStats.sorted tables
  read := read
  totalStatements := tables.foldr (·.statements + ·) 0
  totalBytes := tables.foldr (·.bytes + ·) 0

def tableCount (r : Report) : Nat := r.tables.length

end Report

/-- The bytes in a second when `bytes` took so many milliseconds; none can be given for no time. -/
def throughput? (bytes elapsed : UInt64) : Option Float :=
  if elapsed = 0 then none else some (bytes.toFloat * 1000.0 / elapsed.toFloat)

structure Analyzer where
  input : Path
  limit : Option (List String)
  portion : Option Nat
  metered : Bool
  deriving DecidableEq, Repr

namespace Analyzer

def new (input : Path) : Analyzer := ⟨input, none, none, false⟩

/-- Counts a statement, if it belongs to a table within the limit. -/
def count (a : Analyzer) (tables : List TableStats) (statement : Statement) : List TableStats :=
  let c := classify statement.bytes
  match c.target with
  | none => tables
  | some (kind, table) =>
    if withinLimit a.limit table then
      TableStats.recordIn table kind c.byteLength.toUInt64 tables
    else tables

/-- Counts the statements of an input. The answer has the tables in the order in which they were
met, and the number of statements read. -/
def fold (a : Analyzer) (tables : List TableStats) (r : Reader) (s : Site) :
    Except Failure (List TableStats × Nat) × Site :=
  match _h : r.read s.disk with
  | (x, r') =>
    let s := s.noteAll (r'.takeReports.1.map .progress)
    match _hx : x with
    | .finished => (.ok (tables, r'.statementsRead), s)
    | .failed f => (.error (.read f), s.note .readFailed)
    | .statement statement => fold a (a.count tables statement) r'.takeReports.2 s
termination_by r.remaining
decreasing_by
  subst _hx
  rw [Reader.remaining_takeReports]
  exact Reader.remaining_read_lt _h

def report (a : Analyzer) (source : Source) (inputSize : Nat) (s : Site) :
    Except Failure Report × Site :=
  let r := Reader.new (.new source a.metered) (a.portion.getD (portionFor inputSize))
  match a.fold [] r (s.note .analysisStarted) with
  | (.error e, s') => (.error e, s')
  | (.ok (tables, read), s') => (.ok (.ofTables tables read), s'.note .analysisDone)

def reportFile (a : Analyzer) (s : Site) : Except Failure Report × Site :=
  match openInput a.input s with
  | (.error e, s') => (.error e, s')
  | (.ok (source, size), s') => a.report source (size.getD 0) s'

end Analyzer
end DumpRouter
