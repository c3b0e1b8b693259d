import DumpRouter.Analysis.TableStats
import DumpRouter.Export.Tally
import DumpRouter.Export.Target

/-!
# DumpRouter.Export.Csv

Counts as comma-separated values: a record with the names of the columns, and a record for each
table. A field with a comma, a quote or a line break is written in quotes, and a quote inside it
twice.

* `CsvExport.field`, `CsvExport.row`: the written forms.
* `CsvExport`: an export in progress. The first record is written with the first table, or at the
  end if there is none.
-/

namespace DumpRouter

structure CsvExport where
  output : Buffered
  tally : Tally
  headed : Bool
  deriving DecidableEq

namespace CsvExport

def header : String := "table_name,insert_count,create_count,statement_count,total_bytes\n"

def needsQuotes (c : Char) : Bool := c == ',' || c == '"' || c == '\n' || c == '\r'

def doubled : List Char → List Char
  | [] => []
  | c :: s => if c = '"' then '"' :: '"' :: doubled s else c :: doubled s

def field (s : List Char) : List Char :=
  if s.any needsQuotes then '"' :: doubled s ++ ['"'] else s

def number (n : UInt64) : List Char := (Nat.repr n.toNat).toList

def row (t : TableStats) : List Char :=
  field t.name.toList ++ ',' :: number t.inserts ++ ',' :: number t.creates ++
    ',' :: number t.statements ++ ',' :: number t.bytes ++ ['\n']

def create (p : Path) (overwrite : Bool) (s : Site) : Except Failure CsvExport × Site :=
  match Export.openTarget p overwrite s with
  | (.error e, s') => (.error e, s')
  | (.ok b, s') => (.ok ⟨b, .opened, false⟩, s')

/-- Writes the names of the columns, unless that has been done. -/
def ensureHeader (x : CsvExport) (s : Site) : Except Failure Unit × CsvExport × Site :=
  if x.headed then (.ok (), x, s)
  else match x.output.write (Text.encode header) s.disk with
    | (.ok (), b, d) => (.ok (), { x with output := b, headed := true }, s.setDisk d)
    | (.error f, b, d) => (.error (.io f), { x with output := b }, s.setDisk d)

def exportTable (x : CsvExport) (t : TableStats) (s : Site) :
    Except Failure Unit × CsvExport × Site :=
  match x.ensureHeader s with
  | (.error e, x', s') => (.error e, x', s')
  | (.ok (), x', s') =>
    match x'.output.write (Text.encode (String.ofList (row t))) s'.disk with
    | (.ok (), b, d) =>
      (.ok (), { x' with output := b, tally := x'.tally.countExported }, s'.setDisk d)
    | (.error f, b, d) => (.error (.io f), { x' with output := b }, s'.setDisk d)

def finish (x : CsvExport) (s : Site) : Except Failure Unit × CsvExport × Site :=
  match x.ensureHeader s with
  | (.error e, x', s') => (.error e, x', s')
  | (.ok (), x', s') =>
    match x'.output.flush s'.disk with
    | (.ok (), b, d) =>
      (.ok (), { x' with output := b, tally := x'.tally.close },
        (s'.setDisk d).note
          (.summary ("CSV导出完成: " ++ Nat.repr x'.tally.exported.toNat ++ " 个表")))
    | (.error f, b, d) => (.error (.io f), { x' with output := b }, s'.setDisk d)

end CsvExport
end DumpRouter
