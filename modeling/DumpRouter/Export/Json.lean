import DumpRouter.Analysis.TableStats
import DumpRouter.Export.Tally
import DumpRouter.Export.Target

/-!
# DumpRouter.Export.Json

Counts as a JSON array with an object for each table, on one line or spread out with indentation.

* `JsonExport.quoted`: a text as a JSON string.
* `JsonExport.compact`, `JsonExport.spread`: the object of one table, on one line and on several.
* `JsonExport.record`: the object as it stands in the array.
* `JsonExport`: an export in progress. The array is opened with the file and closed at the end.
-/

namespace DumpRouter

structure JsonExport where
  output : Buffered
  tally : Tally
  /-- Whether no table has been written yet. -/
  fresh : Bool
  pretty : Bool
  deriving DecidableEq

namespace JsonExport

def hex4 (n : Nat) : List Char :=
  let ds := Nat.toDigits 16 n
  List.replicate (4 - ds.length) '0' ++ ds

/-- One character of a string. Quotes, backslashes and the characters below the space are written
as escapes. -/
def escaped (c : Char) : List Char :=
  if c = '"' then ['\\', '"']
  else if c = '\\' then ['\\', '\\']
  else if c = '\n' then ['\\', 'n']
  else if c = '\r' then ['\\', 'r']
  else if c = '\t' then ['\\', 't']
  else if c = '\x08' then ['\\', 'b']
  else if c = '\x0c' then ['\\', 'f']
  else if c.toNat < 0x20 then '\\' :: 'u' :: hex4 c.toNat
  else [c]

def quoted (s : List Char) : List Char := '"' :: s.flatMap escaped ++ ['"']

def number (n : UInt64) : List Char := (Nat.repr n.toNat).toList

/-- The members of a table's object, names and written values. -/
def members (t : TableStats) : List (List Char × List Char) := [
  ("table_name".toList, quoted t.name.toList),
  ("insert_count".toList, number t.inserts),
  ("create_count".toList, number t.creates),
  ("statement_count".toList, number t.statements),
  ("total_bytes".toList, number t.bytes)]

def braceOpen : Char := '\x7b'
def braceClose : Char := '\x7d'

def compact (t : TableStats) : List Char :=
  braceOpen :: [','].intercalate ((members t).map fun (k, v) => quoted k ++ ':' :: v) ++
    [braceClose]

/-- The object spread out over lines, two spaces for each level. -/
def spread (t : TableStats) : List Char :=
  braceOpen :: '\n' ::
    [',', '\n'].intercalate ((members t).map fun (k, v) =>
      ' ' :: ' ' :: quoted k ++ ':' :: ' ' :: v) ++
    ['\n', braceClose]

/-- The lines of a text, of which `line` in reverse is the first one so far. A line ends with a line
feed or with a carriage return and a line feed, which do not belong to it; the last one may end with
the text. -/
def linesOnto (line : List Char) : List Char → List (List Char)
  | [] => if line = [] then [] else [line.reverse]
  | c :: s =>
    if c = '\n' then
      (if line.head? = some '\r' then line.tail else line).reverse :: linesOnto [] s
    else linesOnto (c :: line) s

/-- The lines of a text, each moved by one level. -/
def indented (s : List Char) : List Char :=
  ['\n'].intercalate ((linesOnto [] s).map fun line => ' ' :: ' ' :: line)

/-- The object of a table. When it is spread out it stands one level below the array. -/
def record (pretty : Bool) (t : TableStats) : List Char :=
  if pretty then indented (spread t) else compact t

def opening (pretty : Bool) : List Char := if pretty then ['[', '\n'] else ['[']

def separator (pretty : Bool) : List Char := if pretty then [',', '\n'] else [',']

def closing (pretty fresh : Bool) : List Char :=
  if pretty && !fresh then ['\n', ']', '\n'] else [']', '\n']

def bytes (cs : List Char) : Bytes := Text.encode (String.ofList cs)

def create (p : Path) (overwrite pretty : Bool) (s : Site) : Except Failure JsonExport × Site :=
  match Export.openTarget p overwrite s with
  | (.error e, s') => (.error e, s')
  | (.ok b, s') =>
    match b.write (bytes (opening pretty)) s'.disk with
    | (.ok (), b', d) => (.ok ⟨b', .opened, true, pretty⟩, s'.setDisk d)
    | (.error f, b', d) => (.error (.io f), s'.setDisk (b'.drop d))

def exportTable (x : JsonExport) (t : TableStats) (s : Site) :
    Except Failure Unit × JsonExport × Site :=
  let chunks := (if x.fresh then [] else [bytes (separator x.pretty)]) ++
    [bytes (record x.pretty t)]
  match Export.writeChunks x.output s.disk chunks with
  | (.ok (), b, d) =>
    (.ok (), { x with output := b, fresh := false, tally := x.tally.countExported }, s.setDisk d)
  | (.error f, b, d) => (.error (.io f), { x with output := b, fresh := false }, s.setDisk d)

def finish (x : JsonExport) (s : Site) : Except Failure Unit × JsonExport × Site :=
  match x.output.write (bytes (closing x.pretty x.fresh)) s.disk with
  | (.error f, b, d) => (.error (.io f), { x with output := b }, s.setDisk d)
  | (.ok (), b, d) =>
    match b.flush d with
    | (.ok (), b', d') =>
      (.ok (), { x with output := b', tally := x.tally.close },
        (s.setDisk d').note
          (.summary ("JSON导出完成: " ++ Nat.repr x.tally.exported.toNat ++ " 个表")))
    | (.error f, b', d') => (.error (.io f), { x with output := b' }, s.setDisk d')

end JsonExport
end DumpRouter
