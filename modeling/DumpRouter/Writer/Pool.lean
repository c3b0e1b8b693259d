import DumpRouter.Text.Lower
import DumpRouter.Writer.FileStem
import DumpRouter.Writer.TableWriter

/-!
# DumpRouter.Writer.Pool

The writers of a run, one for each table, made when the table is first met.

A path is claimed while a writer of the pool has it, and claims do not see letter case. A table
whose own path is claimed gets the first free one of `<stem>_2.sql`, `<stem>_3.sql` and so on.

* `Pool.get`, `Pool.getAt`: the writer of a table, made where it is missing.
* `Pool.closeAll`: closes every writer and empties the pool.

Writers are known by their place in `made`, so that one can still be asked about when the pool has
closed it.
-/

namespace DumpRouter

/-- Text in which two paths agree that a file system without letter case takes for one. -/
def Path.key (p : Path) : String := Text.lower p.text

/-- The place of a writer among those that a pool has made. -/
abbrev WriterId := Nat

structure Pool where
  outputDir : Path
  /-- All writers ever made, in order. -/
  made : List TableWriter
  /-- The tables that have a writer. -/
  writers : List (String × WriterId)
  /-- The keys of the paths that are taken. -/
  claimed : List String
  deriving DecidableEq

namespace Pool

def new (outputDir : Path) : Pool := ⟨outputDir, [], [], []⟩

def isClaimed (p : Pool) (path : Path) : Bool := p.claimed.contains path.key

def pathOfStem (p : Pool) (stem : String) : Path := p.outputDir.join ⟨stem ++ ".sql"⟩

/-- The path of a table if no other table has taken it. -/
def pathFor (p : Pool) (table : String) : Path := p.pathOfStem (fileStem table)

/-- The path of a table with a number behind its stem. -/
def numbered (p : Pool) (table : String) (n : Nat) : Path :=
  p.pathOfStem (fileStem table ++ "_" ++ Nat.repr n)

/-- The numbered paths that are tried: one more than there are claims, so that one is free. -/
def candidates (p : Pool) (table : String) : List Path :=
  (List.range (p.claimed.length + 1)).map fun i => p.numbered table (i + 2)

def freePath (p : Pool) (table : String) : Path :=
  if p.isClaimed (p.pathFor table) then
    ((p.candidates table).find? fun c => !p.isClaimed c).getD (p.pathFor table)
  else p.pathFor table

def writer? (p : Pool) (id : WriterId) : Option TableWriter := p.made[id]?

/-- The writer that a table has. -/
def current? (p : Pool) (table : String) : Option TableWriter :=
  (p.writers.lookup table).bind p.writer?

/-- Makes a writer for a table that has none, at a path that is free. -/
def add (p : Pool) (table : String) (path : Path) (s : Site) :
    Except Failure WriterId × Pool × Site :=
  match TableWriter.create table path s with
  | (.error e, s') => (.error e, p, s')
  | (.ok w, s') =>
    (.ok p.made.length,
      { p with
        made := p.made ++ [w]
        writers := (table, p.made.length) :: p.writers
        claimed := path.key :: p.claimed },
      s')

/-- The writer of a table, at a path of the pool's choice if it has to be made. -/
def get (p : Pool) (table : String) (s : Site) : Except Failure WriterId × Pool × Site :=
  match p.writers.lookup table with
  | some id => (.ok id, p, s)
  | none =>
    let s := if p.isClaimed (p.pathFor table) then s.note .renamed else s
    p.add table (p.freePath table) s

/-- The writer of a table, at a given path if it has to be made. -/
def getAt (p : Pool) (table : String) (path : Path) (s : Site) :
    Except Failure WriterId × Pool × Site :=
  match p.writers.lookup table with
  | some id => (.ok id, p, s)
  | none =>
    if p.isClaimed path then (.error (.writerCreate table path .claimed), p, s)
    else p.add table path s

/-- Does something to one writer. Nothing happens if there is no such writer. -/
def onWriter (p : Pool) (id : WriterId) (s : Site)
    (f : TableWriter → Site → Except Failure Unit × TableWriter × Site) :
    Except Failure Unit × Pool × Site :=
  match p.writer? id with
  | none => (.ok (), p, s)
  | some w =>
    match f w s with
    | (r, w', s') => (r, { p with made := p.made.set id w' }, s')

def write (p : Pool) (id : WriterId) (statement : Bytes) (s : Site) :
    Except Failure Unit × Pool × Site :=
  p.onWriter id s fun w => w.write statement

/-- Writes a statement to the writer of a table, made where it is missing. -/
def writeTable (p : Pool) (table : String) (statement : Bytes) (s : Site) :
    Except Failure Unit × Pool × Site :=
  match p.get table s with
  | (.error e, p', s') => (.error e, p', s')
  | (.ok id, p', s') => p'.write id statement s'

/-- The tables that have a writer, with their writers, in the order of the tables' names. -/
def sorted (p : Pool) : List (String × WriterId) :=
  p.writers.mergeSort fun a b => !decide (b.1 < a.1)

def tableNames (p : Pool) : List String := p.sorted.map (·.1)

/-- Closes writers one after the other, whatever fails. `failed` is the first failure so far. -/
def closeEach (p : Pool) (failed : Option Failure) (s : Site) :
    List WriterId → Option Failure × Pool × Site
  | [] => (failed, p, s)
  | id :: ids =>
    match p.onWriter id s TableWriter.close with
    | (.ok (), p', s') => closeEach p' failed s' ids
    | (.error e, p', s') =>
      match failed with
      | none => closeEach p' (some e) s' ids
      | some e' => closeEach p' (some e') (s'.note .furtherCloseFailed) ids

/-- Closes all writers in the order of the tables' names and empties the pool. The first failure is
reported. -/
def closeAll (p : Pool) (s : Site) : Except Failure Unit × Pool × Site :=
  match closeEach { p with writers := [], claimed := [] } none s (p.sorted.map (·.2)) with
  | (none, p', s') => (.ok (), p', s')
  | (some e, p', s') => (.error e, p', s')

def ensureOutputDir (p : Pool) (s : Site) : Except Failure Unit × Site :=
  match s.disk.mkdirAll p.outputDir with
  | (.ok (), d) => (.ok (), s.setDisk d)
  | (.error f, d) => (.error (.outputDir p.outputDir f), (s.setDisk d).note .outputDirFailed)

/-- What becomes of the disk when the pool is given up: every writer that is open is flushed. -/
def drop (p : Pool) (s : Site) : Site := p.made.foldl (fun s w => w.drop s) s

end Pool
end DumpRouter
