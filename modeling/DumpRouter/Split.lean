import DumpRouter.Reader.Basic
import DumpRouter.Source.Open
import DumpRouter.Statement.Classified
import DumpRouter.Writer.Pool

/-!
# DumpRouter.Split

Splitting a dump: every statement that belongs to a table, and that the filters let pass, goes to
the file of its table, in the order of the dump.

* `Splitter.destination?_eq_some_iff`: which statements go to a table, by the limit and the filter.
* `Splitter.route`: one statement.
* `Splitter.stream`: the statements of an input, up to its end or the first failure.
* `Splitter.run`: a whole run, which makes the output directory, streams and closes all files.
* `Splitter.runFile`: a run on the splitter's own input file.

A run that fails closes its files too, so that they hold what was routed before the failure.

The counters of a run are plain numbers. None of them is above the number of bytes read, so it would
take an input of 2^64 bytes to bring one beyond a word.
-/

namespace DumpRouter

inductive SplitState where
  | initializing
  | streaming
  | draining
  | done
  | failed
  deriving DecidableEq, Repr

/-- What a run has done. -/
structure RunStats where
  /-- The statements routed to tables. -/
  processed : Nat
  /-- The bytes of those statements. -/
  bytes : Nat
  /-- The tables met, in the order of their first statements. -/
  tables : List String
  /-- How many they are, counted one by one as they are met. -/
  tablesFound : Nat
  /-- All statements read, also those that were passed over. -/
  read : Nat
  deriving DecidableEq, Repr

namespace RunStats

def zero : RunStats := ⟨0, 0, [], 0, 0⟩

def countRead (r : RunStats) : RunStats := { r with read := r.read + 1 }

/-- Counts a statement of `n` bytes routed to a table. -/
def countRouted (r : RunStats) (table : String) (n : Nat) : RunStats :=
  { r with
    processed := r.processed + 1
    bytes := r.bytes + n
    tables := if r.tables.contains table then r.tables else r.tables ++ [table]
    tablesFound := if r.tables.contains table then r.tablesFound else r.tablesFound + 1 }

end RunStats

/-- The tables that a run is limited to, each once; none are named when it is not limited. -/
def tableLimit (tables : List String) : Option (List String) :=
  if tables.isEmpty then none else some tables.eraseDups

def withinLimit (limit : Option (List String)) (table : String) : Bool :=
  match limit with
  | none => true
  | some ts => ts.contains table

theorem withinLimit_iff (limit : Option (List String)) (table : String) :
    withinLimit limit table = true ↔ ∀ ts ∈ limit, table ∈ ts := by
  cases limit with
  | none => simp [withinLimit]
  | some ts => simp [withinLimit]

/-- Naming no table at all sets no limit. -/
theorem withinLimit_tableLimit_iff (tables : List String) (table : String) :
    withinLimit (tableLimit tables) table = true ↔ tables = [] ∨ table ∈ tables := by
  rw [withinLimit_iff, tableLimit]
  cases tables with
  | nil => simp
  | cons t ts => simp [List.mem_eraseDups]

structure Splitter where
  input : Path
  pool : Pool
  limit : Option (List String)
  filter : Filter
  dryRun : Bool
  /-- The portions to read, if they do not go by the size of the input. -/
  portion : Option Nat
  metered : Bool
  stats : RunStats
  state : SplitState
  deriving DecidableEq

namespace Splitter

def new (input outputDir : Path) : Splitter where
  input := input
  pool := .new outputDir
  limit := none
  filter := .all
  dryRun := false
  portion := none
  metered := false
  stats := .zero
  state := .initializing

def accepts (sp : Splitter) (kind : Kind) (table : String) : Bool :=
  withinLimit sp.limit table && sp.filter.accepts kind

/-- The table that a statement is routed to. -/
def destination? (sp : Splitter) (statement : Statement) : Option String :=
  match (classify statement.bytes).target with
  | none => none
  | some (kind, table) => if sp.accepts kind table then some table else none

/-- A statement goes to the table it is on if the limit names the table, where there is a limit, and
if it is of the sort that the filter asks for. -/
theorem destination?_eq_some_iff {sp : Splitter} {t : Statement} {table : String} :
    sp.destination? t = some table ↔
      ∃ kind, (classify t.bytes).target = some (kind, table) ∧ (∀ ts ∈ sp.limit, table ∈ ts) ∧
        (sp.filter = .schemaOnly → kind ≠ .insert) ∧ (sp.filter = .dataOnly → kind = .insert) := by
  have hknown := (classify t.bytes).known_kind
  unfold destination? accepts
  cases htarget : (classify t.bytes).target with
  | none => simp
  | some r =>
    obtain ⟨kind, name⟩ := r
    have hkind : kind ≠ .unknown := hknown _ htarget
    dsimp only
    split
    · next h =>
      rw [Bool.and_eq_true, withinLimit_iff, Filter.accepts_iff] at h
      constructor
      · intro he
        cases he
        exact ⟨kind, rfl, h.1, h.2.2⟩
      · rintro ⟨kind', he, -⟩
        cases he
        rfl
    · next h =>
      rw [Bool.and_eq_true, withinLimit_iff, Filter.accepts_iff] at h
      constructor
      · nofun
      · rintro ⟨kind', he, hlimit, hfilter⟩
        cases he
        exact absurd ⟨hlimit, hkind, hfilter⟩ h

/-- Writes a statement to its table's file, unless the run is dry. -/
def deliver (sp : Splitter) (table : String) (statement : Statement) (s : Site) :
    Except Failure Unit × Pool × Site :=
  if sp.dryRun then (.ok (), sp.pool, s) else sp.pool.writeTable table statement.bytes s

/-- Counts a statement and sends it to its table. -/
def route (sp : Splitter) (statement : Statement) (s : Site) :
    Except Failure Unit × Splitter × Site :=
  let sp := { sp with stats := sp.stats.countRead }
  match sp.destination? statement with
  | none => (.ok (), sp, s)
  | some table =>
    match sp.deliver table statement s with
    | (.error e, p, s') => (.error e, { sp with pool := p }, s')
    | (.ok (), p, s') =>
      (.ok (), { sp with pool := p, stats := sp.stats.countRouted table statement.length }, s')

def stream (sp : Splitter) (r : Reader) (s : Site) : Except Failure Unit × Splitter × Site :=
  match _h : r.read s.disk with
  | (x, r') =>
    let s := s.noteAll (r'.takeReports.1.map .progress)
    match _hx : x with
    | .finished => (.ok (), sp, s)
    | .failed f => (.error (.read f), sp, s.note .readFailed)
    | .statement statement =>
      match sp.route statement s with
      | (.error e, sp', s') => (.error e, sp', s')
      | (.ok (), sp', s') => stream sp' r'.takeReports.2 s'
termination_by r.remaining
decreasing_by
  subst _hx
  rw [Reader.remaining_takeReports]
  exact Reader.remaining_read_lt _h

/-- Closes all files at the end of a run that has streamed its whole input. -/
def finish (sp : Splitter) (s : Site) : Except Failure RunStats × Splitter × Site :=
  match sp.pool.closeAll s with
  | (.error e, p, s') => (.error e, { sp with pool := p, state := .failed }, s')
  | (.ok (), p, s') => (.ok sp.stats, { sp with pool := p, state := .done }, s'.note .splitDone)

/-- Closes all files at the end of a run that has failed with `e`. -/
def abort (sp : Splitter) (e : Failure) (s : Site) : Except Failure RunStats × Splitter × Site :=
  match sp.pool.closeAll s with
  | (.error _, p, s') =>
    (.error e, { sp with pool := p, state := .failed }, s'.note .lateCloseFailed)
  | (.ok (), p, s') => (.error e, { sp with pool := p, state := .failed }, s')

/-- Makes the output directory, unless the run is dry. -/
def prepare (sp : Splitter) (s : Site) : Except Failure Unit × Site :=
  if sp.dryRun then (.ok (), s) else sp.pool.ensureOutputDir s

def run (sp : Splitter) (source : Source) (inputSize : Nat) (s : Site) :
    Except Failure RunStats × Splitter × Site :=
  let sp := { sp with stats := .zero, state := .initializing }
  match sp.prepare s with
  | (.error e, s') => (.error e, { sp with state := .failed }, s')
  | (.ok (), s') =>
    let r := Reader.new (.new source sp.metered) (sp.portion.getD (portionFor inputSize))
    match { sp with state := .streaming }.stream r (s'.note .splitStarted) with
    | (.error e, sp', s'') => sp'.abort e s''
    | (.ok (), sp', s'') => { sp' with state := .draining }.finish s''

/-- Splits the splitter's own input file. If it cannot be opened nothing changes. -/
def runFile (sp : Splitter) (s : Site) : Except Failure RunStats × Splitter × Site :=
  match openInput sp.input s with
  | (.error e, s') => (.error e, sp, s')
  | (.ok (source, size), s') => sp.run source (size.getD 0) s'

end Splitter
end DumpRouter
