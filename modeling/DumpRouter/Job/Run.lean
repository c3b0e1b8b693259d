import DumpRouter.Analysis.Report
import DumpRouter.Job.Export

/-!
# DumpRouter.Job.Run

A whole run: finding the input, splitting or analysing it, and summing up.

* `Mode`: the two things that can be done with a dump.
* `Job.input`: the input, which a request may name in place of the settings.
* `Job.run`: the run, with what it enters in the journal.

The journal's summaries give no times, since the library keeps no clock.
-/

namespace DumpRouter

/-- The two things that can be done with a dump. -/
inductive Mode where
  | split
  | analyze
  deriving DecidableEq, Repr

namespace Mode

def name : Mode → String
  | .split => "split"
  | .analyze => "analyze"

def ofName? (s : String) : Option Mode := [split, analyze].find? (·.name == s)

def ofText (s : String) : Except Failure Mode :=
  match ofName? (Text.asciiLower s) with
  | some m => .ok m
  | none => .error (.config (.unknownMode (Text.asciiLower s)))

theorem ofName?_name (m : Mode) : ofName? m.name = some m := by cases m <;> rfl

end Mode

structure Job where
  mode : Mode
  /-- An input that takes the place of the one in the settings. -/
  override : Option Path
  settings : Settings
  deriving DecidableEq, Repr

inductive Outcome where
  | split (r : RunStats)
  | analyze (r : Report)
  deriving DecidableEq, Repr

namespace RunStats

/-- What a dry run would have done. -/
def forecast (r : RunStats) : String :=
  "试运行完成，将生成 " ++ Nat.repr r.tablesFound ++ " 个表文件: " ++ ", ".intercalate r.tables

def summary (r : RunStats) : String :=
  "拆分完成，共 " ++ Nat.repr r.tablesFound ++ " 个表，" ++ Nat.repr r.processed ++ " 条语句，" ++
    Nat.repr r.bytes ++ " 字节，耗时 0 ms"

end RunStats

namespace TableStats

def summary (t : TableStats) : String :=
  t.name ++ ": insert=" ++ Nat.repr t.inserts.toNat ++ " create=" ++ Nat.repr t.creates.toNat ++
    " statements=" ++ Nat.repr t.statements.toNat ++ " bytes=" ++ Nat.repr t.bytes.toNat

end TableStats

namespace Report

def summary (r : Report) : String :=
  "统计完成，共 " ++ Nat.repr r.tableCount ++ " 个表，" ++ Nat.repr r.totalStatements.toNat ++
    " 条语句，" ++ Nat.repr r.totalBytes.toNat ++ " 字节，耗时 0 ms"

end Report

namespace Job

/-- The input of a run. White space around the path in the settings does not count. -/
def input (job : Job) : Except Failure Path :=
  match job.override with
  | some p => .ok p
  | none =>
    let configured := Text.trim job.settings.input.path
    if configured.isEmpty then .error (.config .noInput) else .ok ⟨configured⟩

def splitter (job : Job) (input : Path) : Splitter :=
  let c := job.settings
  { Splitter.new input ⟨c.split.outputDir⟩ with
    limit := tableLimit c.split.tables
    filter := c.split.filter
    dryRun := c.split.dryRun
    portion := c.portion?
    metered := c.split.progress }

def analyzer (job : Job) (input : Path) : Analyzer :=
  let c := job.settings
  ⟨input, tableLimit c.analysis.tables, c.portion?, c.analysis.progress⟩

def runSplit (job : Job) (input : Path) (s : Site) : Except Failure Outcome × Site :=
  match (job.splitter input).runFile s with
  | (.error e, _, s') => (.error e, s')
  | (.ok r, _, s') =>
    let dry := if job.settings.split.dryRun then [.summary r.forecast] else []
    (.ok (.split r), s'.noteAll (dry ++ [.summary r.summary]))

def runAnalysis (job : Job) (input : Path) (s : Site) : Except Failure Outcome × Site :=
  match (job.analyzer input).reportFile s with
  | (.error e, s') => (.error e, s')
  | (.ok r, s') =>
    let s' := s'.noteAll (r.tables.map (.summary ·.summary) ++ [.summary r.summary])
    match job.settings.exports.exportTables r.tables s' with
    | (.error e, s'') => (.error e, s'')
    | (.ok (), s'') => (.ok (.analyze r), s'')

def run (job : Job) (s : Site) : Except Failure Outcome × Site :=
  match job.input with
  | .error e => (.error e, s.note (.configRefused .noInput))
  | .ok input =>
    let s := s.note .runStarted
    match job.mode with
    | .split => job.runSplit input s
    | .analyze => job.runAnalysis input s

end Job
end DumpRouter
