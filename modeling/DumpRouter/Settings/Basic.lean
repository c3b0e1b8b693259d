import DumpRouter.Failure
import DumpRouter.Journal
import DumpRouter.Statement.Basic

/-!
# DumpRouter.Settings.Basic

What a run is told: where to log, what to read, what to split and count, and where to export the
counts. Every setting has a standard value, but for the paths of exports.

`Settings.fault?`: the first setting that no run can be made with.
-/

namespace DumpRouter

structure LogSettings where
  console : Bool := true
  /-- The directory of the log files; none are written if it is empty. -/
  dir : String := "logs"
  level : String := "info"
  deriving DecidableEq, Repr

structure InputSettings where
  path : String := ""
  /-- The bytes to read at a time; zero leaves that to the size of the input. -/
  portion : Nat := 0
  deriving DecidableEq, Repr

structure SplitSettings where
  outputDir : String := "output"
  /-- The tables to split off; all if none are named. -/
  tables : List String := []
  dryRun : Bool := false
  filter : Filter := .all
  progress : Bool := false
  deriving DecidableEq, Repr

structure AnalysisSettings where
  /-- The tables to count; all if none are named. -/
  tables : List String := []
  progress : Bool := false
  deriving DecidableEq, Repr

structure CsvSettings where
  path : String
  overwrite : Bool := true
  deriving DecidableEq, Repr

structure JsonSettings where
  path : String
  overwrite : Bool := true
  pretty : Bool := true
  deriving DecidableEq, Repr

structure ExportSettings where
  csv : List CsvSettings := []
  json : List JsonSettings := []
  deriving DecidableEq, Repr

structure Settings where
  log : LogSettings := {}
  input : InputSettings := {}
  split : SplitSettings := {}
  analysis : AnalysisSettings := {}
  exports : ExportSettings := {}
  deriving DecidableEq, Repr

namespace Settings

/-- The portion to read, if it is not left to the size of the input. -/
def portion? (c : Settings) : Option Nat :=
  if c.input.portion = 0 then none else some c.input.portion

def levelFault? (c : Settings) : Option ConfigFault :=
  match Level.ofName? c.log.level with
  | some _ => none
  | none => some (.unknownLevel c.log.level)

/-- A dry run needs no output directory. -/
def outputFault? (c : Settings) : Option ConfigFault :=
  if !c.split.dryRun && Text.isBlankText c.split.outputDir then some .blankOutputDir else none

def tableFault? (c : Settings) : Option ConfigFault :=
  ((c.split.tables ++ c.analysis.tables).find? Text.isBlankText).map .blankTable

def exportFault? (c : Settings) : Option ConfigFault :=
  if c.exports.csv.any (·.path.isEmpty) || c.exports.json.any (·.path.isEmpty) then
    some .emptyExportPath
  else none

def fault? (c : Settings) : Option ConfigFault :=
  c.levelFault? <|> c.outputFault? <|> c.tableFault? <|> c.exportFault?

def check (c : Settings) : Except Failure Unit :=
  match c.fault? with
  | none => .ok ()
  | some f => .error (.config f)

theorem fault?_standard : ({} : Settings).fault? = none := by decide +kernel

end Settings
end DumpRouter
