import DumpRouter.Settings.Basic
import DumpRouter.Toml.Document

/-!
# DumpRouter.Settings.Decode

Settings out of TOML. Keys that mean nothing are passed over, and what is missing takes its standard
value; a value of the wrong type is refused.

A group of settings may also be an array, which gives them in order.
-/

namespace DumpRouter
namespace Settings

open Toml (Value Entries)

def flag? : Value → Option Bool
  | .boolean b => some b
  | _ => none

def text? : Value → Option String
  | .string s => some s
  | _ => none

def size? : Value → Option Nat
  | .integer (.ofNat n) => some n
  | _ => none

def list? {α : Type} (item? : Value → Option α) (v : Value) : Option (List α) :=
  v.items?.bind (·.mapM item?)

/-- Holds of an array or a table with nothing in it. -/
def isVoid : Value → Bool
  | .array items => items.isEmpty
  | .table _ entries => entries.isEmpty
  | _ => false

/-- A filter by its name, which may also be the only key of a table with nothing behind it. -/
def filter? : Value → Option Filter
  | .string s => Filter.ofName? s
  | .table _ [(k, v)] => if isVoid v then Filter.ofName? k else none
  | _ => none

/-- The settings of a group, of which the names are given in order. A date passes for a group that
has none of them. -/
def group? (names : List String) : Value → Option Entries
  | .table _ entries => some entries
  | .datetime => some []
  | v => v.items?.map names.zip

/-- A setting of a group, or its standard value. -/
def get? {α : Type} (es : Entries) (name : String) (read? : Value → Option α) (standard : α) :
    Option α :=
  match es.lookup name with
  | none => some standard
  | some v => read? v

def log? (v : Value) : Option LogSettings := do
  let es ← group? ["enable_stdout", "log_dir", "level"] v
  let standard : LogSettings := {}
  let console ← get? es "enable_stdout" flag? standard.console
  let dir ← get? es "log_dir" text? standard.dir
  let level ← get? es "level" text? standard.level
  return ⟨console, dir, level⟩

def input? (v : Value) : Option InputSettings := do
  let es ← group? ["path", "buffer_size"] v
  let standard : InputSettings := {}
  let path ← get? es "path" text? standard.path
  let portion ← get? es "buffer_size" size? standard.portion
  return ⟨path, portion⟩

def split? (v : Value) : Option SplitSettings := do
  let es ← group? ["output_dir", "tables", "dry_run", "content", "progress"] v
  let standard : SplitSettings := {}
  let outputDir ← get? es "output_dir" text? standard.outputDir
  let tables ← get? es "tables" (list? text?) standard.tables
  let dryRun ← get? es "dry_run" flag? standard.dryRun
  let filter ← get? es "content" filter? standard.filter
  let progress ← get? es "progress" flag? standard.progress
  return ⟨outputDir, tables, dryRun, filter, progress⟩

def analysis? (v : Value) : Option AnalysisSettings := do
  let es ← group? ["tables", "progress"] v
  let standard : AnalysisSettings := {}
  let tables ← get? es "tables" (list? text?) standard.tables
  let progress ← get? es "progress" flag? standard.progress
  return ⟨tables, progress⟩

def csv? (v : Value) : Option CsvSettings := do
  let es ← group? ["out_path", "overwrite"] v
  let path ← (es.lookup "out_path").bind text?
  let overwrite ← get? es "overwrite" flag? true
  return ⟨path, overwrite⟩

def json? (v : Value) : Option JsonSettings := do
  let es ← group? ["out_path", "overwrite", "pretty"] v
  let path ← (es.lookup "out_path").bind text?
  let overwrite ← get? es "overwrite" flag? true
  let pretty ← get? es "pretty" flag? true
  return ⟨path, overwrite, pretty⟩

def exports? (v : Value) : Option ExportSettings := do
  let es ← group? ["csv", "json"] v
  let csv ← get? es "csv" (list? csv?) []
  let json ← get? es "json" (list? json?) []
  return ⟨csv, json⟩

def ofEntries? (es : Entries) : Option Settings := do
  let log ← get? es "log" log? {}
  let input ← get? es "input" input? {}
  let split ← get? es "split" split? {}
  let analysis ← get? es "analyze" analysis? {}
  let exports ← get? es "export" exports? {}
  return ⟨log, input, split, analysis, exports⟩

/-- The settings in a text, whether or not a run can be made with them. -/
def decode (text : String) : Except Failure Settings :=
  match (Toml.parse? text).bind ofEntries? with
  | some c => .ok c
  | none => .error .decode

end Settings
end DumpRouter
