import DumpRouter.Disk.Basic
import DumpRouter.Settings.Decode
import DumpRouter.Toml.Written

/-!
# DumpRouter.Settings.File

Settings in files, read and written as TOML.

* `Settings.ofText`, `Settings.ofFile`: settings that a run can be made with.
* `Settings.load`: the settings of the working directory.
* `Settings.text`, `Settings.save`: all settings, also those with standard values, in a fixed order.
-/

namespace DumpRouter
namespace Settings

def standardFile : Path := ⟨"config.toml"⟩

def ofText (text : String) : Except Failure Settings :=
  match decode text with
  | .error e => .error e
  | .ok c =>
    match c.check with
    | .error e => .error e
    | .ok () => .ok c

def ofFile (p : Path) (d : Disk) : Except Failure Settings :=
  match d.readText p with
  | .error f => .error (.io f)
  | .ok text => ofText text

/-- The settings of the working directory; the standard ones if there is no file. -/
def load (d : Disk) : Except Failure Settings :=
  if d.exists_ standardFile then ofFile standardFile d else .ok {}

def csvBlock (c : CsvSettings) : String :=
  Toml.block "[[export.csv]]" [
    ("out_path", Toml.quoted c.path), ("overwrite", Toml.flag c.overwrite)]

def jsonBlock (c : JsonSettings) : String :=
  Toml.block "[[export.json]]" [
    ("out_path", Toml.quoted c.path), ("overwrite", Toml.flag c.overwrite),
    ("pretty", Toml.flag c.pretty)]

/-- The kinds of export that nothing is exported to. They are written as empty arrays, in a section
that is left out if there are none. -/
def voidBlocks (c : ExportSettings) : List String :=
  let entries := (if c.csv.isEmpty then [("csv", "[]")] else []) ++
    (if c.json.isEmpty then [("json", "[]")] else [])
  if entries.isEmpty then [] else [Toml.block "[export]" entries]

def text (c : Settings) : String :=
  Toml.blocks <| [
    Toml.block "[log]" [
      ("enable_stdout", Toml.flag c.log.console), ("log_dir", Toml.quoted c.log.dir),
      ("level", Toml.quoted c.log.level)],
    Toml.block "[input]" [
      ("path", Toml.quoted c.input.path), ("buffer_size", Nat.repr c.input.portion)],
    Toml.block "[split]" [
      ("output_dir", Toml.quoted c.split.outputDir), ("tables", Toml.texts c.split.tables),
      ("dry_run", Toml.flag c.split.dryRun), ("content", Toml.quoted c.split.filter.name),
      ("progress", Toml.flag c.split.progress)],
    Toml.block "[analyze]" [
      ("tables", Toml.texts c.analysis.tables), ("progress", Toml.flag c.analysis.progress)]] ++
    voidBlocks c.exports ++ c.exports.csv.map csvBlock ++ c.exports.json.map jsonBlock

def save (c : Settings) (p : Path) (d : Disk) : Except Failure Unit × Disk :=
  match d.writeFile p (Text.encode c.text) with
  | (.ok (), d') => (.ok (), d')
  | (.error f, d') => (.error (.io f), d')

end Settings
end DumpRouter
