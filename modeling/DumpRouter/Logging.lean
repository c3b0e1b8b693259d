import DumpRouter.Disk.Basic
import DumpRouter.Settings.Basic

/-!
# DumpRouter.Logging

Where events are logged, and from which level on.

`LogSetup.prepare`: the checks before the first event, and the directory of the log files.
-/

namespace DumpRouter

structure LogSetup where
  level : Level
  console : Bool
  /-- The directory of the log files, if any are written. -/
  dir : Option Path
  deriving DecidableEq, Repr

namespace LogSetup

def standard : LogSetup := ⟨.info, true, some ⟨"logs"⟩⟩

/-- The setup that settings ask for. A level that is none counts as the level of information. -/
def ofSettings (l : LogSettings) : LogSetup where
  level := (Level.ofName? l.level).getD .info
  console := l.console
  dir := if l.dir.isEmpty then none else some ⟨l.dir⟩

/-- Makes the directory of the log files. Without directory and console there is nowhere to log. -/
def prepare (u : LogSetup) (d : Disk) : Except LogFault Unit × Disk :=
  match u.dir with
  | none => (if u.console then .ok () else .error .noOutput, d)
  | some p =>
    match d.mkdirAll p with
    | (.ok (), d') => (.ok (), d')
    | (.error f, d') => (.error (.io f), d')

def shows (u : LogSetup) (l : Level) : Bool := u.console && u.level.severity ≤ l.severity

theorem ofSettings_standard : ofSettings {} = standard := by decide +kernel

end LogSetup
end DumpRouter
