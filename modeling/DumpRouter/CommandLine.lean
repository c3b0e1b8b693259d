import DumpRouter.Job.Log
import DumpRouter.Logging
import DumpRouter.Settings.File

/-!
# DumpRouter.CommandLine

The program as a function of its arguments and of the disk.

The first argument is the mode, the second the input, which takes the place of the one in the
settings; further arguments mean nothing. The settings are those of the working directory.

* `CommandLine.run`: what the program answers, and the disk behind it. There is no answer if the
  throttle of the progress overflows: the program is brought down, with whatever it has written.
-/

namespace DumpRouter
namespace CommandLine

/-- What the program answers: its exit code, its complaints, and the lines on the console. -/
structure Answer where
  exit : UInt32
  complaints : String
  console : List (Level × String)
  deriving DecidableEq, Repr

def usage : String := "用法: sqldump-splitter <split|analyze> [输入文件]\n"

def logComplaint : Except LogFault Unit → String
  | .ok () => ""
  | .error f => "日志初始化失败: " ++ f.message ++ "\n"

/-- Sets up the log and does the job. A run goes on without a log if there can be none. -/
def runJob (job : Job) (d : Disk) : Option (Answer × Disk) :=
  let setup := LogSetup.ofSettings job.settings.log
  let (prepared, d) := setup.prepare d
  let (result, s) := job.run (.ofDisk d)
  (s.log (job.inputSize d)).map fun lines =>
    let log := lines.filter fun line => prepared.toBool && setup.shows line.1
    match result with
    | .ok _ => (⟨0, logComplaint prepared, log⟩, s.disk)
    | .error e => (⟨1, logComplaint prepared ++ "运行失败: " ++ e.message ++ "\n", log⟩, s.disk)

def run (args : List String) (d : Disk) : Option (Answer × Disk) :=
  match args with
  | [] => some (⟨2, usage, []⟩, d)
  | name :: rest =>
    match Mode.ofText name with
    | .error e => some (⟨2, e.message ++ "\n" ++ usage, []⟩, d)
    | .ok mode =>
      match Settings.load d with
      | .error e => some (⟨1, "加载配置失败: " ++ e.message ++ "\n", []⟩, d)
      | .ok c => runJob ⟨mode, rest.head?.map Path.mk, c⟩ d

end CommandLine
end DumpRouter
