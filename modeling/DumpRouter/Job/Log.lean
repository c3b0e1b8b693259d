import DumpRouter.Job.Run
import DumpRouter.Source.Throttle

/-!
# DumpRouter.Job.Log

The journal of a run as lines of a log, with progress in steps of five percent.

* `Job.inputSize`: the whole that progress is measured by.
* `logLines`: the lines, the first event in front. There are none if the throttle of the progress
  overflows, since that brings the program down in the middle of the run.
-/

namespace DumpRouter

/-- The percentage from one line of progress to the next. -/
def progressStep : UInt64 := 5

/-- The size of the input before the run; zero if that cannot be told. -/
def Job.inputSize (job : Job) (d : Disk) : Nat :=
  match job.input with
  | .error _ => 0
  | .ok p =>
    match d.stat p with
    | .ok (_, n) => (Disk.size? n).getD 0
    | .error _ => 0

def progressText (total bytes percent : UInt64) : String :=
  "进度: " ++ Nat.repr percent.toNat ++ "% (" ++ Nat.repr bytes.toNat ++ " / " ++
    Nat.repr total.toNat ++ " 字节)"

/-- The lines of events; reports of the meter pass through a throttle. -/
def logLines (t : Throttle) : List Event → Option (List (Level × String))
  | [] => some []
  | .progress n :: es =>
    match t.feed n.toUInt64 with
    | (.passed b p, t') => (logLines t' es).map ((.info, progressText t.total b p) :: ·)
    | (.held, t') => logLines t' es
    | (.overflow, _) => none
  | e :: es => (logLines t es).map ((e.level, e.text) :: ·)

def Site.log (s : Site) (inputSize : Nat) : Option (List (Level × String)) :=
  logLines (.new inputSize.toUInt64 progressStep) s.journal.reverse

end DumpRouter
