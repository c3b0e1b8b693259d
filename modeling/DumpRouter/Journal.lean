import DumpRouter.Disk.Basic
import DumpRouter.Failure

/-!
# DumpRouter.Journal

What happens during a run, in order, and what of it is logged in which words.

A `Site` is what a run acts on: a disk, and the journal that it keeps.
-/

namespace DumpRouter

inductive Level where
  | trace
  | debug
  | info
  | warn
  | error
  deriving DecidableEq, Repr

namespace Level

def name : Level → String
  | .trace => "TRACE"
  | .debug => "DEBUG"
  | .info => "INFO"
  | .warn => "WARN"
  | .error => "ERROR"

def severity : Level → Nat
  | .trace => 0
  | .debug => 1
  | .info => 2
  | .warn => 3
  | .error => 4

def ofName? (s : String) : Option Level :=
  [.trace, .debug, .info, .warn, .error].find? fun l => Text.asciiLower l.name == Text.asciiLower s

end Level

inductive Event where
  /-- The meter of the input reported so many bytes. -/
  | progress (delivered : Nat)
  | runStarted
  | splitStarted
  | splitDone
  | analysisStarted
  | analysisDone
  | inputNotOpened
  | readFailed
  | outputDirFailed
  | writerNotCreated
  /-- A table's file got another name, since the first choice was taken. -/
  | renamed
  | writeFailed
  | closeFailed
  /-- A writer could not be closed after another one could not. -/
  | furtherCloseFailed
  /-- A writer could not be closed after the run had failed. -/
  | lateCloseFailed
  | configRefused (fault : ConfigFault)
  | otherFailed (message : String)
  | exportFailed
  | exportNotFinished
  | summary (text : String)
  deriving DecidableEq, Repr

namespace Event

def level : Event → Level
  | .inputNotOpened | .readFailed | .outputDirFailed | .writerNotCreated | .writeFailed
  | .closeFailed | .configRefused _ | .otherFailed _ | .exportNotFinished => .error
  | .renamed | .furtherCloseFailed | .lateCloseFailed | .exportFailed => .warn
  | _ => .info

/-- The words of an event. The meter's reports are put into words where the size of the whole is
known. -/
def text : Event → String
  | .progress _ => ""
  | .runStarted => "开始处理"
  | .splitStarted => "开始拆分"
  | .splitDone => "拆分完成"
  | .analysisStarted => "开始统计"
  | .analysisDone => "统计完成"
  | .inputNotOpened => "打开输入文件失败"
  | .readFailed => "读取语句时发生 I/O 错误"
  | .outputDirFailed => "创建输出目录失败"
  | .writerNotCreated => "创建表输出文件失败"
  | .renamed => "表的文件名与其他表冲突，改用新的文件名"
  | .writeFailed => "写入表输出失败"
  | .closeFailed => "关闭表输出失败"
  | .furtherCloseFailed => "关闭写入器失败"
  | .lateCloseFailed => "中止后关闭写入器失败"
  | .configRefused f => (Failure.config f).message
  | .otherFailed m => (Failure.other m).message
  | .exportFailed => "导出失败"
  | .exportNotFinished => "导出器完成失败"
  | .summary s => s

end Event

structure Site where
  disk : Disk
  /-- The events so far, the latest in front. -/
  journal : List Event
  deriving DecidableEq

namespace Site

def ofDisk (d : Disk) : Site := ⟨d, []⟩

def note (s : Site) (e : Event) : Site := { s with journal := e :: s.journal }

def noteAll (s : Site) (es : List Event) : Site := es.foldl note s

def setDisk (s : Site) (d : Disk) : Site := { s with disk := d }

/-- The reports of the meter since the journal was begun, the first one in front. -/
def reports (s : Site) : List Nat :=
  s.journal.reverse.filterMap fun e =>
    match e with
    | .progress n => some n
    | _ => none

theorem disk_note (s : Site) (e : Event) : (s.note e).disk = s.disk := rfl

theorem disk_noteAll (s : Site) (es : List Event) : (s.noteAll es).disk = s.disk := by
  induction es generalizing s with
  | nil => rfl
  | cons e es ih => exact ih (s.note e)

end Site
end DumpRouter
