import DumpRouter.Disk.Fault
import DumpRouter.Disk.Path
import DumpRouter.Text.Blank

/-!
# DumpRouter.Failure

Everything that a run can fail with, each as its cause, and the one place where causes are put into
words.

`Failure.table?` names the table that an output was for.
-/

namespace DumpRouter

inductive ConfigFault where
  | unknownMode (mode : String)
  | noInput
  | unknownLevel (level : String)
  | blankOutputDir
  | blankTable (name : String)
  | emptyExportPath
  | exportExists (path : Path)
  | text (message : String)
  deriving DecidableEq, Repr

namespace ConfigFault

def message : ConfigFault → String
  | .unknownMode m => "未知的运行模式: " ++ m ++ "（可选 split、analyze）"
  | .noInput => "未指定输入文件：请在命令行或配置文件 [input].path 中提供"
  | .unknownLevel l => "无效的日志级别: " ++ l
  | .blankOutputDir => "输出目录不能为空"
  | .blankTable n => "表过滤列表中存在空表名: " ++ Text.shown n
  | .emptyExportPath => "导出文件路径不能为空"
  | .exportExists p => "导出文件已存在且不允许覆盖: " ++ p.text
  | .text m => m

end ConfigFault

/-- Why logging cannot be set up. -/
inductive LogFault where
  | io (f : Fault)
  /-- Neither the console nor a directory is to be written to. -/
  | noOutput
  | config (message : String)
  | setup (message : String)
  deriving DecidableEq, Repr

namespace LogFault

def message : LogFault → String
  | .io f => "IO错误: " ++ f.message
  | .noOutput => "日志配置错误: 控制台和文件输出均已关闭"
  | .config m => "日志配置错误: " ++ m
  | .setup m => "日志初始化错误: " ++ m

end LogFault

inductive Failure where
  | inputOpen (path : Path) (cause : Fault)
  | inputStat (path : Path) (cause : Fault)
  | read (cause : Fault)
  | outputDir (path : Path) (cause : Fault)
  | writerCreate (table : String) (path : Path) (cause : Fault)
  | write (table : String) (cause : Fault)
  | close (table : String) (cause : Fault)
  | io (cause : Fault)
  | config (cause : ConfigFault)
  | decode
  | encode
  | json
  | log (cause : LogFault)
  | other (message : String)
  deriving DecidableEq, Repr

namespace Failure

/-- The failure in words; of the three that concern the format of a text only the heading. -/
def message : Failure → String
  | .inputOpen p f => "无法打开输入文件 " ++ p.text ++ ": " ++ f.message
  | .inputStat p f => "无法读取输入文件信息 " ++ p.text ++ ": " ++ f.message
  | .read f => "读取语句失败: " ++ f.message
  | .outputDir p f => "无法创建输出目录 " ++ p.text ++ ": " ++ f.message
  | .writerCreate t p f => "无法为表 " ++ t ++ " 创建输出文件 " ++ p.text ++ ": " ++ f.message
  | .write t f => "写入表 " ++ t ++ " 失败: " ++ f.message
  | .close t f => "关闭表 " ++ t ++ " 的输出失败: " ++ f.message
  | .io f => "IO错误: " ++ f.message
  | .config f => "配置错误: " ++ f.message
  | .decode => "配置解析错误: "
  | .encode => "配置序列化错误: "
  | .json => "JSON序列化错误: "
  | .log f => "日志错误: " ++ f.message
  | .other m => "未知错误: " ++ m

def isIo : Failure → Bool
  | .io _ | .read _ | .inputOpen .. | .inputStat .. => true
  | _ => false

def isOutput : Failure → Bool
  | .outputDir .. | .writerCreate .. | .write .. | .close .. => true
  | _ => false

def isConfig : Failure → Bool
  | .config _ | .decode | .encode => true
  | _ => false

/-- The table that the output was for. -/
def table? : Failure → Option String
  | .writerCreate t _ _ | .write t _ | .close t _ => some t
  | _ => none

theorem isOutput_of_table? {f : Failure} {t : String} (h : f.table? = some t) :
    f.isOutput = true := by
  cases f <;> simp_all [Failure.table?, isOutput]

end Failure
end DumpRouter
