import DumpRouter.Disk.Buffered
import DumpRouter.Journal

/-!
# DumpRouter.Export.Target

The file that an export goes to. Its directory is made where it is missing. A file that is already
there is emptied, or refused if it may not be overwritten.
-/

namespace DumpRouter
namespace Export

/-- The buffer in front of an export, in bytes. -/
def bufferSize : Nat := 8 * 1024

def makeParent (p : Path) (d : Disk) : Except Fault Unit × Disk :=
  match p.parent? with
  | some q => d.mkdirAll q
  | none => (.ok (), d)

/-- The failure to open an export. Only that the file is there already, where it may not be, is a
matter of settings. -/
def refusal (p : Path) (overwrite : Bool) (f : Fault) : Failure :=
  if !overwrite && f = .system .exists_ then .config (.exportExists p) else .io f

/-- Enters a failure in the journal, if it is a matter of settings. -/
def noteRefusal (e : Failure) (s : Site) : Site :=
  match e with
  | .config f => s.note (.configRefused f)
  | _ => s

def openTarget (p : Path) (overwrite : Bool) (s : Site) : Except Failure Buffered × Site :=
  match makeParent p s.disk with
  | (.error f, d) => (.error (.io f), s.setDisk d)
  | (.ok (), d) =>
    match Buffered.create d p (!overwrite) bufferSize with
    | .ok (b, d') => (.ok b, s.setDisk d')
    | .error f =>
      (.error (refusal p overwrite f), noteRefusal (refusal p overwrite f) (s.setDisk d))

/-- Writes texts, each as a chunk of its own, up to the first failure. -/
def writeChunks (b : Buffered) (d : Disk) : List Bytes → Except Fault Unit × Buffered × Disk
  | [] => (.ok (), b, d)
  | c :: cs =>
    match b.write c d with
    | (.ok (), b', d') => writeChunks b' d' cs
    | (.error f, b', d') => (.error f, b', d')

end Export
end DumpRouter
