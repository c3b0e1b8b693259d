import DumpRouter.Disk.Buffered
import DumpRouter.Journal

/-!
# DumpRouter.Writer.TableWriter

The file of one table. Each statement goes into it with a newline behind it, through a buffer that
is flushed after every hundredth statement. A closed writer refuses statements; to flush or to close
it again does nothing.

`write_closed`: a closed writer refuses every statement and leaves the disk alone.
-/

namespace DumpRouter

structure TableWriter where
  table : String
  path : Path
  /-- The open file; a closed writer has none. -/
  output : Option Buffered
  /-- The statements taken so far. Each takes a byte of a file at least, so a word would do. -/
  writes : Nat
  deriving DecidableEq

namespace TableWriter

/-- The buffer in front of a table's file, in bytes. -/
def bufferSize : Nat := 256 * 1024

/-- After so many statements the buffer is flushed. -/
def flushInterval : Nat := 100

def isClosed (w : TableWriter) : Bool := w.output.isNone

def create (table : String) (path : Path) (s : Site) : Except Failure TableWriter × Site :=
  match Buffered.create s.disk path false bufferSize with
  | .ok (b, d) => (.ok ⟨table, path, some b, 0⟩, s.setDisk d)
  | .error f => (.error (.writerCreate table path f), s.note .writerNotCreated)

/-- The failure to write, entered in the journal. -/
def refuse (w : TableWriter) (f : Fault) (s : Site) : Except Failure Unit × TableWriter × Site :=
  (.error (.write w.table f), w, s.note .writeFailed)

def flushOutput (w : TableWriter) (b : Buffered) (s : Site) :
    Except Failure Unit × TableWriter × Site :=
  match b.flush s.disk with
  | (.ok (), b', d) => (.ok (), { w with output := some b' }, s.setDisk d)
  | (.error f, b', d) => refuse { w with output := some b' } f (s.setDisk d)

/-- Takes a statement; the statement and the newline are separate chunks. -/
def write (w : TableWriter) (statement : Bytes) (s : Site) :
    Except Failure Unit × TableWriter × Site :=
  match w.output with
  | none => w.refuse .closed s
  | some b =>
    match b.write statement s.disk with
    | (.error f, b', d) => refuse { w with output := some b' } f (s.setDisk d)
    | (.ok (), b', d) =>
      match b'.write [10] d with
      | (.error f, b'', d') => refuse { w with output := some b'' } f (s.setDisk d')
      | (.ok (), b'', d') =>
        let w' := { w with output := some b'', writes := w.writes + 1 }
        if w'.writes % flushInterval = 0 then w'.flushOutput b'' (s.setDisk d')
        else (.ok (), w', s.setDisk d')

def flush (w : TableWriter) (s : Site) : Except Failure Unit × TableWriter × Site :=
  match w.output with
  | none => (.ok (), w, s)
  | some b => w.flushOutput b s

/-- Flushes and closes the file. It is closed also if it cannot be flushed. -/
def close (w : TableWriter) (s : Site) : Except Failure Unit × TableWriter × Site :=
  match w.output with
  | none => (.ok (), w, s)
  | some b =>
    match b.flush s.disk with
    | (.ok (), _, d) => (.ok (), { w with output := none }, s.setDisk d)
    | (.error f, b', d) =>
      (.error (.close w.table f), { w with output := none },
        (s.setDisk (b'.drop d)).note .closeFailed)

/-- What becomes of the disk when the writer is given up without being closed. -/
def drop (w : TableWriter) (s : Site) : Site :=
  match w.output with
  | none => s
  | some b => s.setDisk (b.drop s.disk)

theorem isClosed_close (w : TableWriter) (s : Site) : (w.close s).2.1.isClosed = true := by
  unfold close
  split
  · next h => simp [isClosed, h]
  · split <;> rfl

theorem write_closed {w : TableWriter} (h : w.isClosed = true) (statement : Bytes) (s : Site) :
    (w.write statement s).1 = .error (.write w.table .closed) ∧
      (w.write statement s).2.1 = w ∧ (w.write statement s).2.2.disk = s.disk := by
  have : w.output = none := by simpa [isClosed] using h
  simp [write, this, refuse, Site.disk_note]

end TableWriter
end DumpRouter
