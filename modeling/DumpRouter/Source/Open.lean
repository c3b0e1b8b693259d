import DumpRouter.Journal
import DumpRouter.Source.Input

/-!
# DumpRouter.Source.Open

Opening the file that a dump is in, and what its name says about compression. Compressed dumps are
unpacked before they come here; the name only tells which format that took.
-/

namespace DumpRouter

inductive Compression where
  | none
  | gzip
  | bzip2
  | xz
  | zstd
  deriving DecidableEq, Repr

namespace Compression

def name : Compression → String
  | .none => "none"
  | .gzip => "gzip"
  | .bzip2 => "bzip2"
  | .xz => "xz"
  | .zstd => "zstd"

def isCompressed (c : Compression) : Bool := c != .none

def extensions : List (String × Compression) := [
  ("gz", .gzip), ("gzip", .gzip), ("bz2", .bzip2), ("bzip2", .bzip2), ("xz", .xz), ("lzma", .xz),
  ("zst", .zstd), ("zstd", .zstd)]

/-- The format that the extension of a path stands for, in any case of ASCII letters. -/
def ofPath (p : Path) : Compression :=
  match p.extension? with
  | Option.none => .none
  | some e => (extensions.lookup (Text.asciiLower e)).getD .none

end Compression

/-- Opens a file for reading. The answer is where it is read from and its size, which a directory
has not; that a directory cannot be read shows only later. -/
def openInput (p : Path) (s : Site) : Except Failure (Source × Option Nat) × Site :=
  match s.disk.stat p with
  | .ok (l, n) => (.ok (.file l 0, Disk.size? n), s)
  | .error f => (.error (.inputOpen p f), s.note .inputNotOpened)

theorem disk_openInput (p : Path) (s : Site) : (openInput p s).2.disk = s.disk := by
  unfold openInput
  split <;> rfl

end DumpRouter
