import DumpRouter.Bytes
import DumpRouter.Disk.Fault
import DumpRouter.Disk.Location
import DumpRouter.Disk.Path
import DumpRouter.Text.Utf8

/-!
# DumpRouter.Disk.Basic

A disk as a value: directories, regular files, and devices that drop what is written or never have
room for it. There are no links, and nothing is ever removed or renamed, so a file is known by its
location.

* `Disk.resolve` follows a path as the system does; `Disk.stat`, `openRead`, `create` and `mkdir`
  are the system calls, and `mkdirAll` makes a directory with its ancestors.
* `Disk.write` puts bytes at the place where a handle stands.
* `node?_put`: a change at one location is seen there and nowhere else.
* `unpack_overwrite`, `write_file`: what a write makes of the bytes of a file.
-/

namespace DumpRouter

/-- What a device does with the bytes that are written to it. -/
inductive Device where
  /-- It takes and drops them. -/
  | null
  /-- It never has room for them. -/
  | full
  deriving DecidableEq, Repr

inductive Node where
  | directory
  | file (content : ByteArray)
  /-- A device. It is always empty, and nothing is read from it. -/
  | device (kind : Device)
  deriving DecidableEq

structure Disk where
  nodes : List (Location × Node)
  /-- The working directory, where relative paths begin. -/
  here : Location
  deriving DecidableEq

namespace Disk

/-- The devices and their directory. All but the first deliver bytes without end; that is left out,
since a run that reads one of them does not come to an end. -/
def devices : List (Location × Node) :=
  (.ofNames ["dev"], .directory) ::
    [("null", .null), ("zero", .null), ("random", .null), ("urandom", .null), ("full", .full)].map
      fun (name, kind) => (.ofNames ["dev", name], .device kind)

/-- The directories that every system has at its root, beside that of the devices. -/
def rootDirectories : List String :=
  ["bin", "boot", "etc", "home", "lib", "media", "mnt", "opt", "proc", "root", "run", "sbin", "srv",
    "sys", "tmp", "usr", "var"]

/-- A disk with the devices, the directories at its root and an empty working directory. -/
def blank : Disk :=
  let here := Location.ofNames ["work"]
  ⟨devices ++ rootDirectories.map (fun name => (.ofNames [name], .directory)) ++
    [(here, .directory)], here⟩

def getNode (l : Location) : List (Location × Node) → Option Node
  | [] => none
  | (k, n) :: r => if k = l then some n else getNode l r

def putNode (l : Location) (n : Node) : List (Location × Node) → List (Location × Node)
  | [] => [(l, n)]
  | (k, m) :: r => if k = l then (l, n) :: r else (k, m) :: putNode l n r

/-- What is at a location. The root is a directory. -/
def node? (d : Disk) (l : Location) : Option Node :=
  if l = .root then some .directory else getNode l d.nodes

def put (d : Disk) (l : Location) (n : Node) : Disk := { d with nodes := putNode l n d.nodes }

theorem getNode_putNode (l k : Location) (n : Node) (r : List (Location × Node)) :
    getNode k (putNode l n r) = if k = l then some n else getNode k r := by
  induction r with
  | nil => simp [putNode, getNode, eq_comm]
  | cons e r ih =>
    obtain ⟨j, m⟩ := e
    by_cases hj : j = l
    · subst hj
      by_cases hk : k = j
      · simp [putNode, getNode, hk]
      · simp [putNode, getNode, hk, Ne.symm hk]
    · by_cases hkj : j = k
      · subst hkj
        simp [putNode, getNode, hj]
      · simp [putNode, getNode, hj, hkj, ih]

theorem node?_put {d : Disk} {l : Location} (hl : l ≠ .root) (k : Location) (n : Node) :
    (d.put l n).node? k = if k = l then some n else d.node? k := by
  unfold node? put
  by_cases hk : k = .root
  · subst hk; simp [hl.symm]
  · simp [hk, getNode_putNode]

/-- The longest name that a directory can hold, and the length that no path reaches, in bytes. -/
def longestName : Nat := 255
def pathLimit : Nat := 4096

def byteLength (s : String) : Nat := (Text.encode s).length

/-- Where a path leads: to a directory that its last step names by dots or by the root's slash, or
to a name in a directory, which need not be there. -/
inductive Target where
  | place (l : Location)
  | entry (directory : Location) (name : String) (slash : Bool)
  deriving DecidableEq, Repr

/-- What is at the name in a directory, if the name can be looked up. -/
def find (d : Disk) (l : Location) (name : String) : Except Fault (Option Node) :=
  if longestName < byteLength name then .error (.system .nameTooLong)
  else .ok (d.node? (l.below name))

def walk (d : Disk) (slash : Bool) (l : Location) : List String → Except Fault Target
  | [] => .ok (.place l)
  | "." :: r => walk d slash l r
  | ".." :: r => walk d slash l.parent r
  | [name] => .ok (.entry l name slash)
  | name :: r =>
    match d.find l name with
    | .error e => .error e
    | .ok none => .error (.system .noEntry)
    | .ok (some .directory) => walk d slash (l.below name) r
    | .ok (some _) => .error (.system .notDirectory)

def resolve (d : Disk) (p : Path) : Except Fault Target :=
  if p.text.toList.contains (Char.ofNat 0) then .error .nulInPath
  else if pathLimit ≤ byteLength p.text then .error (.system .nameTooLong)
  else if p.text.isEmpty then .error (.system .noEntry)
  else walk d p.endsWithSlash (if p.isAbsolute then .root else d.here) p.pieces

/-- What a path leads to, with its location. A slash at the end asks for a directory. -/
def stat (d : Disk) (p : Path) : Except Fault (Location × Node) :=
  match d.resolve p with
  | .error e => .error e
  | .ok (.place l) => .ok (l, .directory)
  | .ok (.entry l name slash) =>
    match d.find l name with
    | .error e => .error e
    | .ok none => .error (.system .noEntry)
    | .ok (some n) =>
      if slash && n != .directory then .error (.system .notDirectory) else .ok (l.below name, n)

def isDirectory (d : Disk) (p : Path) : Bool :=
  match d.stat p with
  | .ok (_, .directory) => true
  | _ => false

def exists_ (d : Disk) (p : Path) : Bool :=
  match d.stat p with
  | .ok _ => true
  | .error _ => false

/-- The number of bytes in a file; a directory has none, and a device is empty. -/
def size? : Node → Option Nat
  | .directory => none
  | .file c => some c.size
  | .device _ => some 0

/-- Opens a file for writing, which empties it; `fresh` asks that nothing be there yet. The answer
is the location of the file. -/
def create (d : Disk) (p : Path) (fresh : Bool) : Except Fault (Location × Disk) :=
  match d.resolve p with
  | .error e => .error e
  | .ok (.place _) => .error (.system (if fresh then .exists_ else .isDirectory))
  | .ok (.entry l name slash) =>
    if slash then .error (.system .isDirectory)
    else match d.find l name with
      | .error e => .error e
      | .ok none => .ok (l.below name, d.put (l.below name) (.file .empty))
      | .ok (some n) =>
        if fresh then .error (.system .exists_)
        else match n with
          | .directory => .error (.system .isDirectory)
          | .file _ => .ok (l.below name, d.put (l.below name) (.file .empty))
          | .device _ => .ok (l.below name, d)

def mkdir (d : Disk) (p : Path) : Except Fault Disk :=
  match d.resolve p with
  | .error e => .error e
  | .ok (.place _) => .error (.system .exists_)
  | .ok (.entry l name _) =>
    match d.find l name with
    | .error e => .error e
    | .ok none => .ok (d.put (l.below name) .directory)
    | .ok (some _) => .error (.system .exists_)

/-- Makes the directory at `p`, whose components these are, the last one in front, and before it
those on the way that are missing. A directory that is there already is as good as a new one. What
has been made stays also when a later step fails. -/
def mkdirs (d : Disk) (p : Path) : List Path.Component → Except Fault Unit × Disk
  | [] => (.ok (), d)
  | .root :: _ => (.ok (), d)
  | _ :: up =>
    match d.mkdir p with
    | .ok d' => (.ok (), d')
    | .error e =>
      if e = .system .noEntry then
        match mkdirs d (Path.ofComponents up.reverse) up with
        | (.error e', d') => (.error e', d')
        | (.ok (), d') =>
          match d'.mkdir p with
          | .ok d'' => (.ok (), d'')
          | .error e' => if d'.isDirectory p then (.ok (), d') else (.error e', d')
      else if d.isDirectory p then (.ok (), d)
      else (.error e, d)

/-- Makes a directory and its ancestors. The empty path is the working directory, which is there. -/
def mkdirAll (d : Disk) (p : Path) : Except Fault Unit × Disk := d.mkdirs p p.components.reverse

def readFile (d : Disk) (p : Path) : Except Fault Bytes :=
  match d.stat p with
  | .error e => .error e
  | .ok (_, .directory) => .error (.system .isDirectory)
  | .ok (_, .file c) => .ok (Bytes.unpack c)
  | .ok (_, .device _) => .ok []

def readText (d : Disk) (p : Path) : Except Fault String :=
  match d.readFile p with
  | .error e => .error e
  | .ok c =>
    match Text.decode? c with
    | some s => .ok s
    | none => .error .notUtf8

/-- A file open for writing, and how many bytes have been written through this handle. -/
structure Handle where
  location : Location
  offset : Nat
  deriving DecidableEq, Repr

/-- `content` with `data` from byte `offset` on. Bytes between the end and `offset` are zero. -/
def overwrite (content : ByteArray) (offset : Nat) (data : ByteArray) : ByteArray :=
  content.extract 0 offset ++ Bytes.pack (List.replicate (offset - content.size) 0) ++ data ++
    content.extract (offset + data.size) content.size

/-- Writes bytes where the handle stands. To write nothing never fails. -/
def write (d : Disk) (h : Handle) (data : ByteArray) : Except Fault (Handle × Disk) :=
  if data.size = 0 then .ok (h, d)
  else match d.node? h.location with
    | some (.file c) =>
      .ok ({ h with offset := h.offset + data.size },
        d.put h.location (.file (overwrite c h.offset data)))
    | some (.device .null) => .ok ({ h with offset := h.offset + data.size }, d)
    | _ => .error (.system .noSpace)

def writeFile (d : Disk) (p : Path) (data : Bytes) : Except Fault Unit × Disk :=
  match d.create p false with
  | .error e => (.error e, d)
  | .ok (l, d') =>
    match d'.write ⟨l, 0⟩ (Bytes.pack data) with
    | .error e => (.error e, d')
    | .ok (_, d'') => (.ok (), d'')

/-- Puts a file, or without content a directory, where a path says, with the directories on the
way. -/
def place (d : Disk) (p : Path) : Option Bytes → Disk
  | none => (d.mkdirAll p).2
  | some c =>
    let d := match p.parent? with
      | some q => (d.mkdirAll q).2
      | none => d
    (d.writeFile p c).2

/-- Everything below the working directory, with its path from there. -/
def listing (d : Disk) : List (List String × Node) :=
  d.nodes.filterMap fun (l, n) => (d.here.namesFrom l).map (·, n)

theorem unpack_overwrite (content : ByteArray) (offset : Nat) (data : ByteArray) :
    Bytes.unpack (overwrite content offset data) =
      (Bytes.unpack content).take offset ++ List.replicate (offset - content.size) 0 ++
        Bytes.unpack data ++ (Bytes.unpack content).drop (offset + data.size) := by
  have : content.size = (Bytes.unpack content).length := by simp
  simp only [overwrite, Bytes.unpack_append, Bytes.unpack_extract, Bytes.unpack_pack,
    List.drop_zero]
  rw [this, List.take_length]

theorem overwrite_end (content data : ByteArray) :
    overwrite content content.size data = content ++ data := by
  apply Bytes.unpack_inj.1
  have : content.size = (Bytes.unpack content).length := by simp
  rw [unpack_overwrite, this, List.take_length, List.drop_eq_nil_of_le (by omega)]
  simp

theorem write_file {d : Disk} {h : Handle} {c data : ByteArray} (hd : data.size ≠ 0)
    (hn : d.node? h.location = some (.file c)) (ho : h.offset = c.size) :
    d.write h data = .ok ({ h with offset := h.offset + data.size },
      d.put h.location (.file (c ++ data))) := by
  simp [write, hd, hn, ho, overwrite_end]

end Disk
end DumpRouter
