/-!
# DumpRouter.Disk.Path

Paths as texts, and what they say without a look at the disk.

* `pieces`: the names between the slashes.
* `components`: the path read as a list of steps; two paths with the same components are spelled
  differently at most.
* `parent?`, `fileName?`, `extension?`, `join`.
-/

namespace DumpRouter

structure Path where
  text : String
  deriving DecidableEq, Repr

namespace Path

/-- The pieces between the slashes, empty ones included. -/
def split : List Char → List (List Char)
  | [] => [[]]
  | c :: s =>
    if c == '/' then [] :: split s
    else match split s with
      | [] => [[c]]
      | p :: ps => (c :: p) :: ps

/-- The non-empty names between the slashes. -/
def pieces (p : Path) : List String :=
  ((split p.text.toList).filter fun q => !q.isEmpty).map String.ofList

def isAbsolute (p : Path) : Bool := p.text.toList.head? == some '/'

def endsWithSlash (p : Path) : Bool := p.text.toList.getLast? == some '/'

inductive Component where
  | root
  /-- A dot in front of the path. Dots further on mean nothing and are no components. -/
  | here
  | up
  | name (n : String)
  deriving DecidableEq, Repr

/-- The step that a piece means, where dots mean nothing. -/
def step? (piece : String) : Option Component :=
  if piece == "." then none else if piece == ".." then some .up else some (.name piece)

def components (p : Path) : List Component :=
  let steps := p.pieces.filterMap step?
  if p.isAbsolute then .root :: steps
  else if p.pieces.head? == some "." then .here :: steps
  else steps

namespace Component

def text : Component → String
  | .root => "/"
  | .here => "."
  | .up => ".."
  | .name n => n

end Component

/-- A path with the given components. -/
def ofComponents : List Component → Path
  | .root :: cs => ⟨"/" ++ "/".intercalate (cs.map Component.text)⟩
  | cs => ⟨"/".intercalate (cs.map Component.text)⟩

/-- The path without its last step. The root and the empty path have none. -/
def parent? (p : Path) : Option Path :=
  match p.components.getLast? with
  | none | some .root => none
  | some _ => some (ofComponents p.components.dropLast)

def fileName? (p : Path) : Option String :=
  match p.components.getLast? with
  | some (.name n) => some n
  | _ => none

/-- What stands behind the last dot of the file name, unless that dot is its first character. -/
def extension? (p : Path) : Option String :=
  match p.fileName? with
  | none => none
  | some n =>
    let rev := n.toList.reverse
    match rev.dropWhile (· != '.') with
    | _ :: _ :: _ => some (String.ofList (rev.takeWhile (· != '.')).reverse)
    | _ => none

/-- A path below a directory; an absolute path stays as it is. -/
def join (dir : Path) (p : Path) : Path :=
  if p.isAbsolute || dir.text.isEmpty then p
  else if dir.endsWithSlash then ⟨dir.text ++ p.text⟩
  else ⟨dir.text ++ "/" ++ p.text⟩

end Path
end DumpRouter
