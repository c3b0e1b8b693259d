/-!
# DumpRouter.Toml.Value

The values of a TOML document, and how its tables grow key by key and header by header.

A table remembers what made it, since that decides what may still be added: a table in braces is
complete, a table with a header of its own takes no dotted keys from outside, and a table that only
stands on the way to others may still get its header.

Of floats and of dates nothing but that they are there is kept; no setting takes one.
-/

namespace DumpRouter
namespace Toml

/-- What made a table. -/
inductive Origin where
  /-- Braces. -/
  | inline
  /-- A header of its own. -/
  | header
  /-- A longer header. -/
  | path
  /-- A dotted key. -/
  | dotted
  deriving DecidableEq, Repr

inductive Value where
  | string (s : String)
  | integer (i : Int)
  | float
  | boolean (b : Bool)
  | datetime
  /-- An array in brackets. -/
  | array (items : List Value)
  /-- An array of the tables that headers in double brackets have made. Only the latest is still
  open to keys; of those before it the later ones are in front. -/
  | rows (latest : List (String × Value)) (earlier : List (List (String × Value)))
  | table (origin : Origin) (entries : List (String × Value))

/-- The items of an array of either kind, in order. -/
def Value.items? : Value → Option (List Value)
  | .array items => some items
  | .rows latest earlier => some ((latest :: earlier).reverse.map (.table .header))
  | _ => none

/-- The entries of a table, in the order in which they were made. -/
abbrev Entries := List (String × Value)

namespace Entries

def replace (es : Entries) (k : String) (v : Value) : Entries :=
  es.map fun e => if e.1 = k then (k, v) else e

/-- Changes the table that a path of keys leads to. Tables that are missing on the way are made. A
path leads through the latest table of an array with headers, and through no other values. Dotted
keys do not lead through tables with a header, unless they are tables of an array. -/
def change (dotted : Bool) (f : Origin → Entries → Option Entries) :
    List String → Origin → Entries → Option Entries
  | [], o, es => f o es
  | k :: ks, _, es =>
    match es.lookup k with
    | none =>
      let o := if dotted then .dotted else .path
      (change dotted f ks o []).map fun sub => es ++ [(k, .table o sub)]
    | some (.table o sub) =>
      if o = .inline || (dotted && o = .header) then none
      else (change dotted f ks o sub).map fun sub' => replace es k (.table o sub')
    | some (.rows latest earlier) =>
      (change dotted f ks .header latest).map fun latest' => replace es k (.rows latest' earlier)
    | some _ => none

def addNew (k : String) (v : Value) (es : Entries) : Option Entries :=
  match es.lookup k with
  | none => some (es ++ [(k, v)])
  | some _ => none

/-- Adds a value under a dotted key. The table that takes it must itself be made by dotted keys,
unless the key has one part. -/
def addDotted (path : List String) (k : String) (v : Value) (es : Entries) : Option Entries :=
  change true (fun o sub => if path.isEmpty || o = .dotted then addNew k v sub else none)
    path .header es

/-- Adds a value under a dotted key to the table of a header. -/
def addUnder (header path : List String) (k : String) (v : Value) (es : Entries) :
    Option Entries :=
  change false (fun _ sub => addDotted path k v sub) header .header es

/-- Enters the header of a table. The table may have been on the way to others. -/
def openTable (path : List String) (k : String) (es : Entries) : Option Entries :=
  change false (fun _ sub =>
    match sub.lookup k with
    | none => some (sub ++ [(k, .table .header [])])
    | some (.table .path inner) => some (replace sub k (.table .header inner))
    | some _ => none) path .header es

/-- Enters the header of one more table of an array. -/
def openRow (path : List String) (k : String) (es : Entries) : Option Entries :=
  change false (fun _ sub =>
    match sub.lookup k with
    | none => some (sub ++ [(k, .rows [] [])])
    | some (.rows latest earlier) => some (replace sub k (.rows [] (latest :: earlier)))
    | some _ => none) path .header es

end Entries
end Toml
end DumpRouter
