import DumpRouter.Toml.Scalar

/-!
# DumpRouter.Toml.Document

Whole TOML documents: keys, arrays, tables in braces, headers and lines.

* `key`: the parts of a dotted key.
* `value`: a value of any kind. Brackets and braces are nested less than eighty deep, and a key has
  less than eighty parts.
* `parse?`: the entries of a document, if it is well-formed.

The numbers that go down with each step bound the steps. `parse?` starts with more than the text has
characters, and each step but the last uses up at least one of them. Two numbers to a character are
enough for a value, which takes one step for itself and one as an item.
-/

namespace DumpRouter
namespace Toml

/-- Nesting as deep as this, and keys as long, are refused. -/
def depthLimit : Nat := 80

def skipWs (s : List Char) : List Char := s.dropWhile isWs

def isBare (c : Char) : Bool := c.isAlphanum || c == '_' || c == '-'

/-- One part of a key. The number bounds the characters. -/
def keyPart (n : Nat) (s : List Char) : Read String :=
  match s with
  | [] => none
  | c :: _ =>
    if c == '"' || c == '\'' then shortString n s
    else
      let name := s.takeWhile isBare
      if name.isEmpty then none else some (String.ofList name, s.drop name.length)

/-- Parts with points between them and blanks around them. -/
def keyParts : Nat → List Char → Read (List String)
  | 0, _ => none
  | n + 1, s =>
    match keyPart n (skipWs s) with
    | none => none
    | some (k, t) =>
      match skipWs t with
      | '.' :: u => (keyParts n u).map fun (ks, v) => (k :: ks, v)
      | u => some ([k], u)

/-- A key: the parts in front, and the last one. The number bounds the characters. -/
def key (n : Nat) (s : List Char) : Read (List String × String) :=
  match keyParts n s with
  | none => none
  | some (ks, t) =>
    if ks.length < depthLimit then some ((ks.dropLast, ks.getLastD ""), t) else none

def skipComments : Nat → List Char → List Char
  | 0, s => s
  | n + 1, s =>
    match skipWs s with
    | '#' :: t => skipComments n (t.dropWhile isLineChar)
    | t =>
      match newline? t with
      | some u => skipComments n u
      | none => t

mutual

/-- A value. So many more brackets or braces may be opened. -/
def value (levels : Nat) : Nat → List Char → Read Value
  | 0, _ => none
  | n + 1, s =>
    match s with
    | '[' :: t => if levels = 0 then none else items (levels - 1) [] n t
    | '\x7b' :: t =>
      if levels = 0 then none
      else match skipWs t with
        | '\x7d' :: u => some (.table .inline [], u)
        | u => members (levels - 1) [] n u
    | _ => scalar n s

/-- The rest of an array, with the items read so far in reverse. -/
def items (levels : Nat) (acc : List Value) : Nat → List Char → Read Value
  | 0, _ => none
  | n + 1, s =>
    match skipComments (n + 1) s with
    | ']' :: t => some (.array acc.reverse, t)
    | t =>
      match value levels n t with
      | none => none
      | some (v, u) =>
        match skipComments (n + 1) u with
        | ',' :: w => items levels (v :: acc) n w
        | ']' :: w => some (.array (v :: acc).reverse, w)
        | _ => none

/-- The rest of a table in braces, with the entries read so far. -/
def members (levels : Nat) (es : Entries) : Nat → List Char → Read Value
  | 0, _ => none
  | n + 1, s =>
    match pair levels n s with
    | none => none
    | some ((path, k, v), t) =>
      match es.addDotted path k v, skipWs t with
      | some es', ',' :: u => members levels es' n u
      | some es', '\x7d' :: u => some (.table .inline es', u)
      | _, _ => none

/-- A key with its value. -/
def pair (levels : Nat) : Nat → List Char → Read (List String × String × Value)
  | 0, _ => none
  | n + 1, s =>
    match key n s with
    | some ((path, k), '=' :: t) =>
      (value levels n (skipWs t)).map fun (v, u) => ((path, k, v), u)
    | _ => none

end

/-- What follows a line, behind blanks and a comment. -/
def endLine (s : List Char) : Option (List Char) :=
  let t := match skipWs s with
    | '#' :: u => u.dropWhile isLineChar
    | u => u
  if t.isEmpty then some [] else newline? t

/-- The rest of a header behind its opening brackets, with what follows its line. The number bounds
the characters. -/
def header (closing : List Char) (n : Nat) (s : List Char) : Read (List String × String) :=
  match key n s with
  | none => none
  | some (k, t) => ((expect closing t).bind endLine).map (k, ·)

/-- The lines of a document, below a header and with the entries read so far. -/
def lines (path : List String) (es : Entries) : Nat → List Char → Option Entries
  | 0, _ => none
  | n + 1, s =>
    match skipWs s with
    | [] => some es
    | '[' :: '[' :: t =>
      match header [']', ']'] n t with
      | none => none
      | some ((ks, k), u) => (es.openRow ks k).bind fun es' => lines (ks ++ [k]) es' n u
    | '[' :: t =>
      match header [']'] n t with
      | none => none
      | some ((ks, k), u) => (es.openTable ks k).bind fun es' => lines (ks ++ [k]) es' n u
    | c :: t =>
      if c == '#' || c == '\n' || c == '\r' then
        (endLine (c :: t)).bind fun u => lines path es n u
      else
        match pair (depthLimit - 1) (2 * n + 3) (c :: t) with
        | none => none
        | some ((ks, k, v), u) =>
          (endLine u).bind fun w => (es.addUnder path ks k v).bind fun es' => lines path es' n w

/-- A byte order mark in front means nothing. -/
def skipMark (s : List Char) : List Char :=
  match s with
  | '\uFEFF' :: t => t
  | _ => s

/-- The entries of a document, if it is well-formed. -/
def parse? (text : String) : Option Entries :=
  let s := skipMark text.toList
  lines [] [] (s.length + 1) s

end Toml
end DumpRouter
