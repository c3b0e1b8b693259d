import DumpRouter.Toml.Scalar

/-!
# DumpRouter.Toml.Written

The written forms of TOML values and of the lines that they stand in.

A string stands in double quotes with escapes, or, if that would need a backslash for a quote or a
backslash only, in single quotes as it is.
-/

namespace DumpRouter
namespace Toml

/-- A control character as an escape of four digits. -/
def controlEscape (c : Char) : List Char :=
  let ds := (Nat.toDigits 16 c.toNat).map Char.toUpper
  '\\' :: 'u' :: (List.replicate (4 - ds.length) '0' ++ ds)

def escaped (c : Char) : List Char :=
  if c = '\x08' then ['\\', 'b']
  else if c = '\t' then ['\\', 't']
  else if c = '\n' then ['\\', 'n']
  else if c = '\x0c' then ['\\', 'f']
  else if c = '\r' then ['\\', 'r']
  else if c = '"' then ['\\', '"']
  else if c = '\\' then ['\\', '\\']
  else if isLineChar c then [c]
  else controlEscape c

/-- Whether a string is written in single quotes. -/
def isLiteral (s : List Char) : Bool :=
  s.any (fun c => c == '"' || c == '\\') && s.all (fun c => isLineChar c && c != '\'')

def quoted (s : String) : String :=
  if isLiteral s.toList then "'" ++ s ++ "'"
  else "\"" ++ String.ofList (s.toList.flatMap escaped) ++ "\""

def flag (b : Bool) : String := if b then "true" else "false"

/-- Strings in brackets, each on a line of its own if there are several. -/
def texts : List String → String
  | [] => "[]"
  | [s] => "[" ++ quoted s ++ "]"
  | ss => "[\n" ++ String.join (ss.map fun s => "    " ++ quoted s ++ ",\n") ++ "]"

/-- A section: its header, and a line for each key with its written value. -/
def block (header : String) (entries : List (String × String)) : String :=
  header ++ "\n" ++ String.join (entries.map fun (k, v) => k ++ " = " ++ v ++ "\n")

def blocks (bs : List String) : String := "\n".intercalate bs

end Toml
end DumpRouter
