import DumpRouter.Statement.Basic
import DumpRouter.Text.Utf8
import DumpRouter.Text.Blank
import DumpRouter.Text.Word

/-!
# DumpRouter.Statement.Fallback

A second reading of the table's name, by expressions, for the statements whose name cannot be read
by hand. It works on characters and not on bytes: white space and word characters are Unicode's,
and ill-formed stretches of the text belong to neither.

Where a word must start, the expression looks back for a word character. It sees four bytes, and it
sees through continuation bytes that continue nothing: behind such bytes the word in front of them
goes on, if the character that ends it begins within the four.

An expression maps a text to the texts that may remain behind a match, the preferred one first.
`table?` takes the first way to match, and a word with or without a quote in front is the name.
-/

namespace DumpRouter
namespace Fallback

open Text.Utf8 (TextUnit units)

/-- What may remain behind a match, in order of preference. -/
abbrev Expression := List TextUnit → List (List TextUnit)

namespace Expression

def blank (u : TextUnit) : Bool := u.is Text.isBlank
def word (u : TextUnit) : Bool := u.is Text.isWord
def quote (u : TextUnit) : Bool := u.is fun c => c == Char.ofNat 96 || c == '"'

/-- A letter in either case. The long s and the Kelvin sign are cases of `S` and `K`. -/
def sameLetter (c : Char) (u : TextUnit) : Bool :=
  u.is fun d => d.toUpper == c || (c == 'S' && d == '\u017F') || (c == 'K' && d == '\u212A')

def one (p : TextUnit → Bool) : Expression
  | u :: s => if p u then [s] else []
  | [] => []

/-- `manyOnto acc p s` lists in front of `acc` what remains behind each run of the class that `s`
starts with, the longest run first. -/
def manyOnto (acc : List (List TextUnit)) (p : TextUnit → Bool) : Expression
  | [] => [] :: acc
  | u :: s => if p u then manyOnto ((u :: s) :: acc) p s else (u :: s) :: acc

/-- Any number of units of a class, preferably many. -/
def many (p : TextUnit → Bool) : Expression := manyOnto [] p

def andThen (e f : Expression) : Expression := fun s => (e s).flatMap f

/-- One or more units of a class, preferably many. -/
def some (p : TextUnit → Bool) : Expression := (one p).andThen (many p)

/-- A match, or preferably a match of `e`. -/
def optional (e : Expression) : Expression := fun s => e s ++ [s]

/-- The letters of a word in either case. -/
def letters : List Char → Expression
  | [] => fun s => [s]
  | c :: cs => (one (sameLetter c)).andThen (letters cs)

/-- A word in either case with white space behind it. -/
def keyword (cs : List Char) : Expression := (letters cs).andThen (some blank)

/-- Words in either case, each with white space behind it. -/
def keywords : List (List Char) → Expression
  | [] => fun s => [s]
  | w :: ws => (keyword w).andThen (keywords ws)

/-- A schema in front of a name: a word, perhaps quoted, and a dot, perhaps amid white space. -/
def schema : Expression :=
  (optional (one quote)).andThen <| (some word).andThen <| (optional (one quote)).andThen <|
    (many blank).andThen <| (one (·.is (· == '.'))).andThen (many blank)

/-- The first word that can be read behind a match, perhaps led in by a quote. -/
def name? (e : Expression) (s : List TextUnit) : Option (List TextUnit) :=
  (e.andThen (optional (one quote)) s).findSome? fun t =>
    match t.takeWhile word with
    | [] => none
    | w => Option.some w

/-- How far back a look for a word character goes, in bytes. -/
def reach : Nat := 4

/-- `passed before u` tells where the last word character begins once `u` has been passed, in bytes
back from there. It is forgotten as soon as anything but continuation bytes stands behind it. -/
def passed (before : Option Nat) : TextUnit → Option Nat
  | .char c => if Text.isWord c then Option.some c.utf8Size else none
  | .stray => before.map (· + 1)
  | .broken => none

/-- Whether a look back finds a word character. -/
def inWord (before : Option Nat) : Bool := before.any (· ≤ reach)

/-- Looks for the first place where `e` matches at the start of a word and a name follows. `before`
tells how far back in front of the text the last word character begins. -/
def search? (e : Expression) (before : Option Nat) : List TextUnit → Option (List TextUnit)
  | [] => none
  | u :: s =>
    match (if inWord before || !word u then none else name? e (u :: s)) with
    | Option.some w => Option.some w
    | none => search? e (passed before u) s

end Expression

open Expression

def create : List Char := ['C', 'R', 'E', 'A', 'T', 'E']
def table : List Char := ['T', 'A', 'B', 'L', 'E']
def insert : List Char := ['I', 'N', 'S', 'E', 'R', 'T']
def into : List Char := ['I', 'N', 'T', 'O']
def alter : List Char := ['A', 'L', 'T', 'E', 'R']
def drop : List Char := ['D', 'R', 'O', 'P']
def only : List Char := ['O', 'N', 'L', 'Y']
def ifWord : List Char := ['I', 'F']
def notWord : List Char := ['N', 'O', 'T']
def exists_ : List Char := ['E', 'X', 'I', 'S', 'T', 'S']
def on : List Char := ['O', 'N']

/-- What precedes the name in a statement of a kind whose phrase begins the text. -/
def lead : Kind → Expression
  | .createTable =>
    (keywords [create, table]).andThen <| (optional (keywords [ifWord, notWord, exists_])).andThen
      (optional schema)
  | .insert => (keywords [insert, into]).andThen (optional schema)
  | .alterTable =>
    (keywords [alter, table]).andThen <| (optional (keyword only)).andThen <|
      (optional (keywords [ifWord, exists_])).andThen (optional schema)
  | .dropTable =>
    (keywords [drop, table]).andThen <| (optional (keywords [ifWord, exists_])).andThen
      (optional schema)
  | .createIndex => (keyword on).andThen (optional schema)
  | .unknown => fun _ => []

/-- The name of the table in a whole statement. An index may have its `ON` anywhere; every other
kind has its phrase at the start, behind white space. -/
def table? (k : Kind) (s : Bytes) : Option String :=
  let found :=
    if k = .createIndex then search? (lead k) none (units s)
    else name? ((many blank).andThen (lead k)) (units s)
  found.map fun w => String.ofList (w.filterMap (·.char?))

end Fallback
end DumpRouter
