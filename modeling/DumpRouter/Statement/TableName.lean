import DumpRouter.Statement.Keyword

/-!
# DumpRouter.Statement.TableName

The name of the table behind a keyword phrase, read by hand: modifiers, schema qualifiers and the
three ways to write an identifier.

* `identifier?`: a bare word, or a text in backquotes or double quotes.
* `qualified?`: identifiers joined by dots; the last one counts.
* `skipModifiers`: `ONLY`, `IF EXISTS` and `IF NOT EXISTS`.
* `direct?`, `indexed?`: the name behind the phrase, and the name behind `ON`.

Each gives the name and what follows it, and what follows is a proper suffix of the text.
-/

namespace DumpRouter
namespace TableName

open Keyword (standing?)

def only : Bytes := Bytes.ascii ['O', 'N', 'L', 'Y']
def ifWord : Bytes := Bytes.ascii ['I', 'F']
def notWord : Bytes := Bytes.ascii ['N', 'O', 'T']
def exists_ : Bytes := Bytes.ascii ['E', 'X', 'I', 'S', 'T', 'S']
def on : Bytes := Bytes.ascii ['O', 'N']

def dot : UInt8 := 46

def isQuote (b : UInt8) : Bool := b == 96 || b == 34

/-- Bytes that a bare identifier may hold: all but blanks, parentheses that open, semicolons,
commas and dots. -/
def isBare (b : UInt8) : Bool :=
  !(Bytes.isBlank b || b == 40 || b == 59 || b == 44 || b == dot)

/-- Reads one identifier. A quote that is not closed and an empty name are refused. -/
def identifier? : Bytes → Option (Bytes × Bytes)
  | [] => none
  | b :: s =>
    if isQuote b then
      match s.takeWhile (· != b), s.dropWhile (· != b) with
      | c :: name, _ :: rest => some (c :: name, rest)
      | _, _ => none
    else if isBare b then some (b :: s.takeWhile isBare, s.dropWhile isBare)
    else none

theorem identifier?_suffix {s name rest : Bytes} (h : identifier? s = some (name, rest)) :
    rest <:+ s ∧ rest.length < s.length := by
  cases s with
  | nil => cases h
  | cons b s =>
    simp only [identifier?] at h
    split at h
    · split at h
      · next c n d r _ hd =>
        cases h
        have hs : d :: rest <:+ s := hd ▸ List.dropWhile_suffix _
        have hr : rest <:+ s := (List.suffix_cons d rest).trans hs
        exact ⟨hr.trans (List.suffix_cons b s), Nat.lt_succ_of_le hr.length_le⟩
      · cases h
    · split at h
      · cases h
        have hr : s.dropWhile isBare <:+ s := List.dropWhile_suffix _
        exact ⟨hr.trans (List.suffix_cons b s), Nat.lt_succ_of_le hr.length_le⟩
      · cases h

/-- Reads identifiers joined by dots and gives the last of them. -/
def qualified? (s : Bytes) : Option (Bytes × Bytes) :=
  match _h : identifier? s with
  | none => none
  | some (name, rest) =>
    match _hr : rest with
    | [] => some (name, [])
    | b :: t => if b == dot then qualified? t else some (name, b :: t)
termination_by s.length
decreasing_by
  have := (identifier?_suffix _h).2
  simp only [List.length_cons] at this
  omega

/-- Skips a word that stands alone, and the blanks behind it; a text that does not begin with the
word stays as it is. -/
def skipWord (w s : Bytes) : Bytes :=
  match standing? w s with
  | some t => Bytes.skipBlank t
  | none => s

/-- Skips `ONLY`, and then `IF EXISTS` or `IF NOT EXISTS`. An `IF` without `EXISTS` is no modifier
but a name. -/
def skipModifiers (s : Bytes) : Bytes :=
  let s := skipWord only s
  match standing? ifWord s with
  | none => s
  | some t =>
    match standing? exists_ (skipWord notWord (Bytes.skipBlank t)) with
    | some u => Bytes.skipBlank u
    | none => s

/-- The table of a statement whose phrase is followed by the name; `s` is what follows the
phrase. -/
def direct? (s : Bytes) : Option Bytes :=
  (qualified? (skipModifiers (Bytes.skipBlank s))).map (·.1)

/-- The table of a statement whose phrase is followed by the name of an index, `ON` and the name of
the table. -/
def indexed? (s : Bytes) : Option Bytes :=
  match qualified? (skipModifiers (Bytes.skipBlank s)) with
  | none => none
  | some (_, t) =>
    match standing? on (Bytes.skipBlank t) with
    | none => none
    | some u => (qualified? (Bytes.skipBlank u)).map (·.1)

/-- The table by the reading that the kind calls for. -/
def scan? (k : Kind) (s : Bytes) : Option Bytes :=
  if k = .createIndex then indexed? s else direct? s

end TableName
end DumpRouter
