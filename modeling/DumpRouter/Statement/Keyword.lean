import DumpRouter.Statement.Basic
import DumpRouter.Bytes

/-!
# DumpRouter.Statement.Keyword

The keyword phrases that statements begin with, and the words that may follow them.

* `word?`, `standing?`, `phrase?`: one word, one word with a blank behind it, and words parted by
  blanks, each matched without case; they give what follows.
* `stripComments`: the text without the blanks and comment lines in front of the first word.
* `Phrase.recognise?`: the phrase that a text begins with, by a look at its first bytes and only
  where that fails word by word.
-/

namespace DumpRouter
namespace Keyword

/-- Matches `w` at the start of a text, whatever follows. -/
def word? (w s : Bytes) : Option Bytes :=
  if Bytes.sameLetters (s.take w.length) w then some (s.drop w.length) else none

/-- Matches `w` at the start of a text if a blank follows it. -/
def standing? (w s : Bytes) : Option Bytes :=
  match word? w s with
  | some (b :: t) => if Bytes.isBlank b then some (b :: t) else none
  | _ => none

/-- Matches words that are each led in by at least one blank. -/
def furtherWords? : List Bytes → Bytes → Option Bytes
  | [], s => some s
  | w :: ws, s =>
    match s with
    | [] => none
    | b :: _ =>
      if Bytes.isBlank b then
        match word? w (Bytes.skipBlank s) with
        | some t => furtherWords? ws t
        | none => none
      else none

/-- Matches words that are parted by blanks. -/
def phrase? : List Bytes → Bytes → Option Bytes
  | [], s => some s
  | w :: ws, s =>
    match word? w s with
    | some t => furtherWords? ws t
    | none => none

/-- Drops blanks and lines that start with two dashes; `inComment` says that the text starts
inside such a line. -/
def stripFrom (inComment : Bool) : Bytes → Bytes
  | [] => []
  | b :: s =>
    if inComment then stripFrom (b != 10) s
    else if Bytes.isBlank b then stripFrom false s
    else if b == 45 && s.head? == some 45 then stripFrom true s
    else b :: s

/-- The text from its first byte that is neither blank nor in a comment line. -/
def stripComments (s : Bytes) : Bytes := stripFrom false s

/-- A keyword phrase and the kind of the statements that begin with it. -/
structure Phrase where
  words : List Bytes
  kind : Kind

namespace Phrase

/-- The phrase with single spaces between its words. -/
def text (p : Phrase) : Bytes := [32].intercalate p.words

def create : Bytes := Bytes.ascii ['C', 'R', 'E', 'A', 'T', 'E']
def table : Bytes := Bytes.ascii ['T', 'A', 'B', 'L', 'E']
def index : Bytes := Bytes.ascii ['I', 'N', 'D', 'E', 'X']
def unique : Bytes := Bytes.ascii ['U', 'N', 'I', 'Q', 'U', 'E']
def insert : Bytes := Bytes.ascii ['I', 'N', 'S', 'E', 'R', 'T']
def into : Bytes := Bytes.ascii ['I', 'N', 'T', 'O']
def alter : Bytes := Bytes.ascii ['A', 'L', 'T', 'E', 'R']
def drop : Bytes := Bytes.ascii ['D', 'R', 'O', 'P']

def all : List Phrase := [
  ⟨[create, table], .createTable⟩,
  ⟨[insert, into], .insert⟩,
  ⟨[create, unique, index], .createIndex⟩,
  ⟨[create, index], .createIndex⟩,
  ⟨[alter, table], .alterTable⟩,
  ⟨[drop, table], .dropTable⟩]

/-- How many bytes the quick look takes in; no phrase is longer. -/
def lookLength : Nat := 20

def look (s : Bytes) : Bytes := (s.take lookLength).map Bytes.upper

/-- Finds the phrase that the first bytes spell with single spaces. -/
def quick? (s : Bytes) : Option (Kind × Bytes) :=
  (all.find? fun p => p.text.isPrefixOf (look s)).map fun p => (p.kind, s.drop p.text.length)

/-- Tries word by word the phrases whose first word the text begins with. -/
def slow? (s : Bytes) : Option (Kind × Bytes) :=
  (all.filter fun p => p.words.head?.any (·.isPrefixOf (look s))).findSome? fun p =>
    (phrase? p.words s).map (p.kind, ·)

def plain? (s : Bytes) : Option (Kind × Bytes) :=
  all.findSome? fun p => (phrase? p.words s).map (p.kind, ·)

/-- The kind that the phrase at the start of the text gives, and what follows the phrase. -/
def recognise? (s : Bytes) : Option (Kind × Bytes) :=
  match quick? s with
  | some r => some r
  | none => slow? s

theorem text_length_le (p : Phrase) (h : p ∈ all) : p.text.length ≤ lookLength := by
  revert p; decide

end Phrase

theorem word?_suffix {w s t : Bytes} (h : word? w s = some t) : t <:+ s := by
  unfold word? at h
  split at h
  · cases h; exact List.drop_suffix _ _
  · cases h

theorem standing?_suffix {w s t : Bytes} (h : standing? w s = some t) : t <:+ s := by
  unfold standing? at h
  split at h
  · next b u hw =>
    split at h
    · cases h; exact word?_suffix hw
    · cases h
  · cases h

end Keyword
end DumpRouter
