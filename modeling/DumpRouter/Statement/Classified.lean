import DumpRouter.Statement.TableName
import DumpRouter.Statement.Fallback

/-!
# DumpRouter.Statement.Classified

The kind of a statement and the table it belongs to.

`classify` strips blanks and comment lines, recognises the keyword phrase, reads the table's name
by hand and, where that fails, by expression. A statement without a phrase or without a name is of
unknown kind and belongs to no table.
-/

namespace DumpRouter

/-- What is known of a statement. There is a table exactly when there is a kind. -/
structure Classified where
  target : Option (Kind × String)
  byteLength : Nat
  known_kind : ∀ t ∈ target, t.1 ≠ .unknown
  deriving DecidableEq

namespace Classified

def unknown (byteLength : Nat) : Classified := ⟨none, byteLength, by simp⟩

/-- A statement of some kind on a table; with the unknown kind the table is dropped. -/
def known (kind : Kind) (table : String) (byteLength : Nat) : Classified :=
  if h : kind = .unknown then unknown byteLength
  else ⟨some (kind, table), byteLength, by simpa using h⟩

def kind (c : Classified) : Kind :=
  match c.target with
  | some (k, _) => k
  | none => .unknown

def table? (c : Classified) : Option String := c.target.map (·.2)

def isUnknown (c : Classified) : Bool := c.kind == .unknown

theorem isUnknown_iff (c : Classified) : c.isUnknown = true ↔ c.table? = none := by
  obtain ⟨t, n, h⟩ := c
  cases t with
  | none => simp [isUnknown, kind, table?]
  | some p => simpa [isUnknown, kind, table?] using h p rfl

theorem kind_known (k : Kind) (t : String) (n : Nat) : (known k t n).kind = k := by
  unfold known
  split
  · next h => exact h.symm
  · rfl

theorem byteLength_known (k : Kind) (t : String) (n : Nat) : (known k t n).byteLength = n := by
  unfold known
  split <;> rfl

end Classified

/-- No shorter text has a phrase and a name. -/
def shortestClassified : Nat := 6

/-- The name of the table in a statement of kind `k`, of which `s` is the whole and `rest` is what
follows the keyword phrase. -/
def tableName? (k : Kind) (s rest : Bytes) : Option String :=
  match TableName.scan? k rest with
  | some name => some (Text.decodeLossy name)
  | none => Fallback.table? k s

/-- Classifies a text that is already stripped and trimmed, of a statement of `n` bytes. -/
def classifyStripped (n : Nat) (s : Bytes) : Classified :=
  if s.length < shortestClassified then .unknown n
  else match Keyword.Phrase.recognise? s with
    | none => .unknown n
    | some (kind, rest) =>
      match tableName? kind s rest with
      | none => .unknown n
      | some table => .known kind table n

def classify (s : Bytes) : Classified :=
  classifyStripped s.length (Bytes.trim (Keyword.stripComments s))

theorem byteLength_classify (s : Bytes) : (classify s).byteLength = s.length := by
  unfold classify classifyStripped
  split
  · rfl
  · split
    · rfl
    · split
      · rfl
      · exact Classified.byteLength_known _ _ _

end DumpRouter
