import DumpRouter.Text.Utf8

/-!
# DumpRouter.Statement.Basic

A statement as it is cut out of a dump: its bytes, the semicolon included. What it does is its kind,
and there are three filters over the kinds.

* `Filter.accepts_iff`: what a filter lets pass.
* `Filter.accepts_apart`: the filters for structure and for rows part the statements of known kind.
-/

namespace DumpRouter

structure Statement where
  bytes : Bytes
  deriving DecidableEq, Repr

namespace Statement

def length (s : Statement) : Nat := s.bytes.length

def isEmpty (s : Statement) : Bool := s.bytes.isEmpty

/-- ASCII white space: the blanks between words and the form feed. -/
def isSpace (b : UInt8) : Bool := Bytes.isBlank b || b == 12

/-- Whether the last byte that is not white space is a semicolon. -/
def isTerminated (s : Statement) : Bool := (s.bytes.reverse.dropWhile isSpace).head? == some 59

/-- The statement as a text, ill-formed stretches replaced. -/
def text (s : Statement) : String := Text.decodeLossy s.bytes

end Statement

/-- The kinds of statement that are told apart. Everything else is `unknown`. -/
inductive Kind where
  | unknown
  | createTable
  | insert
  | createIndex
  | alterTable
  | dropTable
  deriving DecidableEq, Repr

namespace Kind

def text : Kind → String
  | .unknown => "UNKNOWN"
  | .createTable => "CREATE TABLE"
  | .insert => "INSERT"
  | .createIndex => "CREATE INDEX"
  | .alterTable => "ALTER TABLE"
  | .dropTable => "DROP TABLE"

/-- Holds of the statements that define structure. -/
def isSchema : Kind → Bool
  | .createTable | .createIndex | .alterTable | .dropTable => true
  | .unknown | .insert => false

/-- Holds of the statements that carry rows. -/
def isData : Kind → Bool
  | .insert => true
  | _ => false

end Kind

/-- What is wanted of a dump: all statements of known kind, those that define structure, or those
that carry rows. -/
inductive Filter where
  | all
  | schemaOnly
  | dataOnly
  deriving DecidableEq, Repr

namespace Filter

def accepts : Filter → Kind → Bool
  | .all, k => k != .unknown
  | .schemaOnly, k => k.isSchema
  | .dataOnly, k => k.isData

/-- The name of a filter in settings. -/
def name : Filter → String
  | .all => "all"
  | .schemaOnly => "schema-only"
  | .dataOnly => "data-only"

def ofName? (s : String) : Option Filter :=
  [.all, .schemaOnly, .dataOnly].find? fun f => f.name == s

theorem ofName?_name (f : Filter) : ofName? f.name = some f := by cases f <;> rfl

theorem accepts_iff (f : Filter) (k : Kind) :
    f.accepts k = true ↔
      k ≠ .unknown ∧ (f = .schemaOnly → k ≠ .insert) ∧ (f = .dataOnly → k = .insert) := by
  cases f <;> cases k <;> simp [accepts, Kind.isSchema, Kind.isData]

theorem accepts_apart (k : Kind) :
    (schemaOnly.accepts k ^^ dataOnly.accepts k) = all.accepts k := by
  cases k <;> rfl

end Filter
end DumpRouter
