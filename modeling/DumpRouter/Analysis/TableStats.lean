import DumpRouter.Statement.Basic

/-!
# DumpRouter.Analysis.TableStats

Counting the statements of a table. Counters are words of 64 bits, since exporters take tables with
any counters; those of a dump count statements and their bytes, of which none has 2^64.

`sorted` puts the tables with the most inserts first, and tables with equally many in the order of
their names.
-/

namespace DumpRouter

structure TableStats where
  name : String
  inserts : UInt64
  creates : UInt64
  statements : UInt64
  bytes : UInt64
  deriving DecidableEq, Repr

namespace TableStats

def zero (name : String) : TableStats := ⟨name, 0, 0, 0, 0⟩

def record (t : TableStats) (kind : Kind) (n : UInt64) : TableStats where
  name := t.name
  inserts := if kind = .insert then t.inserts + 1 else t.inserts
  creates := if kind = .createTable then t.creates + 1 else t.creates
  statements := t.statements + 1
  bytes := t.bytes + n

/-- Counts a statement for its table in a list of tables. -/
def recordIn (name : String) (kind : Kind) (n : UInt64) : List TableStats → List TableStats
  | [] => [(zero name).record kind n]
  | t :: ts => if t.name = name then t.record kind n :: ts else t :: recordIn name kind n ts

/-- Whether a table may stand in front of another. -/
def inOrder (a b : TableStats) : Bool :=
  if a.inserts = b.inserts then !decide (b.name < a.name) else decide (b.inserts < a.inserts)

def sorted (ts : List TableStats) : List TableStats := ts.mergeSort inOrder

theorem name_record (t : TableStats) (kind : Kind) (n : UInt64) :
    (t.record kind n).name = t.name := rfl

end TableStats
end DumpRouter
