import DumpRouter.Text.Decimal

/-!
# DumpRouter.Export.Tally

How many tables an exporter has written and how many it has failed on, and when it began and ended.
Counters are words of 64 bits; they count tables one by one, so no sum of them comes near the end of
a word. Instants are milliseconds after a common beginning. The library keeps no clock of its own:
the tallies it opens and closes itself lie at instant zero.

`merge` adds the counters and keeps the widest span of time.
-/

namespace DumpRouter

structure Tally where
  exported : UInt64
  failed : UInt64
  start : Option Nat
  stop : Option Nat
  deriving DecidableEq, Repr

namespace Tally

def zero : Tally := ⟨0, 0, none, none⟩

def opened : Tally := ⟨0, 0, some 0, none⟩

def close (t : Tally) : Tally := { t with stop := some 0 }

def countExported (t : Tally) : Tally := { t with exported := t.exported + 1 }

def countFailed (t : Tally) : Tally := { t with failed := t.failed + 1 }

def isFinished (t : Tally) : Bool := t.stop.isSome

def total (t : Tally) : UInt64 := t.exported + t.failed

/-- The milliseconds from the beginning to the end; none if the end comes first. -/
def duration? (t : Tally) : Option Nat :=
  match t.start, t.stop with
  | some a, some b => some (b - a)
  | _, _ => none

def rate (t : Tally) : Float :=
  if 0 < t.total then t.exported.toFloat / t.total.toFloat * 100.0 else 0.0

/-- Milliseconds in seconds, the whole seconds and the rest converted on their own. -/
def seconds (ms : Nat) : Float :=
  Float.ofNat (ms / 1000) + Float.ofNat (ms % 1000 * 1000000) / 1000000000.0

/-- One of two instants where there is one, and `pick` of them where there are both. -/
def either (pick : Nat → Nat → Nat) : Option Nat → Option Nat → Option Nat
  | some a, some b => some (pick a b)
  | some a, none => some a
  | none, b => b

def merge (t u : Tally) : Tally where
  exported := t.exported + u.exported
  failed := t.failed + u.failed
  start := either min t.start u.start
  stop := either max t.stop u.stop

def text (t : Tally) : String :=
  "成功: " ++ Nat.repr t.exported.toNat ++ " 个表, 失败: " ++ Nat.repr t.failed.toNat ++ " 个表" ++
    (match t.duration? with
      | some ms => ", 耗时: " ++ Decimal.fixed 2 (seconds ms) ++ "s"
      | none => "") ++
    ", 成功率: " ++ Decimal.fixed 1 t.rate ++ "%"

theorem merge_zero (t : Tally) : t.merge zero = t := by
  obtain ⟨e, f, a, b⟩ := t
  cases a <;> cases b <;> simp [merge, zero, either]

end Tally
end DumpRouter
