import DumpRouter.Disk.Fault
import DumpRouter.Bytes

/-!
# DumpRouter.Source.Script

A source of bytes as a list of steps. Each read uses one step: it delivers bytes, fails, is
interrupted or finds the end of the input, and what is left of a step waits for the next read.

`Script.events` forgets how the bytes are portioned out and where the source was interrupted.
-/

namespace DumpRouter

/-- What one read gives. No bytes mean the end of the input. -/
inductive Delivery where
  | bytes (b : Bytes)
  | interrupted
  | failed (f : Fault)
  deriving DecidableEq, Repr

inductive Step where
  | data (b : Bytes)
  | fault (message : String)
  | interrupt
  /-- An end of the input, behind which more may come. -/
  | finish
  deriving DecidableEq, Repr

abbrev Script := List Step

namespace Script

/-- Reads at most `n` bytes. Steps without bytes are passed over. -/
def read (n : Nat) : Script → Delivery × Script
  | [] => (.bytes [], [])
  | .data [] :: r => read n r
  | .data (b :: s) :: r => (.bytes ((b :: s).take n), .data ((b :: s).drop n) :: r)
  | .fault m :: r => (.failed (.text m), r)
  | .interrupt :: r => (.interrupted, r)
  | .finish :: r => (.bytes [], r)

/-- The bytes that have not been delivered. -/
def undelivered : Script → Nat
  | [] => 0
  | .data b :: r => b.length + undelivered r
  | _ :: r => undelivered r

/-- A bound on the reads that deliver something or are interrupted. -/
def size : Script → Nat
  | [] => 0
  | .data b :: r => b.length + 1 + size r
  | _ :: r => size r + 1

/-- What the reader of a source can tell apart. -/
inductive Event where
  | byte (b : UInt8)
  | fault (message : String)
  | finish
  deriving DecidableEq, Repr

/-- The source without its portions and interruptions. -/
def events : Script → List Event
  | [] => []
  | .data b :: r => b.map Event.byte ++ events r
  | .fault m :: r => .fault m :: events r
  | .interrupt :: r => events r
  | .finish :: r => .finish :: events r

theorem size_read_bytes {n : Nat} {s s' : Script} {b : Bytes} (h : s.read n = (.bytes b, s')) :
    size s' + b.length ≤ size s := by
  induction s with
  | nil => cases h; simp
  | cons x s ih =>
    cases x with
    | data d =>
      cases d with
      | nil => have := ih h; simp [size]; omega
      | cons c d =>
        cases h
        simp only [size, List.length_take, List.length_drop, List.length_cons]
        omega
    | fault m => cases h
    | interrupt => cases h
    | finish => cases h; simp [size]

theorem size_read_interrupted {n : Nat} {s s' : Script} (h : s.read n = (.interrupted, s')) :
    size s' < size s := by
  induction s with
  | nil => cases h
  | cons x s ih =>
    cases x with
    | data d =>
      cases d with
      | nil => have := ih h; simp [size]; omega
      | cons c d => cases h
    | fault m => cases h
    | interrupt => cases h; simp [size]
    | finish => cases h

theorem size_read_le (n : Nat) (s : Script) : size (s.read n).2 ≤ size s := by
  induction s with
  | nil => simp [read]
  | cons x s ih =>
    cases x with
    | data d =>
      cases d with
      | nil => simp only [read, size]; omega
      | cons c d =>
        simp only [read, size, List.length_drop, List.length_cons]
        omega
    | fault m => simp [read, size]
    | interrupt => simp [read, size]
    | finish => simp [read, size]

end Script
end DumpRouter
