/-!
# DumpRouter.Source.Throttle

Thinning out the reports of a meter. A throttle lets a report pass when the percentage of the whole
has entered a higher step than it ever had before.

All numbers are words of 64 bits, and so is the product that the percentage is computed from. Where
that product does not fit into a word there is no percentage: the call overflows, which brings down
whoever made it and leaves the throttle as it was.
-/

namespace DumpRouter

structure Throttle where
  total : UInt64
  /-- The width of a step in percent, from 1 to 100. -/
  step : UInt64
  /-- The highest step entered so far. -/
  reached : UInt64
  deriving DecidableEq, Repr

namespace Throttle

/-- What becomes of a report. -/
inductive Answer where
  | passed (bytes percent : UInt64)
  | held
  | overflow
  deriving DecidableEq, Repr

/-- What a report that has passed gives on. -/
def Answer.passed? : Answer → Option (UInt64 × UInt64)
  | .passed b p => some (b, p)
  | _ => none

/-- A throttle for a whole of `total` bytes; a step outside 1 to 100 is moved there. -/
def new (total step : UInt64) : Throttle :=
  ⟨total, if step < 1 then 1 else if 100 < step then 100 else step, 0⟩

/-- The product of two words, if it fits into a word. -/
def product? (a b : UInt64) : Option UInt64 :=
  if a.toNat * b.toNat < UInt64.size then some (a * b) else none

def percent? (total bytes : UInt64) : Option UInt64 :=
  (product? (min bytes total) 100).map fun n => min (n / total) 100

/-- Takes a report. -/
def feed (t : Throttle) (bytes : UInt64) : Answer × Throttle :=
  if t.total = 0 then (.held, t)
  else
    match percent? t.total bytes with
    | none => (.overflow, t)
    | some percent =>
      let bucket := percent / t.step
      if t.reached < bucket then (.passed bytes percent, { t with reached := bucket })
      else (.held, t)

/-- The answers to reports that come one after the other. -/
def answers (t : Throttle) : List UInt64 → List Answer
  | [] => []
  | b :: bs => (t.feed b).1 :: (t.feed b).2.answers bs

def passed (t : Throttle) (bs : List UInt64) : List (UInt64 × UInt64) :=
  (t.answers bs).filterMap Answer.passed?

end Throttle
end DumpRouter
