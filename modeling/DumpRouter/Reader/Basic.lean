import DumpRouter.Reader.BufferPool
import DumpRouter.Source.Input
import DumpRouter.Statement.Basic
import DumpRouter.Statement.Scanner

/-!
# DumpRouter.Reader.Basic

Cutting an input into statements. A reader takes portions of at most `capacity` bytes from its
input, a new one only when the last one is used up, and scans each portion once. What it counts are
bytes and statements of its input, in plain numbers: no input has 2^64 of them.

* `Reader.read`: the next statement. A statement that the input ends in the middle of is given too,
  unless it consists of blanks; one that a failure cuts off is lost.
* `Reader.next`: the same as an iteration, which ends with the first failure.
* `Reader.readPooled`: the same with a buffer from a pool; `readPooled_eq` says that the pool does
  not show.
* `remaining_read_lt`: each statement uses up some of the input, so reading comes to an end.
-/

namespace DumpRouter

/-- Portions that are read from inputs of ordinary and of huge size. -/
def smallPortion : Nat := 64 * 1024
def largePortion : Nat := 256 * 1024

def hugeInput : Nat := 1024 * 1024 * 1024

def portionFor (inputSize : Nat) : Nat :=
  if hugeInput < inputSize then largePortion else smallPortion

structure Reader where
  input : Input
  capacity : Nat
  /-- The bytes taken from the input and not yet used. -/
  chunk : Bytes
  statementsRead : Nat
  bytesConsumed : Nat
  /-- Whether an iteration has met a failure. -/
  failed : Bool
  deriving DecidableEq, Repr

namespace Reader

/-- A reader that takes portions of `portion` bytes, or of one byte if that is zero. -/
def new (input : Input) (portion : Nat) : Reader := ⟨input, max 1 portion, [], 0, 0, false⟩

inductive Outcome where
  | statement (s : Statement)
  | finished
  | failed (f : Fault)
  deriving DecidableEq, Repr

/-- The bytes and interruptions that may still come. -/
def remaining (r : Reader) : Nat := r.input.source.remaining + r.chunk.length

/-- What the bytes in front of the end of the input amount to. -/
def atEnd (s : Bytes) : Outcome := if (Bytes.trim s).isEmpty then .finished else .statement ⟨s⟩

/-- Reads on to the end of the statement of which the bytes `acc` have been read, in reverse. -/
def fill (d : Disk) (st : Scanner.State) (acc : Bytes) (r : Reader) : Outcome × Reader :=
  match _hc : r.chunk with
  | [] =>
    match _hr : r.input.read d r.capacity with
    | (.interrupted, i) => fill d st acc { r with input := i }
    | (.failed f, i) => (.failed f, { r with input := i })
    | (.bytes [], i) => (atEnd acc.reverse, { r with input := i })
    | (.bytes (b :: s), i) => fill d st acc { r with input := i, chunk := b :: s }
  | b :: s =>
    match st.scan (b :: s) with
    | (_, some n) =>
      (.statement ⟨acc.reverse ++ (b :: s).take n⟩,
        { r with chunk := (b :: s).drop n, bytesConsumed := r.bytesConsumed + n })
    | (st', none) =>
      fill d st' ((b :: s).reverse ++ acc)
        { r with chunk := [], bytesConsumed := r.bytesConsumed + (b :: s).length }
termination_by 2 * r.remaining + (if r.chunk = [] then 1 else 0)
decreasing_by
  · have := Input.remaining_read_interrupted _hr
    simp only [remaining, _hc, List.length_nil, if_true]
    omega
  · have := Input.remaining_read_bytes _hr
    simp only [remaining, _hc, List.length_nil, if_true, if_false]
    omega
  · simp only [remaining, _hc, List.length_nil, List.length_cons, if_true]
    omega

/-- Counts the statement, if there is one. -/
def count (x : Outcome × Reader) : Outcome × Reader :=
  match x with
  | (.statement s, r) => (.statement s, { r with statementsRead := r.statementsRead + 1 })
  | x => x

def read (d : Disk) (r : Reader) : Outcome × Reader := count (fill d .code [] r)

/-- Reads the next statement, if no failure has been met before. -/
def next (d : Disk) (r : Reader) : Outcome × Reader :=
  if r.failed then (.finished, r)
  else match r.read d with
    | (.failed f, r') => (.failed f, { r' with failed := true })
    | x => x

/-- Reads the next statement into a buffer from a pool, which gets the buffer back. -/
def readPooled (d : Disk) (p : BufferPool) (r : Reader) : Outcome × Reader × BufferPool :=
  let (buffer, p) := p.checkout
  let (x, r) := count (fill d .code buffer.reverse r)
  (x, r, p.checkin buffer)

/-- Reads the next statement with a buffer from a pool, if no failure has been met before. -/
def nextPooled (d : Disk) (p : BufferPool) (r : Reader) : Outcome × Reader × BufferPool :=
  if r.failed then (.finished, r, p)
  else match r.readPooled d p with
    | (.failed f, r', p') => (.failed f, { r' with failed := true }, p')
    | x => x

/-- The reports of the input's meter, the first one in front, and the reader without them. -/
def takeReports (r : Reader) : List Nat × Reader :=
  (r.input.reports.reverse, { r with input := { r.input with reports := [] } })

theorem remaining_takeReports (r : Reader) : r.takeReports.2.remaining = r.remaining := rfl

theorem readPooled_eq {p : BufferPool} (h : p.Clean) (d : Disk) (r : Reader) :
    ((r.readPooled d p).1, (r.readPooled d p).2.1) = r.read d := by
  have hb := (BufferPool.clean_checkout h).1
  simp only [readPooled, read, hb, List.reverse_nil]

theorem clean_readPooled {p : BufferPool} (h : p.Clean) (d : Disk) (r : Reader) :
    (r.readPooled d p).2.2.Clean :=
  BufferPool.clean_checkin (BufferPool.clean_checkout h).2 p.checkout.1

theorem remaining_fill (d : Disk) (st : Scanner.State) (acc : Bytes) (r : Reader) :
    (fill d st acc r).2.remaining ≤ r.remaining ∧
      (∀ s, acc = [] → (fill d st acc r).1 = .statement s →
        (fill d st acc r).2.remaining < r.remaining) := by
  fun_induction fill d st acc r with
  | case1 st acc r hc i hr ih =>
    have := Input.remaining_read_interrupted hr
    simp only [remaining] at ih ⊢
    exact ⟨by omega, fun s ha hs => by have := ih.2 s ha hs; omega⟩
  | case2 st acc r hc f i hr =>
    have hle := Input.remaining_read_le d r.capacity r.input
    rw [hr] at hle
    simp only [remaining] at hle ⊢
    exact ⟨by omega, by simp⟩
  | case3 st acc r hc i hr =>
    have := Input.remaining_read_bytes hr
    simp only [remaining]
    refine ⟨by simpa using this, fun s ha hs => ?_⟩
    subst ha
    simp [atEnd, Bytes.trim, Bytes.skipBlank, Bytes.trimEnd] at hs
  | case4 st acc r hc b s i hr ih =>
    have := Input.remaining_read_bytes hr
    simp only [remaining, hc, List.length_nil] at ih ⊢
    exact ⟨by omega, fun t ha ht => by have := ih.2 t ha ht; omega⟩
  | case5 st acc r b s hc st' n hs =>
    have := Scanner.State.scan_le hs
    have hlen : ((b :: s).drop n).length < r.chunk.length := by
      rw [hc, List.length_drop]
      omega
    simp only [remaining]
    exact ⟨by omega, fun _ _ _ => by omega⟩
  | case6 st acc r b s hc st' hs ih =>
    have hlen : r.chunk.length = s.length + 1 := by rw [hc]; rfl
    have := ih.1
    simp only [remaining, List.length_nil] at this ⊢
    exact ⟨by omega, fun _ _ _ => by omega⟩

theorem remaining_read_lt {d : Disk} {r r' : Reader} {s : Statement}
    (h : r.read d = (.statement s, r')) : r'.remaining < r.remaining := by
  have hf := (remaining_fill d .code [] r).2
  unfold read count at h
  split at h
  · next t u hx =>
    cases h
    rw [hx] at hf
    exact hf s rfl rfl
  · next hx => exact absurd h (hx _ _)

end Reader
end DumpRouter
