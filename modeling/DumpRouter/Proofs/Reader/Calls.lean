import DumpRouter.Proofs.Reader.Cut

/-!
# DumpRouter.Proofs.Reader.Calls

Runs of calls on one reader, and what its caller sees of them: what each call gives and how the two
counters stand behind it.

* `Reader.calls`: `n` calls, with buffers from a pool.
* `calls_cuts`: they are the calls that `Reader.cut` makes of the events ahead.
* `Reader.callsWithin`: the same calls with a limit on the turns that the loop of a call may take.
* `callsWithin_calls`: twice what the source holds, and two more, is enough for each call.
* `calls_eq_of_events_eq`: portions, interruptions and the size of the portions asked for do not
  show.
-/

namespace DumpRouter
namespace Reader

/-- What is seen of one call. -/
structure Call where
  outcome : Outcome
  statementsRead : Nat
  bytesConsumed : Nat
  deriving DecidableEq, Repr

/-- What is seen of a call with this outcome that leaves the reader `r`. -/
def seen (x : Outcome) (r : Reader) : Call := ⟨x, r.statementsRead, r.bytesConsumed⟩

/-- Calls one after the other, with buffers from a pool. -/
def calls (d : Disk) (p : BufferPool) (r : Reader) : Nat → List Call
  | 0 => []
  | n + 1 =>
    match r.readPooled d p with
    | (x, r', p') => seen x r' :: calls d p' r' n

/-- Cuts one after the other. -/
def cuts (es : List Script.Event) : Nat → List Cut
  | 0 => []
  | n + 1 => cut .code [] es :: cuts (cut .code [] es).rest n

/-- The calls that cuts stand for, if `k` statements and `m` bytes have been counted before. -/
def tally (k m : Nat) : List Cut → List Call
  | [] => []
  | c :: cs =>
    ⟨c.outcome, k + c.outcome.given, m + c.used.length⟩ ::
      tally (k + c.outcome.given) (m + c.used.length) cs

theorem calls_succ {p : BufferPool} (hp : p.Clean) (d : Disk) (r : Reader) (n : Nat) :
    ∃ p', p'.Clean ∧
      calls d p r (n + 1) = seen (r.read d).1 (r.read d).2 :: calls d p' (r.read d).2 n := by
  have he := readPooled_eq hp d r
  have hc := clean_readPooled hp d r
  rw [← he]
  exact ⟨_, hc, rfl⟩

theorem calls_cuts {r : Reader} {es : List Script.Event} (h : r.Ahead es) {p : BufferPool}
    (hp : p.Clean) (d : Disk) (n : Nat) :
    calls d p r n = tally r.statementsRead r.bytesConsumed (cuts es n) := by
  induction n generalizing r es p with
  | zero => rfl
  | succ n ih =>
    obtain ⟨p', hp', hcalls⟩ := calls_succ hp d r n
    obtain ⟨ho, ha, hb, hs⟩ := read_cut h d
    rw [hcalls, ih ha hp', hb, hs]
    simp only [seen, ho, hb, hs, cuts, tally]

/-- A call in progress. -/
structure Reading where
  state : Scanner.State
  /-- The bytes of the statement so far, in reverse. -/
  taken : Bytes
  reader : Reader

namespace Reading

/-- One turn of the loop of a call: a read if the portion is used up, and a scan of it if not. -/
def turn (d : Disk) (x : Reading) : Reading ⊕ (Outcome × Reader) :=
  match x.reader.chunk with
  | [] =>
    match x.reader.input.read d x.reader.capacity with
    | (.interrupted, i) => .inl { x with reader := { x.reader with input := i } }
    | (.failed f, i) => .inr (.failed f, { x.reader with input := i })
    | (.bytes [], i) => .inr (atEnd x.taken.reverse, { x.reader with input := i })
    | (.bytes (b :: s), i) => .inl { x with reader := { x.reader with input := i, chunk := b :: s } }
  | b :: s =>
    match x.state.scan (b :: s) with
    | (_, some n) =>
      .inr (.statement ⟨x.taken.reverse ++ (b :: s).take n⟩,
        { x.reader with
          chunk := (b :: s).drop n, bytesConsumed := x.reader.bytesConsumed + n })
    | (st, none) =>
      .inl ⟨st, (b :: s).reverse ++ x.taken,
        { x.reader with
          chunk := [], bytesConsumed := x.reader.bytesConsumed + (b :: s).length }⟩

/-- Takes turns up to the end of the call, but not more than so many. -/
def within (d : Disk) : Nat → Reading → Option (Outcome × Reader)
  | 0, _ => none
  | k + 1, x =>
    match x.turn d with
    | .inl y => within d k y
    | .inr o => some o

theorem within_fill (d : Disk) (st : Scanner.State) (acc : Bytes) (r : Reader) :
    ∀ {k : Nat}, 2 * r.remaining + (if r.chunk = [] then 1 else 0) < k →
      within d k ⟨st, acc, r⟩ = some (fill d st acc r) := by
  fun_induction fill d st acc r with
  | case1 st acc r hc i hr ih =>
    intro k hk
    obtain ⟨k, rfl⟩ := Nat.exists_eq_succ_of_ne_zero (Nat.ne_of_gt (Nat.zero_lt_of_lt hk))
    have := Input.remaining_read_interrupted hr
    simp only [remaining, hc, List.length_nil, if_true] at hk ih
    simp only [within, turn, hc, hr]
    exact ih (by omega)
  | case2 st acc r hc f i hr =>
    intro k hk
    obtain ⟨k, rfl⟩ := Nat.exists_eq_succ_of_ne_zero (Nat.ne_of_gt (Nat.zero_lt_of_lt hk))
    simp only [within, turn, hc, hr]
  | case3 st acc r hc i hr =>
    intro k hk
    obtain ⟨k, rfl⟩ := Nat.exists_eq_succ_of_ne_zero (Nat.ne_of_gt (Nat.zero_lt_of_lt hk))
    simp only [within, turn, hc, hr]
  | case4 st acc r hc b s i hr ih =>
    intro k hk
    obtain ⟨k, rfl⟩ := Nat.exists_eq_succ_of_ne_zero (Nat.ne_of_gt (Nat.zero_lt_of_lt hk))
    have := Input.remaining_read_bytes hr
    simp only [remaining, hc, List.length_nil, if_true, reduceCtorEq, if_false] at hk ih
    simp only [within, turn, hc, hr]
    exact ih (by omega)
  | case5 st acc r b s hc st' n hs =>
    intro k hk
    obtain ⟨k, rfl⟩ := Nat.exists_eq_succ_of_ne_zero (Nat.ne_of_gt (Nat.zero_lt_of_lt hk))
    simp only [within, turn, hc, hs]
  | case6 st acc r b s hc st' hs ih =>
    intro k hk
    obtain ⟨k, rfl⟩ := Nat.exists_eq_succ_of_ne_zero (Nat.ne_of_gt (Nat.zero_lt_of_lt hk))
    simp only [remaining, hc, List.length_nil, List.length_cons, if_true, reduceCtorEq, if_false]
      at hk ih
    simp only [within, turn, hc, hs]
    exact ih (by omega)

end Reading

/-- A call whose loop may take `k` turns. -/
def readWithin (d : Disk) (k : Nat) (r : Reader) : Option (Outcome × Reader) :=
  (Reading.within d k ⟨.code, [], r⟩).map count

/-- Calls one after the other, each with at most `k` turns of its loop. -/
def callsWithin (d : Disk) (k : Nat) (r : Reader) : Nat → Option (List Call)
  | 0 => some []
  | n + 1 =>
    match readWithin d k r with
    | none => none
    | some (x, r') => (callsWithin d k r' n).map (seen x r' :: ·)

theorem remaining_read_le (d : Disk) (r : Reader) : (r.read d).2.remaining ≤ r.remaining := by
  have h := (remaining_fill d .code [] r).1
  unfold read count
  split
  · next s r' hf => rw [hf] at h; exact h
  · exact h

theorem readWithin_read {d : Disk} {r : Reader} {m : Nat} (h : r.remaining ≤ m) :
    readWithin d (2 * m + 2) r = some (r.read d) := by
  have := Reading.within_fill d .code [] r (k := 2 * m + 2) (by split <;> omega)
  rw [readWithin, this]
  rfl

theorem callsWithin_calls {p : BufferPool} (hp : p.Clean) {r : Reader} {m : Nat}
    (h : r.remaining ≤ m) (d : Disk) (n : Nat) :
    callsWithin d (2 * m + 2) r n = some (calls d p r n) := by
  induction n generalizing r p with
  | zero => rfl
  | succ n ih =>
    obtain ⟨p', hp', hcalls⟩ := calls_succ hp d r n
    have hle := Nat.le_trans (remaining_read_le d r) h
    rw [callsWithin, readWithin_read h, hcalls]
    simp only [ih hp' hle, Option.map_some]

/-- Two scripts with the same events, read with any two portions and any two pools, give the same
results call by call, and each call comes to an end. -/
theorem calls_eq_of_events_eq {s s' : Script} (h : s.events = s'.events) (d d' : Disk)
    (metered metered' : Bool) (portion portion' pooled pooled' : Nat) (n : Nat) :
    calls d (.new pooled) (.new (.new (.script s) metered) portion) n =
        calls d' (.new pooled') (.new (.new (.script s') metered') portion') n ∧
      callsWithin d (2 * s.size + 2) (.new (.new (.script s) metered) portion) n =
        some (calls d (.new pooled) (.new (.new (.script s) metered) portion) n) := by
  constructor
  · rw [calls_cuts (ahead_new s metered portion) (BufferPool.clean_new pooled),
      calls_cuts (ahead_new s' metered' portion') (BufferPool.clean_new pooled'), h]
    rfl
  · exact callsWithin_calls (BufferPool.clean_new pooled) (Nat.le_refl s.size) d n

/-- A literal cut behind its escape, by an interruption and by the portions, before a failure. -/
theorem calls_eq_of_events_eq_escape :
    let s : Script := [.data (Bytes.ascii ['\'', '\\']), .interrupt,
      .data (Bytes.ascii ['\'', ';', '\'', ';', 'x']), .fault "gone"]
    let s' : Script := [.data (Bytes.ascii ['\'', '\\', '\'']),
      .data (Bytes.ascii [';', '\'', ';', 'x']), .fault "gone"]
    s.events = s'.events ∧
      calls .blank (.new 8) (.new (.new (.script s) false) 0) 2 =
        calls .blank (.new 0) (.new (.new (.script s') true) 3) 2 ∧
      callsWithin .blank (2 * s.size + 2) (.new (.new (.script s) false) 0) 2 =
        some (calls .blank (.new 8) (.new (.new (.script s) false) 0) 2) :=
  have h : Script.events [.data (Bytes.ascii ['\'', '\\']), .interrupt,
      .data (Bytes.ascii ['\'', ';', '\'', ';', 'x']), .fault "gone"] =
    Script.events [.data (Bytes.ascii ['\'', '\\', '\'']),
      .data (Bytes.ascii [';', '\'', ';', 'x']), .fault "gone"] := rfl
  ⟨h, calls_eq_of_events_eq h .blank .blank false true 0 3 8 0 2⟩

end Reader
end DumpRouter
