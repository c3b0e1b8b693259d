import Mathlib.Data.List.Induction
import Mathlib.Logic.Function.Iterate
import DumpRouter.Proofs.Reader.Calls

/-!
# DumpRouter.Proofs.Reader.Sharing

Readers that share a pool of buffers. Their calls may overlap: a call takes a buffer, goes through
the turns of its loop and gives the buffer back, and between any two of these steps the other
readers may take theirs, and anyone else may take buffers from the pool and give any back.

* `Sharer.go`: the next step of a reader.
* `Shared.run`: steps of everybody in any order.
* `Sharer.Follows`: a reader has seen what it would have seen with a pool of its own.
* `go_follows`: a step keeps that and leaves the pool clean.
* `exists_goes_readPooled`: a call whose steps nothing comes between is `readPooled`.
* `shared_unseen`: that the pool is shared does not show.
-/

namespace DumpRouter

namespace BufferPool

variable {p : BufferPool}

theorem maxPooled_checkout (p : BufferPool) : p.checkout.2.maxPooled = p.maxPooled := by
  unfold checkout
  split <;> rfl

theorem maxPooled_checkin (p : BufferPool) (b : Bytes) :
    (p.checkin b).maxPooled = p.maxPooled := by
  unfold checkin
  split <;> rfl

theorem available_checkout (p : BufferPool) : p.checkout.2.available = p.available - 1 := by
  unfold checkout available
  split
  · next h => simp [h]
  · next h => simp [h]

theorem available_checkin (p : BufferPool) (b : Bytes) :
    (p.checkin b).available =
      if p.available < p.maxPooled then p.available + 1 else p.available := by
  unfold checkin available
  split <;> rfl

theorem Clean.free_eq (h : p.Clean) : p.free = List.replicate p.available [] :=
  List.eq_replicate_iff.2 ⟨rfl, h.empty⟩

end BufferPool

namespace Reader

variable {d : Disk} {p : BufferPool}

/-- One buffer is taken and one given back, so only a pool that was empty and may keep a buffer has
one more. -/
theorem available_readPooled (hp : p.Clean) (d : Disk) (r : Reader) :
    (r.readPooled d p).2.2.available = max p.available (min 1 p.maxPooled) := by
  have hfits : p.available ≤ p.maxPooled := hp.fits
  have h : (r.readPooled d p).2.2.available = (p.checkout.2.checkin p.checkout.1).available := rfl
  rw [h, BufferPool.available_checkin, BufferPool.available_checkout, BufferPool.maxPooled_checkout]
  split <;> omega

/-- The reader behind `n` calls. -/
def reads (d : Disk) (r : Reader) (n : Nat) : Reader := (fun q => (q.read d).2)^[n] r

/-- What is seen of the first `n` calls. -/
def results (d : Disk) (r : Reader) (n : Nat) : List Call :=
  (List.range n).map fun k => seen ((reads d r k).read d).1 ((reads d r k).read d).2

theorem reads_succ (d : Disk) (r : Reader) (n : Nat) :
    reads d r (n + 1) = ((reads d r n).read d).2 :=
  Function.iterate_succ_apply' _ n r

theorem results_succ (d : Disk) (r : Reader) (n : Nat) :
    results d r (n + 1) =
      results d r n ++ [seen ((reads d r n).read d).1 ((reads d r n).read d).2] := by
  rw [results, List.range_succ, List.map_append]
  rfl

theorem results_succ' (d : Disk) (r : Reader) (n : Nat) :
    results d r (n + 1) = seen (r.read d).1 (r.read d).2 :: results d (r.read d).2 n := by
  rw [results, List.range_succ_eq_map, List.map_cons, List.map_map]
  rfl

theorem calls_eq_results (hp : p.Clean) (d : Disk) (r : Reader) (n : Nat) :
    calls d p r n = results d r n := by
  induction n generalizing r p with
  | zero => rfl
  | succ n ih =>
    obtain ⟨p', hp', hcalls⟩ := calls_succ hp d r n
    rw [hcalls, results_succ', ih hp']

namespace Reading

/-- What a call in progress comes to. -/
def result (d : Disk) (x : Reading) : Outcome × Reader := fill d x.state x.taken x.reader

/-- What the buffer holds at the end of the call. -/
def left (x : Reading) : Outcome → Bytes
  | .statement s => s.bytes
  | _ => x.taken.reverse

/-- A turn does not change what the call comes to. -/
theorem result_turn (d : Disk) (x : Reading) :
    x.result d =
      match x.turn d with
      | .inl y => y.result d
      | .inr o => o := by
  obtain ⟨st, acc, r⟩ := x
  unfold result
  fun_cases fill d st acc r with
  | case1 hc i hr => simp only [turn, hc, hr]
  | case2 hc f i hr => simp only [turn, hc, hr]
  | case3 hc i hr => simp only [turn, hc, hr]
  | case4 hc b s i hr => simp only [turn, hc, hr]
  | case5 b s hc st' n hs => simp only [turn, hc, hs]
  | case6 b s hc st' hs => simp only [turn, hc, hs]

end Reading

/-- Where a reader stands. -/
inductive Stage where
  /-- Between two calls. -/
  | idle (r : Reader)
  /-- In a call that has taken a buffer, which holds the bytes of the statement so far. -/
  | reading (x : Reading)
  /-- In a call that knows its outcome and is yet to give its buffer back. -/
  | ended (o : Outcome) (buffer : Bytes) (r : Reader)

/-- The buffers that the reader holds. -/
def Stage.buffers : Stage → Nat
  | .idle _ => 0
  | _ => 1

/-- A reader in use, what its calls have given, and how often it has taken a buffer from the pool
and given one back. -/
structure Sharer where
  stage : Stage
  seen : List Call
  taken : Nat
  given : Nat

namespace Sharer

def new (r : Reader) : Sharer := ⟨.idle r, [], 0, 0⟩

/-- The next step of a reader: it takes a buffer, takes a turn, or gives the buffer back. -/
def go (d : Disk) (p : BufferPool) (m : Sharer) : BufferPool × Sharer :=
  match m.stage with
  | .idle r =>
    (p.checkout.2,
      { m with stage := .reading ⟨.code, p.checkout.1.reverse, r⟩, taken := m.taken + 1 })
  | .reading x =>
    match x.turn d with
    | .inl y => (p, { m with stage := .reading y })
    | .inr (o, r) => (p, { m with stage := .ended o (x.left o) r })
  | .ended o buffer r =>
    match count (o, r) with
    | (o, r) =>
      (p.checkin buffer,
        { m with stage := .idle r, seen := m.seen ++ [Reader.seen o r], given := m.given + 1 })

/-- The reader, which was `r` when it came into use, has given what it would have given with a pool
of its own, and has all buffers given back but that of a call in progress. -/
structure Follows (d : Disk) (r : Reader) (m : Sharer) : Prop where
  seen : m.seen = results d r m.given
  taken : m.taken = m.given + m.stage.buffers
  /-- The call in progress comes to what the call after those it has seen comes to. -/
  stage :
    match m.stage with
    | .idle q => q = reads d r m.given
    | .reading x => x.result d = fill d .code [] (reads d r m.given)
    | .ended o _ q => (o, q) = fill d .code [] (reads d r m.given)

variable {r : Reader} {m : Sharer}

theorem follows_new (d : Disk) (r : Reader) : (new r).Follows d r := ⟨rfl, rfl, rfl⟩

theorem maxPooled_go (d : Disk) (p : BufferPool) (m : Sharer) :
    (m.go d p).1.maxPooled = p.maxPooled := by
  unfold go
  split
  · exact BufferPool.maxPooled_checkout p
  · split <;> rfl
  · next buffer _ _ => exact BufferPool.maxPooled_checkin p buffer

/-- That the buffer is empty when it is taken is all that the pool has to provide. -/
theorem go_follows (hp : p.Clean) (h : m.Follows d r) :
    (m.go d p).1.Clean ∧ (m.go d p).2.Follows d r := by
  obtain ⟨hempty, hrest⟩ := BufferPool.clean_checkout hp
  obtain ⟨stage, seen, taken, given⟩ := m
  obtain ⟨hseen, htaken, hstage⟩ := h
  cases stage with
  | idle q =>
    refine ⟨hrest, hseen, congrArg (· + 1) htaken, ?_⟩
    obtain rfl : q = reads d r given := hstage
    simp only [go, hempty]
    rfl
  | reading x =>
    have hresult : x.result d = fill d .code [] (reads d r given) := hstage
    rw [Reading.result_turn] at hresult
    unfold go
    dsimp only
    split
    · next y hy =>
      rw [hy] at hresult
      exact ⟨hp, hseen, htaken, hresult⟩
    · next o q hy =>
      rw [hy] at hresult
      exact ⟨hp, hseen, htaken, hresult⟩
  | ended o buffer q =>
    have hread : count (o, q) = (reads d r given).read d := congrArg count hstage
    refine ⟨BufferPool.clean_checkin hp buffer, ?_, htaken, ?_⟩
    · simp only [go, hread, results_succ]
      exact congrArg (· ++ _) hseen
    · simp only [go, hread, reads_succ]

/-- So many steps of a reader with nothing in between. -/
def goes (d : Disk) (p : BufferPool) (m : Sharer) : Nat → BufferPool × Sharer
  | 0 => (p, m)
  | k + 1 => goes d (m.go d p).1 (m.go d p).2 k

/-- Turns that end a call are steps that give its buffer back. -/
theorem exists_goes_within {k : Nat} {x : Reading} {o : Outcome × Reader}
    (h : Reading.within d k x = some o) (p : BufferPool) (cs : List Call) (t g : Nat) :
    ∃ j, goes d p ⟨.reading x, cs, t, g⟩ j =
      (p.checkin [], ⟨.idle (count o).2,
        cs ++ [Reader.seen (count o).1 (count o).2], t, g + 1⟩) := by
  induction k generalizing x with
  | zero => cases h
  | succ k ih =>
    unfold Reading.within at h
    split at h
    · next y hy =>
      obtain ⟨j, hj⟩ := ih h
      refine ⟨j + 1, ?_⟩
      simpa only [goes, go, hy] using hj
    · next o' ho =>
      cases h
      refine ⟨2, ?_⟩
      simp only [goes, go, ho]
      rfl

/-- A call in progress comes to its end. -/
theorem exists_goes_reading (d : Disk) (x : Reading) (p : BufferPool) (cs : List Call)
    (t g : Nat) :
    ∃ j, goes d p ⟨.reading x, cs, t, g⟩ j =
      (p.checkin [], ⟨.idle (count (x.result d)).2,
        cs ++ [Reader.seen (count (x.result d)).1 (count (x.result d)).2], t, g + 1⟩) :=
  exists_goes_within (Reading.within_fill d x.state x.taken x.reader (Nat.lt_succ_self _)) p cs t g

/-- A call whose steps nothing comes between. -/
theorem exists_goes_readPooled (d : Disk) (q : Reader) (p : BufferPool) (cs : List Call)
    (t g : Nat) :
    ∃ j, goes d p ⟨.idle q, cs, t, g⟩ j =
      ((q.readPooled d p).2.2, ⟨.idle (q.readPooled d p).2.1,
        cs ++ [Reader.seen (q.readPooled d p).1 (q.readPooled d p).2.1], t + 1, g + 1⟩) := by
  obtain ⟨j, hj⟩ := exists_goes_reading d ⟨.code, p.checkout.1.reverse, q⟩ p.checkout.2 cs (t + 1) g
  exact ⟨j + 1, hj⟩

/-- Wherever a reader stands, its next call to end ends. -/
theorem exists_goes_given (d : Disk) (p : BufferPool) (m : Sharer) :
    ∃ j, (goes d p m j).2.given = m.given + 1 := by
  obtain ⟨stage, cs, t, g⟩ := m
  cases stage with
  | idle q =>
    obtain ⟨j, hj⟩ := exists_goes_readPooled d q p cs t g
    exact ⟨j, by rw [hj]⟩
  | reading x =>
    obtain ⟨j, hj⟩ := exists_goes_reading d x p cs t g
    exact ⟨j, by rw [hj]⟩
  | ended o buffer q => exact ⟨1, rfl⟩

end Sharer

/-- A pool and the readers that share it. -/
structure Shared (ι : Type) where
  pool : BufferPool
  sharers : ι → Sharer

/-- What may happen next. -/
inductive Move (ι : Type) where
  /-- One of the readers takes its next step. -/
  | go (i : ι)
  /-- Somebody else takes a buffer from the pool. -/
  | take
  /-- Somebody else gives a buffer to the pool, whatever it holds. -/
  | give (buffer : Bytes)

namespace Shared

variable {ι : Type} {d : Disk} {n : Nat} {rs : ι → Reader} {s : Shared ι}

/-- Readers that come into use with a new pool. -/
def start (maxPooled : Nat) (rs : ι → Reader) : Shared ι := ⟨.new maxPooled, fun i => .new (rs i)⟩

def perform [DecidableEq ι] (d : Disk) (s : Shared ι) : Move ι → Shared ι
  | .go i => ⟨((s.sharers i).go d s.pool).1,
      Function.update s.sharers i ((s.sharers i).go d s.pool).2⟩
  | .take => { s with pool := s.pool.checkout.2 }
  | .give buffer => { s with pool := s.pool.checkin buffer }

def run [DecidableEq ι] (d : Disk) (s : Shared ι) (moves : List (Move ι)) : Shared ι :=
  moves.foldl (perform d) s

/-- The pool is clean, and each reader is where it would be with a pool of its own. -/
structure Sound (d : Disk) (maxPooled : Nat) (rs : ι → Reader) (s : Shared ι) : Prop where
  clean : s.pool.Clean
  maxPooled : s.pool.maxPooled = maxPooled
  follows : ∀ i, (s.sharers i).Follows d (rs i)

theorem sound_start (d : Disk) (n : Nat) (rs : ι → Reader) : (start n rs).Sound d n rs :=
  ⟨BufferPool.clean_new n, rfl, fun i => Sharer.follows_new d (rs i)⟩

variable [DecidableEq ι]

theorem Sound.perform (h : s.Sound d n rs) (move : Move ι) : (s.perform d move).Sound d n rs := by
  cases move with
  | go i =>
    obtain ⟨hclean, hfollows⟩ := Sharer.go_follows h.clean (h.follows i)
    refine ⟨hclean, (Sharer.maxPooled_go d s.pool _).trans h.maxPooled, fun j => ?_⟩
    by_cases hj : j = i
    · subst hj
      simpa only [Shared.perform, Function.update_self] using hfollows
    · simpa only [Shared.perform, Function.update_of_ne hj] using h.follows j
  | take =>
    exact ⟨(BufferPool.clean_checkout h.clean).2,
      (BufferPool.maxPooled_checkout s.pool).trans h.maxPooled, h.follows⟩
  | give buffer =>
    exact ⟨BufferPool.clean_checkin h.clean buffer,
      (BufferPool.maxPooled_checkin s.pool buffer).trans h.maxPooled, h.follows⟩

theorem Sound.run (h : s.Sound d n rs) (moves : List (Move ι)) :
    (s.run d moves).Sound d n rs := by
  induction moves generalizing s with
  | nil => exact h
  | cons move moves ih => exact ih (h.perform move)

theorem run_replicate (d : Disk) (s : Shared ι) (i : ι) (k : Nat) :
    ((s.run d (List.replicate k (.go i))).sharers i) = ((s.sharers i).goes d s.pool k).2 := by
  induction k generalizing s with
  | zero => rfl
  | succ k ih =>
    have hrest := ih (s.perform d (.go i))
    simp only [perform, Function.update_self] at hrest
    exact hrest

end Shared

/-- Readers that share a pool, and others who take buffers from it and give any back: whatever the
order of their steps, the buffers in the pool are empty and no more than it may keep, each call
takes one buffer and gives one back and comes to its end, and each reader has given what it gives
with a pool of its own. -/
theorem shared_unseen {ι : Type} [DecidableEq ι] (d : Disk) (n : Nat) (rs : ι → Reader)
    (moves : List (Move ι)) :
    let s := (Shared.start n rs).run d moves
    s.pool.free = List.replicate s.pool.available [] ∧ s.pool.available ≤ n ∧
      (∀ q : Reader,
        (q.readPooled d s.pool).2.2.available = max s.pool.available (min 1 n)) ∧
      ∀ i, (s.sharers i).given = (s.sharers i).seen.length ∧
        (s.sharers i).taken = (s.sharers i).given + (s.sharers i).stage.buffers ∧
        (∃ k, ((s.run d (List.replicate k (.go i))).sharers i).given = (s.sharers i).given + 1) ∧
        ∀ k, (s.sharers i).seen = calls d (.new k) (rs i) (s.sharers i).seen.length := by
  intro s
  obtain ⟨hclean, hmax, hfollows⟩ := (Shared.sound_start d n rs).run moves
  refine ⟨hclean.free_eq, hmax ▸ hclean.fits, fun q => ?_, fun i => ?_⟩
  · rw [available_readPooled hclean, hmax]
  · have hseen := (hfollows i).seen
    have hgiven : (s.sharers i).given = (s.sharers i).seen.length := by
      rw [hseen, results, List.length_map, List.length_range]
    obtain ⟨k, hk⟩ := Sharer.exists_goes_given d s.pool (s.sharers i)
    refine ⟨hgiven, (hfollows i).taken, ⟨k, ?_⟩, fun k => ?_⟩
    · rw [Shared.run_replicate, hk]
    · rw [calls_eq_results (BufferPool.clean_new k), ← hgiven]
      exact hseen

/-- The second reader gets the buffer of the first, whose call has failed behind half a
statement. -/
example :
    let source : Bool → Script := fun second =>
      if second then [.data (Bytes.ascii ['b', ';'])]
      else [.data (Bytes.ascii ['a']), .fault "gone"]
    let s := (Shared.start 1 fun i => .new (.new (.script (source i)) false) 4).run .blank
      [.go false, .go false, .go false, .go false, .go false,
        .go true, .go true, .go true, .go true]
    (s.sharers false).seen = [⟨.failed (.text "gone"), 0, 1⟩] ∧
      (s.sharers true).seen = [⟨.statement ⟨Bytes.ascii ['b', ';']⟩, 1, 2⟩] := by decide

end Reader
end DumpRouter
