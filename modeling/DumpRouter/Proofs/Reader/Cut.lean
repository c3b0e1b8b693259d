import DumpRouter.Reader.Basic

/-!
# DumpRouter.Proofs.Reader.Cut

One call of a reader, told event by event. `Reader.cut` looks at the events of a source one at a
time and knows nothing of portions, interruptions and buffers; `fill_cut` says that a reader does
the same with whatever portions it takes.

* `Script.events_read`: what one read takes off the events of a script.
* `Reader.Ahead r es`: the reader `r` has the events `es` ahead of it.
* `cut_bytes`: a whole portion is cut as its bytes are.
* `fill_cut`, `read_cut`: a call gives what `cut` gives, uses the same bytes, and leaves the same
  events ahead.
-/

namespace DumpRouter
namespace Script

/-- The events in front of an end of the source and those behind it. Behind the last event there
are ends without number. -/
inductive AtEnd : List Event → List Event → Prop where
  | exhausted : AtEnd [] []
  | finish (es : List Event) : AtEnd (.finish :: es) es

/-- What a read that gives `x` takes off the events `es`, if it leaves `es'`. -/
def Taken (x : Delivery) (es es' : List Event) : Prop :=
  match x with
  | .bytes [] => AtEnd es es'
  | .bytes b => es = b.map Event.byte ++ es'
  | .interrupted => es = es'
  | .failed f => ∃ m, f = .text m ∧ es = .fault m :: es'

theorem events_read {n : Nat} (hn : 0 < n) {s s' : Script} {x : Delivery}
    (h : s.read n = (x, s')) : Taken x s.events s'.events := by
  induction s with
  | nil => cases h; exact .exhausted
  | cons step s ih =>
    cases step with
    | data d =>
      cases d with
      | nil => exact ih h
      | cons c d =>
        cases h
        obtain ⟨k, rfl⟩ := Nat.exists_eq_succ_of_ne_zero (Nat.ne_of_gt hn)
        simp only [List.take_succ_cons, List.drop_succ_cons, Taken, events]
        rw [← List.append_assoc, ← List.map_append, List.cons_append, List.take_append_drop]
    | fault m => cases h; exact ⟨m, rfl, rfl⟩
    | interrupt => cases h; rfl
    | finish => cases h; exact .finish _

end Script

namespace Reader

/-- What one call makes of the events ahead of it. -/
structure Cut where
  outcome : Outcome
  /-- The bytes that it uses, whether it gives them or not. -/
  used : Bytes
  /-- The events that it leaves. -/
  rest : List Script.Event
  deriving DecidableEq

/-- Takes events up to the end of the statement of which the bytes `acc` have been read. -/
def cut (st : Scanner.State) (acc : Bytes) : List Script.Event → Cut
  | [] => ⟨atEnd acc, acc, []⟩
  | .finish :: es => ⟨atEnd acc, acc, es⟩
  | .fault m :: es => ⟨.failed (.text m), acc, es⟩
  | .byte b :: es =>
    match st.advance b with
    | (_, true) => ⟨.statement ⟨acc ++ [b]⟩, acc ++ [b], es⟩
    | (st', false) => cut st' (acc ++ [b]) es

theorem cut_atEnd (st : Scanner.State) (acc : Bytes) {es es' : List Script.Event}
    (h : Script.AtEnd es es') : cut st acc es = ⟨atEnd acc, acc, es'⟩ := by
  cases h <;> rfl

theorem cut_bytes_none {st st' : Scanner.State} {t : Bytes} (h : st.scan t = (st', none))
    (acc : Bytes) (es : List Script.Event) :
    cut st acc (t.map .byte ++ es) = cut st' (acc ++ t) es := by
  induction t generalizing st acc with
  | nil => cases h; simp
  | cons b t ih =>
    rw [Scanner.State.scan_cons] at h
    by_cases hb : (st.advance b).2 = true
    · simp [hb] at h
    · simp only [hb, Bool.false_eq_true, if_false, Prod.mk.injEq, Option.map_eq_none_iff] at h
      have hadv : st.advance b = ((st.advance b).1, false) := Prod.ext rfl (by simpa using hb)
      have := ih (Prod.ext h.1 h.2) (acc ++ [b])
      simp only [List.map_cons, List.cons_append, cut]
      rw [hadv]
      simpa using this

theorem cut_bytes_some {st st' : Scanner.State} {t : Bytes} {n : Nat}
    (h : st.scan t = (st', some n)) (acc : Bytes) (es : List Script.Event) :
    cut st acc (t.map .byte ++ es) =
      ⟨.statement ⟨acc ++ t.take n⟩, acc ++ t.take n, (t.drop n).map .byte ++ es⟩ := by
  induction t generalizing st n acc with
  | nil => simp [Scanner.State.scan, Scanner.State.scanFrom] at h
  | cons b t ih =>
    rw [Scanner.State.scan_cons] at h
    simp only [List.map_cons, List.cons_append, cut]
    by_cases hb : (st.advance b).2 = true
    · have hadv : st.advance b = ((st.advance b).1, true) := Prod.ext rfl hb
      simp only [hb, if_true, Prod.mk.injEq, Option.some.injEq] at h
      rw [hadv, ← h.2]
      rfl
    · simp only [hb, Bool.false_eq_true, if_false, Prod.mk.injEq, Option.map_eq_some_iff] at h
      obtain ⟨hs, m, hm, rfl⟩ := h
      have hadv : st.advance b = ((st.advance b).1, false) := Prod.ext rfl (by simpa using hb)
      have := ih (Prod.ext hs hm) (acc ++ [b])
      rw [hadv, Nat.add_comm 1 m]
      simpa using this

/-- The reader has the events `es` of a script ahead of it, and room for a byte at least. -/
structure Ahead (r : Reader) (es : List Script.Event) : Prop where
  capacity_pos : 0 < r.capacity
  events : ∃ s, r.input.source = .script s ∧ es = r.chunk.map .byte ++ Script.events s

theorem ahead_new (s : Script) (metered : Bool) (portion : Nat) :
    (Reader.new (.new (.script s) metered) portion).Ahead s.events :=
  ⟨Nat.lt_of_lt_of_le Nat.one_pos (Nat.le_max_left 1 portion), s, rfl, rfl⟩

theorem ahead_takeReports {r : Reader} {es : List Script.Event} (h : r.Ahead es) :
    r.takeReports.2.Ahead es :=
  ⟨h.capacity_pos, h.events⟩

theorem Ahead.read {r : Reader} {es : List Script.Event} (h : r.Ahead es) (hc : r.chunk = [])
    {d : Disk} {x : Delivery} {i : Input} (hr : r.input.read d r.capacity = (x, i)) :
    ∃ s, i.source = .script s ∧ Script.Taken x es s.events := by
  obtain ⟨s, hs, rfl⟩ := h.events
  rw [hc, List.map_nil, List.nil_append]
  cases hx : s.read r.capacity with
  | mk y s' =>
    have ht := Script.events_read h.capacity_pos hx
    simp only [Input.read, hs, Source.read, hx] at hr
    cases y with
    | bytes b => cases hr; exact ⟨s', rfl, ht⟩
    | interrupted => cases hr; exact ⟨s', rfl, ht⟩
    | failed f => cases hr; exact ⟨s', rfl, ht⟩

theorem fill_cut (d : Disk) (st : Scanner.State) (acc : Bytes) (r : Reader) :
    ∀ {es : List Script.Event}, r.Ahead es →
      (fill d st acc r).1 = (cut st acc.reverse es).outcome ∧
        (fill d st acc r).2.Ahead (cut st acc.reverse es).rest ∧
        (fill d st acc r).2.bytesConsumed + acc.length =
          r.bytesConsumed + (cut st acc.reverse es).used.length ∧
        (fill d st acc r).2.statementsRead = r.statementsRead := by
  fun_induction fill d st acc r with
  | case1 st acc r hc i hr ih =>
    intro es h
    obtain ⟨s, hs, rfl⟩ := h.read hc hr
    exact ih ⟨h.capacity_pos, s, hs, by simp [hc]⟩
  | case2 st acc r hc f i hr =>
    intro es h
    obtain ⟨s, hs, m, rfl, rfl⟩ := h.read hc hr
    exact ⟨rfl, ⟨h.capacity_pos, s, hs, by simp [hc, cut]⟩, by simp [cut], rfl⟩
  | case3 st acc r hc i hr =>
    intro es h
    obtain ⟨s, hs, hend⟩ := h.read hc hr
    rw [cut_atEnd st _ hend]
    exact ⟨rfl, ⟨h.capacity_pos, s, hs, by simp [hc]⟩, by simp, rfl⟩
  | case4 st acc r hc b t i hr ih =>
    intro es h
    obtain ⟨s, hs, rfl⟩ := h.read hc hr
    exact ih ⟨h.capacity_pos, s, hs, rfl⟩
  | case5 st acc r b t hc st' n hscan =>
    intro es h
    obtain ⟨s, hs, rfl⟩ := h.events
    rw [hc, cut_bytes_some hscan]
    have hn := (Scanner.State.scan_le hscan).2
    refine ⟨rfl, ⟨h.capacity_pos, s, hs, rfl⟩, ?_, rfl⟩
    simp only [List.length_append, List.length_reverse, List.length_take]
    omega
  | case6 st acc r b t hc st' hscan ih =>
    intro es h
    obtain ⟨s, hs, rfl⟩ := h.events
    rw [hc, cut_bytes_none hscan]
    have := @ih s.events ⟨h.capacity_pos, s, hs, rfl⟩
    simp only [List.reverse_append, List.reverse_reverse, List.length_append,
      List.length_reverse] at this ⊢
    exact ⟨this.1, this.2.1, by omega, this.2.2.2⟩

/-- How many statements an outcome is: one or none. -/
def Outcome.given : Outcome → Nat
  | .statement _ => 1
  | _ => 0

theorem read_cut {r : Reader} {es : List Script.Event} (h : r.Ahead es) (d : Disk) :
    (r.read d).1 = (cut .code [] es).outcome ∧
      (r.read d).2.Ahead (cut .code [] es).rest ∧
      (r.read d).2.bytesConsumed = r.bytesConsumed + (cut .code [] es).used.length ∧
      (r.read d).2.statementsRead =
        r.statementsRead + (cut .code [] es).outcome.given := by
  obtain ⟨ho, ha, hb, hn⟩ := fill_cut d .code [] r h
  simp only [List.reverse_nil, List.length_nil, Nat.add_zero] at ho ha hb hn
  unfold read count
  split
  · next s r' hf =>
    rw [hf] at ho ha hb hn
    refine ⟨ho, ⟨ha.capacity_pos, ha.events⟩, hb, ?_⟩
    rw [← ho]
    exact congrArg (· + 1) hn
  · next hx =>
    refine ⟨ho, ha, hb, ?_⟩
    rw [← ho, hn]
    cases hf : fill d .code [] r with
    | mk o r' =>
      cases o with
      | statement s => exact absurd hf (hx s r')
      | finished => rfl
      | failed f => rfl

end Reader
end DumpRouter
