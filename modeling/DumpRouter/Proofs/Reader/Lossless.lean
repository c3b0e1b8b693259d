import Mathlib.Data.List.Forall2
import Mathlib.Data.List.Infix
import DumpRouter.Proofs.Reader.Calls

/-!
# DumpRouter.Proofs.Reader.Lossless

Nothing that a reader takes from its source is lost, doubled or moved: the bytes that the calls of
a run use, call by call, are the first bytes of the source, and the reader's counter says how many.

* `Reader.Ends`: the ways in which a call can end, each with what it may give up.
* `cut_ends`: every call ends in one of them.
* `Reader.Account`: what a run of calls uses, call by call.
* `portions_cuts`: without failures the statements are the source but for blanks in front of its
  ends.
* `nexts_eq`: an iteration is the run of calls up to its first failure.
* `calls_lossless`: all of it for a reader of a script.
-/

namespace DumpRouter
namespace Script

def Event.byte? : Event → Option UInt8
  | .byte b => some b
  | _ => none

/-- The bytes among the events. -/
def bytes (es : List Event) : Bytes := es.filterMap Event.byte?

theorem bytes_append (u : Bytes) (es : List Event) : bytes (u.map .byte ++ es) = u ++ bytes es := by
  induction u with
  | nil => rfl
  | cons b u ih => simpa [bytes, Event.byte?] using ih

/-- The bytes between the ends of a source, if the bytes `acc` stand before its first event. -/
def portionsFrom (acc : Bytes) : List Event → List Bytes
  | [] => [acc]
  | .byte b :: es => portionsFrom (acc ++ [b]) es
  | .finish :: es => acc :: portionsFrom [] es
  | .fault _ :: es => portionsFrom acc es

/-- The bytes between the ends of a source. Without an end before the last byte they are one
portion. -/
def portions (es : List Event) : List Bytes := portionsFrom [] es

theorem portionsFrom_append (acc u : Bytes) (es : List Event) :
    portionsFrom acc (u.map .byte ++ es) = portionsFrom (acc ++ u) es := by
  induction u generalizing acc with
  | nil => simp
  | cons b u ih => simpa [portionsFrom] using ih (acc ++ [b])

theorem portions_bytes (u : Bytes) : portions (u.map .byte) = [u] := by
  have := portionsFrom_append [] u []
  simpa [portions, portionsFrom] using this

/-- Only the first portion depends on what stands before it. -/
theorem portionsFrom_eq (es : List Event) :
    ∃ u us, ∀ acc, portionsFrom acc es = (acc ++ u) :: us := by
  induction es with
  | nil => exact ⟨[], [], fun acc => by simp [portionsFrom]⟩
  | cons e es ih =>
    obtain ⟨u, us, h⟩ := ih
    cases e with
    | byte b => exact ⟨b :: u, us, fun acc => by simp [portionsFrom, h]⟩
    | finish => exact ⟨[], portionsFrom [] es, fun acc => by simp [portionsFrom]⟩
    | fault m => exact ⟨u, us, fun acc => by simp [portionsFrom, h]⟩

end Script

theorem Scanner.State.scan_concat {s s' : State} {t : Bytes} (h : s.scan t = (s', none))
    (b : UInt8) :
    s.scan (t ++ [b]) =
      ((s'.advance b).1, if (s'.advance b).2 then some (t.length + 1) else none) := by
  rw [scan_append, h]
  dsimp only
  rw [scan_cons]
  by_cases hb : (s'.advance b).2 = true <;> simp [hb, scan, scanFrom]

namespace Reader

/-- How a call ends that has used the bytes `u` and behind them comes upon the events `es`. It
leaves the events `es'`. -/
inductive Ends : Outcome → Bytes → List Script.Event → List Script.Event → Prop where
  /-- The last byte is a semicolon that ends the statement, and no byte before it is one. -/
  | terminated {u : Bytes} (es : List Script.Event) :
      (Scanner.State.code.scan u).2 = some u.length →
      u.getLast? = some Scanner.terminator → Ends (.statement ⟨u⟩) u es es
  /-- The source ends inside the statement. -/
  | cutOff {u : Bytes} {es es' : List Script.Event} : (Scanner.State.code.scan u).2 = none →
      (∃ b ∈ u, Bytes.isBlank b = false) → Script.AtEnd es es' → Ends (.statement ⟨u⟩) u es es'
  /-- Only blanks are given up in front of the end of the source. -/
  | finished {u : Bytes} {es es' : List Script.Event} : (∀ b ∈ u, Bytes.isBlank b = true) →
      Script.AtEnd es es' → Ends .finished u es es'
  /-- The statement that a failure cuts off is given up. -/
  | failed {u : Bytes} (m : String) (es : List Script.Event) :
      (Scanner.State.code.scan u).2 = none → Ends (.failed (.text m)) u (.fault m :: es) es

theorem ends_atEnd {st : Scanner.State} {u : Bytes} (h : Scanner.State.code.scan u = (st, none))
    {es es' : List Script.Event} (he : Script.AtEnd es es') : Ends (atEnd u) u es es' := by
  unfold atEnd
  by_cases hu : Bytes.trim u = []
  · rw [hu]
    exact .finished ((Bytes.trim_eq_nil_iff u).1 hu) he
  · have hne : (Bytes.trim u).isEmpty = false := by simpa using hu
    have hb : ∃ b ∈ u, Bytes.isBlank b = false := by
      rw [Bytes.trim_eq_nil_iff] at hu
      simpa using hu
    rw [hne]
    exact .cutOff (by rw [h]) hb he

theorem cut_ends {st : Scanner.State} {acc : Bytes} (h : Scanner.State.code.scan acc = (st, none))
    (es : List Script.Event) :
    ∃ t mid, (cut st acc es).used = acc ++ t ∧ es = t.map .byte ++ mid ∧
      Ends (cut st acc es).outcome (cut st acc es).used mid (cut st acc es).rest := by
  induction es generalizing st acc with
  | nil => exact ⟨[], [], by simp [cut], rfl, ends_atEnd h .exhausted⟩
  | cons e es ih =>
    cases e with
    | finish => exact ⟨[], _, by simp [cut], rfl, ends_atEnd h (.finish es)⟩
    | fault m => exact ⟨[], _, by simp [cut], rfl, .failed m es (by simp [cut, h])⟩
    | byte b =>
      have hscan := Scanner.State.scan_concat h b
      cases hadv : st.advance b with
      | mk st' e =>
        rw [hadv] at hscan
        cases e with
        | true =>
          obtain ⟨-, rfl⟩ := Scanner.State.advance_terminates hadv
          simp only [cut, hadv]
          exact ⟨_, es, rfl, rfl, .terminated es (by simp [hscan]) (by simp)⟩
        | false =>
          obtain ⟨t, mid, hu, rfl, he⟩ := ih hscan
          simp only [cut, hadv]
          exact ⟨b :: t, mid, by simp [hu], rfl, he⟩

theorem cut_code_ends (es : List Script.Event) :
    ∃ mid, es = (cut .code [] es).used.map .byte ++ mid ∧
      Ends (cut .code [] es).outcome (cut .code [] es).used mid (cut .code [] es).rest := by
  have hnil : Scanner.State.code.scan [] = (.code, none) := rfl
  obtain ⟨t, mid, hu, he, hends⟩ := cut_ends hnil es
  rw [List.nil_append] at hu
  exact ⟨mid, by rw [hu]; exact he, hends⟩

/-- A run of calls on a source with the events `es`, and the bytes that each of them uses. -/
inductive Account : List Script.Event → List Call → List Bytes → Prop where
  | nil (es : List Script.Event) : Account es [] []
  | cons {c : Call} {u : Bytes} {mid es' : List Script.Event} {cs : List Call} {us : List Bytes} :
      Ends c.outcome u mid es' → Account es' cs us → Account (u.map .byte ++ mid) (c :: cs) (u :: us)

theorem account_cuts (k m : Nat) (es : List Script.Event) (n : Nat) :
    Account es (tally k m (cuts es n)) ((cuts es n).map (·.used)) := by
  induction n generalizing k m es with
  | zero => exact .nil es
  | succ n ih =>
    obtain ⟨mid, he, hends⟩ := cut_code_ends es
    have hrest := ih (k + (cut .code [] es).outcome.given)
      (m + (cut .code [] es).used.length) (cut .code [] es).rest
    have h : Account _ (tally k m (cuts es (n + 1))) ((cuts es (n + 1)).map (·.used)) :=
      .cons hends hrest
    rw [← he] at h
    exact h

theorem Ends.bytes_eq {o : Outcome} {u : Bytes} {es es' : List Script.Event}
    (h : Ends o u es es') : Script.bytes es = Script.bytes es' := by
  cases h with
  | terminated => rfl
  | cutOff _ _ he => cases he <;> rfl
  | finished _ he => cases he <;> rfl
  | failed => rfl

theorem Account.prefix_bytes {es : List Script.Event} {cs : List Call} {us : List Bytes}
    (h : Account es cs us) : us.flatten <+: Script.bytes es := by
  induction h with
  | nil es => exact List.nil_prefix
  | cons hends _ ih =>
    rw [Script.bytes_append, List.flatten_cons, hends.bytes_eq]
    exact (List.prefix_append_right_inj _).2 ih

/-- The statements that calls give. -/
def statements (cs : List Call) : List Statement :=
  cs.filterMap fun c =>
    match c.outcome with
    | .statement t => some t
    | _ => none

theorem statements_cons (c : Call) (cs : List Call) :
    (statements (c :: cs)).length = c.outcome.given + (statements cs).length := by
  cases h : c.outcome <;> simp [statements, h, Outcome.given, Nat.add_comm]

theorem counters_tally {k m i : Nat} {xs : List Cut} {c : Call}
    (h : (tally k m xs)[i]? = some c) :
    c.bytesConsumed = m + ((xs.map (·.used)).take (i + 1)).flatten.length ∧
      c.statementsRead = k + (statements ((tally k m xs).take (i + 1))).length := by
  induction xs generalizing k m i with
  | nil => simp [tally] at h
  | cons x xs ih =>
    simp only [tally, List.map_cons, List.take_succ_cons, List.flatten_cons, List.length_append,
      statements_cons] at h ⊢
    cases i with
    | zero =>
      simp only [List.getElem?_cons_zero, Option.some.injEq] at h
      subst h
      simp [statements]
    | succ i =>
      obtain ⟨hb, hs⟩ := ih (by simpa using h)
      exact ⟨by omega, by omega⟩

/-! ## Sources without failures -/

/-- The bytes `k` are `u` without blanks at its end. -/
def Trimmed (u k : Bytes) : Prop := ∃ tail : Bytes, (∀ b ∈ tail, Bytes.isBlank b = true) ∧ u = k ++ tail

/-- The bytes of a statement, and none for the other outcomes. -/
def Outcome.bytes : Outcome → Bytes
  | .statement t => t.bytes
  | _ => []

/-- The bytes of the statements that calls give. -/
def given (cs : List Call) : Bytes := (statements cs).flatMap (·.bytes)

theorem given_cons (c : Call) (cs : List Call) : given (c :: cs) = c.outcome.bytes ++ given cs := by
  cases h : c.outcome <;> simp [given, statements, h, Outcome.bytes]

theorem given_exhausted (k m n : Nat) : given (tally k m (cuts [] n)) = [] := by
  induction n generalizing k m with
  | zero => rfl
  | succ n ih =>
    rw [cuts, tally, given_cons]
    exact ih _ _

theorem portions_cuts {es : List Script.Event} (hes : ∀ m, Script.Event.fault m ∉ es) (k m : Nat)
    {n : Nat} (hn : es.length < n) :
    ∃ kept, List.Forall₂ Trimmed (Script.portions es) kept ∧
      given (tally k m (cuts es n)) = kept.flatten := by
  -- A call that does not come upon an end extends the first portion of what it leaves; one that
  -- does has a portion of its own.
  induction n generalizing es k m with
  | zero => omega
  | succ n ih =>
    obtain ⟨mid, he, hends⟩ := cut_code_ends es
    rw [cuts, tally, given_cons]
    generalize cut .code [] es = x at he hends ⊢
    obtain ⟨o, u, rest⟩ := x
    dsimp only at he hends ⊢
    subst he
    rw [List.length_append, List.length_map] at hn
    rw [Script.portions, Script.portionsFrom_append, List.nil_append]
    cases hends with
    | terminated _ hscan =>
      have hpos := (Scanner.State.scan_le (Prod.ext rfl hscan)).1
      have hmid : ∀ x, Script.Event.fault x ∉ mid := fun x hx => hes x (by simp [hx])
      obtain ⟨kept, hkept, hgiven⟩ := ih hmid (k + 1) (m + u.length) (by omega)
      obtain ⟨v, vs, hv⟩ := Script.portionsFrom_eq mid
      rw [Script.portions, hv, List.nil_append] at hkept
      obtain ⟨w, ws, ⟨tail, hblank, rfl⟩, htail, rfl⟩ := List.forall₂_cons_left_iff.1 hkept
      refine ⟨(u ++ w) :: ws, ?_, ?_⟩
      · rw [hv]
        exact .cons ⟨tail, hblank, by simp⟩ htail
      · rw [Outcome.given, hgiven]
        simp [Outcome.bytes]
    | cutOff _ _ hend =>
      cases hend with
      | exhausted =>
        refine ⟨[u], .cons ⟨[], by simp, by simp⟩ .nil, ?_⟩
        rw [given_exhausted]
        simp [Outcome.bytes]
      | finish =>
        have hrest : ∀ x, Script.Event.fault x ∉ rest := fun x hx => hes x (by simp [hx])
        obtain ⟨kept, hkept, hgiven⟩ :=
          ih hrest (k + 1) (m + u.length) (by rw [List.length_cons] at hn; omega)
        refine ⟨u :: kept, .cons ⟨[], by simp, by simp⟩ hkept, ?_⟩
        rw [Outcome.given, hgiven]
        rfl
    | finished hblank hend =>
      cases hend with
      | exhausted =>
        refine ⟨[[]], .cons ⟨u, hblank, by simp⟩ .nil, ?_⟩
        rw [given_exhausted]
        rfl
      | finish =>
        have hrest : ∀ x, Script.Event.fault x ∉ rest := fun x hx => hes x (by simp [hx])
        obtain ⟨kept, hkept, hgiven⟩ :=
          ih hrest (k + 0) (m + u.length) (by rw [List.length_cons] at hn; omega)
        refine ⟨[] :: kept, .cons ⟨u, hblank, by simp⟩ hkept, ?_⟩
        exact hgiven
    | failed f => exact absurd (by simp) (hes f)

/-! ## Iterations -/

/-- Steps of an iteration, with buffers from a pool. -/
def nexts (d : Disk) (p : BufferPool) (r : Reader) : Nat → List Outcome
  | 0 => []
  | n + 1 =>
    match r.nextPooled d p with
    | (x, r', p') => x :: nexts d p' r' n

/-- Nothing but the end behind the first failure. -/
def endAtFailure : List Outcome → List Outcome
  | [] => []
  | .failed f :: os => .failed f :: os.map fun _ => .finished
  | o :: os => o :: endAtFailure os

theorem length_calls (d : Disk) (p : BufferPool) (r : Reader) (n : Nat) :
    (calls d p r n).length = n := by
  induction n generalizing p r with
  | zero => rfl
  | succ n ih => simp [calls, ih]

theorem nexts_failed {r : Reader} (h : r.failed = true) (d : Disk) (p : BufferPool) (n : Nat) :
    nexts d p r n = List.replicate n .finished := by
  induction n with
  | zero => rfl
  | succ n ih => simp [nexts, nextPooled, h, ih, List.replicate_succ]

theorem failed_fill (d : Disk) (st : Scanner.State) (acc : Bytes) (r : Reader) :
    (fill d st acc r).2.failed = r.failed := by
  fun_induction fill d st acc r with
  | case1 st acc r hc i hr ih => exact ih
  | case2 => rfl
  | case3 => rfl
  | case4 st acc r hc b t i hr ih => exact ih
  | case5 => rfl
  | case6 st acc r b t hc st' hs ih => exact ih

theorem failed_readPooled (d : Disk) (p : BufferPool) (r : Reader) :
    (r.readPooled d p).2.1.failed = r.failed := by
  have h := failed_fill d .code p.checkout.1.reverse r
  unfold readPooled count
  dsimp only
  split
  · next s r' hf => rw [hf] at h; exact h
  · exact h

theorem nexts_eq {r : Reader} (h : r.failed = false) (d : Disk) (p : BufferPool) (n : Nat) :
    nexts d p r n = endAtFailure ((calls d p r n).map (·.outcome)) := by
  induction n generalizing p r with
  | zero => rfl
  | succ n ih =>
    have hf := failed_readPooled d p r
    simp only [nexts, nextPooled, calls, h, Bool.false_eq_true, if_false]
    cases hr : r.readPooled d p with
    | mk o x =>
      obtain ⟨r', p'⟩ := x
      rw [hr, h] at hf
      cases o with
      | failed f =>
        simp [seen, endAtFailure, nexts_failed, Function.comp_def, length_calls, List.map_const']
      | statement t => simpa [seen, endAtFailure] using ih hf p'
      | finished => simpa [seen, endAtFailure] using ih hf p'

theorem finished_of_endAtFailure {os : List Outcome} {i j : Nat} {f : Fault} {x : Outcome}
    (hi : (endAtFailure os)[i]? = some (.failed f)) (hij : i < j)
    (hj : (endAtFailure os)[j]? = some x) : x = .finished := by
  fun_induction endAtFailure os generalizing i j with
  | case1 => simp at hi
  | case2 g os =>
    obtain ⟨j, rfl⟩ := Nat.exists_eq_succ_of_ne_zero (Nat.ne_of_gt (Nat.zero_lt_of_lt hij))
    simp only [List.getElem?_cons_succ, List.getElem?_map, Option.map_eq_some_iff] at hj
    obtain ⟨_, _, rfl⟩ := hj
    rfl
  | case3 o os hne ih =>
    obtain ⟨j, rfl⟩ := Nat.exists_eq_succ_of_ne_zero (Nat.ne_of_gt (Nat.zero_lt_of_lt hij))
    cases i with
    | zero =>
      simp only [List.getElem?_cons_zero, Option.some.injEq] at hi
      exact absurd hi (hne f)
    | succ i => exact ih (by simpa using hi) (Nat.lt_of_succ_lt_succ hij) (by simpa using hj)

/-! ## The reader of a script -/

/-- What the calls of a run use, one after the other, is the beginning of the source, of the length
that the reader has counted; a statement is what its call used, blanks are all that is given up at
the end, and a failure costs the statement in front of it. Without failures the statements are the
source, but for the blanks in front of each of its ends. An iteration ends with its first
failure. -/
theorem calls_lossless (d : Disk) (s : Script) (metered : Bool) (portion pooled n : Nat) :
    let r := Reader.new (.new (.script s) metered) portion
    let cs := calls d (.new pooled) r n
    (∃ used : List Bytes, Account s.events cs used ∧
      ∀ i c, cs[i]? = some c →
        c.bytesConsumed = (used.take (i + 1)).flatten.length ∧
        (used.take (i + 1)).flatten = (Script.bytes s.events).take c.bytesConsumed ∧
        c.statementsRead = (statements (cs.take (i + 1))).length) ∧
      ((∀ m, .fault m ∉ s.events) → s.events.length < n →
        ∃ kept, List.Forall₂ Trimmed (Script.portions s.events) kept ∧ given cs = kept.flatten) ∧
      (∀ input : Bytes, s.events = input.map .byte → input.length < n → Trimmed input (given cs)) ∧
      nexts d (.new pooled) r n = endAtFailure (cs.map (·.outcome)) ∧
      ∀ (i j : Nat) (f : Fault) (x : Outcome), (nexts d (.new pooled) r n)[i]? = some (.failed f) → i < j →
        (nexts d (.new pooled) r n)[j]? = some x → x = .finished := by
  intro r cs
  have hcs : cs = tally 0 0 (cuts s.events n) :=
    calls_cuts (ahead_new s metered portion) (BufferPool.clean_new pooled) d n
  have hnexts : nexts d (.new pooled) r n = endAtFailure (cs.map (·.outcome)) := nexts_eq rfl d _ n
  have haccount := account_cuts 0 0 s.events n
  refine ⟨⟨_, hcs ▸ haccount, ?_⟩, ?_, ?_, hnexts, ?_⟩
  · intro i c hc
    rw [hcs] at hc ⊢
    obtain ⟨hb, hk⟩ := counters_tally hc
    rw [Nat.zero_add] at hb hk
    have hpre := (List.IsPrefix.flatten (List.take_prefix (i + 1) _)).trans haccount.prefix_bytes
    exact ⟨hb, by rw [hb]; exact List.prefix_iff_eq_take.1 hpre, hk⟩
  · intro hes hn
    rw [hcs]
    exact portions_cuts hes 0 0 hn
  · intro input hes hn
    have hfault : ∀ m, Script.Event.fault m ∉ s.events := by simp [hes]
    obtain ⟨kept, hkept, hgiven⟩ := portions_cuts hfault 0 0 (by simpa [hes] using hn)
    rw [hes, Script.portions_bytes] at hkept
    rw [hcs, hgiven]
    cases hkept with
    | cons hhead htail =>
      cases htail
      simpa using hhead
  · intro i j f x hi hij hj
    rw [hnexts] at hi hj
    exact finished_of_endAtFailure hi hij hj

end Reader
end DumpRouter
