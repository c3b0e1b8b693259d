import DumpRouter.Proofs.Reader.Dump

/-!
# DumpRouter.Proofs.Reader.Metered

The reads that a reader makes of a script, and what a meter says of them.

* `Script.delivery`, `Script.delivered`: what each read gives, and the bytes of the first reads.
* `Script.due`: the reports that the first reads call for.
* `delivered_eq`: behind the last end of a script all its bytes have been delivered.
* `Reader.Follows`: a reader in the midst of a script, with a meter that has made its reports.
* `follows_fill`, `follows_read`: a call goes on with the reads, and stops for a reason.
* `read_unmetered`: without a meter a call does the same.
-/

namespace DumpRouter

/-- The bytes that a read gives. One that fails or is interrupted gives none. -/
def Delivery.got : Delivery → Bytes
  | .bytes b => b
  | _ => []

/-- What a meter reports of a read, behind which `total` bytes have been delivered in all. It is
silent on one that fails or is interrupted. -/
def Delivery.report (total : Nat) : Delivery → List Nat
  | .bytes _ => [total]
  | _ => []

theorem Delivery.reverse_report (total : Nat) (x : Delivery) :
    (x.report total).reverse = x.report total := by
  cases x <;> rfl

theorem Input.read_metered {i : Input} {s : Script} (hs : i.source = .script s)
    (hm : i.metered = true) (d : Disk) (n : Nat) :
    i.read d n =
      ((s.read n).1,
        { i with
          source := .script (s.read n).2
          delivered := i.delivered + (s.read n).1.got.length
          reports :=
            (s.read n).1.report (i.delivered + (s.read n).1.got.length) ++ i.reports }) := by
  unfold Input.read
  rw [hs, hm]
  dsimp only [Source.read]
  rcases s.read n with ⟨_ | _ | _, s'⟩ <;> rfl

namespace Script

section

variable (n : Nat) (s : Script)

/-- What is left of a script after so many reads of at most `n` bytes. -/
def after : Nat → Script
  | 0 => s
  | k + 1 => ((after k).read n).2

/-- What is given by the read that has `k` reads before it. -/
def delivery (k : Nat) : Delivery := ((s.after n k).read n).1

/-- The bytes that the first reads give. -/
def delivered : Nat → Bytes
  | 0 => []
  | k + 1 => delivered k ++ (s.delivery n k).got

/-- What a meter reports of the first reads: for each one that succeeds the number of bytes
delivered until then. -/
def due : Nat → List Nat
  | 0 => []
  | k + 1 => due k ++ (s.delivery n k).report (s.delivered n (k + 1)).length

/-- No bytes stand behind an end of the script. -/
def Unbroken : Prop :=
  ∀ front rest, s.events = front ++ .finish :: rest → bytes rest = []

end

example :
    due 2 [.data (Bytes.ascii ['a', ';', 'b']), .interrupt, .data (Bytes.ascii [';']),
      .fault "lost", .finish] 6 = [2, 3, 4, 4] := by decide

variable {n : Nat} {s : Script}

theorem eq_of_mem_report {x : Delivery} {total v : Nat} (h : v ∈ x.report total) : v = total := by
  cases x with
  | bytes b => exact List.mem_singleton.1 h
  | interrupted => cases h
  | failed f => cases h

theorem le_of_mem_due {k v : Nat} (h : v ∈ s.due n k) : v ≤ (s.delivered n k).length := by
  induction k with
  | zero => cases h
  | succ k ih =>
    rcases List.mem_append.1 h with hold | hnew
    · exact (ih hold).trans (by simp [delivered])
    · exact (eq_of_mem_report hnew).le

theorem due_ascending (k : Nat) : (s.due n k).Pairwise (· ≤ ·) := by
  induction k with
  | zero => exact .nil
  | succ k ih =>
    refine List.pairwise_append.2 ⟨ih, ?_, fun v hv w hw => ?_⟩
    · cases s.delivery n k <;> simp [Delivery.report]
    · rw [eq_of_mem_report hw, delivered, List.length_append]
      exact (le_of_mem_due hv).trans (Nat.le_add_right ..)

theorem getLast?_due {k : Nat} {b : Bytes} (h : s.delivery n k = .bytes b) :
    (s.due n (k + 1)).getLast? = some (s.delivered n (k + 1)).length := by
  rw [due, h]
  exact List.getLast?_concat ..

theorem Taken.bytes_eq {x : Delivery} {es es' : List Event} (h : Taken x es es') :
    bytes es = x.got ++ bytes es' := by
  cases x with
  | bytes b =>
    cases b with
    | nil => cases h <;> rfl
    | cons b t =>
      cases h
      exact bytes_append (b :: t) es'
  | interrupted =>
    cases h
    rfl
  | failed f =>
    obtain ⟨m, -, rfl⟩ := h
    rfl

theorem Taken.suffix {x : Delivery} {es es' : List Event} (h : Taken x es es') : es' <:+ es := by
  cases x with
  | bytes b =>
    cases b with
    | nil =>
      cases h with
      | exhausted => exact List.suffix_refl _
      | finish es => exact List.suffix_cons _ _
    | cons b t => exact ⟨_, h.symm⟩
  | interrupted =>
    cases h
    exact List.suffix_refl _
  | failed f =>
    obtain ⟨m, -, rfl⟩ := h
    exact List.suffix_cons _ _

section

variable (hn : 0 < n)
include hn

theorem taken_delivery (k : Nat) :
    Taken (s.delivery n k) (s.after n k).events (s.after n (k + 1)).events :=
  events_read hn rfl

theorem bytes_delivered (k : Nat) :
    bytes s.events = s.delivered n k ++ bytes (s.after n k).events := by
  induction k with
  | zero => rfl
  | succ k ih => rw [ih, (taken_delivery hn k).bytes_eq, delivered, List.append_assoc]

theorem after_suffix (k : Nat) : (s.after n k).events <:+ s.events := by
  induction k with
  | zero => exact List.suffix_refl _
  | succ k ih => exact (taken_delivery hn k).suffix.trans ih

/-- When a read comes upon an end, all bytes have been delivered, unless some stand behind it. -/
theorem delivered_eq (h : s.Unbroken) {k : Nat} (hend : s.delivery n k = .bytes []) :
    s.delivered n (k + 1) = bytes s.events := by
  have htaken := taken_delivery (s := s) hn k
  rw [hend] at htaken
  have hrest : bytes (s.after n (k + 1)).events = [] := by
    obtain ⟨front, hfront⟩ := after_suffix (s := s) hn k
    generalize (s.after n k).events = es, (s.after n (k + 1)).events = es' at htaken hfront ⊢
    cases htaken with
    | exhausted => rfl
    | finish => exact h front es' hfront.symm
  rw [bytes_delivered hn (k + 1), hrest, List.append_nil]

end

end Script

namespace Reader

/-- A reader has read `k` times from a script, with a meter. The bytes `used` of the script are used
up, and the reports `past` have been taken from it. -/
structure Follows (n : Nat) (script : Script) (k : Nat) (used : Bytes) (past : List Nat)
    (r : Reader) : Prop where
  metered : r.input.metered = true
  capacity : r.capacity = n
  source : r.input.source = .script (script.after n k)
  delivered : r.input.delivered = (script.delivered n k).length
  reports : past ++ r.input.reports.reverse = script.due n k
  bytes : script.delivered n k = used ++ r.chunk
  /-- What is not used up comes from the last read alone. -/
  last : ∀ j, k = j + 1 → r.chunk.length ≤ (script.delivery n j).got.length

/-- Why a call stops behind a read that has `j` reads before it, if the bytes `used` of the script
are used up by then, and the bytes `t` make up its statement. -/
inductive Stops (n : Nat) (script : Script) (j : Nat) (used t : Bytes) : Outcome → Prop where
  /-- The end of the statement was not among the bytes of the reads before. -/
  | terminated : (script.delivered n j).length < used.length →
      Stops n script j used t (.statement ⟨t⟩)
  | ended {x : Outcome} : script.delivery n j = .bytes [] → x = atEnd t → Stops n script j used t x
  | failed (f : Fault) : script.delivery n j = .failed f → Stops n script j used t (.failed f)

variable {n : Nat} {script : Script} {k : Nat} {used : Bytes} {past : List Nat} {r r' : Reader}
  {d : Disk}

theorem follows_new (script : Script) (portion : Nat) :
    Follows (max 1 portion) script 0 [] [] (.new (.new (.script script) true) portion) :=
  ⟨rfl, rfl, rfl, rfl, rfl, rfl, fun _ h => nomatch h⟩

namespace Follows

variable (h : Follows n script k used past r)
include h

theorem takeReports :
    Follows n script k used (past ++ r.takeReports.1) r.takeReports.2 :=
  ⟨h.metered, h.capacity, h.source, h.delivered, by
    rw [← h.reports]; exact List.append_nil _, h.bytes, h.last⟩

/-- A read, made when the chunk is used up. -/
theorem read (hc : r.chunk = []) {x : Delivery} {i : Input}
    (hr : r.input.read d r.capacity = (x, i)) {c : Bytes} (hgot : c = x.got) :
    script.delivery n k = x ∧
      Follows n script (k + 1) used past { r with input := i, chunk := c } := by
  rw [Input.read_metered h.source h.metered, h.capacity] at hr
  obtain ⟨rfl, rfl⟩ := Prod.mk.inj hr
  have htotal : r.input.delivered + (script.delivery n k).got.length =
      (script.delivered n (k + 1)).length := by
    rw [h.delivered, Script.delivered, List.length_append]
  refine ⟨rfl, h.metered, h.capacity, rfl, htotal, ?_, ?_, ?_⟩
  · rw [List.reverse_append, Delivery.reverse_report, ← List.append_assoc, h.reports]
    exact congrArg (fun total => script.due n k ++ (script.delivery n k).report total) htotal
  · rw [Script.delivered, h.bytes, hc, List.append_nil, hgot]
    rfl
  · intro j hj
    cases hj
    exact (congrArg List.length hgot).le

/-- Bytes of the chunk are used up. -/
theorem use (m : Nat) (hi : r'.input = r.input) (hcap : r'.capacity = r.capacity)
    (hchunk : r'.chunk = r.chunk.drop m) :
    Follows n script k (used ++ r.chunk.take m) past r' where
  metered := hi ▸ h.metered
  capacity := hcap.trans h.capacity
  source := hi ▸ h.source
  delivered := hi ▸ h.delivered
  reports := hi ▸ h.reports
  bytes := by rw [h.bytes, hchunk, List.append_assoc, List.take_append_drop]
  last j hj := by
    have := h.last j hj
    rw [hchunk, List.length_drop]
    omega

/-- Bytes that are in the chunk have not been delivered before the last read. -/
theorem last_needed {m : Nat} (hm : 0 < m) (hle : m ≤ r.chunk.length) :
    ∃ j, k = j + 1 ∧ (script.delivered n j).length < (used ++ r.chunk.take m).length := by
  have hbytes := congrArg List.length h.bytes
  cases k with
  | zero =>
    simp only [Script.delivered, List.length_nil, List.length_append] at hbytes
    omega
  | succ j =>
    have := h.last j rfl
    simp only [Script.delivered, List.length_append] at hbytes
    refine ⟨j, rfl, ?_⟩
    rw [List.length_append, List.length_take]
    omega

end Follows

theorem follows_fill (d : Disk) (st : Scanner.State) (acc : Bytes) (r : Reader) :
    ∀ {k : Nat} {used : Bytes}, Follows n script k used past r →
      ∃ j u, Follows n script (j + 1) (used ++ u) past (fill d st acc r).2 ∧
        Stops n script j (used ++ u) (acc.reverse ++ u) (fill d st acc r).1 := by
  fun_induction fill d st acc r with
  | case1 st acc r hc i hr ih =>
    intro k used h
    exact ih (h.read hc hr hc).2
  | case2 st acc r hc f i hr =>
    intro k used h
    obtain ⟨hx, hf⟩ := h.read hc hr hc
    exact ⟨k, [], by rwa [List.append_nil], .failed f hx⟩
  | case3 st acc r hc i hr =>
    intro k used h
    obtain ⟨hx, hf⟩ := h.read hc hr hc
    refine ⟨k, [], ?_⟩
    rw [List.append_nil, List.append_nil]
    exact ⟨hf, .ended hx rfl⟩
  | case4 st acc r hc b s i hr ih =>
    intro k used h
    exact ih (h.read hc hr rfl).2
  | case5 st acc r b s hc st' m hs =>
    intro k used h
    have hm := Scanner.State.scan_le hs
    have huse : Follows n script k (used ++ r.chunk.take m) past
        { r with chunk := (b :: s).drop m, bytesConsumed := r.bytesConsumed + m } :=
      h.use m rfl rfl (by rw [hc])
    obtain ⟨j, rfl, hneeded⟩ := h.last_needed hm.1 (hc ▸ hm.2)
    rw [hc] at huse hneeded
    exact ⟨j, _, huse, .terminated hneeded⟩
  | case6 st acc r b s hc st' hs ih =>
    intro k used h
    have huse : Follows n script k (used ++ r.chunk.take (b :: s).length) past
        { r with chunk := [], bytesConsumed := r.bytesConsumed + (b :: s).length } :=
      h.use (b :: s).length rfl rfl (by rw [hc, List.drop_length])
    rw [hc, List.take_length] at huse
    obtain ⟨j, u, hf, hstops⟩ := ih huse
    rw [List.append_assoc] at hf hstops
    rw [List.reverse_append, List.reverse_reverse, List.append_assoc] at hstops
    exact ⟨j, b :: s ++ u, hf, hstops⟩

/-- A call goes on with the reads, and uses up the bytes `u`. -/
theorem follows_read (h : Follows n script k used past r) (d : Disk) :
    ∃ j u, Follows n script (j + 1) (used ++ u) past (r.read d).2 ∧
      Stops n script j (used ++ u) u (r.read d).1 := by
  obtain ⟨j, u, hf, hstops⟩ := follows_fill d .code [] r h
  refine ⟨j, u, ?_⟩
  unfold Reader.read count
  split
  · next t r' hx =>
    rw [hx] at hf hstops
    exact ⟨⟨hf.metered, hf.capacity, hf.source, hf.delivered, hf.reports, hf.bytes, hf.last⟩,
      hstops⟩
  · exact ⟨hf, hstops⟩

end Reader

/-! ## Without a meter -/

def Input.unmetered (i : Input) : Input := { i with metered := false, reports := [] }

theorem Input.read_unmetered (i : Input) (d : Disk) (n : Nat) :
    i.unmetered.read d n = ((i.read d n).1, (i.read d n).2.unmetered) := by
  unfold Input.read
  dsimp only [Input.unmetered]
  rcases i.source.read d n with ⟨_ | _ | _, s⟩ <;> rfl

namespace Reader

def unmetered (r : Reader) : Reader := { r with input := r.input.unmetered }

def Reading.unmetered (x : Reading) : Reading := { x with reader := x.reader.unmetered }

theorem turn_unmetered (d : Disk) (x : Reading) :
    x.unmetered.turn d = (x.turn d).map Reading.unmetered (Prod.map id unmetered) := by
  unfold Reading.turn
  dsimp only [Reading.unmetered, unmetered]
  rcases x.reader.chunk with _ | ⟨b, s⟩
  · dsimp only
    rw [Input.read_unmetered]
    rcases x.reader.input.read d x.reader.capacity with ⟨⟨_ | _⟩ | _ | _, i⟩ <;> rfl
  · dsimp only
    rcases x.state.scan (b :: s) with ⟨st, _ | m⟩ <;> rfl

theorem within_unmetered (d : Disk) (k : Nat) (x : Reading) :
    x.unmetered.within d k = (x.within d k).map (Prod.map id unmetered) := by
  induction k generalizing x with
  | zero => rfl
  | succ k ih =>
    rw [Reading.within, turn_unmetered, Reading.within]
    rcases x.turn d with y | o
    · exact ih y
    · rfl

theorem read_unmetered (r : Reader) (d : Disk) :
    r.unmetered.read d = ((r.read d).1, (r.read d).2.unmetered) := by
  have hr := readWithin_read (d := d) (Nat.le_refl r.remaining)
  have hr' := readWithin_read (d := d) (r := r.unmetered) (Nat.le_refl r.remaining)
  have hwithin := within_unmetered d (2 * r.remaining + 2) ⟨.code, [], r⟩
  unfold readWithin at hr hr'
  obtain ⟨⟨o, y⟩, hw, hcount⟩ := Option.map_eq_some_iff.1 hr
  rw [hw] at hwithin
  have hw' : Reading.within d (2 * r.remaining + 2) ⟨.code, [], r.unmetered⟩ =
      some (o, y.unmetered) := hwithin
  rw [hw'] at hr'
  rw [← hcount, ← Option.some.inj hr']
  cases o <;> rfl

end Reader
end DumpRouter
