import DumpRouter.Proofs.Writer.OpenWriter
import Mathlib.Data.List.Forall2

/-!
# DumpRouter.Proofs.Writer.Calls

A writer of a table in use. Its user hands it statements, flushes it and closes it, in any order,
and goes on after failures.

* `calls`: the writer behind calls, and `takenAll`: what its buffer has taken.
* `Took.call`: what the buffer has taken of each statement, wherever the file is.
* `Logs.call`: a regular file takes every statement, and after each hundredth all of them are in it.
* `Shut.calls`: a closed writer stays as it is.
* `calls_keep_records`: what this comes to on a regular file, on a full device and after a close.
-/

namespace DumpRouter
namespace TableWriter

/-- The writer and the site behind calls, whichever of them fail. -/
def calls (w : TableWriter) (s : Site) (cs : List Call) : TableWriter × Site :=
  cs.foldl (fun x c => (x.1.call x.2 c).2) (w, s)

/-- For each of the calls the chunks that the buffer takes. -/
def takenAll (w : TableWriter) (s : Site) : List Call → List (List Bytes)
  | [] => []
  | c :: cs => w.taken s c :: takenAll (w.call s c).2.1 (w.call s c).2.2 cs

def records (cs : List Call) : List Bytes := cs.flatMap Call.record

variable {w : TableWriter} {s : Site} {l : Location} {b : Buffered} {d : Disk} {c : Bytes}

theorem calls_nil (w : TableWriter) (s : Site) : w.calls s [] = (w, s) := rfl

theorem calls_cons (w : TableWriter) (s : Site) (c : Call) (cs : List Call) :
    w.calls s (c :: cs) = (w.call s c).2.1.calls (w.call s c).2.2 cs := rfl

theorem calls_append (w : TableWriter) (s : Site) (cs cs' : List Call) :
    w.calls s (cs ++ cs') = (w.calls s cs).1.calls (w.calls s cs).2 cs' := by
  unfold calls
  rw [List.foldl_append]

/-! ## Calls before the writer is closed -/

variable {ts : List (List Bytes)} {rs : List Bytes}

/-- The writer is open at `l`, and its buffer has taken the chunks `ts`, call by call. -/
structure Took (w : TableWriter) (d : Disk) (l : Location) (ts : List (List Bytes)) (b : Buffered) :
    Prop where
  opened : w.Open d l ts.flatten.flatten b
  writes : w.writes = ts.countP complete

theorem Took.call (h : w.Took s.disk l ts b) {c : Call} (hc : c ≠ .close) :
    ∃ b', (w.call s c).2.1.Took (w.call s c).2.2.disk l (ts ++ [w.taken s c]) b' := by
  have hflatten : (ts ++ [w.taken s c]).flatten.flatten =
      ts.flatten.flatten ++ (w.taken s c).flatten := by
    simp
  cases c with
  | write statement =>
    obtain ⟨b', hgoes, hwrites, -⟩ := h.opened.write statement
    refine ⟨b', hflatten ▸ hgoes.opened, hwrites.trans ?_⟩
    rw [h.writes, List.countP_append, List.countP_singleton]
  | flush =>
    obtain ⟨b', hgoes, hwrites⟩ := h.opened.flush
    have htaken : w.taken s .flush = [] := by
      rw [taken, h.opened.output]
      rfl
    rw [htaken] at hflatten ⊢
    refine ⟨b', ?_, hwrites.trans ?_⟩
    · rw [hflatten, List.flatten_nil, List.append_nil]
      exact hgoes.opened
    · rw [h.writes, List.countP_append]
      rfl
  | close => exact absurd rfl hc

theorem Took.calls (h : w.Took s.disk l ts b) {cs : List Call} (hcs : .close ∉ cs) :
    ∃ b', (w.calls s cs).1.Took (w.calls s cs).2.disk l (ts ++ w.takenAll s cs) b' := by
  induction cs generalizing w s ts b with
  | nil => exact ⟨b, by simpa [takenAll, calls_nil] using h⟩
  | cons c cs ih =>
    obtain ⟨b₁, h₁⟩ := h.call (c := c) fun he => hcs (by simp [he])
    obtain ⟨b', h'⟩ := ih h₁ fun hm => hcs (List.mem_cons_of_mem _ hm)
    exact ⟨b', by simpa [takenAll, calls_cons] using h'⟩

/-- No chunk of a call is taken before those in front of it. -/
theorem takenAll_prefix (w : TableWriter) (s : Site) (cs : List Call) :
    List.Forall₂ (fun c taken => taken <+: c.chunks) cs (w.takenAll s cs) := by
  induction cs generalizing w s with
  | nil => exact .nil
  | cons c cs ih =>
    refine .cons ?_ (ih _ _)
    unfold taken
    split
    · exact List.nil_prefix
    · exact Buffered.offer_prefix ..

theorem prefix_flatten_take (rs : List Bytes) (n : Nat) : (rs.take n).flatten <+: rs.flatten :=
  ⟨(rs.drop n).flatten, by rw [← List.flatten_append, List.take_append_drop]⟩

/-- The writer is open at a regular file at `l` and has been given the records `rs`. With every
hundredth record all of them have gone to the file. -/
structure Logs (w : TableWriter) (d : Disk) (l : Location) (rs : List Bytes) (b : Buffered) :
    Prop where
  opened : w.Open d l rs.flatten b
  file : ∃ content, d.node? l = some (.file content)
  writes : w.writes = rs.length
  durable : (rs.take (flushInterval * (rs.length / flushInterval))).flatten.length ≤ b.handle.offset

theorem Logs.call (h : w.Logs s.disk l rs b) {c : Call} (hc : c ≠ .close) :
    ∃ b', (w.call s c).2.1.Logs (w.call s c).2.2.disk l (rs ++ c.record) b' := by
  have hfile := ((w.call_rewrites s c).file_iff l).2 h.file
  obtain ⟨content, hn⟩ := h.file
  have hok := h.opened.call_ok (by simp [hn]) c
  cases c with
  | close => exact absurd rfl hc
  | flush =>
    obtain ⟨b', hgoes, hwrites⟩ := h.opened.flush
    rw [Call.record, List.append_nil]
    exact ⟨b', hgoes.opened, hfile, hwrites.trans h.writes, Nat.le_trans h.durable hgoes.offset⟩
  | write statement =>
    obtain ⟨b', hgoes, hwrites, hheld⟩ := h.opened.write statement
    have htaken := h.opened.taken_of_file ⟨content, hn⟩ (.write statement)
    have hbytes : rs.flatten ++ (w.taken s (.write statement)).flatten =
        (rs ++ [statement ++ [10]]).flatten := by
      rw [htaken]
      simp [Call.chunks]
    have hopen := hgoes.opened
    rw [hbytes] at hopen
    rw [htaken] at hwrites
    refine ⟨b', hopen, hfile, ?_, ?_⟩
    · rw [Call.record, List.length_append, ← h.writes]
      exact hwrites
    · rw [Call.record, List.length_append, List.length_singleton]
      by_cases hfull : (rs.length + 1) % flushInterval = 0
      · -- everything has just been flushed
        have hsize := (hopen.settled hfile (hheld hok (h.writes ▸ hfull))).1
        rw [hsize]
        exact (prefix_flatten_take _ _).length_le
      · have hsame : flushInterval * ((rs.length + 1) / flushInterval) =
            flushInterval * (rs.length / flushInterval) := by
          unfold flushInterval at hfull ⊢
          omega
        rw [hsame, List.take_append_of_le_length (Nat.mul_div_le ..)]
        exact Nat.le_trans h.durable hgoes.offset

theorem Logs.calls (h : w.Logs s.disk l rs b) {cs : List Call} (hcs : .close ∉ cs) :
    ∃ b', (w.calls s cs).1.Logs (w.calls s cs).2.disk l (rs ++ records cs) b' := by
  induction cs generalizing w s rs b with
  | nil => exact ⟨b, by simpa [records, calls_nil] using h⟩
  | cons c cs ih =>
    obtain ⟨b₁, h₁⟩ := h.call (c := c) fun he => hcs (by simp [he])
    obtain ⟨b', h'⟩ := ih h₁ fun hm => hcs (List.mem_cons_of_mem _ hm)
    exact ⟨b', by simpa [records, calls_cons] using h'⟩

theorem calls_rewrites (hl : w.place? = some l ∨ w.place? = none) (cs : List Call) :
    s.disk.Rewrites (· = l) (w.calls s cs).2.disk := by
  induction cs generalizing w s with
  | nil => exact .refl _ _
  | cons c cs ih =>
    have hplace : (w.call s c).2.1.place? = some l ∨ (w.call s c).2.1.place? = none :=
      (w.call_place s c).elim (fun he => he ▸ hl) .inr
    refine ((w.call_rewrites s c).mono fun k hk => ?_).trans (ih hplace)
    rcases hl with hl | hl
    · exact Option.some.inj (hk.symm.trans hl)
    · exact absurd (hk.symm.trans hl) (Option.some_ne_none k)

/-! ## Calls behind a close -/

theorem Shut.calls (h : w.Shut) (s : Site) (cs : List Call) :
    (w.calls s cs).1 = w ∧ (w.calls s cs).2.disk = s.disk := by
  induction cs generalizing s with
  | nil => exact ⟨rfl, rfl⟩
  | cons c cs ih =>
    obtain ⟨hw, hd, -⟩ := h.call s c
    rw [calls_cons, hw]
    exact ⟨(ih _).1, (ih _).2.trans hd⟩

theorem calls_close (w : TableWriter) (s : Site) (cs cs' : List Call) :
    (w.calls s (cs ++ .close :: cs')).1 = (w.calls s cs).1.closed ∧
      (w.calls s (cs ++ .close :: cs')).2.disk =
        ((w.calls s cs).1.close (w.calls s cs).2).2.2.disk := by
  rw [calls_append, calls_cons, call, close_writer]
  exact (shut_of_isClosed rfl).calls _ cs'

/-! ## A new writer -/

/-- On a regular file at `l`, with the buffer `b`, the records `rs` have been written: what is in
the file and what is held are these records, and all but the last ones are in the file. -/
structure OnFile (w : TableWriter) (d : Disk) (l : Location) (rs : List Bytes) (b : Buffered) :
    Prop where
  content : ∃ content, d.node? l = some (.file content) ∧
    Bytes.unpack content ++ Bytes.unpack b.held = rs.flatten ∧
    (rs.take (flushInterval * (rs.length / flushInterval))).flatten <+: Bytes.unpack content
  writes : w.writes = rs.length

theorem Logs.onFile (h : w.Logs d l rs b) : w.OnFile d l rs b := by
  refine ⟨?_, h.writes⟩
  obtain ⟨content, hn⟩ := h.file
  have hnode := h.opened.location ▸ hn
  cases h.opened.carries with
  | file content' node offset bytes =>
    obtain rfl : content' = content := by simpa using node.symm.trans hnode
    refine ⟨_, hn, bytes, List.prefix_of_prefix_length_le (prefix_flatten_take rs _) ?_ ?_⟩
    · exact ⟨_, bytes⟩
    · rw [Bytes.length_unpack, ← offset]
      exact h.durable
  | null node => cases hnode.symm.trans node
  | full node => cases hnode.symm.trans node

/-- On a full device, of the calls `cs` the buffer `b` has taken the chunks `ts` and holds them. -/
structure OnFull (w : TableWriter) (cs : List Call) (ts : List (List Bytes)) (b : Buffered) :
    Prop where
  taken : List.Forall₂ (fun c ts => ts <+: c.chunks) cs ts
  held : Bytes.unpack b.held = ts.flatten.flatten
  writes : w.writes = ts.countP complete

theorem Took.held (h : w.Took d l ts b) (hfull : d.node? l = some (.device .full)) :
    Bytes.unpack b.held = ts.flatten.flatten := by
  rw [← h.opened.location] at hfull
  cases h.opened.carries with
  | file _ node => cases hfull.symm.trans node
  | null node => cases hfull.symm.trans node
  | full _ bytes => exact bytes

/-- Whatever is asked of a new writer before it is closed, its buffer is never overfull. On a
regular file nothing fails: all records are in the file or held, in order, and after each hundredth
and after a close all are in the file. On a full device the buffer holds what it has taken, in
order, and those statements count of which it has taken everything. A writer that has been closed
stays as it is and leaves the disk alone. -/
theorem calls_keep_records {table : String} {path : Path} {s' : Site}
    (h : create table path s = (.ok w, s')) :
    ∃ l, s.disk.Leads path l ∧ ∀ cs, .close ∉ cs →
      ∃ b, (w.calls s' cs).1.output = some b ∧ b.handle.location = l ∧ b.capacity = bufferSize ∧
        b.held.size ≤ b.capacity ∧
        ((∃ content, s'.disk.node? l = some (.file content)) →
          OnFile (w.calls s' cs).1 (w.calls s' cs).2.disk l (records cs) b ∧
          (∀ c, ((w.calls s' cs).1.call (w.calls s' cs).2 c).1 = .ok ()) ∧
          ((w.calls s' cs).1.close (w.calls s' cs).2).2.2.disk.node? l =
            some (.file (Bytes.pack (records cs).flatten))) ∧
        (s'.disk.node? l = some (.device .full) →
          OnFull (w.calls s' cs).1 cs (w.takenAll s' cs) b) ∧
        ∀ cs', (w.calls s' (cs ++ .close :: cs')).1.Shut ∧
          (w.calls s' (cs ++ .close :: cs')).1.writes = (w.calls s' cs).1.writes ∧
          (w.calls s' (cs ++ .close :: cs')).2.disk =
            ((w.calls s' cs).1.close (w.calls s' cs).2).2.2.disk := by
  obtain ⟨l, b₀, hleads, hopen, hwrites⟩ := create_opens h
  refine ⟨l, hleads, fun cs hcs => ?_⟩
  have hrewrites : s'.disk.Rewrites (· = l) (w.calls s' cs).2.disk :=
    calls_rewrites (.inl hopen.place) cs
  have htook : w.Took s'.disk l [] b₀ := ⟨hopen, hwrites⟩
  obtain ⟨b, hb⟩ := htook.calls hcs
  refine ⟨b, hb.opened.output, hb.opened.location, hb.opened.capacity, hb.opened.room, ?_, ?_, ?_⟩
  · intro hfile
    have hlogs : w.Logs s'.disk l [] b₀ := ⟨hopen, hfile, hwrites, Nat.zero_le _⟩
    obtain ⟨b', hb'⟩ := hlogs.calls hcs
    obtain rfl : b' = b := by simpa using hb'.opened.output.symm.trans hb.opened.output
    obtain ⟨content, hn⟩ := hb'.file
    exact ⟨hb'.onFile, hb'.opened.call_ok (by simp [hn]), hb'.opened.close_file hb'.file⟩
  · intro hfull
    exact ⟨w.takenAll_prefix s' cs, hb.held ((hrewrites.device_iff l .full).2 hfull), hb.writes⟩
  · intro cs'
    obtain ⟨hw, hd⟩ := w.calls_close s' cs cs'
    rw [hw]
    exact ⟨shut_of_isClosed rfl, rfl, hd⟩

/-- What a new writer for the table `t` is, and the site behind it. -/
def begun (path : Path) : Except Failure TableWriter × Site := create "t" path (.ofDisk .blank)

/-- A new writer at a full device. -/
def atFull : TableWriter :=
  ⟨"t", ⟨"/dev/full"⟩, some ⟨⟨.ofNames ["dev", "full"], 0⟩, bufferSize, .empty⟩, 0⟩

/-- A new writer at a file. -/
def atFile : TableWriter :=
  ⟨"t", ⟨"t.sql"⟩, some ⟨⟨.ofNames ["work", "t.sql"], 0⟩, bufferSize, .empty⟩, 0⟩

/-- Two statements, and a flush between them. -/
def twoStatements : List Call := [.write [97], .flush, .write [98]]

theorem calls_keep_records_twoStatements :
    (begun ⟨"t.sql"⟩).1 = .ok atFile ∧
      (∃ b, OnFile (atFile.calls (begun ⟨"t.sql"⟩).2 twoStatements).1
        (atFile.calls (begun ⟨"t.sql"⟩).2 twoStatements).2.disk (.ofNames ["work", "t.sql"])
        [[97, 10], [98, 10]] b ∧ b.held = Bytes.pack [98, 10]) ∧
      (begun ⟨"/dev/full"⟩).1 = .ok atFull ∧
      (∃ b, OnFull (atFull.calls (begun ⟨"/dev/full"⟩).2 twoStatements).1 twoStatements
        [[[97], [10]], [], [[98], [10]]] b ∧ b.held = Bytes.pack [97, 10, 98, 10]) ∧
      (atFull.calls (begun ⟨"/dev/full"⟩).2 (twoStatements ++ .close :: twoStatements)).1.Shut := by
  have hcs : Call.close ∉ twoStatements := by decide
  have hfile : (begun ⟨"t.sql"⟩).1 = .ok atFile := by decide +kernel
  have hfull : (begun ⟨"/dev/full"⟩).1 = .ok atFull := by decide +kernel
  have hnode : (begun ⟨"t.sql"⟩).2.disk.node? (.ofNames ["work", "t.sql"]) =
      some (.file .empty) := by
    decide +kernel
  have hdevice : (begun ⟨"/dev/full"⟩).2.disk.node? (.ofNames ["dev", "full"]) =
      some (.device .full) := by
    decide +kernel
  have hout : (atFile.calls (begun ⟨"t.sql"⟩).2 twoStatements).1.output =
      some ⟨⟨.ofNames ["work", "t.sql"], 2⟩, bufferSize, Bytes.pack [98, 10]⟩ := by decide +kernel
  have hheld : (atFull.calls (begun ⟨"/dev/full"⟩).2 twoStatements).1.output =
      some ⟨⟨.ofNames ["dev", "full"], 0⟩, bufferSize, Bytes.pack [97, 10, 98, 10]⟩ := by
    decide +kernel
  have htaken : atFull.takenAll (begun ⟨"/dev/full"⟩).2 twoStatements =
      [[[97], [10]], [], [[98], [10]]] := by
    decide +kernel
  have hmade : create "t" ⟨"t.sql"⟩ (.ofDisk .blank) = (.ok atFile, (begun ⟨"t.sql"⟩).2) :=
    Prod.ext hfile rfl
  have hmade' : create "t" ⟨"/dev/full"⟩ (.ofDisk .blank) = (.ok atFull, (begun ⟨"/dev/full"⟩).2) :=
    Prod.ext hfull rfl
  obtain ⟨l, -, hl⟩ := calls_keep_records hmade
  obtain ⟨b, hb, hloc, -, -, hon, -, -⟩ := hl twoStatements hcs
  obtain ⟨l', -, hl'⟩ := calls_keep_records hmade'
  obtain ⟨b', hb', hloc', -, -, -, hon', hshut⟩ := hl' twoStatements hcs
  obtain rfl := Option.some.inj (hb.symm.trans hout)
  obtain rfl := Option.some.inj (hb'.symm.trans hheld)
  subst hloc hloc'
  exact ⟨hfile, ⟨_, (hon ⟨_, hnode⟩).1, rfl⟩, hfull, ⟨_, htaken ▸ hon' hdevice, rfl⟩, (hshut _).1⟩

end TableWriter
end DumpRouter
