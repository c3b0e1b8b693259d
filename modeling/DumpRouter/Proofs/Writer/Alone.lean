import DumpRouter.Proofs.Writer.Closing

/-!
# DumpRouter.Proofs.Writer.Alone

A writer of a pool in use that has its file to itself, from the operation that makes it on. Whatever
else is done to the pool, and whatever fails, its file and its buffer hold what it has taken.

* `Pool.perform`: an operation with its result and what it leaves on the disk.
* `Pool.brings`: what an operation brings to a writer.
* `Pool.Alone`: the operations since a writer was made, none of which opens its file again.
* `Holds.perform`: an operation keeps what has been brought to the writer.
* `Alone.holds`: so does any number of them.
-/

namespace DumpRouter
namespace Pool

/-- An operation: its result, the pool behind it and the site behind it. -/
def perform (p : Pool) (s : Site) : Operation → Except Failure Unit × Pool × Site
  | .get table => ((p.get table s).1.map fun _ => (), (p.get table s).2)
  | .getAt table path => ((p.getAt table path s).1.map fun _ => (), (p.getAt table path s).2)
  | .writeTable table statement => p.writeTable table statement s
  | .write id statement => p.write id statement s
  | .flush id => p.onWriter id s TableWriter.flush
  | .close id => p.onWriter id s TableWriter.close
  | .closeAll => p.closeAll s

theorem perform_pool (p : Pool) (s : Site) (o : Operation) : (p.perform s o).2.1 = p.after s o := by
  cases o <;> rfl

/-- The statement that an operation has for a writer. The writers of the tables are those of the
pool behind the operation. -/
def Operation.statement? (p : Pool) (id : WriterId) : Operation → Option Bytes
  | .write j statement => if j = id then some statement else none
  | .writeTable table statement =>
    if p.writers.lookup table = some id then some statement else none
  | _ => none

/-- What an operation brings to a writer: a statement with a newline, if it does not fail. -/
def brings (p : Pool) (s : Site) (id : WriterId) (o : Operation) : Bytes :=
  match o.statement? (p.after s o) id with
  | none => []
  | some statement => if (p.perform s o).1.isOk then statement ++ [10] else []

/-- The pool and the site behind operations since the writer `id` was made for a regular file at the
place `l`. No other writer has had this place open since, and between the operations nothing has
changed there. The bytes `c` have been brought to the writer. -/
inductive Alone (dir : Path) (id : WriterId) (l : Location) : Pool → Site → Bytes → Prop where
  | made {p : Pool} {s : Site} (o : Operation) : p.Reachable dir → p.writer? id = none →
    (p.after s o).place? id = some l → (p.after s o).Sole id l →
    (∃ content, (p.perform s o).2.2.disk.node? l = some (.file content)) →
    Alone dir id l (p.after s o) (p.perform s o).2.2 (p.brings s id o)
  | step {p : Pool} {s : Site} {c : Bytes} (o : Operation) : Alone dir id l p s c →
    (p.after s o).Sole id l →
    Alone dir id l (p.after s o) (p.perform s o).2.2 (c ++ p.brings s id o)
  | elsewhere {p : Pool} {s s' : Site} {c : Bytes} : Alone dir id l p s c →
    s'.disk.node? l = s.disk.node? l → Alone dir id l p s' c

/-- The pool and the site behind operations, whichever of them fail. -/
def run (p : Pool) (s : Site) (os : List Operation) : Pool × Site :=
  os.foldl (fun x o => (x.1.perform x.2 o).2) (p, s)

/-- What operations bring to a writer. -/
def bringsAll (p : Pool) (s : Site) (id : WriterId) : List Operation → Bytes
  | [] => []
  | o :: os => p.brings s id o ++ bringsAll (p.perform s o).2.1 (p.perform s o).2.2 id os

/-- No other writer has the place `l` open behind any of the operations. -/
def SoleThrough (p : Pool) (s : Site) (id : WriterId) (l : Location) : List Operation → Prop
  | [] => True
  | o :: os => (p.perform s o).2.1.Sole id l ∧
    SoleThrough (p.perform s o).2.1 (p.perform s o).2.2 id l os

instance decidableSoleThrough (p : Pool) (s : Site) (id : WriterId) (l : Location) :
    (os : List Operation) → Decidable (p.SoleThrough s id l os)
  | [] => inferInstanceAs (Decidable True)
  | o :: os =>
    have := decidableSoleThrough (p.perform s o).2.1 (p.perform s o).2.2 id l os
    inferInstanceAs (Decidable (_ ∧ _))

/-- The bytes `c` are in the file of the writer or held by it, and all in the file if it is
closed. -/
inductive Holds (p : Pool) (d : Disk) (id : WriterId) (l : Location) (c : Bytes) : Prop where
  | opened (w : TableWriter) (b : Buffered) : p.writer? id = some w → w.Open d l c b →
    (∃ content, d.node? l = some (.file content)) → Holds p d id l c
  | closed (w : TableWriter) : p.writer? id = some w → w.isClosed = true →
    d.node? l = some (.file (Bytes.pack c)) → Holds p d id l c

variable {p p' : Pool} {dir : Path} {s s' : Site} {d d' : Disk} {id j : WriterId} {l : Location}
  {c : Bytes} {table : String} {path : Path} {w : TableWriter}

theorem Alone.reachable (h : Alone dir id l p s c) : p.Reachable dir := by
  induction h with
  | made o hr => exact .after o _ hr
  | step o _ _ ih => exact .after o _ ih
  | elsewhere _ _ ih => exact ih

theorem Holds.congr (h : p.Holds d id l c) (hw : p'.writer? id = p.writer? id)
    (hn : d'.node? l = d.node? l) : p'.Holds d' id l c := by
  cases h with
  | opened w b h hopen hfile => exact .opened w b (hw.trans h) (hopen.congr hn) (hn ▸ hfile)
  | closed w h hclosed hfile => exact .closed w (hw.trans h) hclosed (hn.trans hfile)

theorem Holds.writer (h : p.Holds d id l c) : ∃ w, p.writer? id = some w := by
  cases h with
  | opened w _ h _ _ => exact ⟨w, h⟩
  | closed w h _ _ => exact ⟨w, h⟩

/-! ## A writer is asked for -/

/-- What it comes to that a writer is asked for: nothing changes, or one is made. -/
def Asks (p : Pool) (s : Site) (r : Except Failure WriterId × Pool × Site) : Prop :=
  r.2 = (p, s) ∨ ∃ table path s₀, s₀.disk = s.disk ∧ r = p.add table path s₀

theorem asks_get (p : Pool) (table : String) (s : Site) : p.Asks s (p.get table s) := by
  unfold get
  split
  · exact .inl rfl
  · refine .inr ⟨table, _, _, ?_, rfl⟩
    split <;> rfl

theorem asks_getAt (p : Pool) (table : String) (path : Path) (s : Site) :
    p.Asks s (p.getAt table path s) := by
  unfold getAt
  split
  · exact .inl rfl
  · split
    · exact .inl rfl
    · exact .inr ⟨table, path, s, rfl, rfl⟩

/-- A writer that has its file to itself also when another one is made stays as it is. -/
theorem Asks.apart {r : Except Failure WriterId × Pool × Site} (hr : p.Asks s r)
    (hw : p.writer? id = some w) (hsole : r.2.1.Sole id l) :
    r.2.1.writer? id = p.writer? id ∧ r.2.2.disk.node? l = s.disk.node? l := by
  rcases hr with he | ⟨table, path, s₀, hs₀, rfl⟩
  · rw [he]
    exact ⟨rfl, rfl⟩
  · have hlt := lt_of_writer? hw
    unfold add at hsole ⊢
    cases hc : TableWriter.create table path s₀ with
    | mk x s' =>
      rw [hc] at hsole
      cases x with
      | error e => exact ⟨rfl, by rw [(TableWriter.create_fails hc).2, hs₀]⟩
      | ok v =>
        obtain ⟨-, -, k, -, htouches, b, hb, hk, -⟩ := TableWriter.create_carries hc
        -- The new writer is open at `k`, where the other one would not be alone.
        have hne : l ≠ k := by
          rintro rfl
          have hplace : Pool.place? { p with
              made := p.made ++ [v]
              writers := (table, p.made.length) :: p.writers
              claimed := path.key :: p.claimed } p.made.length = some l := by
            simp [place?, writer?, TableWriter.place?, hb, hk]
          exact absurd (hsole.eq hplace) (Nat.ne_of_gt hlt)
        refine ⟨List.getElem?_append_left hlt, ?_⟩
        rw [htouches.other l hne, hs₀]

theorem Holds.asks (h : p.Holds s.disk id l c) {r : Except Failure WriterId × Pool × Site}
    (hr : p.Asks s r) (hsole : r.2.1.Sole id l) : r.2.1.Holds r.2.2.disk id l c := by
  obtain ⟨w, hw⟩ := h.writer
  obtain ⟨hsame, hn⟩ := hr.apart hw hsole
  exact h.congr hsame hn

/-- A writer that is made is open and has taken nothing. -/
theorem Asks.makes {r : Except Failure WriterId × Pool × Site} (hr : p.Asks s r)
    (hnone : p.writer? id = none) (hw : r.2.1.writer? id = some w) :
    r.1 = .ok id ∧ ∃ l b, w.Open r.2.2.disk l [] b := by
  rcases hr with he | ⟨table, path, s₀, -, rfl⟩
  · rw [he] at hw
    cases hnone.symm.trans hw
  · unfold add at hw ⊢
    cases hc : TableWriter.create table path s₀ with
    | mk x s' =>
      rw [hc] at hw
      cases x with
      | error e => cases hnone.symm.trans hw
      | ok v =>
        obtain ⟨l, b, -, hopen, -⟩ := TableWriter.create_opens hc
        have hge : p.made.length ≤ id := List.getElem?_eq_none_iff.1 hnone
        have hlt : id < (p.made ++ [v]).length := lt_of_writer? hw
        obtain rfl : p.made.length = id :=
          Nat.le_antisymm hge (Nat.le_of_lt_succ (by simpa using hlt))
        have hv : (p.made ++ [v])[p.made.length]? = some v := by simp
        cases hv.symm.trans hw
        exact ⟨rfl, l, b, hopen⟩

/-! ## Something is done to a writer -/

theorem Holds.other (h : p.Holds s.disk id l c) (hj : j ≠ id) (hsole : p.Sole id l)
    (k : TableWriter.Call) :
    (p.onWriter j s fun w s => w.call s k).2.1.Holds
      (p.onWriter j s fun w s => w.call s k).2.2.disk id l c := by
  refine h.congr ?_ ?_
  · rw [writer?_onWriter, if_neg (Ne.symm hj)]
  · exact (p.onWriter_rewrites j s k).other fun hl => hj (hsole.eq hl)

/-- A writer at a regular file that is open takes all that is brought to it, and one that is closed
takes nothing. -/
theorem Holds.call (h : p.Holds s.disk id l c) (k : TableWriter.Call) :
    (p.onWriter id s fun w s => w.call s k).2.1.Holds
      (p.onWriter id s fun w s => w.call s k).2.2.disk id l
      (c ++ if (p.onWriter id s fun w s => w.call s k).1.isOk then k.record.flatten else []) := by
  cases h with
  | closed w hw hclosed hn =>
    obtain ⟨hsame, hd, hrecord⟩ := (TableWriter.shut_of_isClosed hclosed).call s k
    have hw' : (p.onWriter id s fun w s => w.call s k).2.1.writer? id = some w := by
      rw [writer?_onWriter, if_pos rfl, hw, Option.map_some, hsame]
    unfold onWriter at hw' ⊢
    rw [hw] at hw' ⊢
    refine .closed w hw' hclosed ?_
    dsimp only
    rw [hd, hn]
    cases hx : (w.call s k).1 with
    | error e => simp [Except.isOk, Except.toBool]
    | ok _ => simp [hrecord hx]
  | opened w b hw hopen hfile =>
    have hfile' := ((w.call_rewrites s k).file_iff l).2 hfile
    have hok : (w.call s k).1 = .ok () := by
      obtain ⟨content, hn⟩ := hfile
      exact hopen.call_ok (by simp [hn]) k
    have hw' : (p.onWriter id s fun w s => w.call s k).2.1.writer? id = some (w.call s k).2.1 := by
      rw [writer?_onWriter, if_pos rfl, hw, Option.map_some]
    unfold onWriter at hw' ⊢
    rw [hw] at hw' ⊢
    dsimp only at hw' ⊢
    rw [hok, if_pos (by rfl)]
    cases k with
    | write statement =>
      obtain ⟨b', hgoes, -⟩ := hopen.write statement
      rw [hopen.taken_of_file hfile] at hgoes
      refine .opened _ b' hw' ?_ hfile'
      have hbytes : (TableWriter.Call.write statement).chunks.flatten =
          (TableWriter.Call.write statement).record.flatten := by
        simp [TableWriter.Call.chunks, TableWriter.Call.record]
      rw [← hbytes]
      exact hgoes.opened
    | flush =>
      obtain ⟨b', hgoes, -⟩ := hopen.flush
      refine .opened _ b' hw' ?_ hfile'
      rw [TableWriter.Call.record, List.flatten_nil, List.append_nil]
      exact hgoes.opened
    | close =>
      refine .closed _ hw' (w.isClosed_close s) ?_
      rw [TableWriter.Call.record, List.flatten_nil, List.append_nil]
      exact hopen.close_file hfile

theorem Holds.closeAll (h : p.Holds s.disk id l c) (hr : p.Reachable dir) (hsole : p.Sole id l) :
    (p.closeAll s).2.2.disk.node? l = some (.file (Bytes.pack c)) := by
  cases h with
  | opened w b hw hopen hfile =>
    rw [node?_closeAll hr s hw hopen.place hsole]
    exact hopen.close_file hfile
  | closed w hw hclosed hn =>
    have hnone : p.place? id = none := by
      rw [place?, hw]
      exact TableWriter.place_of_isClosed hclosed
    rw [closeAll_eq, node?_closeEach_elsewhere none s fun j _ hj => ?_]
    · exact hn
    · have hj' : p.place? j = some l := hj
      rw [hsole.eq hj', hnone] at hj'
      cases hj'

/-! ## Any operation -/

theorem brings_eq_nil {o : Operation} (h : o.statement? (p.after s o) id = none) :
    p.brings s id o = [] := by
  rw [brings, h]

theorem place?_write (p : Pool) (j : WriterId) (statement : Bytes) (s : Site) :
    (p.write j statement s).2.1.place? id = p.place? id := by
  unfold place? write
  rw [writer?_onWriter]
  split
  · cases p.writer? id with
    | none => rfl
    | some w => exact (w.write_stays statement s).place
  · rfl

theorem Sole.of_write {statement : Bytes} (h : (p.write j statement s).2.1.Sole id l) :
    p.Sole id l := fun _ _ hk => h.eq ((place?_write ..).trans hk)

/-- Something is done to one of the writers. -/
theorem Holds.onWriter (h : p.Holds s.disk id l c) (hsole : p.Sole id l) (j : WriterId)
    (k : TableWriter.Call) :
    (p.onWriter j s fun w s => w.call s k).2.1.Holds
      (p.onWriter j s fun w s => w.call s k).2.2.disk id l
      (c ++ if j = id ∧ (p.onWriter j s fun w s => w.call s k).1.isOk then k.record.flatten
        else []) := by
  by_cases hj : j = id
  · subst hj
    simpa using h.call k
  · rw [if_neg fun hm => hj hm.1, List.append_nil]
    exact h.other hj hsole k

theorem Holds.onWriter_of_nothing (h : p.Holds s.disk id l c) (hsole : p.Sole id l) (j : WriterId)
    {k : TableWriter.Call} (hk : k.record = []) :
    (p.onWriter j s fun w s => w.call s k).2.1.Holds
      (p.onWriter j s fun w s => w.call s k).2.2.disk id l c := by
  simpa [hk] using h.onWriter hsole j k

theorem Holds.write (h : p.Holds s.disk id l c) (hsole : p.Sole id l) (j : WriterId)
    (statement : Bytes) :
    (p.write j statement s).2.1.Holds (p.write j statement s).2.2.disk id l
      (c ++ if j = id ∧ (p.write j statement s).1.isOk then statement ++ [10] else []) := by
  rw [← List.flatten_singleton (l := statement ++ [10])]
  exact h.onWriter hsole j (.write statement)

theorem lookup_of_get (h : p.Reachable dir) (hg : p.get table s = (.ok j, p', s')) :
    p'.writers.lookup table = some j := by
  have hafter : (p.get table s).2.1.Reachable dir := .after (.get table) s h
  have hgiven := (p.answers_get table s).given j (by rw [hg])
  rw [hg] at hafter hgiven
  exact hafter.orderly.consistent.lookup hgiven

/-- What a writer holds of a table that is written to. -/
theorem Holds.writeTable (hr : p.Reachable dir) {x : Except Failure WriterId}
    (hg : p.get table s = (x, p', s')) (h : p'.Holds s'.disk id l c) (hsole : p'.Sole id l)
    (statement : Bytes) :
    (p.after s (.writeTable table statement)).Holds
      (p.perform s (.writeTable table statement)).2.2.disk id l
      (c ++ p.brings s id (.writeTable table statement)) := by
  have hperform : p.perform s (.writeTable table statement) = p.writeTable table statement s := rfl
  rw [brings, ← perform_pool, hperform, Operation.statement?]
  unfold Pool.writeTable
  rw [hg]
  cases x with
  | error e =>
    dsimp only
    split
    · rwa [List.append_nil]
    · rw [if_neg (by simp [Except.isOk, Except.toBool]), List.append_nil]
      exact h
  | ok j =>
    -- The table may have been given a writer just now; it is the one that is written to.
    have hlookup := lookup_of_get hr hg
    have hw := h.write hsole j statement
    dsimp only at hlookup hw ⊢
    have hwriters : (p'.write j statement s').2.1.writers = p'.writers := writers_onWriter ..
    rw [hwriters, hlookup]
    by_cases hj : j = id
    · simpa [hj] using hw
    · simpa [hj] using hw

/-- An operation keeps what a writer holds that has its file to itself, and adds what it brings. -/
theorem Holds.perform (h : p.Holds s.disk id l c) (hr : p.Reachable dir) (hsole : p.Sole id l)
    {o : Operation} (hsole' : (p.after s o).Sole id l) :
    (p.after s o).Holds (p.perform s o).2.2.disk id l (c ++ p.brings s id o) := by
  cases o with
  | get table =>
    rw [brings_eq_nil rfl, List.append_nil]
    exact h.asks (p.asks_get table s) hsole'
  | getAt table path =>
    rw [brings_eq_nil rfl, List.append_nil]
    exact h.asks (p.asks_getAt table path s) hsole'
  | writeTable table statement =>
    cases hg : p.get table s with
    | mk x y =>
      have hasks := p.asks_get table s
      -- A statement opens and closes nothing, so the writer is alone already before it is written.
      have hget : y.1.Sole id l := by
        simp only [after, Pool.writeTable, hg] at hsole'
        cases x with
        | error e => exact hsole'
        | ok j => exact hsole'.of_write
      rw [hg] at hasks
      exact Holds.writeTable hr hg (h.asks hasks hget) hget statement
  | write j statement =>
    have hperform : p.perform s (.write j statement) = p.write j statement s := rfl
    have hw := h.write hsole j statement
    rw [brings, ← perform_pool, hperform, Operation.statement?]
    by_cases hj : j = id
    · simpa [hj] using hw
    · simpa [hj] using hw
  | flush j =>
    rw [brings_eq_nil rfl, List.append_nil]
    exact h.onWriter_of_nothing hsole j (k := .flush) rfl
  | close j =>
    rw [brings_eq_nil rfl, List.append_nil]
    exact h.onWriter_of_nothing hsole j (k := .close) rfl
  | closeAll =>
    rw [brings_eq_nil rfl, List.append_nil]
    obtain ⟨w, hw⟩ := h.writer
    refine .closed w.closed ?_ rfl (h.closeAll hr hsole)
    rw [after, writer?_closeAll hr.orderly.consistent, hw, Option.map_some]

theorem Asks.holds {r : Except Failure WriterId × Pool × Site} (hr : p.Asks s r)
    (hnone : p.writer? id = none) (hplace : r.2.1.place? id = some l)
    (hfile : ∃ content, r.2.2.disk.node? l = some (.file content)) :
    r.1 = .ok id ∧ r.2.1.Holds r.2.2.disk id l [] := by
  obtain ⟨w, hw, hl⟩ := Option.bind_eq_some_iff.1 hplace
  obtain ⟨hok, k, b, hopen⟩ := hr.makes hnone hw
  obtain rfl : k = l := Option.some.inj (hopen.place.symm.trans hl)
  exact ⟨hok, .opened w b hw hopen hfile⟩

/-- What is done to the writers that there are makes no other. -/
theorem place?_onWriter_of_none (h : p.writer? id = none) (j : WriterId) (s : Site)
    (f : TableWriter → Site → Except Failure Unit × TableWriter × Site) :
    (p.onWriter j s f).2.1.place? id = none := by
  rw [place?, writer?_onWriter, h]
  simp

/-- The operation that makes a writer may bring a statement to it already. -/
theorem holds_of_made (hr : p.Reachable dir) (hnone : p.writer? id = none) {o : Operation}
    (hplace : (p.after s o).place? id = some l) (hsole : (p.after s o).Sole id l)
    (hfile : ∃ content, (p.perform s o).2.2.disk.node? l = some (.file content)) :
    (p.after s o).Holds (p.perform s o).2.2.disk id l (p.brings s id o) := by
  cases o with
  | get table =>
    rw [brings_eq_nil rfl]
    exact ((p.asks_get table s).holds hnone hplace hfile).2
  | getAt table path =>
    rw [brings_eq_nil rfl]
    exact ((p.asks_getAt table path s).holds hnone hplace hfile).2
  | writeTable table statement =>
    cases hg : p.get table s with
    | mk x y =>
      have hasks := p.asks_get table s
      rw [hg] at hasks
      have hperform : p.perform s (.writeTable table statement) =
          p.writeTable table statement s := rfl
      rw [← perform_pool, hperform, Pool.writeTable, hg] at hplace hsole
      rw [hperform, Pool.writeTable, hg] at hfile
      cases x with
      | error e => cases (hasks.holds hnone hplace hfile).1
      | ok j =>
        have hfile' := ((y.1.onWriter_rewrites j y.2 (.write statement)).file_iff l).1 hfile
        have hholds := (hasks.holds hnone ((place?_write ..).symm.trans hplace) hfile').2
        exact Holds.writeTable hr hg hholds hsole.of_write statement
  | write j statement =>
    cases hplace.symm.trans (place?_onWriter_of_none hnone j s fun w => w.write statement)
  | flush j => cases hplace.symm.trans (place?_onWriter_of_none hnone j s TableWriter.flush)
  | close j => cases hplace.symm.trans (place?_onWriter_of_none hnone j s TableWriter.close)
  | closeAll =>
    rw [place?, after, writer?_closeAll hr.orderly.consistent, hnone] at hplace
    cases hplace

theorem Alone.sole (h : Alone dir id l p s c) : p.Sole id l := by
  induction h with
  | made _ _ _ _ hsole _ => exact hsole
  | step _ _ hsole _ => exact hsole
  | elsewhere _ _ ih => exact ih

theorem Alone.run (h : Alone dir id l p s c) {os : List Operation}
    (hs : p.SoleThrough s id l os) :
    Alone dir id l (p.run s os).1 (p.run s os).2 (c ++ p.bringsAll s id os) := by
  induction os generalizing p s c with
  | nil => simpa [Pool.run, bringsAll] using h
  | cons o os ih =>
    have hstep : Alone dir id l (p.perform s o).2.1 (p.perform s o).2.2 (c ++ p.brings s id o) := by
      have hsole := hs.1
      rw [perform_pool] at hsole ⊢
      exact h.step o hsole
    rw [bringsAll, ← List.append_assoc]
    exact ih hstep hs.2

/-- A writer that has its file to itself holds all that has been brought to it. -/
theorem Alone.holds (h : Alone dir id l p s c) : p.Holds s.disk id l c := by
  induction h with
  | made o hr hnone hplace hsole hfile => exact holds_of_made hr hnone hplace hsole hfile
  | step o h hsole ih => exact ih.perform h.reachable h.sole hsole
  | elsewhere _ hn ih => exact ih.congr rfl hn

end Pool
end DumpRouter
