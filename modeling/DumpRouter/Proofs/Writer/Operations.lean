import DumpRouter.Proofs.Writer.Pool

/-!
# DumpRouter.Proofs.Writer.Operations

A pool in use. Its users ask for writers, write through the pool or through the writers that they
have been given, and close single writers or all of them, in any order and at any site: what is on
the disk between two operations, and so which of them fail, is left open.

* `Pool.Operation`, `Pool.after`: one operation.
* `Pool.Reachable`: the pools that come of operations on a new one.
* `after_keeps`: what operations come to, and so what is to be shown for a property to be kept.
* `orderly_after`: one operation keeps the writers apart into those that are served and those that
  are closed; `Reachable.orderly` is the same for any number.
* `Pool.Consistent`: what this says of the tables, the claims and the writers of a pool.
* `mem_writers_afterAll`: a writer stays that of its table until all are closed.
-/

namespace DumpRouter
namespace TableWriter

/-- What is done to a writer leaves it the writer of its table, and does not open it again. -/
structure Keeps (w w' : TableWriter) : Prop where
  table : w'.table = w.table
  path : w'.path = w.path
  closed : w.isClosed = true → w'.isClosed = true

variable (w : TableWriter) (s : Site)

theorem keeps_open {output : Option Buffered} (h : w.output = output) (hs : output.isSome = true)
    (b : Buffered) (n : Nat) : w.Keeps ⟨w.table, w.path, some b, n⟩ :=
  ⟨rfl, rfl, fun hc => by simp [isClosed, h, Option.isSome_iff_ne_none.1 hs] at hc⟩

theorem keeps_flushOutput {b : Buffered} (h : w.output = some b) (n : Nat) (b' : Buffered) :
    w.Keeps (flushOutput ⟨w.table, w.path, some b', n⟩ b' s).2.1 := by
  unfold flushOutput refuse
  split <;> exact w.keeps_open h rfl _ n

theorem keeps_write (statement : Bytes) : w.Keeps (w.write statement s).2.1 := by
  unfold write
  split
  · exact ⟨rfl, rfl, id⟩
  · next b hb =>
    split
    · exact w.keeps_open hb rfl _ _
    · split
      · exact w.keeps_open hb rfl _ _
      · dsimp only
        split
        · exact w.keeps_flushOutput _ hb _ _
        · exact w.keeps_open hb rfl _ _

theorem keeps_flush : w.Keeps (w.flush s).2.1 := by
  unfold flush
  split
  · exact ⟨rfl, rfl, id⟩
  · next b hb =>
    have := w.keeps_flushOutput s hb w.writes b
    rwa [← hb] at this

theorem keeps_close : w.Keeps (w.close s).2.1 := by
  rw [close_writer]
  exact ⟨rfl, rfl, fun _ => rfl⟩

end TableWriter

namespace Pool

/-- What the users of a pool may do. A writer is named by its place. -/
inductive Operation where
  | get (table : String)
  | getAt (table : String) (path : Path)
  | writeTable (table : String) (statement : Bytes)
  | write (id : WriterId) (statement : Bytes)
  | flush (id : WriterId)
  | close (id : WriterId)
  | closeAll

/-- The pool behind an operation, whether or not it fails. -/
def after (p : Pool) (s : Site) : Operation → Pool
  | .get table => (p.get table s).2.1
  | .getAt table path => (p.getAt table path s).2.1
  | .writeTable table statement => (p.writeTable table statement s).2.1
  | .write id statement => (p.write id statement s).2.1
  | .flush id => (p.onWriter id s TableWriter.flush).2.1
  | .close id => (p.onWriter id s TableWriter.close).2.1
  | .closeAll => (p.closeAll s).2.1

/-- The pool behind operations, each at a site of its own. -/
def afterAll (p : Pool) (os : List (Operation × Site)) : Pool :=
  os.foldl (fun p o => p.after o.2 o.1) p

/-- The pools that come of operations on a new pool for the directory `dir`. -/
inductive Reachable (dir : Path) : Pool → Prop where
  | new : Reachable dir (.new dir)
  | after {p : Pool} (o : Operation) (s : Site) : Reachable dir p → Reachable dir (p.after s o)

/-- The pool serves some of the writers that it has made, and the others are closed. -/
def Orderly (p : Pool) : Prop :=
  ∃ old ws, p.Serves old ws ∧ ∀ w ∈ old, w.isClosed = true

variable {p : Pool} {s : Site} {table : String}

/-- What operations come to: writers are made, things are done to writers, and all are closed. A
writer is made for a table that has none, at a path that nobody has claimed and that the pool has
chosen unless the operation gives it. What these keep of a pool is kept by the operation. -/
theorem after_keeps {P : Pool → Prop} {o : Operation}
    (hadd : ∀ q table path s, P q → q.writers.lookup table = none → q.isClaimed path = false →
      path = q.freePath table ∨ o = .getAt table path → P (q.add table path s).2.1)
    (hon : ∀ q id s f, P q → (∀ w : TableWriter, w.Keeps (f w s).2.1) →
      P (q.onWriter id s f).2.1)
    (hclose : o = .closeAll → ∀ q s, P q → P (q.closeAll s).2.1) (h : P p) (s : Site) :
    P (p.after s o) := by
  have hget : ∀ table, P (p.get table s).2.1 := by
    intro table
    unfold get
    split
    · exact h
    · next hl => exact hadd p table _ _ h hl (p.isClaimed_freePath table) (.inl rfl)
  cases o with
  | get table => exact hget table
  | getAt table path =>
    simp only [after, getAt]
    split
    · exact h
    · next hl =>
      split
      · exact h
      · next hk => exact hadd p table path s h hl (Bool.eq_false_iff.2 hk) (.inr rfl)
  | writeTable table statement =>
    have hg := hget table
    simp only [after, writeTable]
    split
    · next hx => rw [hx] at hg; exact hg
    · next id p' s' hx =>
      rw [hx] at hg
      exact hon p' id s' _ hg fun w => w.keeps_write s' statement
  | write id statement => exact hon p id s _ h fun w => w.keeps_write s statement
  | flush id => exact hon p id s _ h fun w => w.keeps_flush s
  | close id => exact hon p id s _ h fun w => w.keeps_close s
  | closeAll => exact hclose rfl p s h

section Step

variable (h : p.Orderly)
include h

theorem orderly_add {path : Path} (hl : p.writers.lookup table = none)
    (hk : p.isClaimed path = false) (s : Site) : (p.add table path s).2.1.Orderly := by
  obtain ⟨old, ws, hs, ho⟩ := h
  cases ha : p.add table path s with
  | mk x y =>
    rcases add_cases hs (hs.lookup_none hl) hk ha with ⟨w, -, -, hp, -⟩ | ⟨-, -, -, rfl⟩
    · exact ⟨old, ws ++ [w], hp, ho⟩
    · exact ⟨old, ws, hs, ho⟩

theorem orderly_onWriter (id : WriterId) (s : Site)
    {f : TableWriter → Site → Except Failure Unit × TableWriter × Site}
    (hf : ∀ w : TableWriter, w.Keeps (f w s).2.1) : (p.onWriter id s f).2.1.Orderly := by
  obtain ⟨old, ws, hs, ho⟩ := h
  unfold onWriter
  split
  · exact ⟨old, ws, hs, ho⟩
  · next w hw =>
    dsimp only
    by_cases hlt : id < old.length
    · -- the writer is one that the pool has closed
      have hmem : w ∈ old := by
        rw [writer?, hs.made, List.getElem?_append_left hlt] at hw
        exact List.mem_of_getElem? hw
      refine ⟨old.set id (f w s).2.1, ws, ?_, ?_⟩
      · refine ⟨?_, ?_, hs.claimed, hs.tables, hs.keys⟩
        · rw [hs.made, List.set_append_left _ _ hlt]
        · rw [List.length_set]
          exact hs.writers
      · intro v hv
        rcases List.mem_or_eq_of_mem_set hv with hv | rfl
        · exact ho v hv
        · exact (hf w).closed (ho w hmem)
    · have hid : id = old.length + (id - old.length) :=
        (Nat.add_sub_cancel' (Nat.le_of_not_lt hlt)).symm
      have hi : ws[id - old.length]? = some w := by
        rw [← hs.writer?, ← hid]
        exact hw
      have := hs.set hi (hf w).table (hf w).path
      rw [← hid] at this
      exact ⟨old, _, this, ho⟩

theorem orderly_closeAll (s : Site) : (p.closeAll s).2.1.Orderly := by
  obtain ⟨old, ws, hs, ho⟩ := h
  refine ⟨_, _, serves_closeAll hs s, ?_⟩
  intro w hw
  rcases List.mem_append.1 hw with hw | hw
  · exact ho w hw
  · obtain ⟨v, -, rfl⟩ := List.mem_map.1 hw
    rfl

theorem orderly_after (s : Site) (o : Operation) : (p.after s o).Orderly :=
  after_keeps (fun _ _ _ s hq hl hk _ => orderly_add hq hl hk s)
    (fun _ id s _ hq hf => orderly_onWriter hq id s hf)
    (fun _ _ s hq => orderly_closeAll hq s) h s

end Step

theorem Reachable.orderly {dir : Path} (h : p.Reachable dir) : p.Orderly := by
  induction h with
  | new => exact ⟨[], [], (idle_new dir).serves, by simp⟩
  | after o s _ ih => exact orderly_after ih s o

/-- What holds between the tables, the claims and the writers of a pool. -/
structure Consistent (p : Pool) : Prop where
  tables : (p.writers.map (·.1)).Nodup
  writer : ∀ e ∈ p.writers, ∃ w, p.writer? e.2 = some w ∧ w.table = e.1
  claimed : ∀ k, k ∈ p.claimed ↔ ∃ e ∈ p.writers, ∃ w, p.writer? e.2 = some w ∧ w.path.key = k
  keys : ∀ e ∈ p.writers, ∀ e' ∈ p.writers, ∀ w w', p.writer? e.2 = some w →
    p.writer? e'.2 = some w' → w.path.key = w'.path.key → e = e'
  /-- A writer that is no table's is closed. -/
  closed : ∀ id w, p.writer? id = some w → id ∉ p.writers.map (·.2) → w.isClosed = true

theorem Serves.mem_writers {old ws : List TableWriter} (h : p.Serves old ws)
    {e : String × WriterId} :
    e ∈ p.writers ↔ ∃ i w, ws[i]? = some w ∧ e = (w.table, old.length + i) := by
  rw [h.writers, List.mem_reverse, List.mem_zipIdx_iff_le_and_getElem?_sub, List.getElem?_map]
  constructor
  · rintro ⟨hle, he⟩
    obtain ⟨w, hw, ht⟩ := Option.map_eq_some_iff.1 he
    exact ⟨e.2 - old.length, w, hw, Prod.ext ht.symm (Nat.add_sub_cancel' hle).symm⟩
  · rintro ⟨i, w, hi, rfl⟩
    exact ⟨by omega, by simp [hi]⟩

theorem Orderly.consistent (h : p.Orderly) : p.Consistent := by
  obtain ⟨old, ws, hs, ho⟩ := h
  have hlookup : ∀ e ∈ p.writers, ∃ i w, ws[i]? = some w ∧ e = (w.table, old.length + i) ∧
      p.writer? e.2 = some w := by
    intro e he
    obtain ⟨i, w, hi, rfl⟩ := hs.mem_writers.1 he
    exact ⟨i, w, hi, rfl, (hs.writer? i).trans hi⟩
  refine ⟨?_, ?_, ?_, ?_, ?_⟩
  · rw [hs.writers, List.map_reverse, List.nodup_reverse, List.zipIdx_map_fst]
    exact hs.tables
  · intro e he
    obtain ⟨i, w, -, rfl, hw⟩ := hlookup e he
    exact ⟨w, hw, rfl⟩
  · intro k
    rw [hs.claimed, List.mem_reverse, List.mem_map]
    constructor
    · rintro ⟨w, hw, rfl⟩
      obtain ⟨i, hi⟩ := List.mem_iff_getElem?.1 hw
      exact ⟨_, hs.mem_writers.2 ⟨i, w, hi, rfl⟩, w, (hs.writer? i).trans hi, rfl⟩
    · rintro ⟨e, he, w, hw, rfl⟩
      obtain ⟨i, v, hi, rfl, hv⟩ := hlookup e he
      cases hw.symm.trans hv
      exact ⟨w, List.mem_of_getElem? hi, rfl⟩
  · intro e he e' he' w w' hw hw' hk
    obtain ⟨i, v, hi, rfl, hv⟩ := hlookup e he
    obtain ⟨j, v', hj, rfl, hv'⟩ := hlookup e' he'
    cases hw.symm.trans hv
    cases hw'.symm.trans hv'
    have hsame : w = w' := List.inj_on_of_nodup_map hs.keys (List.mem_of_getElem? hi)
      (List.mem_of_getElem? hj) hk
    subst hsame
    have hlt := (List.getElem?_eq_some_iff.1 hi).1
    rw [(List.getElem?_inj hlt (.of_map _ hs.tables)).1 (hi.trans hj.symm)]
  · intro id w hw hid
    refine ho w ?_
    rw [writer?, hs.made] at hw
    by_cases hlt : id < old.length
    · rw [List.getElem?_append_left hlt] at hw
      exact List.mem_of_getElem? hw
    · refine absurd ?_ hid
      rw [List.getElem?_append_right (Nat.le_of_not_lt hlt)] at hw
      exact List.mem_map.2 ⟨_, hs.mem_writers.2 ⟨_, w, hw, rfl⟩,
        Nat.add_sub_cancel' (Nat.le_of_not_lt hlt)⟩

theorem Consistent.lookup (h : p.Consistent) {e : String × WriterId} (he : e ∈ p.writers) :
    p.writers.lookup e.1 = some e.2 := by
  obtain ⟨l, l', hl⟩ := List.append_of_mem he
  refine List.lookup_eq_some_iff.2 ⟨l, l', hl, ?_⟩
  intro e' he'
  have hn := h.tables
  rw [hl, List.map_append, List.nodup_append] at hn
  have := hn.2.2 e'.1 (List.mem_map_of_mem he') e.1 (by simp)
  simpa using this.symm

theorem writers_add_suffix (p : Pool) (table : String) (path : Path) (s : Site) :
    p.writers <:+ (p.add table path s).2.1.writers := by
  unfold add
  split
  · exact List.suffix_refl _
  · exact List.suffix_cons _ _

theorem writers_onWriter (p : Pool) (id : WriterId) (s : Site)
    (f : TableWriter → Site → Except Failure Unit × TableWriter × Site) :
    (p.onWriter id s f).2.1.writers = p.writers := by
  unfold onWriter
  split <;> rfl

/-- Only closing all writers takes one from its table. -/
theorem writers_after_suffix {o : Operation} (ho : o ≠ .closeAll) (p : Pool) (s : Site) :
    p.writers <:+ (p.after s o).writers := by
  refine after_keeps (P := fun q => p.writers <:+ q.writers) ?_ ?_ (absurd · ho)
    (List.suffix_refl _) s
  · intro q table path s hq _ _ _
    exact hq.trans (q.writers_add_suffix table path s)
  · intro q id s f hq _
    rw [writers_onWriter]
    exact hq

theorem mem_writers_afterAll {os : List (Operation × Site)} (ho : ∀ o ∈ os, o.1 ≠ .closeAll)
    {e : String × WriterId} (he : e ∈ p.writers) : e ∈ (p.afterAll os).writers := by
  induction os generalizing p with
  | nil => exact he
  | cons o os ih =>
    have hstep := (writers_after_suffix (ho o (by simp)) p o.2).mem he
    exact ih (fun o' h' => ho o' (List.mem_cons_of_mem _ h')) hstep

theorem orderly_afterAll (h : p.Orderly) (os : List (Operation × Site)) :
    (p.afterAll os).Orderly := by
  induction os generalizing p with
  | nil => exact h
  | cons o os ih => exact ih (orderly_after h o.2 o.1)

/-- What the pool answers that is asked for the writer of a table: the one that the table has from
then on, or a failure that leaves no trace. -/
structure Answers (p : Pool) (table : String) (r : Except Failure WriterId × Pool × Site) :
    Prop where
  given : ∀ id, r.1 = .ok id → (table, id) ∈ r.2.1.writers
  refused : ∀ e, r.1 = .error e → r.2.1 = p

theorem mem_of_lookup {id : WriterId} (h : p.writers.lookup table = some id) :
    (table, id) ∈ p.writers := by
  obtain ⟨l, l', hl, -⟩ := List.lookup_eq_some_iff.1 h
  rw [hl]
  simp

theorem answers_add (p : Pool) (table : String) (path : Path) (s : Site) :
    p.Answers table (p.add table path s) := by
  unfold add
  split
  · exact ⟨nofun, fun _ _ => rfl⟩
  · refine ⟨?_, nofun⟩
    rintro id ⟨⟩
    exact List.mem_cons_self

theorem answers_get (p : Pool) (table : String) (s : Site) :
    p.Answers table (p.get table s) := by
  unfold get
  split
  · next id hl =>
    refine ⟨?_, nofun⟩
    rintro id ⟨⟩
    exact mem_of_lookup hl
  · exact p.answers_add ..

theorem answers_getAt (p : Pool) (table : String) (path : Path) (s : Site) :
    p.Answers table (p.getAt table path s) := by
  unfold getAt
  split
  · next id hl =>
    refine ⟨?_, nofun⟩
    rintro id ⟨⟩
    exact mem_of_lookup hl
  · split
    · exact ⟨nofun, fun _ _ => rfl⟩
    · exact p.answers_add ..

theorem writeTable_refused {e : Failure} (h : (p.get table s).1 = .error e) (statement : Bytes) :
    (p.writeTable table statement s).1 = .error e ∧
      (p.writeTable table statement s).2.1 = p := by
  have hp := (p.answers_get table s).refused e h
  unfold writeTable
  split
  · next hx =>
    rw [hx] at h hp
    cases h
    exact ⟨rfl, hp⟩
  · next hx =>
    rw [hx] at h
    cases h

/-- In every pool that comes of operations on a new one tables, claims and writers agree. A pool
that is asked for a writer gives the one that the table has from then on, until all are closed and
the pool begins anew, or fails and is as it was. -/
theorem consistent_of_reachable {dir : Path} {p : Pool} (h : p.Reachable dir) :
    p.Consistent ∧
      (∀ e ∈ p.writers, ∀ os : List (Operation × Site), (∀ o ∈ os, o.1 ≠ .closeAll) →
        ∀ (path : Path) (s : Site),
          (p.afterAll os).get e.1 s = (.ok e.2, p.afterAll os, s) ∧
          (p.afterAll os).getAt e.1 path s = (.ok e.2, p.afterAll os, s)) ∧
      (∀ s, (p.after s .closeAll).Idle) ∧
      ∀ (table : String) (s : Site),
        p.Answers table (p.get table s) ∧ (∀ path, p.Answers table (p.getAt table path s)) ∧
        ∀ statement e, (p.get table s).1 = .error e →
          (p.writeTable table statement s).1 = .error e ∧
            (p.writeTable table statement s).2.1 = p := by
  refine ⟨h.orderly.consistent, ?_, p.idle_closeAll, ?_⟩
  · intro e he os ho path s
    have hl := (orderly_afterAll h.orderly os).consistent.lookup (mem_writers_afterAll ho he)
    exact ⟨by rw [get, hl], by rw [getAt, hl]⟩
  · intro table s
    exact ⟨p.answers_get table s, fun path => p.answers_getAt table path s,
      fun statement e he => writeTable_refused he statement⟩

/-- A site with a directory for the files of a pool. -/
def outSite : Site := .ofDisk (Disk.blank.mkdirAll ⟨"out"⟩).2

/-- A pool with two tables whose files would have one name. -/
def twoOfAName : Pool := ((Pool.new ⟨"out"⟩).after outSite (.get "a_b")).after outSite (.get "A/B")

theorem consistent_of_reachable_twoOfAName :
    twoOfAName.Reachable ⟨"out"⟩ ∧
      twoOfAName.writers = [("A/B", 1), ("a_b", 0)] ∧
      twoOfAName.claimed = ["out/a_b_2.sql", "out/a_b.sql"] ∧
      twoOfAName.Consistent ∧
      (twoOfAName.afterAll [(.close 1, outSite), (.get "t", outSite)]).getAt "A/B" ⟨"x"⟩ outSite =
        (.ok 1, twoOfAName.afterAll [(.close 1, outSite), (.get "t", outSite)], outSite) ∧
      (twoOfAName.getAt "t" ⟨"out/A_b.sql"⟩ outSite).1 =
        .error (.writerCreate "t" ⟨"out/A_b.sql"⟩ .claimed) ∧
      (twoOfAName.getAt "t" ⟨"out/A_b.sql"⟩ outSite).2.1 = twoOfAName := by
  have hr : twoOfAName.Reachable ⟨"out"⟩ := .after _ _ (.after _ _ .new)
  have hw : twoOfAName.writers = [("A/B", 1), ("a_b", 0)] := by decide +kernel
  have hc : twoOfAName.claimed = ["out/a_b_2.sql", "out/a_b.sql"] := by decide +kernel
  have he : (twoOfAName.getAt "t" ⟨"out/A_b.sql"⟩ outSite).1 =
      .error (.writerCreate "t" ⟨"out/A_b.sql"⟩ .claimed) := by decide +kernel
  obtain ⟨hcons, hsame, -, hans⟩ := consistent_of_reachable hr
  have hkept := hsame ("A/B", 1) (by simp [hw]) [(.close 1, outSite), (.get "t", outSite)]
    (by simp) ⟨"x"⟩ outSite
  exact ⟨hr, hw, hc, hcons, hkept.2, he, ((hans "t" outSite).2.1 _).refused _ he⟩

end Pool
end DumpRouter
