import Mathlib
import DumpRouter.Proofs.Split.Streams
import DumpRouter.Proofs.Writer.Files

/-!
# DumpRouter.Proofs.Split.Routed

What a run is to make of a list of statements, and that it does so as long as it goes on.

* `Splitter.routed`: the statements that have a destination, each with its table; `mem_routed_iff`
  says which they are.
* `records`: what the file of a table is to hold, given the routed statements.
* `RunStats.ofRouted`: the counters that go with them.
* `Splitter.Underway`: the invariant of a run, which ties files and counters to the statements read.
* `underway_route`: one statement keeps it, unless there is a failure.
* `underway_streams`: how streaming ends, by induction on the statements.
-/

namespace DumpRouter

/-- A statement with the table it goes to. -/
abbrev Routed := String × Statement

/-- The records of a table: its statements in the order of the dump, each with a newline. -/
def records (table : String) (rs : List Routed) : Bytes :=
  (rs.filter fun r => r.1 == table).flatMap fun r => r.2.bytes ++ [10]

theorem records_concat (rs : List Routed) (table : String) (t : Statement) :
    (fun u => records u (rs ++ [(table, t)])) =
      Pool.written (fun u => records u rs) table (t.bytes ++ [10]) := by
  funext u
  unfold records Pool.written
  by_cases h : u = table
  · simp [h]
  · simp [h, Ne.symm h]

theorem records_ne_nil {rs : List Routed} {table : String} (h : table ∈ rs.map (·.1)) :
    records table rs ≠ [] := by
  obtain ⟨r, hr, rfl⟩ := List.mem_map.1 h
  intro he
  have := List.flatMap_eq_nil_iff.1 he r (List.mem_filter.2 ⟨hr, beq_self_eq_true _⟩)
  simp at this

/-- Weights summed up key by key are summed up all, if no key is missed. -/
theorem sum_byKey {α : Type} (key : α → String) (weight : α → Nat) {keys : List String}
    (hn : keys.Nodup) {xs : List α} (h : ∀ x ∈ xs, key x ∈ keys) :
    (keys.map fun k => ((xs.filter fun x => key x == k).map weight).sum).sum =
      (xs.map weight).sum := by
  induction xs with
  | nil => simp
  | cons x xs ih =>
    have hsplit : ∀ k, (((x :: xs).filter fun y => key y == k).map weight).sum =
        (if k = key x then weight x else 0) +
          ((xs.filter fun y => key y == k).map weight).sum := by
      intro k
      by_cases hk : k = key x
      · simp [hk]
      · simp [hk, Ne.symm hk]
    have hone : (keys.map fun k => if k = key x then weight x else 0).sum = weight x := by
      rw [List.sum_map_eq_nsmul_single (key x) _ fun k hk _ => if_neg hk,
        List.count_eq_one_of_mem hn (h x (by simp))]
      simp
    have hrest := ih fun y hy => h y (List.mem_cons_of_mem _ hy)
    simp only [hsplit, List.sum_map_add, hone, hrest, List.map_cons, List.sum_cons]

/-- The records of all tables together hold each routed statement once, with its newline. -/
theorem sum_records {tables : List String} (hn : tables.Nodup) {rs : List Routed}
    (h : ∀ r ∈ rs, r.1 ∈ tables) :
    (tables.map fun table => (records table rs).length).sum =
      (rs.map (·.2.length)).sum + rs.length := by
  have hlen : ∀ table, (records table rs).length =
      ((rs.filter fun r => r.1 == table).map fun r => r.2.length + 1).sum := by
    intro table
    simp [records, List.length_flatMap, Statement.length]
  simp only [hlen]
  rw [sum_byKey (fun r : Routed => r.1) (fun r => r.2.length + 1) hn h, List.sum_map_add]
  simp

namespace RunStats

/-- The counters of a run that has read `n` statements and routed those of `rs`. -/
def ofRouted (rs : List Routed) (n : Nat) : RunStats where
  processed := rs.length
  bytes := (rs.map (·.2.length)).sum
  tables := (rs.map (·.1)).eraseDups
  tablesFound := (rs.map (·.1)).eraseDups.length
  read := n

theorem countRead_ofRouted (rs : List Routed) (n : Nat) :
    (ofRouted rs n).countRead = ofRouted rs (n + 1) := rfl

theorem eraseDups_concat (l : List String) (a : String) :
    (l ++ [a]).eraseDups = if a ∈ l then l.eraseDups else l.eraseDups ++ [a] := by
  rw [List.eraseDups_append]
  by_cases h : a ∈ l
  · simp [List.removeAll, h]
  · simp [List.removeAll, h, List.eraseDups_cons]

theorem nodup_eraseDups (l : List String) : l.eraseDups.Nodup := by
  induction l using List.reverseRecOn with
  | nil => exact .nil
  | append_singleton l a ih =>
    rw [eraseDups_concat]
    split
    · exact ih
    · next h =>
      have ha : a ∉ l.eraseDups := by rwa [List.mem_eraseDups]
      refine List.nodup_append.2 ⟨ih, by simp, fun b hb c hc he => ha ?_⟩
      rwa [← List.mem_singleton.1 hc, ← he]

theorem countRouted_ofRouted (rs : List Routed) (n : Nat) (table : String) (t : Statement) :
    (ofRouted rs n).countRouted table t.length = ofRouted (rs ++ [(table, t)]) n := by
  have hmem : (rs.map (·.1)).eraseDups.contains table = true ↔ table ∈ rs.map (·.1) := by
    rw [List.contains_iff_mem, List.mem_eraseDups]
  have hcount : (if table ∈ rs.map (·.1) then (rs.map (·.1)).eraseDups.length
      else (rs.map (·.1)).eraseDups.length + 1) =
        (if table ∈ rs.map (·.1) then (rs.map (·.1)).eraseDups
          else (rs.map (·.1)).eraseDups ++ [table]).length := by
    split
    · rfl
    · rw [List.length_append, List.length_singleton]
  simp only [ofRouted, countRouted, List.map_append, List.map_singleton, eraseDups_concat, hmem,
    hcount]
  simp

end RunStats

namespace Splitter

/-- The statements that have a destination. -/
def routed (sp : Splitter) (ts : List Statement) : List Routed :=
  ts.filterMap fun t => (sp.destination? t).map (·, t)

theorem mem_routed_iff {sp : Splitter} {ts : List Statement} {table : String} {t : Statement} :
    (table, t) ∈ sp.routed ts ↔
      t ∈ ts ∧ ∃ kind, (classify t.bytes).target = some (kind, table) ∧
        (∀ names ∈ sp.limit, table ∈ names) ∧
        (sp.filter = .schemaOnly → kind ≠ .insert) ∧ (sp.filter = .dataOnly → kind = .insert) := by
  rw [← destination?_eq_some_iff, routed, List.mem_filterMap]
  constructor
  · rintro ⟨u, hu, he⟩
    obtain ⟨name, hname, hpair⟩ := Option.map_eq_some_iff.1 he
    cases hpair
    exact ⟨hu, hname⟩
  · rintro ⟨hmem, hname⟩
    exact ⟨t, hmem, by rw [hname]; rfl⟩

theorem routed_concat (sp : Splitter) (ts : List Statement) (t : Statement) :
    sp.routed (ts ++ [t]) = sp.routed ts ++ ((sp.destination? t).map (·, t)).toList := by
  unfold routed
  rw [List.filterMap_append]
  cases h : sp.destination? t <;> simp [h]

theorem destination?_congr {sp start : Splitter} (hl : sp.limit = start.limit)
    (hf : sp.filter = start.filter) (t : Statement) :
    sp.destination? t = start.destination? t := by
  unfold destination? accepts
  rw [hl, hf]

/-- A splitter that was `start` when the disk was `d` has read `n` statements. Those of `done` are
where they belong, and `ws` are the writers of their tables. -/
structure Underway (start : Splitter) (d : Disk) (done : List Statement) (n : Nat)
    (ws : List TableWriter) (sp : Splitter) (s : Site) : Prop where
  limit : sp.limit = start.limit
  filter : sp.filter = start.filter
  dryRun : sp.dryRun = false
  outputDir : sp.pool.outputDir = start.pool.outputDir
  stats : sp.stats = .ofRouted (start.routed done) n
  tracks : sp.pool.Tracks start.pool.made ws d s.disk fun t => records t (start.routed done)
  tables : ws.map (·.table) = ((start.routed done).map (·.1)).eraseDups

variable {start sp sp' : Splitter} {d : Disk} {done : List Statement} {n : Nat}
  {ws : List TableWriter} {s s' : Site}

theorem Underway.congr (h : Underway start d done n ws sp s) (hd : s'.disk = s.disk) :
    Underway start d done n ws sp s' :=
  { h with tracks := hd ▸ h.tracks }

theorem Underway.mem_tables (h : Underway start d done n ws sp s) {table : String} :
    table ∈ ws.map (·.table) ↔ table ∈ (start.routed done).map (·.1) := by
  rw [h.tables, List.mem_eraseDups]

section Step

variable (h : Underway start d done n ws sp s) {t : Statement} {table : String}
include h

theorem Underway.countRead :
    sp.stats.countRead = .ofRouted (start.routed done) (n + 1) := by
  rw [h.stats, RunStats.countRead_ofRouted]

theorem Underway.pass (hd : start.destination? t = none) :
    Underway start d (done ++ [t]) (n + 1) ws { sp with stats := sp.stats.countRead } s := by
  have hsame : start.routed (done ++ [t]) = start.routed done := by
    rw [routed_concat, hd]
    simp
  refine ⟨h.limit, h.filter, h.dryRun, h.outputDir, ?_, ?_, ?_⟩
  · rw [hsame]
    exact h.countRead
  · rw [hsame]
    exact h.tracks
  · rw [hsame]
    exact h.tables

theorem Underway.deliver (hd : start.destination? t = some table) {p : Pool}
    {ws' : List TableWriter} (hout : p.outputDir = sp.pool.outputDir)
    (htr : p.Tracks start.pool.made ws' d s'.disk
      (Pool.written (fun u => records u (start.routed done)) table (t.bytes ++ [10])))
    (htab : ws'.map (·.table) =
      if table ∈ ws.map (·.table) then ws.map (·.table) else ws.map (·.table) ++ [table]) :
    Underway start d (done ++ [t]) (n + 1) ws'
      { sp with pool := p, stats := sp.stats.countRead.countRouted table t.length } s' := by
  have hmore : start.routed (done ++ [t]) = start.routed done ++ [(table, t)] := by
    rw [routed_concat, hd]
    rfl
  refine ⟨h.limit, h.filter, h.dryRun, hout.trans h.outputDir, ?_, ?_, ?_⟩
  · dsimp only
    rw [h.countRead, hmore, RunStats.countRouted_ofRouted]
  · rw [hmore, records_concat]
    exact htr
  · rw [htab, hmore, List.map_append, List.map_singleton, RunStats.eraseDups_concat, ← h.tables]
    simp only [h.mem_tables]

theorem Underway.refuse (hd : s'.disk = s.disk) :
    Underway start d done (n + 1) ws { sp with stats := sp.stats.countRead } s' :=
  ⟨h.limit, h.filter, h.dryRun, h.outputDir, h.countRead, hd ▸ h.tracks, h.tables⟩

theorem underway_route {x : Except Failure Unit} (hr : sp.route t s = (x, sp', s')) :
    (x = .ok () ∧ ∃ ws', Underway start d (done ++ [t]) (n + 1) ws' sp' s') ∨
      (∃ table path cause, x = .error (.writerCreate table path cause) ∧
        start.destination? t = some table ∧ table ∉ (start.routed done).map (·.1) ∧
        Underway start d done (n + 1) ws sp' s') ∨
      (∃ e, x = .error e ∧ start.pool.Full d) := by
  have hdest : sp.destination? t = start.destination? t := destination?_congr h.limit h.filter t
  have hdeliver : ∀ table, sp.deliver table t s = sp.pool.writeTable table t.bytes s :=
    fun table => if_neg (by simp [h.dryRun])
  rw [route_eq, hdest] at hr
  cases hd : start.destination? t with
  | none =>
    rw [hd] at hr
    cases hr
    exact .inl ⟨rfl, ws, h.pass hd⟩
  | some table =>
    have hout := Pool.outputDir_writeTable sp.pool table t.bytes s
    rw [hd] at hr
    dsimp only at hr
    rw [hdeliver] at hr
    cases hw : sp.pool.writeTable table t.bytes s with
    | mk y z =>
      obtain ⟨p, s₁⟩ := z
      rw [hw] at hr hout
      rcases Pool.tracks_writeTable h.tracks hw with ⟨rfl, ws', htr, htab⟩ |
        ⟨path, cause, rfl, hnew, rfl, hdisk⟩ | ⟨e, rfl, hfull⟩
      · cases hr
        exact .inl ⟨rfl, ws', h.deliver hd hout htr htab⟩
      · cases hr
        exact .inr (.inl ⟨table, path, cause, rfl, rfl, fun hm => hnew (h.mem_tables.2 hm),
          h.refuse hdisk⟩)
      · cases hr
        exact .inr (.inr ⟨e, rfl, hfull.congr h.outputDir.symm⟩)

end Step

/-- The ways in which streaming the statements `ts`, behind which there is `fault`, can break off:
with the failure `e`, when those of `before` are where they belong and `n` have been read. -/
inductive Breaks (start : Splitter) (ts : List Statement) :
    Option Fault → Failure → List Statement → Nat → Prop where
  /-- The input fails behind the last statement. -/
  | read (cause : Fault) : Breaks start ts (some cause) (.read cause) ts ts.length
  /-- There is no file for the first statement of a table. -/
  | create {before after : List Statement} {t : Statement} {table : String} {fault : Option Fault}
      (path : Path) (cause : Fault) : ts = before ++ t :: after →
      start.destination? t = some table → table ∉ (start.routed before).map (·.1) →
      Breaks start ts fault (.writerCreate table path cause) before (before.length + 1)

/-- How streaming ends: with all statements read and routed, or broken off. Otherwise a device has
no room. -/
theorem underway_streams {ts : List Statement} {fault : Option Fault} {x : Except Failure Unit}
    (hs : Streams sp s ts fault x sp' s') (h : Underway start d done done.length ws sp s) :
    (x = .ok () ∧ fault = none ∧
        ∃ ws', Underway start d (done ++ ts) (done ++ ts).length ws' sp' s') ∨
      (∃ e before n ws', x = .error e ∧ Breaks start (done ++ ts) fault e before n ∧
        Underway start d before n ws' sp' s') ∨
      (∃ e, x = .error e ∧ start.pool.Full d) := by
  induction hs generalizing done ws with
  | finished notes =>
    rw [List.append_nil]
    exact .inl ⟨rfl, rfl, ws, h.congr (Site.disk_noteAll _ notes)⟩
  | failed notes fault =>
    rw [List.append_nil]
    exact .inr (.inl ⟨_, done, _, ws, rfl, .read fault, h.congr (Site.disk_noteAll _ notes)⟩)
  | broken notes hroute =>
    rcases underway_route (h.congr (Site.disk_noteAll _ notes)) hroute with
      ⟨hx, -⟩ | ⟨table, path, cause, hx, hd, hnew, hu⟩ | hfull
    · cases hx
    · cases hx
      exact .inr (.inl ⟨_, done, _, ws, rfl, .create path cause rfl hd hnew, hu⟩)
    · exact .inr (.inr hfull)
  | @routed _ _ _ _ _ _ t ts _ _ notes hroute _ ih =>
    rcases underway_route (h.congr (Site.disk_noteAll _ notes)) hroute with
      ⟨-, ws', hu⟩ | ⟨table, path, cause, hx, -⟩ | ⟨e, hx, -⟩
    · have hlen : done.length + 1 = (done ++ [t]).length := by simp
      have := ih (hlen ▸ hu)
      rwa [List.append_assoc, List.singleton_append] at this
    · cases hx
    · cases hx

end Splitter
end DumpRouter
