import DumpRouter.Analysis.Report
import DumpRouter.Proofs.Split.Routed

/-!
# DumpRouter.Proofs.Analysis.Counts

What an analysis comes to, without the order in which it goes about it: a table for each name that
occurs, with the number of its statements of each sort and of their bytes.

* `TableStats.ofStatements`: the counters that go with the statements of a table.
* `TableStats.tally`: those of all tables; `sum_statements` and `sum_bytes` are their sums.
* `Analyzer.counted`: the statements that an analysis counts.
* `foldl_count`: counting them one after the other comes to their tally.
* `report_dump`: the report on a script, from its dump.
-/

namespace DumpRouter

/-- A statement with its table and its kind. -/
structure Counted where
  table : String
  kind : Kind
  statement : Statement
  deriving DecidableEq

namespace TableStats

/-- The counters of a table, given its statements. -/
def ofStatements (name : String) (cs : List Counted) : TableStats where
  name := name
  inserts := (cs.countP (·.kind == .insert)).toUInt64
  creates := (cs.countP (·.kind == .createTable)).toUInt64
  statements := cs.length.toUInt64
  bytes := (cs.map fun c : Counted => c.statement.length).sum.toUInt64

/-- The counters of a table, given the statements of all tables. -/
def ofCounted (cs : List Counted) (name : String) : TableStats :=
  ofStatements name (cs.filter (·.table == name))

theorem ofStatements_concat (name : String) (cs : List Counted) (c : Counted) :
    ofStatements name (cs ++ [c]) =
      (ofStatements name cs).record c.kind c.statement.length.toUInt64 := by
  unfold ofStatements record
  simp only [List.countP_append, List.countP_singleton, List.length_append, List.map_append,
    List.sum_append, TableStats.mk.injEq, true_and]
  refine ⟨?_, ?_, ?_, ?_⟩
  · by_cases h : c.kind = .insert <;> simp [h]
  · by_cases h : c.kind = .createTable <;> simp [h]
  · simp
  · simp [UInt64.ofNat_add]

theorem ofCounted_concat (cs : List Counted) (c : Counted) (name : String) :
    ofCounted (cs ++ [c]) name =
      if name = c.table then (ofCounted cs name).record c.kind c.statement.length.toUInt64
      else ofCounted cs name := by
  unfold ofCounted
  by_cases h : name = c.table
  · subst h
    rw [if_pos rfl, ← ofStatements_concat]
    simp
  · rw [if_neg h]
    simp [Ne.symm h]

theorem ofCounted_zero {cs : List Counted} {name : String} (h : name ∉ cs.map (·.table)) :
    ofCounted cs name = zero name := by
  have hnone : cs.filter (·.table == name) = [] := by
    refine List.filter_eq_nil_iff.2 fun c hc he => h ?_
    rw [← eq_of_beq he]
    exact List.mem_map_of_mem hc
  rw [ofCounted, hnone]
  rfl

/-- Counting a statement changes the counters of its table, which is put at the end if it is new. -/
theorem recordIn_map {f : String → TableStats} (hf : ∀ n, (f n).name = n) {names : List String}
    (hn : names.Nodup) {name : String} (hzero : name ∉ names → f name = zero name) (kind : Kind)
    (k : UInt64) :
    recordIn name kind k (names.map f) =
      (if name ∈ names then names else names ++ [name]).map fun n =>
        if n = name then (f n).record kind k else f n := by
  induction names with
  | nil => simp [recordIn, hzero]
  | cons m names ih =>
    obtain ⟨hm, hrest⟩ := List.nodup_cons.1 hn
    rw [List.map_cons, recordIn, hf]
    by_cases h : m = name
    · subst h
      have hsame : names.map f = names.map fun n => if n = m then (f n).record kind k else f n :=
        List.map_congr_left fun n hmem => by
          rw [if_neg]
          rintro rfl
          exact hm hmem
      simp [hsame]
    · have := ih hrest fun hmem => hzero (by simp [Ne.symm h, hmem])
      rw [if_neg h, this]
      by_cases hmem : name ∈ names <;> simp [hmem, h, Ne.symm h]

theorem sum_toUInt64 (ns : List Nat) : (ns.map Nat.toUInt64).sum = ns.sum.toUInt64 := by
  induction ns with
  | nil => rfl
  | cons n ns ih =>
    rw [List.map_cons, List.sum_cons, List.sum_cons, ih]
    simp [UInt64.ofNat_add]

/-- The counters of all tables, in the order of their first statements. -/
def tally (cs : List Counted) : List TableStats := (cs.map (·.table)).eraseDups.map (ofCounted cs)

theorem mem_names {cs : List Counted} {c : Counted} (h : c ∈ cs) :
    c.table ∈ (cs.map (·.table)).eraseDups := by
  rw [List.mem_eraseDups]
  exact List.mem_map_of_mem h

theorem sum_statements (cs : List Counted) :
    ((tally cs).map (·.statements)).sum = cs.length.toUInt64 := by
  have hsum := sum_byKey (fun c : Counted => c.table) (fun _ => 1)
    (RunStats.nodup_eraseDups (cs.map (·.table))) fun c hc => mem_names hc
  simp only [List.map_const', List.sum_replicate, smul_eq_mul, mul_one] at hsum
  rw [← hsum, ← sum_toUInt64, tally, List.map_map, List.map_map]
  rfl

theorem sum_bytes (cs : List Counted) :
    ((tally cs).map (·.bytes)).sum =
      (cs.map fun c : Counted => c.statement.length).sum.toUInt64 := by
  rw [← sum_byKey (fun c : Counted => c.table) (fun c => c.statement.length)
      (RunStats.nodup_eraseDups (cs.map (·.table))) fun c hc => mem_names hc,
    ← sum_toUInt64, tally, List.map_map, List.map_map]
  rfl

theorem names_tally (cs : List Counted) :
    (tally cs).map (·.name) = (cs.map (·.table)).eraseDups := by
  rw [tally, List.map_map]
  exact List.map_id _

end TableStats

namespace Report

variable (tables : List TableStats) (read : Nat)

theorem tables_perm : (ofTables tables read).tables.Perm tables := List.mergeSort_perm _ _

theorem totalStatements_ofTables :
    (ofTables tables read).totalStatements = (tables.map (·.statements)).sum := by
  rw [List.sum, List.foldr_map]
  rfl

theorem totalBytes_ofTables :
    (ofTables tables read).totalBytes = (tables.map (·.bytes)).sum := by
  rw [List.sum, List.foldr_map]
  rfl

theorem totalStatements_eq :
    (ofTables tables read).totalStatements =
      ((ofTables tables read).tables.map (·.statements)).sum := by
  rw [totalStatements_ofTables, ((tables_perm tables read).map _).sum_eq]

theorem totalBytes_eq :
    (ofTables tables read).totalBytes = ((ofTables tables read).tables.map (·.bytes)).sum := by
  rw [totalBytes_ofTables, ((tables_perm tables read).map _).sum_eq]

end Report

namespace Analyzer

/-- The statement as it is counted, if it belongs to a table within the limit. -/
def counted? (a : Analyzer) (t : Statement) : Option Counted :=
  match (classify t.bytes).target with
  | none => none
  | some (kind, table) => if withinLimit a.limit table then some ⟨table, kind, t⟩ else none

/-- The statements that an analysis counts. -/
def counted (a : Analyzer) (ts : List Statement) : List Counted := ts.filterMap a.counted?

theorem count_eq (a : Analyzer) (tables : List TableStats) (t : Statement) :
    a.count tables t =
      match a.counted? t with
      | none => tables
      | some c => TableStats.recordIn c.table c.kind c.statement.length.toUInt64 tables := by
  unfold count counted?
  dsimp only
  rw [byteLength_classify]
  cases (classify t.bytes).target with
  | none => rfl
  | some target =>
    dsimp only
    split <;> rfl

theorem foldl_count (a : Analyzer) (ts : List Statement) :
    ts.foldl a.count [] = TableStats.tally (a.counted ts) := by
  -- the counters of each prefix of the statements are those of its tally
  induction ts using List.reverseRecOn with
  | nil => rfl
  | append_singleton ts t ih =>
    have hsplit : a.counted (ts ++ [t]) = a.counted ts ++ (a.counted? t).toList := by
      unfold counted
      rw [List.filterMap_append]
      cases h : a.counted? t <;> simp [h]
    rw [List.foldl_append, ih, hsplit, List.foldl_cons, List.foldl_nil, count_eq]
    cases a.counted? t with
    | none => simp
    | some c =>
      have hzero : c.table ∉ ((a.counted ts).map (·.table)).eraseDups →
          TableStats.ofCounted (a.counted ts) c.table = .zero c.table := by
        rw [List.mem_eraseDups]
        exact TableStats.ofCounted_zero
      dsimp only [TableStats.tally]
      rw [TableStats.recordIn_map (fun _ => rfl) (RunStats.nodup_eraseDups _) hzero,
        Option.toList_some, List.map_append, List.map_singleton, RunStats.eraseDups_concat]
      simp only [List.mem_eraseDups]
      exact List.map_congr_left fun n _ => (TableStats.ofCounted_concat _ c n).symm

/-- The loop without the evidence that it ends. -/
theorem fold_eq (a : Analyzer) (tables : List TableStats) (r : Reader) (s : Site) :
    a.fold tables r s =
      match r.read s.disk with
      | (x, r') =>
        let s := s.noteAll (r'.takeReports.1.map .progress)
        match x with
        | .finished => (.ok (tables, r'.statementsRead), s)
        | .failed f => (.error (.read f), s.note .readFailed)
        | .statement t => a.fold (a.count tables t) r'.takeReports.2 s := by
  rw [fold]
  split
  next x r' h =>
    conv_rhs => rw [h]
    cases x with
    | finished => rfl
    | failed f => rfl
    | statement t => rfl

theorem fold_dump (a : Analyzer) (tables : List TableStats) (s : Site) {r : Reader}
    {es : List Script.Event} (h : r.Ahead es) :
    (a.fold tables r s).1 =
      match (Reader.dump es).fault with
      | none => .ok ((Reader.dump es).statements.foldl a.count tables,
          r.statementsRead + (Reader.dump es).statements.length)
      | some f => .error (.read f) := by
  induction r using Reader.induction_read generalizing tables s es with
  | _ r ih =>
    obtain ⟨ho, ha, -, hread⟩ := Reader.read_cut h s.disk
    rw [fold_eq]
    cases hr : r.read s.disk with
    | mk x r' =>
      rw [hr] at ho ha hread
      rw [← ho] at hread
      cases x with
      | finished =>
        rw [Reader.dump_finished ho.symm]
        exact congrArg (fun k => Except.ok (tables, k)) hread
      | failed f => rw [Reader.dump_failed ho.symm]
      | statement t =>
        have hcount : r'.takeReports.2.statementsRead = r.statementsRead + 1 := hread
        have hrest := ih _ _ _ hr (a.count tables t) (s.noteAll (r'.takeReports.1.map .progress))
          (Reader.ahead_takeReports ha)
        rw [Reader.dump_statement ho.symm]
        dsimp only
        rw [hrest, hcount]
        simp only [List.foldl_cons, List.length_cons, Nat.add_assoc, Nat.add_comm 1]

theorem report_dump (a : Analyzer) (script : Script) (inputSize : Nat) (s : Site) :
    (a.report (.script script) inputSize s).1 =
      match (Reader.dump script.events).fault with
      | none => .ok (.ofTables (TableStats.tally (a.counted (Reader.dump script.events).statements))
          (Reader.dump script.events).statements.length)
      | some f => .error (.read f) := by
  have h := fold_dump a [] (s.note .analysisStarted) (Reader.ahead_new script a.metered
    (a.portion.getD (portionFor inputSize)))
  have hstart : (Reader.new (.new (.script script) a.metered)
      (a.portion.getD (portionFor inputSize))).statementsRead = 0 := rfl
  rw [hstart, Nat.zero_add, foldl_count] at h
  unfold report
  dsimp only
  cases hx : a.fold [] _ _ with
  | mk x s' =>
    rw [hx] at h
    dsimp only at h
    rw [h]
    cases (Reader.dump script.events).fault with
    | none => rfl
    | some f => rfl

end Analyzer
end DumpRouter
