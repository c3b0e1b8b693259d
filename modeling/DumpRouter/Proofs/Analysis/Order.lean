import DumpRouter.Proofs.Analysis.Counts

/-!
# DumpRouter.Proofs.Analysis.Order

A report does not show in which order the statements stood in the dump, nor in which order the
tables were kept while they were counted.

* `Reader.dump_flatten`: statements that end with their semicolons are cut apart again.
* `TableStats.Precedes`: the order of a report, which is strict where names differ.
* `TableStats.sorted_eq_of_perm`: sorting forgets the order before it.
* `TableStats.ofTable`: the counters of a table, from the statements alone.
* `Analyzer.report_eq_of_perm`: the report on statements in any order.
-/

namespace DumpRouter
namespace Reader

/-- The byte string is one statement: the byte that ends it is its last. -/
def Terminated (u : Bytes) : Prop := (Scanner.State.code.scan u).2 = some u.length

instance (u : Bytes) : Decidable (Terminated u) := inferInstanceAs (Decidable (_ = _))

theorem dump_flatten {us : List Bytes} (h : ∀ u ∈ us, Terminated u) :
    dump (us.flatten.map .byte) = ⟨us.map Statement.mk, none⟩ := by
  induction us with
  | nil => exact dump_finished rfl
  | cons u us ih =>
    have hscan : Scanner.State.code.scan u = ((Scanner.State.code.scan u).1, some u.length) :=
      Prod.ext rfl (h u (by simp))
    have hcut := cut_bytes_some hscan [] (us.flatten.map .byte)
    rw [List.take_length, List.drop_length, List.nil_append, List.map_nil, List.nil_append] at hcut
    rw [List.flatten_cons, List.map_append, dump_statement (by rw [hcut]), hcut,
      ih fun v hv => h v (List.mem_cons_of_mem u hv)]
    rfl

theorem Terminated.length_pos {u : Bytes} (h : Terminated u) : 0 < u.length := by
  cases u with
  | nil => cases h
  | cons b u => exact Nat.succ_pos _

/-- No dump has more statements than bytes. -/
theorem length_le_flatten {us : List Bytes} (h : ∀ u ∈ us, Terminated u) :
    us.length ≤ us.flatten.length := by
  rw [List.length_flatten, ← List.length_map List.length]
  exact List.length_le_sum_of_one_le _ fun n hn => by
    obtain ⟨u, hu, rfl⟩ := List.mem_map.1 hn
    exact (h u hu).length_pos

end Reader

namespace TableStats

/-! ## The order of a report -/

/-- One table stands in front of another: it has more inserts, or as many and the smaller name. -/
def Precedes (a b : TableStats) : Prop :=
  b.inserts < a.inserts ∨ a.inserts = b.inserts ∧ a.name < b.name

theorem inOrder_iff {a b : TableStats} :
    inOrder a b = true ↔ b.inserts < a.inserts ∨ a.inserts = b.inserts ∧ a.name ≤ b.name := by
  unfold inOrder
  by_cases h : a.inserts = b.inserts
  · rw [if_pos h, Bool.not_eq_true', decide_eq_false_iff_not, not_lt]
    simp [h]
  · simp [h]

theorem inOrder_trans {a b c : TableStats} (h : inOrder a b = true) (h' : inOrder b c = true) :
    inOrder a c = true := by
  rw [inOrder_iff] at h h' ⊢
  rcases h with h | ⟨h, hn⟩
  · rcases h' with h' | ⟨h', -⟩
    · exact .inl (UInt64.lt_trans h' h)
    · exact .inl (h' ▸ h)
  · rcases h' with h' | ⟨h', hn'⟩
    · exact .inl (h ▸ h')
    · exact .inr ⟨h.trans h', hn.trans hn'⟩

theorem inOrder_total (a b : TableStats) : (inOrder a b || inOrder b a) = true := by
  rw [Bool.or_eq_true, inOrder_iff, inOrder_iff]
  by_cases h : a.inserts = b.inserts
  · rcases le_total a.name b.name with hn | hn
    · exact .inl (.inr ⟨h, hn⟩)
    · exact .inr (.inr ⟨h.symm, hn⟩)
  · rcases UInt64.lt_or_lt_of_ne h with h | h
    · exact .inr (.inl h)
    · exact .inl (.inl h)

theorem name_eq_of_inOrder {a b : TableStats} (h : inOrder a b = true)
    (h' : inOrder b a = true) : a.name = b.name := by
  rw [inOrder_iff] at h h'
  rcases h with h | ⟨h, hn⟩
  · rcases h' with h' | ⟨h', -⟩
    · exact absurd h' (UInt64.lt_asymm h)
    · exact absurd h (by simp [h'])
  · rcases h' with h' | ⟨-, hn'⟩
    · exact absurd h' (by simp [h])
    · exact le_antisymm hn hn'

theorem sorted_pairwise (ts : List TableStats) :
    (sorted ts).Pairwise fun a b => inOrder a b = true := by
  have htrans : ∀ a b c, inOrder a b = true → inOrder b c = true → inOrder a c = true :=
    fun _ _ _ => inOrder_trans
  exact List.pairwise_mergeSort htrans inOrder_total ts

theorem nodup_sorted {ts : List TableStats} (h : (ts.map (·.name)).Nodup) :
    ((sorted ts).map (·.name)).Nodup :=
  (((List.mergeSort_perm ts inOrder).map _).nodup_iff).2 h

/-- Tables of different names are sorted alike, whatever order they come in. -/
theorem sorted_eq_of_perm {ts us : List TableStats} (h : ts.Perm us)
    (hn : (ts.map (·.name)).Nodup) : sorted ts = sorted us := by
  have hperm : (sorted ts).Perm (sorted us) :=
    (List.mergeSort_perm _ _).trans (h.trans (List.mergeSort_perm _ _).symm)
  refine hperm.eq_of_pairwise ?_ (sorted_pairwise ts) (sorted_pairwise us)
  intro a b ha hb hab hba
  refine List.inj_on_of_nodup_map (nodup_sorted hn) ha (hperm.mem_iff.2 hb) ?_
  exact name_eq_of_inOrder hab hba

theorem sorted_precedes {ts : List TableStats} (h : (ts.map (·.name)).Nodup) :
    (sorted ts).Pairwise Precedes := by
  have hne : (sorted ts).Pairwise fun a b => a.name ≠ b.name :=
    List.pairwise_map.1 (nodup_sorted h)
  refine ((sorted_pairwise ts).and hne).imp ?_
  rintro a b ⟨hab, hname⟩
  rcases inOrder_iff.1 hab with hi | ⟨hi, hn⟩
  · exact .inl hi
  · exact .inr ⟨hi, lt_of_le_of_ne hn hname⟩

/-! ## The tally in any order -/

theorem ofCounted_perm {cs cs' : List Counted} (h : cs.Perm cs') (name : String) :
    ofCounted cs name = ofCounted cs' name := by
  have hon := h.filter (·.table == name)
  unfold ofCounted ofStatements
  rw [hon.countP_eq, hon.countP_eq, hon.length_eq,
    (hon.map fun c : Counted => c.statement.length).sum_eq]

theorem tally_perm {cs cs' : List Counted} (h : cs.Perm cs') : (tally cs).Perm (tally cs') := by
  have hnames : ((cs.map (·.table)).eraseDups).Perm ((cs'.map (·.table)).eraseDups) := by
    refine (List.perm_ext_iff_of_nodup (RunStats.nodup_eraseDups _)
      (RunStats.nodup_eraseDups _)).2 fun name => ?_
    rw [List.mem_eraseDups, List.mem_eraseDups]
    exact (h.map _).mem_iff
  unfold tally
  rw [funext (ofCounted_perm h)]
  exact hnames.map _

theorem nodup_tally (cs : List Counted) : ((tally cs).map (·.name)).Nodup := by
  rw [names_tally]
  exact RunStats.nodup_eraseDups _

end TableStats

theorem Report.ofTables_perm {ts us : List TableStats} (h : ts.Perm us)
    (hn : (ts.map (·.name)).Nodup) (read : Nat) : ofTables ts read = ofTables us read := by
  have htables : (ofTables ts read).tables = (ofTables us read).tables :=
    TableStats.sorted_eq_of_perm h hn
  have hstatements : (ofTables ts read).totalStatements = (ofTables us read).totalStatements := by
    rw [totalStatements_eq, totalStatements_eq, htables]
  have hbytes : (ofTables ts read).totalBytes = (ofTables us read).totalBytes := by
    rw [totalBytes_eq, totalBytes_eq, htables]
  exact (Report.mk.injEq ..).mpr ⟨htables, rfl, hstatements, hbytes⟩

/-! ## The counters of a table, from the statements -/

/-- The statements that belong to a table. -/
def statementsOn (name : String) (us : List Bytes) : List Bytes :=
  us.filter fun u => (classify u).table? == some name

/-- The counters of a table, given the statements of a dump. -/
def TableStats.ofTable (name : String) (us : List Bytes) : TableStats where
  name := name
  inserts := ((statementsOn name us).countP fun u => (classify u).kind == .insert).toUInt64
  creates := ((statementsOn name us).countP fun u => (classify u).kind == .createTable).toUInt64
  statements := (statementsOn name us).length.toUInt64
  bytes := (statementsOn name us).flatten.length.toUInt64

/-- The counters are those of the statements `us` on the table: none of them has gone round. -/
structure TableStats.Exact (us : List Bytes) (t : TableStats) : Prop where
  inserts : t.inserts.toNat =
    (statementsOn t.name us).countP fun u => (classify u).kind == .insert
  creates : t.creates.toNat =
    (statementsOn t.name us).countP fun u => (classify u).kind == .createTable
  statements : t.statements.toNat = (statementsOn t.name us).length
  bytes : t.bytes.toNat = (statementsOn t.name us).flatten.length

theorem TableStats.exact_ofTable {us : List Bytes} (hlength : us.length < 2 ^ 64)
    (hbytes : us.flatten.length < 2 ^ 64) (name : String) : (ofTable name us).Exact us := by
  have hon : (statementsOn name us).length < 2 ^ 64 :=
    Nat.lt_of_le_of_lt (List.length_filter_le _ us) hlength
  have hcount : ∀ p, (statementsOn name us).countP p < 2 ^ 64 := fun p =>
    Nat.lt_of_le_of_lt List.countP_le_length hon
  have hsub : (statementsOn name us).flatten.length < 2 ^ 64 :=
    Nat.lt_of_le_of_lt List.filter_sublist.flatten.length_le hbytes
  exact ⟨UInt64.toNat_ofNat_of_lt (hcount _), UInt64.toNat_ofNat_of_lt (hcount _),
    UInt64.toNat_ofNat_of_lt hon, UInt64.toNat_ofNat_of_lt hsub⟩

namespace Analyzer

variable {a : Analyzer}

/-- A statement counts for a table that is within the limit. -/
theorem counted?_eq (u : Bytes) :
    a.counted? ⟨u⟩ = ((classify u).table?.filter (withinLimit a.limit)).map fun table =>
      ⟨table, (classify u).kind, ⟨u⟩⟩ := by
  unfold counted? Classified.table? Classified.kind
  cases (classify u).target with
  | none => rfl
  | some target =>
    dsimp only
    by_cases h : withinLimit a.limit target.2 = true
    · simp [h]
    · simp [h]

theorem counted_on {name : String} (hlimit : withinLimit a.limit name = true) (us : List Bytes) :
    (a.counted (us.map .mk)).filter (·.table == name) =
      (statementsOn name us).map fun u => ⟨name, (classify u).kind, ⟨u⟩⟩ := by
  induction us with
  | nil => rfl
  | cons u us ih =>
    have hrest : a.counted ((u :: us).map .mk) =
        (a.counted? ⟨u⟩).toList ++ a.counted (us.map .mk) := by
      unfold counted
      rw [List.map_cons, List.filterMap_cons]
      cases a.counted? ⟨u⟩ <;> rfl
    rw [hrest, List.filter_append, ih, counted?_eq]
    unfold statementsOn
    rw [List.filter_cons]
    cases ht : (classify u).table? with
    | none => rfl
    | some table =>
      by_cases h : table = name
      · subst h
        simp [Option.filter_some, hlimit]
      · by_cases hw : withinLimit a.limit table = true
        · simp [Option.filter_some, hw, h]
        · simp [Option.filter_some, hw, h]

theorem mem_names_counted {name : String} {us : List Bytes} :
    name ∈ (a.counted (us.map .mk)).map (·.table) ↔
      withinLimit a.limit name = true ∧ ∃ u ∈ us, (classify u).table? = some name := by
  constructor
  · intro h
    obtain ⟨c, hc, rfl⟩ := List.mem_map.1 h
    obtain ⟨_, hu, hcounted⟩ := List.mem_filterMap.1 hc
    obtain ⟨u, hmem, rfl⟩ := List.mem_map.1 hu
    rw [counted?_eq] at hcounted
    obtain ⟨table, htable, rfl⟩ := Option.map_eq_some_iff.1 hcounted
    obtain ⟨htable, hlimit⟩ := Option.filter_eq_some_iff.1 htable
    exact ⟨hlimit, u, hmem, htable⟩
  · rintro ⟨hlimit, u, hmem, htable⟩
    refine List.mem_map.2 ⟨⟨name, (classify u).kind, ⟨u⟩⟩, ?_, rfl⟩
    refine List.mem_filterMap.2 ⟨⟨u⟩, List.mem_map_of_mem hmem, ?_⟩
    rw [counted?_eq, htable, Option.filter_some, if_pos hlimit]
    rfl

theorem ofCounted_eq {name : String} (hlimit : withinLimit a.limit name = true) (us : List Bytes) :
    TableStats.ofCounted (a.counted (us.map .mk)) name = .ofTable name us := by
  unfold TableStats.ofCounted TableStats.ofStatements TableStats.ofTable
  rw [counted_on hlimit, List.countP_map, List.countP_map, List.length_map, List.map_map,
    List.length_flatten]
  rfl

/-- What a report tells of the statements `us`, for the tables within a limit. -/
structure Tells (limit : Option (List String)) (us : List Bytes) (r : Report) : Prop where
  read : r.read = us.length
  names_nodup : (r.tables.map (·.name)).Nodup
  ordered : r.tables.Pairwise TableStats.Precedes
  /-- The tables that occur, with their counters, and no others. -/
  mem_tables : ∀ t, t ∈ r.tables ↔
    withinLimit limit t.name = true ∧ (∃ u ∈ us, (classify u).table? = some t.name) ∧
      t = .ofTable t.name us
  /-- Sixty-four bits are enough for a dump that is shorter than they can count. -/
  exact : us.flatten.length < 2 ^ 64 → ∀ t ∈ r.tables, t.Exact us
  totalStatements : r.totalStatements = (r.tables.map (·.statements)).sum
  totalBytes : r.totalBytes = (r.tables.map (·.bytes)).sum
  /-- The order in which the tables are handed over does not show. -/
  unordered : ∀ ts, ts.Perm r.tables → Report.ofTables ts r.read = r

theorem counted_congr {b : Analyzer}
    (h : ∀ table, withinLimit b.limit table = withinLimit a.limit table) :
    b.counted = a.counted := by
  have hone : b.counted? = a.counted? := by
    funext t
    unfold counted?
    simp only [h]
  unfold counted
  rw [hone]

theorem mem_tables_tally {us : List Bytes} {t : TableStats} {read : Nat} :
    t ∈ (Report.ofTables (TableStats.tally (a.counted (us.map .mk))) read).tables ↔
      withinLimit a.limit t.name = true ∧ (∃ u ∈ us, (classify u).table? = some t.name) ∧
        t = .ofTable t.name us := by
  rw [(Report.tables_perm _ _).mem_iff, TableStats.tally, List.mem_map, ← and_assoc,
    ← mem_names_counted]
  constructor
  · rintro ⟨name, hname, rfl⟩
    have hmem := List.mem_eraseDups.1 hname
    exact ⟨hmem, ofCounted_eq (mem_names_counted.1 hmem).1 us⟩
  · rintro ⟨hmem, ht⟩
    refine ⟨t.name, List.mem_eraseDups.2 hmem, ?_⟩
    rw [ofCounted_eq (mem_names_counted.1 hmem).1 us]
    exact ht.symm

theorem tells_tally (us : List Bytes) (hus : ∀ u ∈ us, Reader.Terminated u) :
    Tells a.limit us (.ofTables (TableStats.tally (a.counted (us.map .mk))) us.length) where
  read := rfl
  names_nodup := TableStats.nodup_sorted (TableStats.nodup_tally _)
  ordered := TableStats.sorted_precedes (TableStats.nodup_tally _)
  mem_tables := fun _ => mem_tables_tally
  exact := by
    intro hbytes t ht
    have hlength := Nat.lt_of_le_of_lt (Reader.length_le_flatten hus) hbytes
    rw [(mem_tables_tally.1 ht).2.2]
    exact TableStats.exact_ofTable hlength hbytes t.name
  totalStatements := Report.totalStatements_eq _ _
  totalBytes := Report.totalBytes_eq _ _
  unordered := by
    intro ts hts
    have hperm := hts.trans (Report.tables_perm _ _)
    exact Report.ofTables_perm hperm
      ((hperm.map _).nodup_iff.2 (TableStats.nodup_tally _)) us.length

/-- Statements that end with their semicolons make the same report in any order, however the bytes
come and whatever the size of a portion is. -/
theorem report_eq_of_perm {a b : Analyzer}
    (hlimit : ∀ table, withinLimit b.limit table = withinLimit a.limit table)
    {us vs : List Bytes} (hus : ∀ u ∈ us, Reader.Terminated u) (hperm : us.Perm vs)
    {x y : Script} (hx : x.events = us.flatten.map .byte) (hy : y.events = vs.flatten.map .byte)
    (size size' : Nat) (s s' : Site) :
    ∃ report : Report,
      (a.report (.script x) size s).1 = .ok report ∧
        (b.report (.script y) size' s').1 = .ok report ∧ Tells a.limit us report := by
  have hvs : ∀ v ∈ vs, Reader.Terminated v := fun v hv => hus v (hperm.mem_iff.2 hv)
  have hsame : b.counted = a.counted := counted_congr hlimit
  have htally : (TableStats.tally (a.counted (vs.map .mk))).Perm
      (TableStats.tally (a.counted (us.map .mk))) :=
    TableStats.tally_perm ((hperm.symm.map _).filterMap _)
  have ha := a.report_dump x size s
  have hb := b.report_dump y size' s'
  rw [hx, Reader.dump_flatten hus] at ha
  rw [hy, Reader.dump_flatten hvs, hsame] at hb
  dsimp only at ha hb
  rw [List.length_map] at ha hb
  rw [Report.ofTables_perm htally (TableStats.nodup_tally _), ← hperm.length_eq] at hb
  exact ⟨_, ha, hb, tells_tally us hus⟩

/-- Statements on two tables of equally many inserts, and one that belongs to no table. -/
def twoTied : List Bytes := [
  "INSERT INTO b VALUES (';');", "SET x = 1;", "\nCREATE TABLE a (i INT);",
  "INSERT INTO a VALUES (1);"].map fun text => Bytes.ascii text.toList

theorem report_eq_of_perm_twoTied :
    (∀ u ∈ twoTied, Reader.Terminated u) ∧ twoTied.Perm twoTied.reverse ∧
      ∃ report : Report,
        ((Analyzer.new ⟨"dump.sql"⟩).report (.script [.data twoTied.flatten]) 0
          (.ofDisk .blank)).1 = .ok report ∧
        ({ Analyzer.new ⟨"dump.sql"⟩ with portion := some 0 }.report
          (.script (.interrupt :: twoTied.reverse.map .data)) 70 (.ofDisk .blank)).1 =
            .ok report ∧
        report.read = 4 ∧ ⟨"a", 1, 1, 2, 49⟩ ∈ report.tables ∧ ⟨"b", 1, 0, 1, 27⟩ ∈ report.tables ∧
        report.tables.Pairwise TableStats.Precedes := by
  have hus : ∀ u ∈ twoTied, Reader.Terminated u := by decide +kernel
  have hperm : twoTied.Perm twoTied.reverse := (List.reverse_perm _).symm
  obtain ⟨report, hx, hy, htells⟩ := report_eq_of_perm (a := .new ⟨"dump.sql"⟩)
    (b := { Analyzer.new ⟨"dump.sql"⟩ with portion := some 0 }) (fun _ => rfl) hus hperm
    (x := [.data twoTied.flatten]) (y := .interrupt :: twoTied.reverse.map .data)
    (by decide +kernel) (by decide +kernel) 0 70 (.ofDisk .blank) (.ofDisk .blank)
  refine ⟨hus, hperm, report, hx, hy, htells.read, ?_, ?_, htells.ordered⟩
  · exact (htells.mem_tables _).2 (by decide +kernel)
  · exact (htells.mem_tables _).2 (by decide +kernel)

end Analyzer

end DumpRouter
