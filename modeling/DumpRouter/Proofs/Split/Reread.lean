import DumpRouter.Proofs.Analysis.File
import DumpRouter.Proofs.Reader.Reread
import DumpRouter.Proofs.Split.Files
import DumpRouter.Proofs.Statement.Margins

/-!
# DumpRouter.Proofs.Split.Reread

The file of a table is a dump of this table. The newline behind each statement changes neither where
the next one ends nor what it is classified as, so reading the file gives the statements that were
routed to the table, and an analysis of it counts them.

* `ofTable`: the statements of a table; `ofTable_routed`: they are some of those of the dump.
* `Rereads`: what reading a file comes to that has been made of the statements of a table.
* `rereads_lines`: it comes to that.
* `run_reread`: the files of a run.
-/

namespace DumpRouter

/-- The statements routed to a table. -/
def ofTable (table : String) (rs : List Routed) : List Statement :=
  (rs.filter fun r => r.1 == table).map (·.2)

theorem records_eq_lines (table : String) (rs : List Routed) :
    records table rs = Reader.lines (ofTable table rs) := by
  rw [records, Reader.lines, ofTable, List.flatMap_map]

theorem ofTable_routed (sp : Splitter) (table : String) (ts : List Statement) :
    ofTable table (sp.routed ts) = ts.filter fun t => sp.destination? t == some table := by
  induction ts with
  | nil => rfl
  | cons t ts ih =>
    have hcons : sp.routed (t :: ts) = ((sp.destination? t).map (·, t)).toList ++ sp.routed ts := by
      unfold Splitter.routed
      cases h : sp.destination? t <;> simp [h]
    unfold ofTable at ih ⊢
    rw [hcons, List.filter_append, List.map_append, ih]
    cases h : sp.destination? t with
    | none => simp [h]
    | some u => by_cases hu : u = table <;> simp [h, hu]

/-- The statement is of a known kind, on this table. -/
def Statement.IsOn (table : String) (t : Statement) : Prop :=
  ∃ kind, (classify t.bytes).target = some (kind, table)

theorem isOn_destination {sp : Splitter} {t : Statement} {table : String}
    (h : sp.destination? t = some table) : t.IsOn table := by
  unfold Splitter.destination? at h
  split at h
  · cases h
  · next kind u hc =>
    split at h
    · cases h
      exact ⟨kind, hc⟩
    · cases h

/-- The statement `u` is the statement `t` on a table, read again. -/
structure Again (table : String) (t u : Statement) : Prop where
  padded : Reader.Padded t u
  target : ∃ kind, (classify t.bytes).target = some (kind, table) ∧
    (classify u.bytes).target = some (kind, table)

theorem Reader.Newline.blank {w : Bytes} (h : Reader.Newline w) : Blank w := by
  rcases h with rfl | rfl
  · intro b hb
    cases hb
  · intro b hb
    rw [List.mem_singleton.1 hb]
    rfl

theorem again_padded {table : String} {t u : Statement} {kind : Kind} (h : Reader.Padded t u)
    (hk : (classify t.bytes).target = some (kind, table)) : Again table t u := by
  obtain ⟨lead, trail, hl, ht, hu⟩ := h
  refine ⟨⟨lead, trail, hl, ht, hu⟩, kind, hk, ?_⟩
  rw [hu, target_margins hl.blank t.bytes ht.blank, hk]

theorem isOn_again {table : String} {ts us : List Statement}
    (h : List.Forall₂ (Again table) ts us) : ∀ u ∈ us, u.IsOn table := by
  induction h with
  | nil => simp
  | cons hone _ ih =>
    obtain ⟨-, kind, -, hu⟩ := hone
    exact List.forall_mem_cons.2 ⟨⟨kind, hu⟩, ih⟩

/-- The report on a dump of the statements `ts` on one table, of so many bytes. -/
def Report.sole (table : String) (ts : List Statement) (bytes : UInt64) : Report where
  tables := [{
    name := table
    inserts := (ts.countP fun t => (classify t.bytes).kind == .insert).toUInt64
    creates := (ts.countP fun t => (classify t.bytes).kind == .createTable).toUInt64
    statements := ts.length.toUInt64
    bytes := bytes }]
  read := ts.length
  totalStatements := ts.length.toUInt64
  totalBytes := bytes

theorem Report.sole_again {table : String} {ts us : List Statement}
    (h : List.Forall₂ (Again table) ts us) (bytes : UInt64) :
    Report.sole table us bytes = Report.sole table ts bytes := by
  have hkinds : us.map (fun u => (classify u.bytes).kind) =
      ts.map fun t => (classify t.bytes).kind := by
    induction h with
    | nil => rfl
    | cons hone _ ih =>
      obtain ⟨-, kind, ht, hu⟩ := hone
      rw [List.map_cons, List.map_cons, ih, Classified.kind, Classified.kind, ht, hu]
  have hcount : ∀ kind, us.countP (fun u => (classify u.bytes).kind == kind) =
      ts.countP fun t => (classify t.bytes).kind == kind := by
    intro kind
    have := congrArg (List.countP (· == kind)) hkinds
    rwa [List.countP_map, List.countP_map] at this
  unfold Report.sole
  rw [hcount, hcount, h.length_eq]

theorem eraseDups_replicate (a : String) (n : Nat) :
    (List.replicate (n + 1) a).eraseDups = [a] := by
  induction n with
  | zero => rfl
  | succ n ih => rw [List.replicate_succ', RunStats.eraseDups_concat, if_pos (by simp), ih]

theorem TableStats.tally_sole {table : String} {cs : List Counted} (hne : cs ≠ [])
    (h : ∀ c ∈ cs, c.table = table) : tally cs = [ofStatements table cs] := by
  obtain ⟨n, hn⟩ := Nat.exists_eq_succ_of_ne_zero fun h0 => hne (List.length_eq_zero_iff.1 h0)
  have hnames : (cs.map (·.table)).eraseDups = [table] := by
    rw [List.map_congr_left h, List.map_const', hn, eraseDups_replicate]
  have hall : cs.filter (·.table == table) = cs :=
    List.filter_eq_self.2 fun c hc => beq_iff_eq.2 (h c hc)
  rw [tally, hnames, List.map_singleton, ofCounted, hall]

section Sole

variable {a : Analyzer} {table : String} (hlimit : withinLimit a.limit table = true)
  {us : List Statement}
include hlimit

theorem Analyzer.counted_sole (h : ∀ u ∈ us, u.IsOn table) :
    a.counted us = us.map fun u => ⟨table, (classify u.bytes).kind, u⟩ := by
  induction us with
  | nil => rfl
  | cons u us ih =>
    obtain ⟨kind, hu⟩ := h u (by simp)
    have hone : a.counted? u = some ⟨table, (classify u.bytes).kind, u⟩ := by
      rw [Analyzer.counted?, Classified.kind, hu]
      exact if_pos hlimit
    have hrest := ih fun v hv => h v (by simp [hv])
    unfold Analyzer.counted at hrest ⊢
    rw [List.filterMap_cons_some hone, hrest, List.map_cons]

theorem Analyzer.report_sole (hne : us ≠ []) (h : ∀ u ∈ us, u.IsOn table) {back : Script}
    (hback : Reader.dump back.events = ⟨us, none⟩) (inputSize : Nat) (s : Site) :
    (a.report (.script back) inputSize s).1 =
      .ok (.sole table us (us.map Statement.length).sum.toUInt64) := by
  have htally : TableStats.tally (a.counted us) =
      (Report.sole table us (us.map Statement.length).sum.toUInt64).tables := by
    have htable : ∀ c ∈ a.counted us, c.table = table := by
      rw [counted_sole hlimit h]
      simp
    have hsome : a.counted us ≠ [] := by
      rw [counted_sole hlimit h]
      simpa using hne
    rw [TableStats.tally_sole hsome htable, counted_sole hlimit h, TableStats.ofStatements]
    simp [Report.sole, List.countP_map, Function.comp_def]
  rw [report_dump, hback]
  dsimp only
  rw [htally]
  simp [Report.ofTables, Report.sole, TableStats.sorted]

/-- An analysis of the statements that are read again counts those that were written. -/
theorem Analyzer.report_again {ts : List Statement} (hne : ts ≠ [])
    (h : List.Forall₂ (Again table) ts us) {back : Script}
    (hback : Reader.dump back.events = ⟨us, none⟩) (inputSize : Nat) (s : Site) :
    (a.report (.script back) inputSize s).1 =
      .ok (.sole table ts (us.map Statement.length).sum.toUInt64) := by
  have hne' : us ≠ [] := by
    rintro rfl
    cases h
    exact hne rfl
  rw [report_sole hlimit hne' (isOn_again h) hback, Report.sole_again h]

end Sole

/-- What becomes of a file at `path` that holds `c`, if it is made of the statements `ts` on a
table. -/
structure Rereads (d : Disk) (path : Path) (c : ByteArray) (table : String)
    (ts us : List Statement) : Prop where
  /-- The statements that are read are those that were written. -/
  again : List.Forall₂ (Again table) ts us
  reads : ∀ back : Script, back.events = (Bytes.unpack c).map .byte →
    ∀ (d : Disk) (metered : Bool) (portion pooled : Nat),
      Reader.nexts d (.new pooled) (.new (.new (.script back) metered) portion) (us.length + 1) =
        us.map .statement ++ [.finished]
  report : ∀ a : Analyzer, withinLimit a.limit table = true →
    ∀ back : Script, back.events = (Bytes.unpack c).map .byte → ∀ (inputSize : Nat) (s : Site),
      (a.report (.script back) inputSize s).1 =
        .ok (.sole table ts (us.map Statement.length).sum.toUInt64)
  /-- The system lets no file grow longer than can be read. -/
  reportFile : c.size ≤ longestFile → ∀ a : Analyzer, withinLimit a.limit table = true →
    a.input = path → ∀ s : Site, s.disk = d →
      (a.reportFile s).1 = .ok (.sole table ts (us.map Statement.length).sum.toUInt64)

theorem rereads_lines {d : Disk} {path : Path} {l : Location} {c : ByteArray} {table : String}
    {ts : List Statement} (hstat : d.stat path = .ok (l, .file c))
    (hc : Bytes.unpack c = Reader.lines ts) (hne : ts ≠ []) (hwell : Reader.WellCut ts)
    (hon : ∀ t ∈ ts, t.IsOn table) :
    ∃ us, Rereads d path c table ts us := by
  obtain ⟨us, hdump, hpad⟩ := Reader.dump_lines hwell (.inl rfl)
  rw [List.nil_append, ← hc] at hdump
  have hagain : List.Forall₂ (Again table) ts us := by
    refine ((List.forall₂_and_left ts us).2 ⟨hon, hpad⟩).imp ?_
    rintro t u ⟨⟨kind, hk⟩, hone⟩
    exact again_padded hone hk
  refine ⟨us, hagain, ?_, ?_, ?_⟩
  · intro back hback d metered portion pooled
    exact Reader.nexts_dump (hback ▸ hdump) (Reader.ahead_new back metered portion) rfl d
      (BufferPool.clean_new pooled)
  · intro a hlimit back hback inputSize s
    exact Analyzer.report_again hlimit hne hagain (hback ▸ hdump) inputSize s
  · intro hsize a hlimit hinput s hs
    subst hs hinput
    have hevents : Script.events [.data (Bytes.unpack c)] = (Bytes.unpack c).map .byte := by
      simp [Script.events]
    rw [Analyzer.reportFile_eq hstat hsize]
    exact Analyzer.report_again hlimit hne hagain (hevents ▸ hdump) _ s

namespace Splitter

variable {sp sp' : Splitter} {s s' : Site}

/-- A run on a dump that is not cut short, and that does not fail, leaves a file for each table that
statements were routed to. It is read as these statements, in their order and each of the same kind
and table, and an analysis of it counts them under this table. A device that drops what it gets can
only be there if it was there before. -/
theorem run_reread {script : Script} {inputSize : Nat} {stats : RunStats} {input : Bytes}
    (hidle : sp.pool.Idle) (hdry : sp.dryRun = false) (hbytes : script.events = input.map .byte)
    (hrun : sp.run (.script script) inputSize s = (.ok stats, sp', s')) :
    ∃ ts files, Reader.dump script.events = ⟨ts, none⟩ ∧
      Filed sp.pool sp'.pool s.disk s'.disk (sp.routed ts) files ∧
      (∀ table, table ∈ (sp.routed ts).map (·.1) ↔ ∃ f ∈ files, f.1.table = table) ∧
      ∀ f ∈ files,
        (∃ c us, s'.disk.stat f.1.path = .ok (f.2, .file c) ∧
          Rereads s'.disk f.1.path c f.1.table (ofTable f.1.table (sp.routed ts)) us) ∨
        s'.disk.stat f.1.path = .ok (f.2, .device .null) ∧
          s.disk.node? f.2 = some (.device .null) := by
  obtain ⟨ts, files, hdump, hfiled, -, -⟩ := run_files hidle hdry hrun
  have htables : ∀ table, table ∈ (sp.routed ts).map (·.1) ↔ ∃ f ∈ files, f.1.table = table := by
    intro table
    rw [← List.mem_eraseDups, ← hfiled.tables, List.mem_map]
  have hwell : Reader.WellCut ts := by
    have := (Reader.wellCut_dump (Reader.onlyBytes_map input)).2
    rwa [← hbytes, hdump] at this
  refine ⟨ts, files, hdump, hfiled, htables, fun f hf => ?_⟩
  rcases hfiled.content f hf with hfile | hnull
  · have hsome := (htables f.1.table).2 ⟨f, hf, rfl⟩
    have hmine := ofTable_routed sp f.1.table ts
    have hne : ofTable f.1.table (sp.routed ts) ≠ [] := by
      obtain ⟨r, hr, hname⟩ := List.mem_map.1 hsome
      have hmem : r ∈ (sp.routed ts).filter fun r => r.1 == f.1.table :=
        List.mem_filter.2 ⟨hr, beq_iff_eq.2 hname⟩
      exact List.ne_nil_of_mem (List.mem_map_of_mem hmem)
    have hsub : (ofTable f.1.table (sp.routed ts)).Sublist ts := by
      rw [hmine]
      exact List.filter_sublist
    have hon : ∀ t ∈ ofTable f.1.table (sp.routed ts), t.IsOn f.1.table := by
      rw [hmine]
      intro t ht
      exact isOn_destination (eq_of_beq (List.mem_filter.1 ht).2)
    have hlines : Bytes.unpack (Bytes.pack (records f.1.table (sp.routed ts))) =
        Reader.lines (ofTable f.1.table (sp.routed ts)) := by
      rw [Bytes.unpack_pack, records_eq_lines]
    obtain ⟨us, hus⟩ := rereads_lines hfile hlines hne (hwell.sublist hsub) hon
    exact .inl ⟨_, us, hfile, hus⟩
  · exact .inr hnull

/-- Two statements, of which the last one ends in a comment. -/
def unfinished : Script := [
  .data (Bytes.ascii "INSERT INTO t VALUES ('a;b');\nINSERT INTO t VALUES (2) -- an".toList),
  .interrupt, .data (Bytes.ascii "d so; on".toList)]

def unfinishedText : Bytes :=
  Bytes.ascii "INSERT INTO t VALUES ('a;b');\nINSERT INTO t VALUES (2) -- and so; on".toList

/-- The statements as they are filed, each with a newline behind it. -/
def unfinishedFiled : Bytes :=
  Bytes.ascii
    "INSERT INTO t VALUES ('a;b');\n\nINSERT INTO t VALUES (2) -- and so; on\n".toList

theorem run_reread_unfinished :
    (Pool.new ⟨"out"⟩).Idle ∧ unfinished.events = unfinishedText.map .byte ∧
      ((Splitter.new ⟨"dump.sql"⟩ ⟨"out"⟩).run (.script unfinished) 0 (.ofDisk .blank)).1 =
        .ok ⟨2, 68, ["t"], 1, 2⟩ ∧
      ∃ ts us l, Reader.dump unfinished.events = ⟨ts, none⟩ ∧
        ((Splitter.new ⟨"dump.sql"⟩ ⟨"out"⟩).run (.script unfinished) 0
          (.ofDisk .blank)).2.2.disk.stat ⟨"out/t.sql"⟩ =
            .ok (l, .file (Bytes.pack unfinishedFiled)) ∧
        Rereads ((Splitter.new ⟨"dump.sql"⟩ ⟨"out"⟩).run (.script unfinished) 0
            (.ofDisk .blank)).2.2.disk ⟨"out/t.sql"⟩ (Bytes.pack unfinishedFiled) "t"
          (ofTable "t" ((Splitter.new ⟨"dump.sql"⟩ ⟨"out"⟩).routed ts)) us := by
  have hbytes : unfinished.events = unfinishedText.map .byte := by decide +kernel
  have hran : ((Splitter.new ⟨"dump.sql"⟩ ⟨"out"⟩).run (.script unfinished) 0
        (.ofDisk .blank)).1 = .ok ⟨2, 68, ["t"], 1, 2⟩ ∧
      ((Splitter.new ⟨"dump.sql"⟩ ⟨"out"⟩).run (.script unfinished) 0
        (.ofDisk .blank)).2.1.pool.made.map (·.path) = [⟨"out/t.sql"⟩] ∧
      ((Splitter.new ⟨"dump.sql"⟩ ⟨"out"⟩).run (.script unfinished) 0
        (.ofDisk .blank)).2.2.disk.readFile ⟨"out/t.sql"⟩ = .ok unfinishedFiled := by
    decide +kernel
  have htable : "t" ∈ ((Splitter.new ⟨"dump.sql"⟩ ⟨"out"⟩).routed
      (Reader.dump unfinished.events).statements).map (·.1) := by
    decide +kernel
  obtain ⟨hrun, hmade, hread⟩ := hran
  have hidle : (Splitter.new ⟨"dump.sql"⟩ ⟨"out"⟩).pool.Idle := Pool.idle_new ⟨"out"⟩
  obtain ⟨ts, files, hdump, hfiled, htables, hfiles⟩ :=
    run_reread hidle rfl hbytes (Prod.ext hrun rfl)
  obtain ⟨f, rfl, hpath, -, -, hstat⟩ := hfiled.sole rfl hmade (by decide) hread
  rw [hdump] at htable
  have hname : f.1.table = "t" := by
    obtain ⟨g, hg, hname⟩ := (htables "t").1 htable
    rwa [List.mem_singleton.1 hg] at hname
  rcases hfiles f (List.mem_singleton_self f) with ⟨c, us, hfile, hus⟩ | ⟨hnull, -⟩
  · rw [hpath] at hfile hus
    cases hfile.symm.trans hstat
    rw [hname] at hus
    exact ⟨hidle, hbytes, hrun, ts, us, f.2, hdump, hstat, hus⟩
  · rw [hpath] at hnull
    cases hnull.symm.trans hstat

end Splitter
end DumpRouter
