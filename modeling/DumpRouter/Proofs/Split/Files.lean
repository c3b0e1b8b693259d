import DumpRouter.Proofs.Split.Routed

/-!
# DumpRouter.Proofs.Split.Files

What a run leaves behind. The file of each table holds the records of this table, in the order of
the dump, and nothing else on the disk is any different, but that the output directory is there.

* `Filed`: the files of a run, on the disk and in the pool.
* `filed_closeAll`: they are so once all writers have been closed.
* `run_files`: a run that does not fail has routed the whole dump.
* `run_failed_files`: a run that breaks off has kept what it routed before.
-/

namespace DumpRouter

/-- What a run that began with the pool `p` and the disk `d` leaves as `p'` and `d'`, if it has
routed `rs`: its writers, which are closed, and the places of their files. -/
structure Filed (p p' : Pool) (d d' : Disk) (rs : List Routed)
    (files : List (TableWriter × Location)) : Prop where
  made : p'.made = p.made ++ files.map (·.1)
  closed : ∀ f ∈ files, f.1.isClosed = true
  idle : p'.Idle
  /-- Each table that was met has a writer, in the order of their first statements. -/
  tables : files.map (·.1.table) = (rs.map (·.1)).eraseDups
  distinct : (files.map (·.2)).Nodup
  /-- The path of a writer leads to a file with the records of its table. A device that drops what
  it gets can only be there if it was there before the run. -/
  content : ∀ f ∈ files,
    d'.stat f.1.path = .ok (f.2, .file (Bytes.pack (records f.1.table rs))) ∨
      d'.stat f.1.path = .ok (f.2, .device .null) ∧ d.node? f.2 = some (.device .null)
  /-- Nothing else has changed, but directories have been made. -/
  other : ∀ l, l ∉ files.map (·.2) →
    d'.node? l = d.node? l ∨ d.node? l = none ∧ d'.node? l = some .directory

/-- The files of a run hold each routed statement and its newline once. -/
theorem Filed.sum_size {p p' : Pool} {d d' : Disk} {rs : List Routed}
    {files : List (TableWriter × Location)} (h : Filed p p' d d' rs files) :
    (files.map fun f => (records f.1.table rs).length).sum =
      (rs.map (·.2.length)).sum + rs.length := by
  have hn : (files.map (·.1.table)).Nodup := by
    rw [h.tables]
    exact RunStats.nodup_eraseDups _
  rw [← sum_records hn fun r hr => ?_, List.map_map]
  · rfl
  · rw [h.tables, List.mem_eraseDups]
    exact List.mem_map_of_mem hr

/-- If there is one file and something can be read from it, that is the records of its table. -/
theorem Filed.sole {p p' : Pool} {d d' : Disk} {rs : List Routed}
    {files : List (TableWriter × Location)} (h : Filed p p' d d' rs files) (hnew : p.made = [])
    {path : Path} (hpath : p'.made.map (·.path) = [path]) {bytes : Bytes} (hne : bytes ≠ [])
    (hread : d'.readFile path = .ok bytes) :
    ∃ f, files = [f] ∧ f.1.path = path ∧ (rs.map (·.1)).eraseDups = [f.1.table] ∧
      bytes = records f.1.table rs ∧ d'.stat path = .ok (f.2, .file (Bytes.pack bytes)) := by
  have hmade := h.made
  rw [hnew, List.nil_append] at hmade
  rw [hmade, List.map_map] at hpath
  obtain ⟨f, rfl, hf⟩ := List.map_eq_singleton_iff.1 hpath
  have hf : f.1.path = path := hf
  refine ⟨f, rfl, hf, h.tables.symm, ?_⟩
  have hcontent := h.content f (List.mem_singleton_self f)
  rw [hf] at hcontent
  rcases hcontent with hstat | ⟨hstat, -⟩
  · rw [Disk.readFile, hstat] at hread
    have hbytes : Bytes.unpack (Bytes.pack (records f.1.table rs)) = bytes := Except.ok.inj hread
    rw [Bytes.unpack_pack] at hbytes
    exact ⟨hbytes.symm, hbytes ▸ hstat⟩
  · rw [Disk.readFile, hstat] at hread
    exact absurd (Except.ok.inj hread).symm hne

namespace Splitter

variable {start sp sp' : Splitter} {d d₁ : Disk} {done : List Statement} {n : Nat}
  {ws : List TableWriter} {s s₁ s' : Site}

theorem filed_closeAll (h : Underway start d₁ done n ws sp s) (hd : d.AddsDirectories d₁)
    {p' : Pool} (hc : sp.pool.closeAll s = (.ok (), p', s')) :
    Filed start.pool p' d s'.disk (start.routed done)
      (ws.map fun w => (w.closed, d₁.spot w.path)) := by
  have hne : ∀ w ∈ ws, records w.table (start.routed done) ≠ [] := fun w hw =>
    records_ne_nil (h.mem_tables.1 (List.mem_map_of_mem hw))
  have hserves := Pool.serves_closeAll h.tracks.serves s
  obtain ⟨htouch, hrec, -⟩ := Pool.tracks_closeAll h.tracks hne hc
  rw [hc] at hserves
  refine ⟨?_, ?_, hserves.idle, ?_, ?_, ?_, ?_⟩
  · simpa [Function.comp_def] using hserves.made
  · intro f hf
    obtain ⟨w, -, rfl⟩ := List.mem_map.1 hf
    rfl
  · rw [← h.tables, List.map_map]
    rfl
  · simpa [Function.comp_def] using h.tracks.nodup_spots
  · intro f hf
    obtain ⟨w, hw, rfl⟩ := List.mem_map.1 hf
    have hl : s'.disk.Leads w.path (d₁.spot w.path) := (h.tracks.leads hw).sameTree htouch.tree
    rcases hrec rfl w hw with hfile | hnull
    · exact .inl (hl.stat hfile)
    · refine .inr ⟨hl.stat hnull, ?_⟩
      have hn := (htouch.tree.device _ _).1 hnull
      rcases hd.node (d₁.spot w.path) with he | ⟨-, he⟩
      · exact he.symm.trans hn
      · rw [he] at hn
        cases hn
  · intro l hl
    have hat : ¬ d₁.At (ws.map (·.path)) l := by
      rintro ⟨path, hp, hlead⟩
      obtain ⟨w, hw, rfl⟩ := List.mem_map.1 hp
      exact hl (List.mem_map.2 ⟨_, List.mem_map_of_mem hw, hlead.spot⟩)
    rw [htouch.other l hat]
    exact hd.node l

theorem Underway.full_of_closeAll (h : Underway start d₁ done n ws sp s) {e : Failure} {p' : Pool}
    (hc : sp.pool.closeAll s = (.error e, p', s')) : start.pool.Full d₁ := by
  have hne : ∀ w ∈ ws, records w.table (start.routed done) ≠ [] := fun w hw =>
    records_ne_nil (h.mem_tables.1 (List.mem_map_of_mem hw))
  obtain ⟨-, -, hfull⟩ := Pool.tracks_closeAll h.tracks hne hc
  exact (hfull e rfl).congr h.outputDir.symm

theorem prepare_adds (sp : Splitter) (s : Site) :
    s.disk.AddsDirectories (sp.prepare s).2.disk := by
  unfold prepare Pool.ensureOutputDir
  split
  · exact .refl _
  · have := Disk.mkdirAll_adds s.disk sp.pool.outputDir
    split <;> next h => rw [h] at this; exact this

theorem underway_start (hidle : sp.pool.Idle) (hdry : sp.dryRun = false) (s : Site) :
    Underway sp s.disk [] 0 [] { sp with stats := .zero, state := .streaming } s where
  limit := rfl
  filter := rfl
  dryRun := hdry
  outputDir := rfl
  stats := rfl
  tracks := hidle.tracks s.disk
  tables := rfl

/-- The reader of a run on a script. -/
def readerOf (sp : Splitter) (script : Script) (inputSize : Nat) : Reader :=
  .new (.new (.script script) sp.metered) (sp.portion.getD (portionFor inputSize))

/-- Streaming a script, from its first statement on. -/
theorem underway_run (hidle : sp.pool.Idle) (hdry : sp.dryRun = false) (script : Script)
    (inputSize : Nat) (s : Site) {x : Except Failure Unit}
    (hx : { sp with stats := .zero, state := .streaming }.stream (sp.readerOf script inputSize)
      (s.note .splitStarted) = (x, sp', s')) :
    (x = .ok () ∧ (Reader.dump script.events).fault = none ∧
        ∃ ws, Underway sp s.disk (Reader.dump script.events).statements
          (Reader.dump script.events).statements.length ws sp' s') ∨
      (∃ e before n ws, x = .error e ∧
        Breaks sp (Reader.dump script.events).statements (Reader.dump script.events).fault e
          before n ∧
        Underway sp s.disk before n ws sp' s') ∨
      (∃ e, x = .error e ∧ sp.pool.Full s.disk) := by
  have hs := stream_streams { sp with stats := .zero, state := .streaming }
    (s.note .splitStarted) (Reader.ahead_new script sp.metered
      (sp.portion.getD (portionFor inputSize)))
  have hstart := (underway_start hidle hdry s).congr (s.disk_note .splitStarted)
  have := underway_streams hs hstart
  rw [readerOf] at hx
  rw [hx] at this
  exact this

/-- Whatever becomes of a run, its pool can serve the next one. -/
theorem idle_run (hidle : sp.pool.Idle) (source : Source) (inputSize : Nat) (s : Site) :
    (sp.run source inputSize s).2.1.pool.Idle := by
  unfold run
  dsimp only
  split
  · exact hidle
  · split
    · next sp₂ s₂ _ =>
      have := sp₂.pool.idle_closeAll s₂
      unfold abort
      split <;> next hc => rw [hc] at this; exact this
    · next sp₂ s₂ _ =>
      have := sp₂.pool.idle_closeAll s₂
      unfold finish
      dsimp only
      split <;> next hc => rw [hc] at this; exact this

/-- A run makes the output directory, streams, and closes all files. -/
theorem run_cases {script : Script} {inputSize : Nat} {x : Except Failure RunStats}
    (h : sp.run (.script script) inputSize s = (x, sp', s')) :
    (∃ e, sp.prepare s = (.error e, s') ∧ x = .error e) ∨
      ∃ s₁ y sp₂ s₂, sp.prepare s = (.ok (), s₁) ∧
        { sp with stats := .zero, state := .streaming }.stream (sp.readerOf script inputSize)
          (s₁.note .splitStarted) = (y, sp₂, s₂) ∧
        ((y = .ok () ∧ { sp₂ with state := .draining }.finish s₂ = (x, sp', s')) ∨
          ∃ e, y = .error e ∧ sp₂.abort e s₂ = (x, sp', s')) := by
  have hprep : { sp with stats := .zero, state := .initializing }.prepare s = sp.prepare s := rfl
  unfold run at h
  dsimp only at h
  rw [hprep] at h
  cases hp : sp.prepare s with
  | mk z s₁ =>
    rw [hp] at h
    cases z with
    | error e =>
      cases h
      exact .inl ⟨e, rfl, rfl⟩
    | ok _ =>
      right
      cases hx : { sp with stats := .zero, state := .streaming }.stream
          (sp.readerOf script inputSize) (s₁.note .splitStarted) with
      | mk y z =>
        obtain ⟨sp₂, s₂⟩ := z
        have hx' := hx
        rw [readerOf] at hx'
        dsimp only at h
        rw [hx'] at h
        cases y with
        | ok _ => exact ⟨s₁, _, sp₂, s₂, rfl, hx, .inl ⟨rfl, h⟩⟩
        | error e => exact ⟨s₁, _, sp₂, s₂, rfl, hx, .inr ⟨e, rfl, h⟩⟩

theorem finish_ok {stats : RunStats} (h : sp.finish s = (.ok stats, sp', s')) :
    ∃ s₂, sp.pool.closeAll s = (.ok (), sp'.pool, s₂) ∧ s'.disk = s₂.disk ∧ stats = sp.stats := by
  unfold finish at h
  split at h
  · cases h
  · next p s₂ hc =>
    cases h
    exact ⟨s₂, hc, rfl, rfl⟩

theorem finish_error {e : Failure} (h : sp.finish s = (.error e, sp', s')) :
    sp.pool.closeAll s = (.error e, sp'.pool, s') := by
  unfold finish at h
  split at h
  · next hc =>
    cases h
    exact hc
  · cases h

/-- If there is room, nothing goes wrong with the files at the end of a run that has failed. -/
theorem filed_abort (h : Underway start d₁ done n ws sp s) (hd : d.AddsDirectories d₁)
    (hroom : ¬ start.pool.Full d₁) {x : Except Failure RunStats} {e : Failure}
    (ha : sp.abort e s = (x, sp', s')) :
    x = .error e ∧ sp'.stats = sp.stats ∧ sp'.state = .failed ∧
      Filed start.pool sp'.pool d s'.disk (start.routed done)
        (ws.map fun w => (w.closed, d₁.spot w.path)) := by
  unfold abort at ha
  cases hc : sp.pool.closeAll s with
  | mk y z =>
    obtain ⟨p, s₂⟩ := z
    rw [hc] at ha
    cases y with
    | ok _ =>
      cases ha
      exact ⟨rfl, rfl, rfl, filed_closeAll h hd hc⟩
    | error e' => exact absurd (h.full_of_closeAll hc) hroom

/-- A run that does not fail has read the whole dump. The file of each table holds its records,
other files are as they were, and the counters tell what was read and routed. -/
theorem run_files {script : Script} {inputSize : Nat} {stats : RunStats} (hidle : sp.pool.Idle)
    (hdry : sp.dryRun = false)
    (hrun : sp.run (.script script) inputSize s = (.ok stats, sp', s')) :
    ∃ ts files, Reader.dump script.events = ⟨ts, none⟩ ∧
      Filed sp.pool sp'.pool s.disk s'.disk (sp.routed ts) files ∧
      stats = .ofRouted (sp.routed ts) ts.length ∧
      (files.map fun f => (records f.1.table (sp.routed ts)).length).sum =
        stats.bytes + stats.processed := by
  have hadd := prepare_adds sp s
  rcases run_cases hrun with ⟨e, -, hx⟩ | ⟨s₁, y, sp₂, s₂, hp, hstream, ⟨rfl, hf⟩ | ⟨e, rfl, ha⟩⟩
  · cases hx
  · rw [hp] at hadd
    obtain ⟨s₃, hc, hdisk, rfl⟩ := finish_ok hf
    rcases underway_run hidle hdry script inputSize s₁ hstream with
      ⟨-, hnone, ws, hu⟩ | ⟨e, before, n, ws, hy, -⟩ | ⟨e, hy, -⟩
    · have hfiled := filed_closeAll hu hadd hc
      rw [← hdisk] at hfiled
      refine ⟨_, _, congrArg (Reader.Dump.mk _) hnone, hfiled, hu.stats, ?_⟩
      rw [hfiled.sum_size, hu.stats]
      rfl
    · cases hy
    · cases hy
  · unfold abort at ha
    split at ha <;> cases ha

/-- Two rows of a table, its structure, a row of another table, and a statement of no table. -/
def twoRows : Script :=
  [.data (Bytes.ascii ("CREATE TABLE t (i INT);INSERT INTO t VALUES (1);SET x = 1;" ++
    "INSERT INTO u VALUES (1);INSERT INTO t VALUES (2);").toList)]

/-- The rows of `t` as they are filed. -/
def rowsFiled : Bytes :=
  Bytes.ascii "INSERT INTO t VALUES (1);\nINSERT INTO t VALUES (2);\n".toList

/-- A splitter that lets pass the rows of one table only. -/
def limited : Splitter :=
  { Splitter.new ⟨"dump.sql"⟩ ⟨"out"⟩ with limit := some ["t"], filter := .dataOnly }

theorem run_files_twoRows :
    (limited.run (.script twoRows) 0 (.ofDisk .blank)).1 = .ok ⟨2, 50, ["t"], 1, 5⟩ ∧
      ∃ ts f, Reader.dump twoRows.events = ⟨ts, none⟩ ∧ ts.length = 5 ∧
        Filed limited.pool (limited.run (.script twoRows) 0 (.ofDisk .blank)).2.1.pool .blank
          (limited.run (.script twoRows) 0 (.ofDisk .blank)).2.2.disk (limited.routed ts) [f] ∧
        (limited.run (.script twoRows) 0 (.ofDisk .blank)).2.2.disk.stat ⟨"out/t.sql"⟩ =
          .ok (f.2, .file (Bytes.pack rowsFiled)) ∧
        rowsFiled = records "t" (limited.routed ts) ∧ rowsFiled.length = 50 + 2 := by
  have hrun : (limited.run (.script twoRows) 0 (.ofDisk .blank)).1 = .ok ⟨2, 50, ["t"], 1, 5⟩ ∧
      (limited.run (.script twoRows) 0 (.ofDisk .blank)).2.1.pool.made.map (·.path) =
        [⟨"out/t.sql"⟩] ∧
      (limited.run (.script twoRows) 0 (.ofDisk .blank)).2.2.disk.readFile ⟨"out/t.sql"⟩ =
        .ok rowsFiled := by
    decide +kernel
  obtain ⟨hstats, hmade, hread⟩ := hrun
  have hidle : limited.pool.Idle := Pool.idle_new ⟨"out"⟩
  obtain ⟨ts, files, hdump, hfiled, hcounts, hsum⟩ := run_files hidle rfl (Prod.ext hstats rfl)
  obtain ⟨f, rfl, -, htables, hrecords, hstat⟩ := hfiled.sole rfl hmade (by decide) hread
  have hfound : ["t"] = ((limited.routed ts).map (·.1)).eraseDups :=
    congrArg RunStats.tables hcounts
  have htable : f.1.table = "t" := List.singleton_inj.1 (htables.symm.trans hfound.symm)
  rw [htable] at hrecords
  exact ⟨hstats, ts, f, hdump, (congrArg RunStats.read hcounts).symm, hfiled, hstat, hrecords,
    by decide⟩

/-- A run that fails after its output directory has been made, where no file is a device without
room, fails because streaming breaks off. The file of each table that was met before holds its
records up to there, the counters tell the same, and the pool begins anew. -/
theorem run_failed_files {script : Script} {inputSize : Nat} {e : Failure} (hidle : sp.pool.Idle)
    (hdry : sp.dryRun = false) (hprep : sp.prepare s = (.ok (), s₁))
    (hroom : ¬ sp.pool.Full s₁.disk)
    (hrun : sp.run (.script script) inputSize s = (.error e, sp', s')) :
    ({ sp with stats := .zero, state := .streaming }.stream (sp.readerOf script inputSize)
        (s₁.note .splitStarted)).1 = .error e ∧
      ∃ before n files,
        Breaks sp (Reader.dump script.events).statements (Reader.dump script.events).fault e
          before n ∧
        Filed sp.pool sp'.pool s.disk s'.disk (sp.routed before) files ∧
        sp'.stats = .ofRouted (sp.routed before) n ∧ sp'.state = .failed := by
  have hadd := prepare_adds sp s
  rw [hprep] at hadd
  rcases run_cases hrun with ⟨e, hp, -⟩ | ⟨s₀, y, sp₂, s₂, hp, hstream, hend⟩
  · cases hprep.symm.trans hp
  · cases hprep.symm.trans hp
    rcases underway_run hidle hdry script inputSize s₁ hstream with
      ⟨rfl, -, ws, hu⟩ | ⟨e', before, n, ws, rfl, hb, hu⟩ | ⟨e', rfl, hfull⟩
    · -- the dump was streamed to its end, and a file could not be closed
      rcases hend with ⟨-, hf⟩ | ⟨e', hy, -⟩
      · exact absurd (hu.full_of_closeAll (finish_error hf)) hroom
      · cases hy
    · rcases hend with ⟨hy, -⟩ | ⟨e'', hy, ha⟩
      · cases hy
      · cases hy
        obtain ⟨hx, hstats, hstate, hfiled⟩ := filed_abort hu hadd hroom ha
        cases hx
        exact ⟨by rw [hstream], before, n, _, hb, hfiled, hstats.trans hu.stats, hstate⟩
    · exact absurd hfull hroom

/-- The statements of `twoRows`, and a failure in the middle of another one. -/
def cutShort : Script := twoRows ++ [.data (Bytes.ascii "INSERT INTO t".toList), .fault "lost"]

theorem run_failed_files_cutShort :
    (limited.run (.script cutShort) 0 (.ofDisk .blank)).1 = .error (.read (.text "lost")) ∧
      (limited.run (.script cutShort) 0 (.ofDisk .blank)).2.1.stats = ⟨2, 50, ["t"], 1, 5⟩ ∧
      (limited.run (.script cutShort) 0 (.ofDisk .blank)).2.1.state = .failed ∧
      ∃ before n f,
        Breaks limited (Reader.dump cutShort.events).statements (Reader.dump cutShort.events).fault
          (.read (.text "lost")) before n ∧
        Filed limited.pool (limited.run (.script cutShort) 0 (.ofDisk .blank)).2.1.pool .blank
          (limited.run (.script cutShort) 0 (.ofDisk .blank)).2.2.disk (limited.routed before) [f] ∧
        (limited.run (.script cutShort) 0 (.ofDisk .blank)).2.2.disk.stat ⟨"out/t.sql"⟩ =
          .ok (f.2, .file (Bytes.pack rowsFiled)) ∧
        (limited.run (.script cutShort) 0 (.ofDisk .blank)).2.1.stats =
          .ofRouted (limited.routed before) n := by
  have hrun : (limited.run (.script cutShort) 0 (.ofDisk .blank)).1 =
        .error (.read (.text "lost")) ∧
      (limited.run (.script cutShort) 0 (.ofDisk .blank)).2.1.stats = ⟨2, 50, ["t"], 1, 5⟩ ∧
      (limited.run (.script cutShort) 0 (.ofDisk .blank)).2.1.pool.made.map (·.path) =
        [⟨"out/t.sql"⟩] ∧
      (limited.run (.script cutShort) 0 (.ofDisk .blank)).2.2.disk.readFile ⟨"out/t.sql"⟩ =
        .ok rowsFiled := by
    decide +kernel
  obtain ⟨hfails, hstats, hmade, hread⟩ := hrun
  have hprepare : (limited.prepare (.ofDisk .blank)).1 = .ok () ∧
      ∀ e ∈ (limited.prepare (.ofDisk .blank)).2.disk.nodes,
        e.2 = .device .full → e.1.names.head? = some "full" := by
    decide +kernel
  obtain ⟨hprep, hnames⟩ := hprepare
  have hidle : limited.pool.Idle := Pool.idle_new ⟨"out"⟩
  obtain ⟨-, before, n, files, hbreaks, hfiled, hcounts, hstate⟩ :=
    run_failed_files hidle rfl (Prod.ext hprep rfl) (Pool.not_full_of_names _ hnames)
      (Prod.ext hfails rfl)
  obtain ⟨f, rfl, -, -, -, hstat⟩ := hfiled.sole rfl hmade (by decide) hread
  exact ⟨hfails, hstats, hstate, before, n, f, hbreaks, hfiled, hstat, hcounts⟩

end Splitter
end DumpRouter
