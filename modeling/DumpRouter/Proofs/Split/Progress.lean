import DumpRouter.Proofs.Split.Unmetered

/-!
# DumpRouter.Proofs.Split.Progress

What the meter of a run reports. Each read that succeeds is reported with the number of bytes
delivered until then, in order, and no other read is.

* `Script.LastRead`: why a run on a script makes no further read.
* `Script.Exact`: what the reports of the run have to be.
* `Reader.follows_turn`: one turn of a loop over statements.
* `stream_follows`, `fold_follows`: the loops, by induction on the statements.
* `metered_exact`: runs and analyses, with a meter and without.
-/

namespace DumpRouter

namespace Site

theorem reports_note (s : Site) {e : Event} (he : e.isReport = false) :
    (s.note e).reports = s.reports :=
  reports_of_retold (f := fun s => s.note e) (fun _ hh s => note_retold hh s he) s

theorem reports_noteAll (s : Site) (ns : List Nat) :
    (s.noteAll (ns.map .progress)).reports = s.reports ++ ns := by
  induction ns generalizing s with
  | nil => exact (List.append_nil _).symm
  | cons n ns ih =>
    have hone : (s.note (.progress n)).reports = s.reports ++ [n] := by
      simp [note, reports]
    have hrest := ih (s.note (.progress n))
    rw [hone, List.append_assoc] at hrest
    exact hrest

end Site

namespace Script

/-- Why a run on a script makes no read behind the first `k`. It has taken the bytes `taken` of the
script, and comes to `x`. -/
inductive LastRead {α : Type} (n : Nat) (script : Script) (taken : Bytes) :
    Except Failure α → Nat → Prop where
  /-- It fails before it reads. -/
  | unread (e : Failure) : LastRead n script taken (.error e) 0
  /-- The last read comes upon an end of the script. -/
  | ended {x : Except Failure α} {k : Nat} :
      script.delivery n k = .bytes [] → LastRead n script taken x (k + 1)
  /-- The last read fails. -/
  | failed {f : Fault} {k : Nat} :
      script.delivery n k = .failed f → LastRead n script taken (.error (.read f)) (k + 1)
  /-- The statement with which it fails was not complete before the last read. -/
  | broken {e : Failure} {k : Nat} :
      (script.delivered n k).length < taken.length → LastRead n script taken (.error e) (k + 1)

/-- The reports `rs` of a run that reads a script in portions of `n` bytes, takes the bytes `taken`,
and comes to `x`. Its reads are the first `k`. -/
structure Exact {α : Type} (n : Nat) (script : Script) (taken : Bytes) (x : Except Failure α)
    (k : Nat) (rs : List Nat) : Prop where
  covered : taken <+: script.delivered n k
  last : script.LastRead n taken x k
  /-- For each read that succeeds the number of bytes delivered until then, and nothing else. -/
  reports : rs = script.due n k
  ascending : rs.Pairwise (· ≤ ·)
  /-- A run that succeeds reports at last what has been delivered in all. -/
  total : ∀ y, x = .ok y → rs.getLast? = some (script.delivered n k).length
  /-- That is the whole of a script which does not end before its last byte. -/
  whole : ∀ y, x = .ok y → script.Unbroken → script.delivered n k = bytes script.events

variable {α : Type} {n : Nat} {script : Script} {taken : Bytes} {x : Except Failure α} {k : Nat}

theorem LastRead.of_ok {y : α} (h : script.LastRead n taken (.ok y) k) :
    ∃ j, k = j + 1 ∧ script.delivery n j = .bytes [] := by
  cases h with
  | ended h => exact ⟨_, rfl, h⟩

theorem LastRead.of_error {e : Failure}
    (h : script.LastRead n taken (.error e : Except Failure α) k) (β : Type) :
    script.LastRead n taken (.error e : Except Failure β) k := by
  cases h with
  | unread => exact .unread e
  | ended h => exact .ended h
  | failed h => exact .failed h
  | broken h => exact .broken h

theorem exact_due (hn : 0 < n) (hcovered : taken <+: script.delivered n k)
    (hlast : script.LastRead n taken x k) : Exact n script taken x k (script.due n k) where
  covered := hcovered
  last := hlast
  reports := rfl
  ascending := due_ascending k
  total y hx := by
    subst hx
    obtain ⟨j, rfl, hend⟩ := hlast.of_ok
    exact getLast?_due hend
  whole y hx hunbroken := by
    subst hx
    obtain ⟨j, rfl, hend⟩ := hlast.of_ok
    exact delivered_eq hn hunbroken hend

end Script

namespace Reader

variable {n j k : Nat} {script : Script} {used u : Bytes} {r : Reader}

theorem Stops.of_statement {t : Statement} (h : Stops n script j used u (.statement t)) :
    t.bytes = u ∧ ∀ (α : Type) (e : Failure),
      script.LastRead n used (.error e : Except Failure α) (j + 1) := by
  cases h with
  | terminated h => exact ⟨rfl, fun _ _ => .broken h⟩
  | ended h hx =>
    unfold atEnd at hx
    split at hx
    · cases hx
    · cases hx
      exact ⟨rfl, fun _ _ => .ended h⟩

theorem Stops.of_finished (h : Stops n script j used u .finished) :
    script.delivery n j = .bytes [] := by
  cases h with
  | ended h => exact h

theorem Stops.of_failed {f : Fault} (h : Stops n script j used u (.failed f)) :
    script.delivery n j = .failed f := by
  cases h with
  | failed _ h => exact h
  | ended _ hx =>
    unfold atEnd at hx
    split at hx <;> cases hx

theorem Follows.used_prefix {past : List Nat} (h : r.Follows n script k used past) :
    used <+: script.delivered n k :=
  ⟨r.chunk, h.bytes.symm⟩

/-- One turn of a loop over statements, which enters the reports in the journal. -/
theorem follows_turn (h : r.Follows n script k used (script.due n k)) {s : Site}
    {before : List Nat} (hs : s.reports = before ++ script.due n k) {x : Outcome} {r' : Reader}
    (hr : r.read s.disk = (x, r')) :
    ∃ j u, r'.takeReports.2.Follows n script (j + 1) (used ++ u) (script.due n (j + 1)) ∧
      (s.noteAll (r'.takeReports.1.map .progress)).reports = before ++ script.due n (j + 1) ∧
      Stops n script j (used ++ u) u x := by
  obtain ⟨j, u, hf, hstops⟩ := follows_read h s.disk
  rw [hr] at hf hstops
  have hdue : script.due n k ++ r'.takeReports.1 = script.due n (j + 1) := hf.reports
  refine ⟨j, u, hdue ▸ hf.takeReports, ?_, hstops⟩
  rw [Site.reports_noteAll, hs, List.append_assoc, hdue]

end Reader

namespace Splitter

theorem reports_route (sp : Splitter) (t : Statement) (s : Site) :
    (sp.route t s).2.2.reports = s.reports :=
  Site.reports_of_retold (f := fun s => (sp.route t s).2.2)
    (fun _ hh s => congrArg (·.2.2) (route_retold hh sp.metered sp s t)) s

theorem read_route (sp : Splitter) (t : Statement) (s : Site) :
    (sp.route t s).2.1.stats.read = sp.stats.read + 1 := by
  rw [route_eq]
  cases sp.destination? t with
  | none => rfl
  | some table =>
    dsimp only
    rcases sp.deliver table t s with ⟨_ | _, p, s'⟩ <;> rfl

theorem stream_follows (sp : Splitter) (s : Site) {n k : Nat} {script : Script} {used : Bytes}
    {before : List Nat} {r : Reader} {es : List Script.Event}
    (hf : r.Follows n script k used (script.due n k)) (ha : r.Ahead es)
    (hs : s.reports = before ++ script.due n k) :
    ∃ k' m taken, taken = used ++ ((Reader.dump es).statements.take m).flatMap (·.bytes) ∧
      (sp.stream r s).2.1.stats.read = sp.stats.read + m ∧
      (sp.stream r s).2.2.reports = before ++ script.due n k' ∧
      taken <+: script.delivered n k' ∧ script.LastRead n taken (sp.stream r s).1 k' := by
  induction r using Reader.induction_read generalizing sp s es k used with
  | _ r ih =>
    obtain ⟨ho, hahead, -⟩ := Reader.read_cut ha s.disk
    rw [stream_eq]
    rcases hr : r.read s.disk with ⟨x, r'⟩
    rw [hr] at ho hahead
    obtain ⟨j, u, hfollows, hreports, hstops⟩ := Reader.follows_turn hf hs hr
    have hused := (List.prefix_append used u).trans hfollows.used_prefix
    dsimp only
    cases x with
    | finished =>
      rw [Reader.dump_finished ho.symm]
      exact ⟨j + 1, 0, used, by simp, rfl, hreports, hused, .ended hstops.of_finished⟩
    | failed f =>
      rw [Reader.dump_failed ho.symm]
      exact ⟨j + 1, 0, used, by simp, rfl, (Site.reports_note _ rfl).trans hreports, hused,
        .failed hstops.of_failed⟩
    | statement t =>
      rw [Reader.dump_statement ho.symm]
      obtain ⟨rfl, hlast⟩ := hstops.of_statement
      have hquiet := (sp.reports_route t _).trans hreports
      have hread := sp.read_route t (s.noteAll (r'.takeReports.1.map .progress))
      dsimp only
      rcases hroute : sp.route t (s.noteAll (r'.takeReports.1.map .progress)) with
        ⟨e | _, sp', s'⟩ <;> rw [hroute] at hquiet hread
      · exact ⟨j + 1, 1, used ++ t.bytes, by simp, hread, hquiet, hfollows.used_prefix, hlast _ e⟩
      · obtain ⟨k', m, taken, rfl, hmore, hrest⟩ :=
          ih _ _ _ hr sp' s' hfollows (Reader.ahead_takeReports hahead) hquiet
        refine ⟨k', m + 1, _, ?_, ?_, hrest⟩
        · rw [List.take_succ_cons, List.flatMap_cons, List.append_assoc]
        · rw [hmore, hread, Nat.add_assoc, Nat.add_comm 1]

theorem finish_ends (sp : Splitter) (s : Site) :
    (sp.finish s).2.1.stats = sp.stats ∧ (sp.finish s).2.2.reports = s.reports := by
  refine ⟨?_, Site.reports_of_retold (f := fun s => (sp.finish s).2.2)
    (fun _ hh s => congrArg (·.2.2) (finish_retold hh sp.metered sp s)) s⟩
  unfold finish
  rcases sp.pool.closeAll s with ⟨_ | _, p, s'⟩ <;> rfl

theorem abort_ends (sp : Splitter) (e : Failure) (s : Site) :
    (sp.abort e s).1 = .error e ∧ (sp.abort e s).2.1.stats = sp.stats ∧
      (sp.abort e s).2.2.reports = s.reports := by
  refine ⟨?_, ?_, Site.reports_of_retold (f := fun s => (sp.abort e s).2.2)
    (fun _ hh s => congrArg (·.2.2) (abort_retold hh sp.metered sp s e)) s⟩ <;>
  · unfold abort
    rcases sp.pool.closeAll s with ⟨_ | _, p, s'⟩ <;> rfl

theorem reports_prepare (sp : Splitter) (s : Site) : (sp.prepare s).2.reports = s.reports :=
  Site.reports_of_retold (f := fun s => (sp.prepare s).2)
    (fun _ hh s => congrArg (·.2) (prepare_retold hh sp.metered sp s)) s

theorem run_exact {sp : Splitter} (hmetered : sp.metered = true) (script : Script)
    (inputSize : Nat) (s : Site) :
    ∃ k rs, (sp.run (.script script) inputSize s).2.2.reports = s.reports ++ rs ∧
      Script.Exact (max 1 (sp.portion.getD (portionFor inputSize))) script
        (((Reader.dump script.events).statements.take
          (sp.run (.script script) inputSize s).2.1.stats.read).flatMap (·.bytes))
        (sp.run (.script script) inputSize s).1 k rs := by
  have hn := Nat.lt_of_lt_of_le Nat.one_pos
    (Nat.le_max_left 1 (sp.portion.getD (portionFor inputSize)))
  have hprep := reports_prepare { sp with stats := .zero, state := .initializing } s
  unfold run
  dsimp only
  rcases hp : Splitter.prepare { sp with stats := .zero, state := .initializing } s with
    ⟨e | _, s₁⟩ <;> rw [hp] at hprep
  · exact ⟨0, [], hprep.trans (List.append_nil _).symm,
      Script.exact_due hn List.nil_prefix (.unread e)⟩
  · have hstart : (s₁.note .splitStarted).reports = s.reports ++ [] :=
      (Site.reports_note _ rfl).trans (hprep.trans (List.append_nil _).symm)
    have hfollows := Reader.follows_new script (sp.portion.getD (portionFor inputSize))
    rw [← hmetered] at hfollows
    obtain ⟨k, m, taken, rfl, hread, hreports, hcovered, hlast⟩ :=
      stream_follows { sp with stats := .zero, state := .streaming } (s₁.note .splitStarted)
        hfollows (Reader.ahead_new script sp.metered _) hstart
    have hm : RunStats.zero.read + m = m := Nat.zero_add m
    rw [hm] at hread
    dsimp only
    rcases hx : Splitter.stream { sp with stats := .zero, state := .streaming }
        (.new (.new (.script script) sp.metered) (sp.portion.getD (portionFor inputSize)))
        (s₁.note .splitStarted) with ⟨e | _, sp₂, s₂⟩ <;>
      rw [hx] at hread hreports hlast <;>
      rw [List.nil_append] at hcovered hlast
    · obtain ⟨hfst, hstats, hquiet⟩ := sp₂.abort_ends e s₂
      refine ⟨k, _, hquiet.trans hreports, ?_⟩
      dsimp only
      rw [hfst, hstats, hread]
      exact Script.exact_due hn hcovered (hlast.of_error RunStats)
    · obtain ⟨hstats, hquiet⟩ := finish_ends { sp₂ with state := .draining } s₂
      refine ⟨k, _, hquiet.trans hreports, ?_⟩
      obtain ⟨j, rfl, hend⟩ := hlast.of_ok
      dsimp only
      rw [hstats, hread]
      exact Script.exact_due hn hcovered (.ended hend)

end Splitter

namespace Analyzer

theorem fold_follows (a : Analyzer) (tables : List TableStats) (s : Site) {n k : Nat}
    {script : Script} {used : Bytes} {before : List Nat} {r : Reader} {es : List Script.Event}
    (hf : r.Follows n script k used (script.due n k)) (ha : r.Ahead es)
    (hs : s.reports = before ++ script.due n k) :
    ∃ k', (a.fold tables r s).2.reports = before ++ script.due n k' ∧
      used ++ (Reader.dump es).statements.flatMap (·.bytes) <+: script.delivered n k' ∧
      script.LastRead n (used ++ (Reader.dump es).statements.flatMap (·.bytes))
        (a.fold tables r s).1 k' := by
  induction r using Reader.induction_read generalizing tables s es k used with
  | _ r ih =>
    obtain ⟨ho, hahead, -⟩ := Reader.read_cut ha s.disk
    rw [fold_eq]
    rcases hr : r.read s.disk with ⟨x, r'⟩
    rw [hr] at ho hahead
    obtain ⟨j, u, hfollows, hreports, hstops⟩ := Reader.follows_turn hf hs hr
    have hused := (List.prefix_append used u).trans hfollows.used_prefix
    cases x with
    | finished =>
      rw [Reader.dump_finished ho.symm, List.flatMap_nil, List.append_nil]
      exact ⟨j + 1, hreports, hused, .ended hstops.of_finished⟩
    | failed f =>
      rw [Reader.dump_failed ho.symm, List.flatMap_nil, List.append_nil]
      exact ⟨j + 1, (Site.reports_note _ rfl).trans hreports, hused, .failed hstops.of_failed⟩
    | statement t =>
      obtain ⟨rfl, -⟩ := hstops.of_statement
      rw [Reader.dump_statement ho.symm, List.flatMap_cons, ← List.append_assoc]
      exact ih _ _ _ hr (a.count tables t) _ hfollows (Reader.ahead_takeReports hahead) hreports

theorem report_exact {a : Analyzer} (hmetered : a.metered = true) (script : Script)
    (inputSize : Nat) (s : Site) :
    ∃ k rs, (a.report (.script script) inputSize s).2.reports = s.reports ++ rs ∧
      Script.Exact (max 1 (a.portion.getD (portionFor inputSize))) script
        ((Reader.dump script.events).statements.flatMap (·.bytes))
        (a.report (.script script) inputSize s).1 k rs := by
  have hn := Nat.lt_of_lt_of_le Nat.one_pos
    (Nat.le_max_left 1 (a.portion.getD (portionFor inputSize)))
  have hstart : (s.note .analysisStarted).reports = s.reports ++ [] :=
    (Site.reports_note s rfl).trans (List.append_nil _).symm
  have hfollows := Reader.follows_new script (a.portion.getD (portionFor inputSize))
  rw [← hmetered] at hfollows
  obtain ⟨k, hreports, hcovered, hlast⟩ := fold_follows a [] (s.note .analysisStarted) hfollows
    (Reader.ahead_new script a.metered _) hstart
  unfold report
  dsimp only
  rcases hx : a.fold [] (.new (.new (.script script) a.metered)
      (a.portion.getD (portionFor inputSize))) (s.note .analysisStarted) with ⟨e | y, s'⟩ <;>
    rw [hx] at hreports hlast
  · exact ⟨k, _, hreports, Script.exact_due hn hcovered (hlast.of_error Report)⟩
  · obtain ⟨j, rfl, hend⟩ := hlast.of_ok
    exact ⟨j + 1, _, (Site.reports_note s' rfl).trans hreports,
      Script.exact_due hn hcovered (.ended hend)⟩

end Analyzer

/-- A run on a script and an analysis of it, each with a meter: they are what they are without one,
and the reports are exact. -/
theorem metered_exact (sp : Splitter) (a : Analyzer) (script : Script) (inputSize : Nat)
    (s : Site) :
    (let run := (sp.withMeter true).run (.script script) inputSize s
     let plain := (sp.withMeter false).run (.script script) inputSize s
     let taken := (Reader.dump script.events).statements.take run.2.1.stats.read
     run.1 = plain.1 ∧ run.2.1.withMeter false = plain.2.1.withMeter false ∧
      run.2.2.disk = plain.2.2.disk ∧ run.2.2.unreported = plain.2.2.unreported ∧
      ∃ k rs, run.2.2.reports = s.reports ++ rs ∧
        Script.Exact (max 1 (sp.portion.getD (portionFor inputSize))) script
          (taken.flatMap (·.bytes)) run.1 k rs) ∧
    (let run := (a.withMeter true).report (.script script) inputSize s
     let plain := (a.withMeter false).report (.script script) inputSize s
     let taken := (Reader.dump script.events).statements
     run.1 = plain.1 ∧ run.2.disk = plain.2.disk ∧ run.2.unreported = plain.2.unreported ∧
      ∃ k rs, run.2.reports = s.reports ++ rs ∧
        Script.Exact (max 1 (a.portion.getD (portionFor inputSize))) script
          (taken.flatMap (·.bytes)) run.1 k rs) := by
  constructor
  · have hrun : (sp.withMeter false).run (.script script) inputSize s.unreported = _ :=
      (sp.withMeter true).run_unmetered s (.script script) inputSize
    have hplain : (sp.withMeter false).run (.script script) inputSize s.unreported = _ :=
      (sp.withMeter false).run_unmetered s (.script script) inputSize
    obtain ⟨hx, hrest⟩ := Prod.mk.inj (hrun.symm.trans hplain)
    obtain ⟨hsp, hs⟩ := Prod.mk.inj hrest
    exact ⟨hx, hsp, Site.disk_of_unreported hs, hs, Splitter.run_exact rfl script inputSize s⟩
  · have hrun : (a.withMeter false).report (.script script) inputSize s.unreported = _ :=
      (a.withMeter true).report_unmetered s (.script script) inputSize
    have hplain : (a.withMeter false).report (.script script) inputSize s.unreported = _ :=
      (a.withMeter false).report_unmetered s (.script script) inputSize
    obtain ⟨hx, hs⟩ := Prod.mk.inj (hrun.symm.trans hplain)
    exact ⟨hx, Site.disk_of_unreported hs, hs, Analyzer.report_exact rfl script inputSize s⟩

end DumpRouter
