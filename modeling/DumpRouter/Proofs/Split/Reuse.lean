import DumpRouter.Proofs.Split.Files
import DumpRouter.Proofs.Writer.Behind

/-!
# DumpRouter.Proofs.Split.Reuse

One splitter, many runs. A run leaves nothing to the next one but the options of the splitter: what
is seen of it is what a new splitter with these options would show.

* `Splitter.behind`, `run_behind`: the writers that the pool has made before do not show in a run.
* `Splitter.Used`: the splitters that come of a new one; `Used.idle`: they serve no table.
* `run_fresh`: a run of one of them and the same run of a new splitter.
* `runs_eq_fresh`: runs one after the other.
-/

namespace DumpRouter
namespace Splitter

/-- The splitter `sp`, if its pool has made the writers `old` before. -/
def behind (old : List TableWriter) (sp : Splitter) : Splitter :=
  { sp with pool := sp.pool.behind old }

variable (old : List TableWriter) (sp : Splitter) (s : Site)

theorem deliver_behind (table : String) (t : Statement) :
    (sp.behind old).deliver table t s =
      ((sp.deliver table t s).1, (sp.deliver table t s).2.1.behind old,
        (sp.deliver table t s).2.2) := by
  unfold deliver
  have hdry : (sp.behind old).dryRun = sp.dryRun := rfl
  rw [hdry]
  split
  · rfl
  · exact sp.pool.writeTable_behind old table s t.bytes

theorem route_behind (t : Statement) :
    (sp.behind old).route t s =
      ((sp.route t s).1, (sp.route t s).2.1.behind old, (sp.route t s).2.2) := by
  have hdest : (sp.behind old).destination? t = sp.destination? t := rfl
  rw [route_eq, route_eq sp, hdest]
  cases sp.destination? t with
  | none => rfl
  | some table =>
    dsimp only
    rw [deliver_behind]
    cases sp.deliver table t s with
    | mk x y => cases x <;> rfl

theorem stream_behind (r : Reader) :
    (sp.behind old).stream r s =
      ((sp.stream r s).1, (sp.stream r s).2.1.behind old, (sp.stream r s).2.2) := by
  induction r using Reader.induction_read generalizing sp s with
  | _ r ih =>
    rw [stream_eq, stream_eq sp r s]
    cases hr : r.read s.disk with
    | mk x r' =>
      cases x with
      | finished => rfl
      | failed f => rfl
      | statement t =>
        dsimp only
        rw [route_behind]
        cases sp.route t (s.noteAll (r'.takeReports.1.map .progress)) with
        | mk y z =>
          cases y with
          | error e => rfl
          | ok _ => exact ih _ _ _ hr z.1 z.2

theorem finish_behind :
    (sp.behind old).finish s =
      ((sp.finish s).1, (sp.finish s).2.1.behind old, (sp.finish s).2.2) := by
  simp only [finish, behind, Pool.closeAll_behind]
  cases sp.pool.closeAll s with
  | mk x y => cases x <;> rfl

theorem abort_behind (e : Failure) :
    (sp.behind old).abort e s =
      ((sp.abort e s).1, (sp.abort e s).2.1.behind old, (sp.abort e s).2.2) := by
  simp only [abort, behind, Pool.closeAll_behind]
  cases sp.pool.closeAll s with
  | mk x y => cases x <;> rfl

theorem run_behind (source : Source) (inputSize : Nat) :
    (sp.behind old).run source inputSize s =
      ((sp.run source inputSize s).1, (sp.run source inputSize s).2.1.behind old,
        (sp.run source inputSize s).2.2) := by
  have hprep : Splitter.prepare { sp with
        pool := sp.pool.behind old
        stats := .zero
        state := .initializing } s =
      Splitter.prepare { sp with stats := .zero, state := .initializing } s := rfl
  have hstream := stream_behind old { sp with stats := .zero, state := .streaming }
  unfold run
  dsimp only [behind] at hstream ⊢
  rw [hprep]
  cases Splitter.prepare { sp with stats := .zero, state := .initializing } s with
  | mk x s₁ =>
    cases x with
    | error e => rfl
    | ok _ =>
      dsimp only
      rw [hstream]
      cases Splitter.stream { sp with stats := .zero, state := .streaming }
          (.new (.new source sp.metered) (sp.portion.getD (portionFor inputSize)))
          (s₁.note .splitStarted) with
      | mk y z =>
        cases y with
        | error e => exact abort_behind old z.1 z.2 e
        | ok _ => exact finish_behind old { z.1 with state := .draining } z.2

/-! ## Splitters in use -/

/-- A new splitter with the options of `sp`. -/
def fresh (sp : Splitter) : Splitter :=
  { Splitter.new sp.input sp.pool.outputDir with
    limit := sp.limit
    filter := sp.filter
    dryRun := sp.dryRun
    portion := sp.portion
    metered := sp.metered }

/-- The splitters that come of a new one, whatever it is used for. -/
inductive Used : Splitter → Prop where
  | new (input outputDir : Path) : Used (.new input outputDir)
  | configured {sp : Splitter} (limit : Option (List String)) (filter : Filter) (dryRun : Bool)
      (portion : Option Nat) (metered : Bool) :
      Used sp → Used { sp with limit, filter, dryRun, portion, metered }
  | run {sp : Splitter} (source : Source) (inputSize : Nat) (s : Site) :
      Used sp → Used (sp.run source inputSize s).2.1
  | runFile {sp : Splitter} (s : Site) : Used sp → Used (sp.runFile s).2.1

theorem Used.idle {sp : Splitter} (h : Used sp) : sp.pool.Idle := by
  induction h with
  | new input outputDir => exact Pool.idle_new outputDir
  | configured _ _ _ _ _ _ ih => exact ih
  | run source inputSize s _ ih => exact idle_run ih source inputSize s
  | runFile s _ ih =>
    unfold Splitter.runFile
    split
    · exact ih
    · exact idle_run ih _ _ _

theorem run_fresh {sp : Splitter} (h : sp.pool.Idle) (source : Source) (inputSize : Nat)
    (s : Site) :
    sp.run source inputSize s =
      ((sp.fresh.run source inputSize s).1,
        (sp.fresh.run source inputSize s).2.1.behind sp.pool.made,
        (sp.fresh.run source inputSize s).2.2) := by
  -- the counters and the state are the first things that a run sets back
  have hreset : sp.run source inputSize s =
      Splitter.run { sp with stats := .zero, state := .initializing } source inputSize s := rfl
  have hbehind : { sp with stats := .zero, state := .initializing } =
      sp.fresh.behind sp.pool.made := by
    unfold behind fresh
    dsimp only [Splitter.new]
    rw [← h.eq_behind]
  rw [hreset, hbehind, run_behind]

theorem fresh_congr {sp : Splitter} {p : Pool} (h : p.outputDir = sp.pool.outputDir)
    (stats : RunStats) (state : SplitState) :
    fresh { sp with pool := p, stats, state } = sp.fresh := by
  simp only [fresh, h]

theorem fresh_route (sp : Splitter) (t : Statement) (s : Site) :
    (sp.route t s).2.1.fresh = sp.fresh := by
  have hout : ∀ table, (sp.deliver table t s).2.1.outputDir = sp.pool.outputDir := by
    intro table
    unfold deliver
    split
    · rfl
    · exact sp.pool.outputDir_writeTable table t.bytes s
  rw [route_eq]
  cases sp.destination? t with
  | none => rfl
  | some table =>
    dsimp only
    split <;> next hd =>
      have := hout table
      rw [hd] at this
      exact fresh_congr this _ _

theorem fresh_stream (sp : Splitter) (r : Reader) (s : Site) :
    (sp.stream r s).2.1.fresh = sp.fresh := by
  induction r using Reader.induction_read generalizing sp s with
  | _ r ih =>
    rw [stream_eq]
    cases hr : r.read s.disk with
    | mk x r' =>
      cases x with
      | finished => rfl
      | failed f => rfl
      | statement t =>
        have hroute := sp.fresh_route t (s.noteAll (r'.takeReports.1.map .progress))
        dsimp only
        cases hx : sp.route t (s.noteAll (r'.takeReports.1.map .progress)) with
        | mk y z =>
          rw [hx] at hroute
          cases y with
          | error e => exact hroute
          | ok _ => exact (ih _ _ _ hr z.1 z.2).trans hroute

theorem fresh_finish (sp : Splitter) (s : Site) : (sp.finish s).2.1.fresh = sp.fresh := by
  have hout := sp.pool.outputDir_closeAll s
  unfold finish
  split <;> next hc =>
    rw [hc] at hout
    exact fresh_congr hout _ _

theorem fresh_abort (sp : Splitter) (e : Failure) (s : Site) :
    (sp.abort e s).2.1.fresh = sp.fresh := by
  have hout := sp.pool.outputDir_closeAll s
  unfold abort
  split <;> next hc =>
    rw [hc] at hout
    exact fresh_congr hout _ _

/-- No run changes the options of a splitter. -/
theorem fresh_run (sp : Splitter) (source : Source) (inputSize : Nat) (s : Site) :
    (sp.run source inputSize s).2.1.fresh = sp.fresh := by
  unfold run
  dsimp only
  split
  · rfl
  · next s₁ _ =>
    have hstream := fresh_stream { sp with stats := .zero, state := .streaming }
      (.new (.new source sp.metered) (sp.portion.getD (portionFor inputSize)))
      (s₁.note .splitStarted)
    split
    · next e sp₂ s₂ hx =>
      rw [hx] at hstream
      exact (fresh_abort sp₂ e s₂).trans hstream
    · next sp₂ s₂ hx =>
      rw [hx] at hstream
      exact (fresh_finish { sp₂ with state := .draining } s₂).trans hstream

/-- A run is done and gives its counters, or has failed. -/
theorem run_ends {sp sp' : Splitter} {source : Source} {inputSize : Nat} {s s' : Site}
    {x : Except Failure RunStats} (h : sp.run source inputSize s = (x, sp', s')) :
    (x = .ok sp'.stats ∧ sp'.state = .done) ∨ ∃ e, x = .error e ∧ sp'.state = .failed := by
  unfold run at h
  dsimp only at h
  split at h
  · cases h
    exact .inr ⟨_, rfl, rfl⟩
  · split at h
    · unfold abort at h
      split at h <;> cases h <;> exact .inr ⟨_, rfl, rfl⟩
    · unfold finish at h
      dsimp only at h
      split at h
      · cases h
        exact .inr ⟨_, rfl, rfl⟩
      · cases h
        exact .inl ⟨rfl, rfl⟩

/-- What a run is done on. -/
structure Job where
  source : Source
  inputSize : Nat
  site : Site

/-- What is seen of a run: its result, the counters and the state behind it, and the site. -/
structure Seen where
  result : Except Failure RunStats
  stats : RunStats
  state : SplitState
  site : Site

def seen (r : Except Failure RunStats × Splitter × Site) : Seen :=
  ⟨r.1, r.2.1.stats, r.2.1.state, r.2.2⟩

def runJob (sp : Splitter) (j : Job) : Except Failure RunStats × Splitter × Site :=
  sp.run j.source j.inputSize j.site

/-- Runs one after the other, and the splitter behind them. -/
def runs (sp : Splitter) : List Job → List Seen × Splitter
  | [] => ([], sp)
  | j :: js =>
    match runs (sp.runJob j).2.1 js with
    | (rs, sp') => (seen (sp.runJob j) :: rs, sp')

theorem Used.runs {sp : Splitter} (h : Used sp) (js : List Job) : Used (sp.runs js).2 := by
  induction js generalizing sp with
  | nil => exact h
  | cons j js ih => exact ih (.run j.source j.inputSize j.site h)

theorem seen_runJob {sp : Splitter} (h : sp.pool.Idle) (j : Job) :
    seen (sp.runJob j) = seen (sp.fresh.runJob j) := by
  rw [runJob, run_fresh h]
  rfl

theorem runs_map {sp : Splitter} (h : Used sp) (js : List Job) :
    (sp.runs js).1 = js.map fun j => seen (sp.fresh.runJob j) := by
  induction js generalizing sp with
  | nil => rfl
  | cons j js ih =>
    have hrest := ih (.run j.source j.inputSize j.site h)
    rw [fresh_run] at hrest
    rw [List.map_cons, ← hrest, ← seen_runJob h.idle]
    rfl

/-- However a splitter has been used, each of the runs that follow is the same run of a new splitter
with its options: it gives the same result and leaves the same counters, state and site. Its pool
serves no table before and after it. The state tells whether the run has failed. A splitter whose
input cannot be opened stays as it is, and so does the disk. -/
theorem runs_eq_fresh {sp : Splitter} (h : Used sp) (js : List Job) :
    ((sp.runs js).1 = js.map fun j => seen (sp.fresh.runJob j)) ∧
      (∀ js', js' <+: js → (sp.runs js').2.pool.Idle) ∧
      (∀ r ∈ (sp.runs js).1,
        (r.state = .done ↔ ∃ stats, r.result = .ok stats) ∧
        (r.state = .failed ↔ ∃ e, r.result = .error e) ∧
        ∀ stats, r.result = .ok stats → r.stats = stats) ∧
      ∀ (s : Site) (e : Failure), (openInput (sp.runs js).2.input s).1 = .error e →
        ((sp.runs js).2.runFile s).1 = .error e ∧
        ((sp.runs js).2.runFile s).2.1 = (sp.runs js).2 ∧
        ((sp.runs js).2.runFile s).2.2.disk = s.disk := by
  refine ⟨runs_map h js, fun js' _ => (h.runs js').idle, ?_, ?_⟩
  · intro r hr
    rw [runs_map h js] at hr
    obtain ⟨j, -, rfl⟩ := List.mem_map.1 hr
    cases hj : sp.fresh.runJob j with
    | mk x y =>
      obtain ⟨sp', s'⟩ := y
      rcases run_ends hj with ⟨rfl, hstate⟩ | ⟨e, rfl, hstate⟩
      · simp [seen, hstate]
      · simp [seen, hstate]
  · intro s e he
    have hd := disk_openInput (sp.runs js).2.input s
    unfold Splitter.runFile
    cases ho : openInput (sp.runs js).2.input s with
    | mk x s' =>
      rw [ho] at he hd
      cases he
      exact ⟨rfl, rfl, hd⟩

/-- A run that fails in the middle of a statement, and a run that does not fail. -/
def lostAndFound : List Job :=
  [⟨.script cutShort, 0, .ofDisk .blank⟩, ⟨.script twoRows, 0, .ofDisk .blank⟩]

theorem runs_eq_fresh_lostAndFound :
    Used limited ∧
      (limited.runs lostAndFound).1.map (·.result) =
        [.error (.read (.text "lost")), .ok ⟨2, 50, ["t"], 1, 5⟩] ∧
      (limited.runs lostAndFound).1 =
        lostAndFound.map (fun j => seen (limited.fresh.runJob j)) ∧
      (limited.runs lostAndFound).2.pool.Idle ∧
      (openInput ⟨"dump.sql"⟩ (.ofDisk .blank)).1 =
        .error (.inputOpen ⟨"dump.sql"⟩ (.system .noEntry)) ∧
      ((limited.runs lostAndFound).2.runFile (.ofDisk .blank)).2.1 =
        (limited.runs lostAndFound).2 := by
  have hused : Used limited := .configured (some ["t"]) .dataOnly false none false (.new _ _)
  have hresults : (limited.runs lostAndFound).1.map (·.result) =
      [.error (.read (.text "lost")), .ok ⟨2, 50, ["t"], 1, 5⟩] := by
    decide +kernel
  have hopen : (openInput (limited.runs lostAndFound).2.input (.ofDisk .blank)).1 =
      .error (.inputOpen ⟨"dump.sql"⟩ (.system .noEntry)) := by
    decide +kernel
  obtain ⟨hsame, hidle, -, hfile⟩ := runs_eq_fresh hused lostAndFound
  exact ⟨hused, hresults, hsame, hidle _ (List.prefix_refl _), by decide +kernel,
    (hfile _ _ hopen).2.1⟩

end Splitter
end DumpRouter
