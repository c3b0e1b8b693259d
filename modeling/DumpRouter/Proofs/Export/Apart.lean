import Mathlib.Data.List.Basic
import DumpRouter.Export.Multi
import DumpRouter.Proofs.Export.Places
import DumpRouter.Proofs.Export.Requests

/-!
# DumpRouter.Proofs.Export.Apart

Several exporters at once, none of which looks at what another one changes: each of them does what
it would do alone, and what is counted for it are its own successes and failures.

* `Multi.askEach`: exporting a table and finishing, as one walk over the exporters; `askEach_eq`: it
  asks each of them as if no other one had been asked before.
* `Added`: an exporter with what it has been asked for since it was added, and what it does alone.
* `Multi.InUse`: exporters that are added, given tables and finished in any order;
  `InUse.together` is the induction over the use, and `InUse.each_alone` what follows.
-/

namespace DumpRouter

namespace KeepsTo

variable {ε : Type} [StatsExporter ε] {footprint : ε → Footprint} (k : KeepsTo footprint)
include k

theorem batch (ts : List TableStats) (x : ε) :
    Confined Site.disk footprint (footprint x) fun s => StatsExporter.exportBatch x s ts := by
  induction ts generalizing x with
  | nil => exact .answer _ rfl fun _ => rfl
  | cons t ts ih =>
    refine (k.table x t).andThen (g := fun x' s' => StatsExporter.exportBatch x' s' ts)
      (fun x' hx' => ?_) ?_ ?_
    · rw [← hx']
      exact ih x'
    · intro s e x' s' h
      rw [StatsExporter.exportBatch, h]
    · intro s x' s' h
      rw [StatsExporter.exportBatch, h]

theorem answer (r : Request) (x : ε) :
    Confined Site.disk footprint (footprint x) fun s => r.answer x s := by
  cases r with
  | table t => exact k.table x t
  | batch ts => exact k.batch ts x
  | finish => exact k.finish x

theorem answerAll_footprint (rs : List Request) (x : ε) (s : Site) :
    footprint (Request.answerAll x s rs).2.1 = footprint x := by
  induction rs generalizing x s with
  | nil => rfl
  | cons r rs ih => exact (ih _ _).trans ((k.answer r x).stays s)

end KeepsTo

/-! ## One request to all exporters -/

namespace Request

/-- The tally when the exporter has answered. -/
def counted : Request → Except Failure Unit → Tally → Tally
  | .table _, .ok _, c => c.countExported
  | .table _, .error _, c => c.countFailed
  | .finish, .ok _, c => c.close
  | _, _, c => c

/-- The failure of an exporter, entered in the journal. -/
def noted : Request → Except Failure Unit → Site → Site
  | .table _, .error _, s => s.note .exportFailed
  | .finish, .error _, s => s.note .exportNotFinished
  | _, _, s => s

variable {ε : Type} [StatsExporter ε]

/-- The site that an exporter leaves to the next one. -/
def passed (r : Request) (x : ε) (s : Site) : Site := r.noted (r.answer x s).1 (r.answer x s).2.2

theorem disk_passed (r : Request) (x : ε) (s : Site) :
    (r.passed x s).disk = (r.answer x s).2.2.disk := by
  unfold passed
  cases r <;> cases (Request.answer x s _).1 <;> rfl

end Request

namespace Multi

variable {ε : Type} [StatsExporter ε]

/-- The answers of the exporters, asked one after the other, and their tallies with these. -/
def askEach (r : Request) (s : Site) : Multi ε → List (Except Failure Unit) × Multi ε × Site
  | [] => ([], [], s)
  | (x, c) :: m =>
    let y := r.answer x s
    let (ys, m', s') := askEach r (r.passed x s) m
    (y.1 :: ys, (y.2.1, r.counted y.1 c) :: m', s')

/-- The first failure among answers. -/
def verdict : List (Except Failure Unit) → Except Failure Unit
  | [] => .ok ()
  | .ok _ :: ys => verdict ys
  | .error e :: _ => .error e

theorem exportTable_eq (t : TableStats) (m : Multi ε) (s : Site) :
    m.exportTable t s = (m.askEach (.table t) s).2 := by
  induction m generalizing s with
  | nil => rfl
  | cons e m ih =>
    obtain ⟨x, c⟩ := e
    rw [exportTable, askEach, Request.passed, Request.answer]
    rcases StatsExporter.exportTable x t s with ⟨_ | _, x', s'⟩ <;> dsimp only <;> rw [ih] <;> rfl

theorem finishEach_eq (failed : Option Failure) (m : Multi ε) (s : Site) :
    m.finishEach failed s =
      (match failed, verdict (m.askEach .finish s).1 with
        | some e, _ => some e
        | none, .error e => some e
        | none, .ok _ => none,
      (m.askEach .finish s).2) := by
  induction m generalizing failed s with
  | nil => cases failed <;> rfl
  | cons e m ih =>
    obtain ⟨x, c⟩ := e
    rw [finishEach, askEach, Request.passed, Request.answer]
    rcases StatsExporter.finish x s with ⟨_ | _, x', s'⟩ <;> dsimp only <;> rw [ih] <;>
      cases failed <;> rfl

theorem finishAll_eq (m : Multi ε) (s : Site) :
    m.finishAll s = (verdict (m.askEach .finish s).1, (m.askEach .finish s).2) := by
  rw [finishAll, finishEach_eq]
  cases verdict (m.askEach .finish s).1 <;> rfl

section

variable {footprint : ε → Footprint}

/-- No two of the exporters have to do with each other. -/
def Separate (footprint : ε → Footprint) (m : Multi ε) : Prop :=
  m.Pairwise fun e e' => (footprint e.1).Apart (footprint e'.1)

theorem askEach_elsewhere (k : KeepsTo footprint) {F : Footprint} (r : Request) {m : Multi ε}
    (h : ∀ e ∈ m, (footprint e.1).Apart F) (s : Site) :
    Disk.AgreeOn F.reads s.disk (m.askEach r s).2.2.disk := by
  induction m generalizing s with
  | nil => exact .refl _ _
  | cons e m ih =>
    have hone := ((k.answer r e.1).other s).mono fun l hl hw => (h e (by simp) l).1 hw hl
    have hrest := ih (fun e' he' => h e' (by simp [he'])) (r.passed e.1 s)
    rw [Request.disk_passed] at hrest
    exact hone.trans hrest

/-- Each exporter answers, and goes on, as if it had been asked first, and leaves its part of the
disk that way. -/
theorem askEach_eq (k : KeepsTo footprint) (r : Request) {m : Multi ε} (h : m.Separate footprint)
    (s : Site) :
    (m.askEach r s).1 = m.map (fun e => (r.answer e.1 s).1) ∧
    (m.askEach r s).2.1 =
      m.map (fun e => ((r.answer e.1 s).2.1, r.counted (r.answer e.1 s).1 e.2)) ∧
    ∀ e ∈ m, Disk.AgreeOn (footprint e.1).reads (r.answer e.1 s).2.2.disk
      (m.askEach r s).2.2.disk := by
  induction m generalizing s with
  | nil => exact ⟨rfl, rfl, by simp⟩
  | cons e m ih =>
    obtain ⟨hfirst, hrest⟩ := List.pairwise_cons.1 h
    -- what the others look at is as it was before the first one was asked
    have hseen : ∀ e' ∈ m, Disk.AgreeOn (footprint e'.1).reads s.disk
        (r.passed e.1 s).disk := by
      intro e' he'
      rw [Request.disk_passed]
      exact ((k.answer r e.1).other s).mono fun l hl hw => (hfirst e' he' l).1 hw hl
    have hsame := fun e' he' => (k.answer r e'.1).same (hseen e' he')
    obtain ⟨hanswers, hentries, hdisks⟩ := ih hrest (r.passed e.1 s)
    refine ⟨?_, ?_, ?_⟩
    · refine congrArg (_ :: ·) (hanswers.trans ?_)
      exact List.map_congr_left fun e' he' => (hsame e' he').1
    · refine congrArg (_ :: ·) (hentries.trans (List.map_congr_left fun e' he' => ?_))
      rw [(hsame e' he').1, (hsame e' he').2.1]
    · intro e' he'
      rcases List.mem_cons.1 he' with rfl | he'
      · have hlater := askEach_elsewhere k r (fun e'' he'' => (hfirst e'' he'').symm)
          (r.passed e'.1 s)
        rw [Request.disk_passed] at hlater
        exact hlater
      · exact (hsame e' he').2.2.trans (hdisks e' he')

end

end Multi

/-! ## Exporters in use -/

namespace Request

def isTable : Request → Bool
  | .table _ => true
  | _ => false

def isFinish : Request → Bool
  | .finish => true
  | _ => false

theorem length_answerAll {ε : Type} [StatsExporter ε] (x : ε) (s : Site) (rs : List Request) :
    (answerAll x s rs).1.length = rs.length := by
  induction rs generalizing x s with
  | nil => rfl
  | cons r rs ih => exact congrArg (· + 1) (ih _ _)

end Request

/-- An exporter that was added: what it was at that moment, the site then, and what it has been
asked for since. -/
structure Added (ε : Type) where
  exporter : ε
  site : Site
  asked : List Request

namespace Added

def ask {ε : Type} (a : Added ε) (rs : List Request) : Added ε := { a with asked := a.asked ++ rs }

variable {ε : Type} [StatsExporter ε] (a : Added ε) (r : Request)

/-- The exporter on its own, asked for the same: its answers, what it is then, and the site. -/
def alone : List (Except Failure Unit) × ε × Site := Request.answerAll a.exporter a.site a.asked

/-- What it answers next on its own. -/
def next : Except Failure Unit := (r.answer a.alone.2.1 a.alone.2.2).1

def answered : List (Request × Except Failure Unit) := a.asked.zip a.alone.1

/-- The tables that it has exported. -/
def successes : Nat := a.answered.countP fun (r, y) => r.isTable && y.isOk

/-- The tables that it has failed on. -/
def failures : Nat := a.answered.countP fun (r, y) => r.isTable && !y.isOk

/-- Whether it has been finished with success, at least once. -/
def finished : Bool := a.answered.any fun (r, y) => r.isFinish && y.isOk

theorem alone_ask :
    (a.ask [r]).alone = (a.alone.1 ++ [a.next r], (r.answer a.alone.2.1 a.alone.2.2).2) :=
  Request.answerAll_concat a.asked r

theorem answered_ask : (a.ask [r]).answered = a.answered ++ [(r, a.next r)] := by
  have hlength : a.asked.length = a.alone.1.length := (Request.length_answerAll ..).symm
  rw [answered, alone_ask]
  exact List.zip_append hlength

theorem successes_ask :
    (a.ask [r]).successes = a.successes + if r.isTable && (a.next r).isOk then 1 else 0 := by
  rw [successes, answered_ask, List.countP_append, List.countP_singleton]
  rfl

theorem failures_ask :
    (a.ask [r]).failures = a.failures + if r.isTable && !(a.next r).isOk then 1 else 0 := by
  rw [failures, answered_ask, List.countP_append, List.countP_singleton]
  rfl

theorem finished_ask : (a.ask [r]).finished = (a.finished || r.isFinish && (a.next r).isOk) := by
  rw [finished, answered_ask, List.any_append, List.any_cons, List.any_nil, Bool.or_false]
  rfl

/-- Each table that is asked for is a success or a failure. -/
theorem successes_add_failures : a.successes + a.failures = a.asked.countP Request.isTable := by
  have hlength : a.asked.length ≤ a.alone.1.length :=
    Nat.le_of_eq (Request.length_answerAll ..).symm
  have hasked : a.answered.map Prod.fst = a.asked := List.map_fst_zip hlength
  rw [← hasked, List.countP_map, List.countP_eq_countP_filter_add _ _ fun e => e.2.isOk,
    List.countP_filter, List.countP_filter]
  rfl

def tally : Tally where
  exported := .ofNat a.successes
  failed := .ofNat a.failures
  start := some 0
  stop := if a.finished then some 0 else none

/-- Counting on from the tally so far is counting from the start. -/
theorem tally_ask : (a.ask [r]).tally = r.counted (a.next r) a.tally := by
  simp only [tally, successes_ask, failures_ask, finished_ask]
  cases r with
  | table t =>
    cases a.next (.table t) <;>
      simp [Request.counted, Request.isTable, Request.isFinish, Except.isOk, Except.toBool,
        Tally.countExported, Tally.countFailed]
  | batch ts => simp [Request.counted, Request.isTable, Request.isFinish]
  | finish =>
    cases a.next .finish <;>
      simp [Request.counted, Request.isTable, Request.isFinish, Except.isOk, Except.toBool,
        Tally.close]

theorem total_tally : a.tally.total = .ofNat (a.asked.countP Request.isTable) := by
  rw [← successes_add_failures, UInt64.ofNat_add]
  rfl

theorem isFinished_tally : a.tally.isFinished = a.finished := by
  unfold Tally.isFinished tally
  cases a.finished <;> rfl

end Added

namespace Multi

variable {ε : Type} [StatsExporter ε] {footprint : ε → Footprint}

/-- Each exporter is what it would be on its own, and its part of the disk too. -/
structure Together (footprint : ε → Footprint) (m : Multi ε) (s : Site) (as : List (Added ε)) :
    Prop where
  entries : m = as.map fun a => (a.alone.2.1, a.tally)
  apart : as.Pairwise fun a b => (footprint a.exporter).Apart (footprint b.exporter)
  disks : ∀ a ∈ as, Disk.AgreeOn (footprint a.exporter).reads a.alone.2.2.disk s.disk

/-- Exporters that are added one by one, and asked for things all together. An exporter is added
with the site as it is then: files may have been made for it, but not at places that those in use
look at. -/
inductive InUse (footprint : ε → Footprint) : Multi ε → Site → List (Added ε) → Prop
  | new (s : Site) : InUse footprint [] s []
  | add {m : Multi ε} {s : Site} {as : List (Added ε)} (x : ε) (s' : Site)
      (inUse : InUse footprint m s as)
      (apart : ∀ a ∈ as, (footprint a.exporter).Apart (footprint x))
      (disk : ∀ a ∈ as, Disk.AgreeOn (footprint a.exporter).reads s.disk s'.disk) :
      InUse footprint (m.add x) s' (as ++ [⟨x, s', []⟩])
  | table {m : Multi ε} {s : Site} {as : List (Added ε)} (t : TableStats)
      (inUse : InUse footprint m s as) :
      InUse footprint (m.exportTable t s).1 (m.exportTable t s).2 (as.map (·.ask [.table t]))
  | batch {m : Multi ε} {s : Site} {as : List (Added ε)} (ts : List TableStats)
      (inUse : InUse footprint m s as) :
      InUse footprint (m.exportBatch s ts).1 (m.exportBatch s ts).2
        (as.map (·.ask (ts.map .table)))
  | finish {m : Multi ε} {s : Site} {as : List (Added ε)} (inUse : InUse footprint m s as) :
      InUse footprint (m.finishAll s).2.1 (m.finishAll s).2.2 (as.map (·.ask [.finish]))

section

variable {m : Multi ε} {s : Site} {as : List (Added ε)} (k : KeepsTo footprint)
include k

theorem footprint_alone (a : Added ε) : footprint a.alone.2.1 = footprint a.exporter :=
  k.answerAll_footprint a.asked a.exporter a.site

theorem Together.separate (h : Together footprint m s as) : m.Separate footprint := by
  rw [h.entries, Separate, List.pairwise_map]
  refine h.apart.imp fun hab => ?_
  rw [footprint_alone k, footprint_alone k]
  exact hab

/-- An exporter answers here as it does on its own, and leaves its part of the disk the same. -/
theorem Together.same (h : Together footprint m s as) (r : Request) {a : Added ε} (ha : a ∈ as) :
    (r.answer a.alone.2.1 s).1 = a.next r ∧ (r.answer a.alone.2.1 s).2.1 = (a.ask [r]).alone.2.1 ∧
      Disk.AgreeOn (footprint a.exporter).reads (a.ask [r]).alone.2.2.disk
        (r.answer a.alone.2.1 s).2.2.disk := by
  have hdisk := h.disks a ha
  rw [← footprint_alone k a] at hdisk ⊢
  rw [a.alone_ask r]
  exact (k.answer r a.alone.2.1).same hdisk

/-- What all are asked for is for each as if it were asked on its own. -/
theorem Together.ask (h : Together footprint m s as) (r : Request) :
    (m.askEach r s).1 = as.map (·.next r) ∧
      Together footprint (m.askEach r s).2.1 (m.askEach r s).2.2 (as.map (·.ask [r])) := by
  obtain ⟨hanswers, hentries, hdisks⟩ := askEach_eq k r (h.separate k) s
  rw [h.entries, List.map_map] at hanswers hentries
  refine ⟨?_, ?_, ?_, ?_⟩
  · rw [h.entries, hanswers]
    exact List.map_congr_left fun a ha => (h.same k r ha).1
  · rw [h.entries, hentries, List.map_map]
    refine List.map_congr_left fun a ha => ?_
    obtain ⟨hanswer, hstate, -⟩ := h.same k r ha
    simp only [Function.comp_apply, hanswer, hstate, a.tally_ask]
  · exact List.pairwise_map.2 h.apart
  · intro b hb
    obtain ⟨a, ha, rfl⟩ := List.mem_map.1 hb
    have hafter := hdisks (a.alone.2.1, a.tally) (by rw [h.entries]; exact List.mem_map_of_mem ha)
    rw [footprint_alone k a] at hafter
    exact (h.same k r ha).2.2.trans hafter

theorem Together.batch (h : Together footprint m s as) (ts : List TableStats) :
    Together footprint (m.exportBatch s ts).1 (m.exportBatch s ts).2
      (as.map (·.ask (ts.map .table))) := by
  induction ts generalizing m s as with
  | nil => simpa [Added.ask, exportBatch] using h
  | cons t ts ih =>
    have hone := (h.ask k (.table t)).2
    rw [← exportTable_eq] at hone
    have hrest := ih hone
    rw [List.map_map] at hrest
    simpa [Added.ask, Function.comp_def, exportBatch] using hrest

theorem InUse.together (h : InUse footprint m s as) : Together footprint m s as := by
  induction h with
  | new s => exact ⟨rfl, .nil, by simp⟩
  | @add m s as x s' _ hapart hdisk ih =>
    refine ⟨?_, ?_, ?_⟩
    · rw [ih.entries, Multi.add, List.map_append]
      rfl
    · refine List.pairwise_append.2 ⟨ih.apart, List.pairwise_singleton .., fun a ha b hb => ?_⟩
      rw [List.mem_singleton.1 hb]
      exact hapart a ha
    · intro a ha
      rcases List.mem_append.1 ha with ha | ha
      · exact (ih.disks a ha).trans (hdisk a ha)
      · rw [List.mem_singleton.1 ha]
        exact .refl _ _
  | table t _ ih =>
    rw [exportTable_eq]
    exact (ih.ask k (.table t)).2
  | batch ts _ ih => exact ih.batch k ts
  | finish _ ih =>
    rw [finishAll_eq]
    exact (ih.ask k .finish).2

/-- However exporters are added, given tables and finished, each is what it would be on its own, and
so is its part of the disk; it is counted for each what it has exported, which with what it has
failed on is all that it was given, and whether it has been finished. To finish all of them is to
finish each; it fails with the failure of the first one that fails, and those that do not fail are
finished from then on. -/
theorem InUse.each_alone (h : InUse footprint m s as) :
    m = as.map (fun a => (a.alone.2.1, a.tally)) ∧
    (∀ a ∈ as, Disk.AgreeOn (footprint a.exporter).reads a.alone.2.2.disk s.disk) ∧
    (∀ a ∈ as, a.tally.exported = .ofNat a.successes ∧
      a.tally.exported + a.tally.failed = .ofNat (a.asked.countP Request.isTable) ∧
      a.tally.isFinished = a.finished) ∧
    (m.finishAll s).1 = verdict (as.map (·.next .finish)) ∧
    (m.finishAll s).2.1 = as.map (fun a => ((a.ask [.finish]).alone.2.1, (a.ask [.finish]).tally)) ∧
    ∀ a ∈ as, (a.ask [.finish]).tally.isFinished =
      (a.tally.isFinished || (a.next .finish).isOk) := by
  have htogether := h.together k
  obtain ⟨hanswers, hfinished⟩ := htogether.ask k .finish
  refine ⟨htogether.entries, htogether.disks, fun a _ => ⟨rfl, a.total_tally, a.isFinished_tally⟩,
    ?_, ?_, fun a _ => ?_⟩
  · rw [finishAll_eq, hanswers]
  · rw [finishAll_eq, hfinished.entries, List.map_map]
    rfl
  · rw [Added.isFinished_tally, Added.isFinished_tally, Added.finished_ask]
    rfl

end

/-! An exporter that fails on a table and at the end, and one that writes to a file. -/

def failing : Exporter := .rehearsal ⟨"R", ["b"], true⟩

def writing : Exporter :=
  .csv ⟨⟨⟨.ofNames ["work", "a.csv"], 0⟩, Export.bufferSize, .empty⟩, .opened, false⟩

/-- The site before the file is made, and after that. -/
def unopened : Site := .ofDisk .blank
def opened : Site := ⟨Disk.blank.put (.ofNames ["work", "a.csv"]) (.file .empty), []⟩

def bothAsked : Multi Exporter × Site :=
  exportBatch ((add [] failing).add writing) opened [.zero "a", .zero "b"]

theorem InUse.each_alone_failing :
    Exporter.createCsv ⟨"a.csv"⟩ true unopened = (.ok writing, opened) ∧
      InUse Exporter.footprint bothAsked.1 bothAsked.2
        [⟨failing, unopened, [.table (.zero "a"), .table (.zero "b")]⟩,
          ⟨writing, opened, [.table (.zero "a"), .table (.zero "b")]⟩] ∧
      (bothAsked.1.finishAll bothAsked.2).1 = .error (.other "R fails") ∧
      (bothAsked.1.finishAll bothAsked.2).2.1.tallies =
        [("R", ⟨1, 1, some 0, none⟩), ("CSV", ⟨2, 0, some 0, some 0⟩)] := by
  have hinUse : InUse Exporter.footprint bothAsked.1 bothAsked.2
      [⟨failing, unopened, [.table (.zero "a"), .table (.zero "b")]⟩,
        ⟨writing, opened, [.table (.zero "a"), .table (.zero "b")]⟩] := by
    refine .batch [.zero "a", .zero "b"] (.add writing opened (.add failing unopened
      (.new unopened) (by simp) (by simp)) ?_ ?_)
    · simp [failing, Exporter.footprint, Footprint.nowhere, Footprint.Apart]
    · intro a ha
      rw [List.mem_singleton.1 ha]
      exact ⟨rfl, fun _ hl => hl.elim⟩
  obtain ⟨-, -, -, hresult, hentries, -⟩ := hinUse.each_alone Exporter.keepsTo
  refine ⟨by decide +kernel, hinUse, ?_, ?_⟩
  · rw [hresult]
    decide +kernel
  · rw [hentries]
    decide +kernel

end Multi
end DumpRouter
