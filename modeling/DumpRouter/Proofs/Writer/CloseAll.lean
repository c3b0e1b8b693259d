import DumpRouter.Proofs.Writer.Alone

/-!
# DumpRouter.Proofs.Writer.CloseAll

All writers of a pool are closed at once, whatever has been done to the pool before and whatever is
on the disk.

* `Pool.ClosesAll`, `closesAll_of_reachable`: what this comes to.
* `not_complete_of_reopened`: a file that was open twice at a time may have lost something, though
  it is open once when all are closed.
-/

namespace DumpRouter
namespace Pool

variable {p : Pool} {dir : Path}

/-- What a close of all writers of the pool `p` comes to: each is closed, the pool begins anew, and
the first failure is reported. A file that one writer only has open is as if this one had been
closed alone, and if the writer has had it to itself all along everything is in it. -/
structure ClosesAll (dir : Path) (p : Pool) (s : Site) (r : Except Failure Unit × Pool × Site) :
    Prop where
  closed : ∀ id, r.2.1.writer? id = (p.writer? id).map TableWriter.closed
  empty : r.2.1.writers = []
  free : ∀ path, r.2.1.isClaimed path = false
  flushed : ∀ id w l, p.writer? id = some w → w.place? = some l → p.Sole id l →
    r.2.2.disk.node? l = (w.close s).2.2.disk.node? l
  complete : ∀ id l c, Alone dir id l p s c → r.2.2.disk.node? l = some (.file (Bytes.pack c))
  reports : p.Reports s r.1
  again : ∀ s', r.2.1.closeAll s' = (.ok (), r.2.1, s')

theorem closesAll_of_reachable (h : p.Reachable dir) (s : Site) :
    p.ClosesAll dir s (p.closeAll s) := by
  have hidle := p.idle_closeAll s
  refine ⟨writer?_closeAll h.orderly.consistent s, hidle.writers, ?_, ?_, ?_, ?_, hidle.closeAll⟩
  · intro path
    rw [isClaimed, hidle.claimed]
    rfl
  · intro id w l hw hl hsole
    exact node?_closeAll h s hw hl hsole
  · intro id l c ha
    exact ha.holds.closeAll h ha.sole
  · exact h.orderly.consistent.reports h.nodup_sorted s

/-- A pool whose table `w` has a writer, and the site with its file. -/
def begun : Pool × Site := ((Pool.new ⟨"out"⟩).perform outSite (.get "w")).2

/-- The place of the file of the table `w`. -/
def fileOfW : Location := .ofNames ["work", "out", "w.sql"]

theorem alone_begun : Alone ⟨"out"⟩ 0 fileOfW begun.1 begun.2 [] :=
  .made (.get "w") .new (by decide +kernel) (by decide +kernel) (by decide +kernel)
    ⟨.empty, by decide +kernel⟩

/-- Of four tables one has its writer closed already, and two are at a full device. -/
def mixed : Pool × Site := begun.1.run begun.2
  [.write 0 [120], .get "v", .close 1, .getAt "u" ⟨"/dev/full"⟩, .getAt "t" ⟨"/dev//full"⟩,
    .write 2 [121], .write 3 [122]]

theorem closesAll_of_reachable_mixed :
    mixed.1.Reachable ⟨"out"⟩ ∧ mixed.1.ClosesAll ⟨"out"⟩ mixed.2 (mixed.1.closeAll mixed.2) ∧
      (mixed.1.closeAll mixed.2).1 = .error (.close "t" (.system .noSpace)) ∧
      (mixed.1.closeAll mixed.2).2.2.disk.node? fileOfW = some (.file (Bytes.pack [120, 10])) := by
  have halone : Alone ⟨"out"⟩ 0 fileOfW mixed.1 mixed.2 _ := alone_begun.run (by decide +kernel)
  have hcloses := closesAll_of_reachable halone.reachable mixed.2
  have hwriters : mixed.1.writers = [("t", 3), ("u", 2), ("v", 1), ("w", 0)] := by decide +kernel
  have hsorted : mixed.1.sorted = mixed.1.writers := by
    rw [sorted, hwriters]
    exact List.mergeSort_of_pairwise (by decide)
  refine ⟨halone.reachable, hcloses, ?_, ?_⟩
  · rw [closeAll_result _ _ halone.reachable.nodup_sorted, hsorted]
    decide +kernel
  · rw [hcloses.complete _ _ _ halone]
    decide +kernel

/-- A pool with a statement in the file of its table `w`, and nothing else done to this file. -/
def served : Pool × Site := begun.1.run begun.2 [.write 0 [120], .flush 0]

/-- The pool has made another writer for this file, named by another path, and closed it. -/
def reopened : Pool × Site := served.1.run served.2 [.getAt "b" ⟨"out//w.sql"⟩, .close 1]

/-- A writer that is none of the pool's has been made for this file, and closed. -/
def overwritten : Site :=
  match TableWriter.create "b" ⟨"out/w.sql"⟩ served.2 with
  | (.ok w, s) => (w.close s).2.2
  | (.error _, s) => s

/-- The writer of the table `w`, with everything that it has taken in its file. -/
def writerOfW : TableWriter :=
  ⟨"w", ⟨"out/w.sql"⟩, some ⟨⟨fileOfW, 2⟩, TableWriter.bufferSize, .empty⟩, 1⟩

/-- It is not enough that no other writer has a file open when all are closed. One that has opened
it and has been closed since leaves it empty, and what had been written to it is lost. -/
theorem not_complete_of_reopened :
    Alone ⟨"out"⟩ 0 fileOfW served.1 served.2 [120, 10] ∧
      (reopened.1.Reachable ⟨"out"⟩ ∧ reopened.1.writer? 0 = some writerOfW ∧
        reopened.1.Sole 0 fileOfW ∧ reopened.2.disk.node? fileOfW = some (.file .empty) ∧
        (reopened.1.closeAll reopened.2).2.2.disk.node? fileOfW = some (.file .empty)) ∧
      (served.1.writer? 0 = some writerOfW ∧ served.1.Sole 0 fileOfW ∧
        overwritten.disk.node? fileOfW = some (.file .empty) ∧
        (served.1.closeAll overwritten).2.2.disk.node? fileOfW = some (.file .empty)) := by
  have halone : Alone ⟨"out"⟩ 0 fileOfW served.1 served.2 _ := alone_begun.run (by decide +kernel)
  have hbrought : [] ++ begun.1.bringsAll begun.2 0 [.write 0 [120], .flush 0] = [120, 10] := by
    decide +kernel
  rw [hbrought] at halone
  have hreachable : reopened.1.Reachable ⟨"out"⟩ :=
    .after (.close 1) _ (.after (.getAt "b" ⟨"out//w.sql"⟩) _ halone.reachable)
  have hwriter : reopened.1.writer? 0 = some writerOfW := by decide +kernel
  have hsole : reopened.1.Sole 0 fileOfW := by decide +kernel
  have hwriter' : served.1.writer? 0 = some writerOfW := by decide +kernel
  refine ⟨halone, ⟨hreachable, hwriter, hsole, by decide +kernel, ?_⟩, hwriter', halone.sole,
    by decide +kernel, ?_⟩
  · rw [node?_closeAll hreachable _ hwriter rfl hsole]
    decide +kernel
  · rw [node?_closeAll halone.reachable _ hwriter' rfl halone.sole]
    decide +kernel

end Pool
end DumpRouter
