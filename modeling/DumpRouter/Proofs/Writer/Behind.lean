import DumpRouter.Proofs.Writer.Pool

/-!
# DumpRouter.Proofs.Writer.Behind

A pool that has made writers before. What it has made does not show in what it does: every
operation on a pool behind other writers is the operation on the pool alone, with the places of its
writers moved by the number of the others.

* `Pool.behind old p`: the pool `p`, if it has made the writers `old` before its own.
* `get_behind`, `onWriter_behind`, `writeTable_behind`, `closeAll_behind`: the operations.
* `Idle.eq_behind`: a pool that serves no table is a new one behind what it has made.
-/

namespace DumpRouter
namespace Pool

/-- The place of a writer behind the writers `old`. -/
def moved (old : List TableWriter) (id : WriterId) : WriterId := old.length + id

def behind (old : List TableWriter) (p : Pool) : Pool where
  outputDir := p.outputDir
  made := old ++ p.made
  writers := p.writers.map fun e => (e.1, moved old e.2)
  claimed := p.claimed

theorem Idle.eq_behind {p : Pool} (h : p.Idle) : p = (Pool.new p.outputDir).behind p.made := by
  obtain ⟨dir, made, writers, claimed⟩ := p
  obtain ⟨rfl, rfl⟩ := h
  simp [behind, Pool.new]

variable (old : List TableWriter) (p : Pool) (table : String) (s : Site)

theorem lookup_behind :
    (p.behind old).writers.lookup table = (p.writers.lookup table).map (moved old) := by
  simp only [behind]
  induction p.writers with
  | nil => rfl
  | cons e es ih =>
    obtain ⟨t, id⟩ := e
    rw [List.map_cons, List.lookup_cons, List.lookup_cons]
    cases table == t with
    | true => rfl
    | false => exact ih

theorem writer?_behind (id : WriterId) :
    (p.behind old).writer? (moved old id) = p.writer? id := by
  rw [writer?, behind, moved, List.getElem?_append_right (Nat.le_add_right ..),
    Nat.add_sub_cancel_left]
  rfl

theorem add_behind (path : Path) :
    (p.behind old).add table path s =
      ((p.add table path s).1.map (moved old), (p.add table path s).2.1.behind old,
        (p.add table path s).2.2) := by
  unfold add
  cases TableWriter.create table path s with
  | mk x s' =>
    cases x with
    | error e => rfl
    | ok w => simp [behind, moved, Except.map]

theorem get_behind :
    (p.behind old).get table s =
      ((p.get table s).1.map (moved old), (p.get table s).2.1.behind old,
        (p.get table s).2.2) := by
  unfold get
  rw [lookup_behind]
  cases p.writers.lookup table with
  | some id => rfl
  | none => exact add_behind old p table _ (p.freePath table)

theorem onWriter_behind (id : WriterId)
    (f : TableWriter → Site → Except Failure Unit × TableWriter × Site) :
    (p.behind old).onWriter (moved old id) s f =
      ((p.onWriter id s f).1, (p.onWriter id s f).2.1.behind old, (p.onWriter id s f).2.2) := by
  unfold onWriter
  rw [writer?_behind]
  cases p.writer? id with
  | none => rfl
  | some w =>
    refine Prod.ext rfl (Prod.ext ?_ rfl)
    simp only [behind, moved]
    rw [List.set_append_right _ _ (Nat.le_add_right ..), Nat.add_sub_cancel_left]

theorem writeTable_behind (statement : Bytes) :
    (p.behind old).writeTable table statement s =
      ((p.writeTable table statement s).1, (p.writeTable table statement s).2.1.behind old,
        (p.writeTable table statement s).2.2) := by
  unfold writeTable
  rw [get_behind]
  cases p.get table s with
  | mk x y =>
    cases x with
    | error e => rfl
    | ok id => exact onWriter_behind old y.1 y.2 id _

theorem sorted_behind :
    (p.behind old).sorted.map (·.2) = (p.sorted.map (·.2)).map (moved old) := by
  unfold sorted
  have hmap := List.map_mergeSort (r := fun a b => !decide (b.1 < a.1))
    (s := fun a b => !decide (b.1 < a.1)) (f := fun e : String × WriterId => (e.1, moved old e.2))
    (l := p.writers) fun _ _ _ _ => rfl
  rw [behind, ← hmap, List.map_map, List.map_map]
  rfl

theorem closeEach_behind (failed : Option Failure) (ids : List WriterId) :
    closeEach (p.behind old) failed s (ids.map (moved old)) =
      ((closeEach p failed s ids).1, (closeEach p failed s ids).2.1.behind old,
        (closeEach p failed s ids).2.2) := by
  induction ids generalizing p failed s with
  | nil => rfl
  | cons id ids ih =>
    rw [List.map_cons, closeEach, onWriter_behind, closeEach]
    cases p.onWriter id s TableWriter.close with
    | mk x y =>
      cases x with
      | ok _ => exact ih y.1 y.2 failed
      | error e =>
        cases failed with
        | none => exact ih y.1 y.2 (some e)
        | some e' => exact ih y.1 (y.2.note .furtherCloseFailed) (some e')

theorem closeAll_behind :
    (p.behind old).closeAll s =
      ((p.closeAll s).1, (p.closeAll s).2.1.behind old, (p.closeAll s).2.2) := by
  have hempty : { p.behind old with writers := [], claimed := [] } =
      Pool.behind old { p with writers := [], claimed := [] } := rfl
  unfold closeAll
  rw [sorted_behind, hempty, closeEach_behind]
  cases closeEach { p with writers := [], claimed := [] } none s (p.sorted.map (·.2)) with
  | mk x y => cases x <;> rfl

end Pool
end DumpRouter
