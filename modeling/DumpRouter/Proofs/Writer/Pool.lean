import DumpRouter.Proofs.Writer.FileNames
import DumpRouter.Proofs.Writer.TableWriter

/-!
# DumpRouter.Proofs.Writer.Pool

What a pool knows of its writers. The writers that it has made are those that it has closed,
followed by those that are open; the open ones are listed by their tables, and their paths are
claimed.

* `Pool.Serves p old ws`: the pool has the writers `ws`, behind those of `old`, which are done.
* `add_cases`, `get_cases`: what it comes to that a writer is asked for.
* `Serves.set`: something is done to one writer.
* `outputDir_writeTable`: the output directory stays where it is.
* `idle_closeAll`, `serves_closeAll`: all writers are closed, and the pool begins anew.
-/

namespace DumpRouter
namespace Pool

/-- No table has a writer, and no path is claimed. -/
structure Idle (p : Pool) : Prop where
  writers : p.writers = []
  claimed : p.claimed = []

theorem idle_new (outputDir : Path) : (Pool.new outputDir).Idle := ⟨rfl, rfl⟩

/-- The pool has the writers `ws`, each for a table of its own and at a path of its own. Those of
`old` it had before. -/
structure Serves (p : Pool) (old ws : List TableWriter) : Prop where
  made : p.made = old ++ ws
  writers : p.writers = ((ws.map (·.table)).zipIdx old.length).reverse
  claimed : p.claimed = (ws.map (·.path.key)).reverse
  tables : (ws.map (·.table)).Nodup
  keys : (ws.map (·.path.key)).Nodup

theorem Idle.serves {p : Pool} (h : p.Idle) : p.Serves p.made [] :=
  ⟨by simp, h.writers, h.claimed, .nil, .nil⟩

namespace Serves

variable {p p' : Pool} {old ws : List TableWriter} {s s' : Site}

theorem idle (h : p.Serves old []) : p.Idle := ⟨h.writers, h.claimed⟩

theorem writer? (h : p.Serves old ws) (i : Nat) : p.writer? (old.length + i) = ws[i]? := by
  rw [Pool.writer?, h.made, List.getElem?_append_right (Nat.le_add_right ..),
    Nat.add_sub_cancel_left]

theorem lookup_some (h : p.Serves old ws) {table : String} {id : WriterId}
    (hl : p.writers.lookup table = some id) :
    ∃ i w, ws[i]? = some w ∧ w.table = table ∧ id = old.length + i := by
  obtain ⟨l₁, l₂, he, -⟩ := List.lookup_eq_some_iff.1 hl
  have hmem : (table, id) ∈ (ws.map (·.table)).zipIdx old.length := by
    rw [← List.mem_reverse, ← h.writers, he]
    simp
  obtain ⟨hle, hi⟩ := List.mk_mem_zipIdx_iff_le_and_getElem?_sub.1 hmem
  rw [List.getElem?_map] at hi
  obtain ⟨w, hw, ht⟩ := Option.map_eq_some_iff.1 hi
  exact ⟨id - old.length, w, hw, ht, (Nat.add_sub_cancel' hle).symm⟩

theorem lookup_none (h : p.Serves old ws) {table : String}
    (hl : p.writers.lookup table = none) : table ∉ ws.map (·.table) := by
  intro hmem
  obtain ⟨i, hi⟩ := List.mem_iff_getElem?.1 hmem
  have hin : (table, old.length + i) ∈ p.writers := by
    rw [h.writers, List.mem_reverse]
    exact List.mk_add_mem_zipIdx_iff_getElem?.2 hi
  have := List.lookup_eq_none_iff.1 hl _ hin
  simp at this

theorem concat (h : p.Serves old ws) {w : TableWriter} (ht : w.table ∉ ws.map (·.table))
    (hk : p.isClaimed w.path = false) :
    Serves { p with
      made := p.made ++ [w]
      writers := (w.table, p.made.length) :: p.writers
      claimed := w.path.key :: p.claimed } old (ws ++ [w]) where
  made := by simp [h.made]
  writers := by simp [h.writers, h.made, List.zipIdx_append]
  claimed := by simp [h.claimed]
  tables := by
    rw [List.map_append, List.map_singleton]
    exact List.nodup_append.2 ⟨h.tables, by simp, by simpa using ht⟩
  keys := by
    have hk' : w.path.key ∉ ws.map (·.path.key) := by
      simpa [isClaimed, h.claimed] using hk
    rw [List.map_append, List.map_singleton]
    exact List.nodup_append.2 ⟨h.keys, by simp, by simpa using hk'⟩

theorem map_set_eq {α : Type} {f : TableWriter → α} {i : Nat} {w w' : TableWriter}
    (hi : ws[i]? = some w) (hf : f w' = f w) : (ws.set i w').map f = ws.map f := by
  obtain ⟨hlt, rfl⟩ := List.getElem?_eq_some_iff.1 hi
  rw [List.map_set, hf, ← List.getElem_map f (h := by simpa using hlt), List.set_getElem_self]

theorem set (h : p.Serves old ws) {i : Nat} {w w' : TableWriter} (hi : ws[i]? = some w)
    (ht : w'.table = w.table) (hp : w'.path = w.path) :
    Serves { p with made := p.made.set (old.length + i) w' } old (ws.set i w') where
  made := by
    rw [h.made]
    simp
  writers := by rw [map_set_eq hi ht]; exact h.writers
  claimed := by rw [map_set_eq hi (congrArg Path.key hp)]; exact h.claimed
  tables := by rw [map_set_eq hi ht]; exact h.tables
  keys := by rw [map_set_eq hi (congrArg Path.key hp)]; exact h.keys

end Serves

section Get

variable {p p' : Pool} {old ws : List TableWriter} {table : String} {s s' : Site}
  {x : Except Failure WriterId}

/-- A table without a writer gets one at a free path, or there is a failure and the pool stays as it
is. -/
theorem add_cases (h : p.Serves old ws) (ht : table ∉ ws.map (·.table)) {path : Path}
    (hk : p.isClaimed path = false) (ha : p.add table path s = (x, p', s')) :
    (∃ w, TableWriter.create table path s = (.ok w, s') ∧ x = .ok (old.length + ws.length) ∧
        p'.Serves old (ws ++ [w]) ∧ p'.outputDir = p.outputDir) ∨
      ∃ e, TableWriter.create table path s = (.error e, s') ∧ x = .error e ∧ p' = p := by
  unfold add at ha
  cases hc : TableWriter.create table path s with
  | mk y s₁ =>
    rw [hc] at ha
    cases y with
    | error e =>
      cases ha
      exact .inr ⟨e, rfl, rfl, rfl⟩
    | ok w =>
      obtain ⟨rfl, rfl, -⟩ := TableWriter.create_carries hc
      cases ha
      exact .inl ⟨w, rfl, by simp [h.made], h.concat ht hk, rfl⟩

theorem get_cases (h : p.Serves old ws) (hg : p.get table s = (x, p', s')) :
    (∃ i w, ws[i]? = some w ∧ w.table = table ∧ x = .ok (old.length + i) ∧ p' = p ∧ s' = s) ∨
      table ∉ ws.map (·.table) ∧ ∃ s₀ : Site, s₀.disk = s.disk ∧
        ((∃ w, TableWriter.create table (p.freePath table) s₀ = (.ok w, s') ∧
            x = .ok (old.length + ws.length) ∧ p'.Serves old (ws ++ [w]) ∧
            p'.outputDir = p.outputDir) ∨
          ∃ e, TableWriter.create table (p.freePath table) s₀ = (.error e, s') ∧ x = .error e ∧
            p' = p) := by
  unfold get at hg
  cases hl : p.writers.lookup table with
  | some id =>
    rw [hl] at hg
    cases hg
    obtain ⟨i, w, hi, ht, rfl⟩ := h.lookup_some hl
    exact .inl ⟨i, w, hi, ht, rfl, rfl, rfl⟩
  | none =>
    rw [hl] at hg
    have ht := h.lookup_none hl
    refine .inr ⟨ht, _, ?_, add_cases h ht (p.isClaimed_freePath table) hg⟩
    split <;> rfl

end Get

section OutputDir

variable (p : Pool)

theorem outputDir_add (table : String) (path : Path) (s : Site) :
    (p.add table path s).2.1.outputDir = p.outputDir := by
  unfold add
  split <;> rfl

theorem outputDir_get (table : String) (s : Site) :
    (p.get table s).2.1.outputDir = p.outputDir := by
  unfold get
  split
  · rfl
  · exact p.outputDir_add ..

theorem outputDir_onWriter (id : WriterId) (s : Site)
    (f : TableWriter → Site → Except Failure Unit × TableWriter × Site) :
    (p.onWriter id s f).2.1.outputDir = p.outputDir := by
  unfold onWriter
  split <;> rfl

theorem outputDir_writeTable (table : String) (statement : Bytes) (s : Site) :
    (p.writeTable table statement s).2.1.outputDir = p.outputDir := by
  have hget := p.outputDir_get table s
  unfold writeTable
  split
  · next h => rw [h] at hget; exact hget
  · next h =>
    rw [h] at hget
    exact (outputDir_onWriter ..).trans hget

end OutputDir

section Close

variable {p p' p'' : Pool} {old ws : List TableWriter} {s : Site}

/-- The pool `p'` is `p` with the writers `ids` closed. -/
structure Closes (p : Pool) (ids : List WriterId) (p' : Pool) : Prop where
  outputDir : p'.outputDir = p.outputDir
  writers : p'.writers = p.writers
  claimed : p'.claimed = p.claimed
  writer : ∀ id, p'.writer? id =
    if id ∈ ids then (p.writer? id).map TableWriter.closed else p.writer? id

theorem Closes.refl (p : Pool) : Closes p [] p := ⟨rfl, rfl, rfl, fun _ => by simp⟩

theorem Closes.cons {id : WriterId} {ids : List WriterId} (h : Closes p [id] p')
    (h' : Closes p' ids p'') : Closes p (id :: ids) p'' where
  outputDir := h'.outputDir.trans h.outputDir
  writers := h'.writers.trans h.writers
  claimed := h'.claimed.trans h.claimed
  writer j := by
    rw [h'.writer, h.writer]
    by_cases hj : j = id
    · by_cases hm : j ∈ ids
      · cases p.writer? j <;> simp [hj]
      · cases p.writer? j <;> simp [hj]
    · simp [hj]

theorem writer?_set {id : WriterId} {w w' : TableWriter} (h : p.writer? id = some w)
    (j : WriterId) :
    Pool.writer? { p with made := p.made.set id w' } j =
      if j = id then some w' else p.writer? j := by
  have hlt : id < p.made.length := (List.getElem?_eq_some_iff.1 h).1
  unfold writer?
  rw [List.getElem?_set]
  by_cases hj : j = id
  · simp [hj, hlt]
  · simp [hj, Ne.symm hj]

theorem writer?_onWriter {id : WriterId} (p : Pool) (j : WriterId) (s : Site)
    (f : TableWriter → Site → Except Failure Unit × TableWriter × Site) :
    (p.onWriter j s f).2.1.writer? id =
      if id = j then (p.writer? id).map fun w => (f w s).2.1 else p.writer? id := by
  unfold onWriter
  cases hw : p.writer? j with
  | none =>
    by_cases hj : id = j
    · simp [hj, hw]
    · simp [hj]
  | some w =>
    dsimp only
    rw [writer?_set hw]
    by_cases hj : id = j
    · simp [hj, hw]
    · simp [hj]

theorem closes_onWriter (p : Pool) (id : WriterId) (s : Site) :
    Closes p [id] (p.onWriter id s TableWriter.close).2.1 := by
  refine ⟨p.outputDir_onWriter .., ?_, ?_, ?_⟩
  · unfold onWriter
    split <;> rfl
  · unfold onWriter
    split <;> rfl
  · intro j
    rw [writer?_onWriter]
    simp only [List.mem_singleton, TableWriter.close_writer]

theorem closes_closeEach (ids : List WriterId) (p : Pool) (failed : Option Failure) (s : Site) :
    Closes p ids (closeEach p failed s ids).2.1 := by
  fun_induction closeEach p failed s ids with
  | case1 p failed s => exact .refl p
  | case2 p failed s id ids p' s' hc ih =>
    have := closes_onWriter p id s
    rw [hc] at this
    exact this.cons ih
  | case3 p s id ids e p' s' hc ih =>
    have := closes_onWriter p id s
    rw [hc] at this
    exact this.cons ih
  | case4 p s id ids e p' s' hc e' ih =>
    have := closes_onWriter p id s
    rw [hc] at this
    exact this.cons ih

theorem sorted_perm (p : Pool) : (p.sorted.map (·.2)).Perm (p.writers.map (·.2)) :=
  (List.mergeSort_perm _ _).map _

theorem Serves.mem_sorted (h : p.Serves old ws) {id : Nat} :
    id ∈ p.sorted.map (·.2) ↔ old.length ≤ id ∧ id < old.length + ws.length := by
  rw [p.sorted_perm.mem_iff, h.writers, List.map_reverse, List.mem_reverse, List.zipIdx_map_snd,
    List.mem_range'_1, List.length_map]

theorem Serves.nodup_sorted (h : p.Serves old ws) : (p.sorted.map (·.2)).Nodup := by
  rw [p.sorted_perm.nodup_iff, h.writers, List.map_reverse, List.nodup_reverse,
    List.zipIdx_map_snd]
  exact List.nodup_range'

theorem closeAll_eq (p : Pool) (s : Site) :
    (p.closeAll s).2 = (closeEach { p with writers := [], claimed := [] } none s
      (p.sorted.map (·.2))).2 := by
  unfold closeAll
  split <;> next h => rw [h]

theorem Idle.closeAll {p : Pool} (h : p.Idle) (s : Site) : p.closeAll s = (.ok (), p, s) := by
  obtain ⟨dir, made, writers, claimed⟩ := p
  obtain ⟨rfl, rfl⟩ := h
  simp [Pool.closeAll, sorted, closeEach]

theorem idle_closeAll (p : Pool) (s : Site) : (p.closeAll s).2.1.Idle := by
  have hc := closes_closeEach (p.sorted.map (·.2)) { p with writers := [], claimed := [] } none s
  rw [← closeAll_eq] at hc
  exact ⟨hc.writers, hc.claimed⟩

theorem outputDir_closeAll (p : Pool) (s : Site) :
    (p.closeAll s).2.1.outputDir = p.outputDir := by
  rw [closeAll_eq]
  exact (closes_closeEach _ { p with writers := [], claimed := [] } none s).outputDir

/-- The pool has closed its writers and has no others. -/
theorem serves_closeAll (h : p.Serves old ws) (s : Site) :
    (p.closeAll s).2.1.Serves (old ++ ws.map TableWriter.closed) [] := by
  have hc := closes_closeEach (p.sorted.map (·.2)) { p with writers := [], claimed := [] } none s
  rw [← closeAll_eq] at hc
  refine ⟨?_, hc.writers, hc.claimed, .nil, .nil⟩
  rw [List.append_nil]
  apply List.ext_getElem?
  intro id
  have hw := hc.writer id
  have hp : Pool.writer? { p with writers := [], claimed := [] } id = (old ++ ws)[id]? :=
    congrArg (·[id]?) h.made
  rw [hp] at hw
  refine hw.trans ?_
  by_cases hold : id < old.length
  · rw [if_neg fun hm => by have := (h.mem_sorted.1 hm).1; omega]
    rw [List.getElem?_append_left hold, List.getElem?_append_left hold]
  · have hle : old.length ≤ id := by omega
    rw [List.getElem?_append_right hle, List.getElem?_append_right hle, List.getElem?_map]
    split
    · rfl
    · next hm =>
      have hge : ws.length ≤ id - old.length := by
        by_contra hlt
        exact hm (h.mem_sorted.2 ⟨hle, by omega⟩)
      rw [List.getElem?_eq_none hge]
      rfl

end Close

end Pool
end DumpRouter
