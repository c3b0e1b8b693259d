import DumpRouter.Proofs.Text.ByteOrder
import DumpRouter.Proofs.Writer.OpenWriter
import DumpRouter.Proofs.Writer.Operations

/-!
# DumpRouter.Proofs.Writer.Closing

Closing the writers of a pool one after the other. What one close comes to depends on its writer and
on the file of this writer, so the writers closed before it make no difference, unless they have the
same file open.

* `TableWriter.closeFailure?`: why a writer cannot be closed, which is lack of room for what it
  holds.
* `closeEach_cons`: the first of the writers is closed, then the others.
* `closeEach_result`: the failure that is reported is the first one that there is.
* `node?_closeEach`: the file of one writer is as if this writer alone had been closed.
* `reports_closeAll`: of all failures the one of the least table name is reported.
-/

namespace DumpRouter

/-- The result of what may have failed. -/
def Failure.outcome : Option Failure → Except Failure Unit
  | none => .ok ()
  | some e => .error e

namespace TableWriter

/-- Why the writer cannot be closed: it holds something, and there is no room. -/
def closeFailure? (w : TableWriter) (d : Disk) : Option Failure :=
  match w.output with
  | none => none
  | some b =>
    if b.held.size ≠ 0 ∧ d.hasRoom b.handle.location = false then
      some (.close w.table (.system .noSpace))
    else none

variable {w : TableWriter} {s s' : Site} {l : Location}

theorem close_result (w : TableWriter) (s : Site) :
    (w.close s).1 = Failure.outcome (w.closeFailure? s.disk) := by
  unfold close closeFailure?
  cases w.output with
  | none => rfl
  | some b =>
    dsimp only
    by_cases hstuck : b.held.size ≠ 0 ∧ s.disk.hasRoom b.handle.location = false
    · have hw := Disk.write_error_iff.2 ⟨hstuck.1, hstuck.2, rfl⟩
      rw [if_pos hstuck, Buffered.flush, hw]
      rfl
    · rw [if_neg hstuck, Buffered.flush]
      cases hw : s.disk.write b.handle b.held with
      | ok x => rfl
      | error f =>
        obtain ⟨hd, hroom, -⟩ := Disk.write_error_iff.1 hw
        exact absurd ⟨hd, hroom⟩ hstuck

theorem closeFailure?_congr {P : Location → Prop} {d d' : Disk} (h : d.Rewrites P d')
    (w : TableWriter) : w.closeFailure? d' = w.closeFailure? d := by
  unfold closeFailure?
  split
  · rfl
  · rw [h.hasRoom_eq]

theorem closeFailure?_table {d : Disk} {e : Failure} (h : w.closeFailure? d = some e) :
    ∃ cause, e = .close w.table cause := by
  unfold closeFailure? at h
  split at h
  · cases h
  · split at h <;> cases h
    exact ⟨_, rfl⟩

/-- What a close makes of a place depends on what is there. -/
theorem close_congr (w : TableWriter) (h : s'.disk.node? l = s.disk.node? l) :
    (w.close s').2.2.disk.node? l = (w.close s).2.2.disk.node? l := by
  cases hb : w.output with
  | none =>
    unfold close
    rw [hb]
    exact h
  | some b =>
    rw [disk_close hb, disk_close hb, Buffered.node?_flush, Buffered.node?_flush]
    split
    · next hl => rw [← hl, h]
    · exact h

end TableWriter

namespace Pool

/-- Why one of the writers cannot be closed. -/
def closeFailure? (p : Pool) (d : Disk) (id : WriterId) : Option Failure :=
  (p.writer? id).bind (·.closeFailure? d)

/-- The place that a writer has open. -/
def place? (p : Pool) (id : WriterId) : Option Location := (p.writer? id).bind TableWriter.place?

/-- No other writer of the pool has the place `l` open. -/
def Sole (p : Pool) (id : WriterId) (l : Location) : Prop :=
  ∀ j < p.made.length, p.place? j = some l → j = id

instance (p : Pool) (id : WriterId) (l : Location) : Decidable (p.Sole id l) :=
  inferInstanceAs (Decidable (∀ j < p.made.length, p.place? j = some l → j = id))

variable {p : Pool} {s : Site} {id : WriterId} {ids : List WriterId} {l : Location}
  {w : TableWriter} {dir : Path}

theorem lt_of_writer? (h : p.writer? id = some w) : id < p.made.length :=
  (List.getElem?_eq_some_iff.1 h).1

theorem Sole.eq (h : p.Sole id l) (hj : p.place? j = some l) : j = id := by
  obtain ⟨w, hw, -⟩ := Option.bind_eq_some_iff.1 hj
  exact h j (lt_of_writer? hw) hj

/-- What is done to one writer reaches the file only that it has open. -/
theorem onWriter_rewrites (p : Pool) (id : WriterId) (s : Site) (k : TableWriter.Call) :
    s.disk.Rewrites (fun l => p.place? id = some l)
      (p.onWriter id s fun w s => w.call s k).2.2.disk := by
  unfold onWriter place?
  cases p.writer? id with
  | none => exact .refl _ _
  | some w => exact w.call_rewrites s k

theorem onWriter_close_result (p : Pool) (id : WriterId) (s : Site) :
    (p.onWriter id s TableWriter.close).1 = Failure.outcome (p.closeFailure? s.disk id) := by
  unfold onWriter closeFailure?
  cases p.writer? id with
  | none => rfl
  | some w => exact w.close_result s

theorem closeFailure?_onWriter {j : WriterId} (h : j ≠ id) :
    (p.onWriter id s TableWriter.close).2.1.closeFailure?
        (p.onWriter id s TableWriter.close).2.2.disk j = p.closeFailure? s.disk j := by
  unfold closeFailure?
  rw [(closes_onWriter p id s).writer, if_neg (by simpa using h)]
  cases p.writer? j with
  | none => rfl
  | some w => exact w.closeFailure?_congr (p.onWriter_rewrites id s .close)

/-- The first writer is closed and then the others, whether or not it can be closed. -/
theorem closeEach_cons (p : Pool) (failed : Option Failure) (s : Site) (id : WriterId)
    (ids : List WriterId) :
    ∃ s', s'.disk = (p.onWriter id s TableWriter.close).2.2.disk ∧
      closeEach p failed s (id :: ids) =
        closeEach (p.onWriter id s TableWriter.close).2.1 (failed.or (p.closeFailure? s.disk id)) s'
          ids := by
  have hresult := p.onWriter_close_result id s
  rw [closeEach]
  cases hx : p.onWriter id s TableWriter.close with
  | mk x y =>
    rw [hx] at hresult
    cases hf : p.closeFailure? s.disk id with
    | none =>
      rw [hf] at hresult
      cases hresult
      exact ⟨y.2, rfl, by rw [Option.or_none]⟩
    | some e =>
      rw [hf] at hresult
      cases hresult
      cases failed with
      | none => exact ⟨y.2, rfl, rfl⟩
      | some e' => exact ⟨y.2.note .furtherCloseFailed, rfl, rfl⟩

theorem closeEach_result (p : Pool) (failed : Option Failure) (s : Site) (h : ids.Nodup) :
    (closeEach p failed s ids).1 = failed.or (ids.findSome? (p.closeFailure? s.disk)) := by
  induction ids generalizing p failed s with
  | nil => exact Option.or_none.symm
  | cons id ids ih =>
    obtain ⟨hid, hnodup⟩ := List.nodup_cons.1 h
    obtain ⟨s', hs', hc⟩ := p.closeEach_cons failed s id ids
    -- None of the others is closed by this, and a close makes and takes no room for them.
    have hrest : ids.findSome? ((p.onWriter id s TableWriter.close).2.1.closeFailure? s'.disk) =
        ids.findSome? (p.closeFailure? s.disk) := by
      rw [← List.head?_filterMap, ← List.head?_filterMap]
      refine congrArg _ (List.filterMap_congr fun j hj => ?_)
      rw [hs']
      exact closeFailure?_onWriter fun he => hid (he ▸ hj)
    rw [hc, ih _ _ _ hnodup, hrest, Option.or_assoc, List.findSome?_cons]
    cases p.closeFailure? s.disk id <;> rfl

/-- A close opens nothing. -/
theorem place?_onWriter (p : Pool) (id : WriterId) (s : Site) {j : WriterId}
    (h : p.place? j ≠ some l) : (p.onWriter id s TableWriter.close).2.1.place? j ≠ some l := by
  unfold place? at h ⊢
  rw [(closes_onWriter p id s).writer]
  split
  · cases p.writer? j <;> simp [TableWriter.closed, TableWriter.place?]
  · exact h

theorem node?_onWriter (h : p.place? id ≠ some l) (s : Site) :
    (p.onWriter id s TableWriter.close).2.2.disk.node? l = s.disk.node? l :=
  (p.onWriter_rewrites id s .close).other h

theorem node?_closeEach_elsewhere (failed : Option Failure) (s : Site)
    (h : ∀ j ∈ ids, p.place? j ≠ some l) :
    (closeEach p failed s ids).2.2.disk.node? l = s.disk.node? l := by
  induction ids generalizing p failed s with
  | nil => rfl
  | cons id ids ih =>
    obtain ⟨s', hs', hc⟩ := p.closeEach_cons failed s id ids
    rw [hc, ih _ _ fun j hj => p.place?_onWriter id s (h j (List.mem_cons_of_mem _ hj)), hs']
    exact node?_onWriter (h id (by simp)) s

/-- If no other writer has the file open, it is as if this writer alone had been closed. -/
theorem node?_closeEach (failed : Option Failure) (s : Site) (hnodup : ids.Nodup)
    (hid : id ∈ ids) (hw : p.writer? id = some w) (h : ∀ j ∈ ids, j ≠ id → p.place? j ≠ some l) :
    (closeEach p failed s ids).2.2.disk.node? l = (w.close s).2.2.disk.node? l := by
  induction ids generalizing p failed s with
  | nil => cases hid
  | cons k ids ih =>
    obtain ⟨hk, hnodup⟩ := List.nodup_cons.1 hnodup
    obtain ⟨s', hs', hc⟩ := p.closeEach_cons failed s k ids
    rw [hc]
    by_cases hki : k = id
    · subst hki
      have hothers : ∀ j ∈ ids, p.place? j ≠ some l := fun j hj =>
        h j (List.mem_cons_of_mem _ hj) fun he => hk (he ▸ hj)
      rw [node?_closeEach_elsewhere _ _ fun j hj => p.place?_onWriter k s (hothers j hj), hs',
        onWriter, hw]
    · -- Another writer is closed first. Its file is elsewhere, so what is at `l` is as before.
      have hw' : (p.onWriter k s TableWriter.close).2.1.writer? id = some w := by
        rw [(closes_onWriter p k s).writer, if_neg (by simpa using Ne.symm hki)]
        exact hw
      rw [ih _ _ hnodup ((List.mem_cons.1 hid).resolve_left (Ne.symm hki)) hw' fun j hj hji =>
        p.place?_onWriter k s (h j (List.mem_cons_of_mem _ hj) hji)]
      refine w.close_congr ?_
      rw [hs']
      exact node?_onWriter (h k (by simp) hki) s

/-! ## All writers -/

theorem Reachable.nodup_sorted (h : p.Reachable dir) : (p.sorted.map (·.2)).Nodup := by
  obtain ⟨old, ws, hs, -⟩ := h.orderly
  exact hs.nodup_sorted

theorem mem_sorted_iff : id ∈ p.sorted.map (·.2) ↔ id ∈ p.writers.map (·.2) :=
  p.sorted_perm.mem_iff

theorem writer?_closeAll (h : p.Consistent) (s : Site) (id : WriterId) :
    (p.closeAll s).2.1.writer? id = (p.writer? id).map TableWriter.closed := by
  rw [closeAll_eq, (closes_closeEach _ _ _ _).writer]
  split
  · rfl
  · next hid =>
    cases hw : p.writer? id with
    | none => exact hw
    | some w =>
      have hclosed := h.closed id w hw fun hm => hid (mem_sorted_iff.2 hm)
      have hsame : w.closed = w := by
        rw [TableWriter.closed, ← TableWriter.output_of_isClosed hclosed]
      exact hw.trans (congrArg some hsame.symm)

theorem mem_writers_of_place (h : p.Consistent) (hw : p.writer? id = some w)
    (hl : w.place? = some l) : id ∈ p.sorted.map (·.2) := by
  refine mem_sorted_iff.2 (by_contra fun hid => ?_)
  cases hl.symm.trans (TableWriter.place_of_isClosed (h.closed id w hw hid))

/-- What a close of all writers makes of a file that one writer only has open is what a close of
this writer makes of it. -/
theorem node?_closeAll (h : p.Reachable dir) (s : Site) (hw : p.writer? id = some w)
    (hl : w.place? = some l) (hsole : p.Sole id l) :
    (p.closeAll s).2.2.disk.node? l = (w.close s).2.2.disk.node? l := by
  rw [closeAll_eq]
  exact node?_closeEach none s h.nodup_sorted (mem_writers_of_place h.orderly.consistent hw hl) hw
    fun j _ hj hjl => hj (hsole.eq hjl)

theorem sorted_pairwise (p : Pool) : p.sorted.Pairwise fun e e' => e.1 ≤ e'.1 := by
  have hle : ∀ a b : String × WriterId, (!decide (b.1 < a.1)) = true ↔ a.1 ≤ b.1 := by
    intro a b
    rw [Bool.not_eq_true', decide_eq_false_iff_not, not_lt]
  have hsorted := List.pairwise_mergeSort
    (fun a b c hab hbc => (hle a c).2 (((hle a b).1 hab).trans ((hle b c).1 hbc)))
    (fun a b => by rw [Bool.or_eq_true, hle, hle]; exact le_total a.1 b.1) p.writers
  exact hsorted.imp (hle _ _).1

/-- What is reported when all writers of a pool are closed: nothing if each of them can be closed,
and else the failure of that table, of those whose writers cannot be, whose name comes first byte by
byte. -/
inductive Reports (p : Pool) (s : Site) : Except Failure Unit → Prop where
  | nothing : (∀ e ∈ p.writers, ∀ w, p.writer? e.2 = some w → (w.close s).1 = .ok ()) →
    Reports p s (.ok ())
  | least (e : String × WriterId) (w : TableWriter) (cause : Fault) : e ∈ p.writers →
    p.writer? e.2 = some w → (w.close s).1 = .error (.close e.1 cause) →
    (∀ e' ∈ p.writers, ∀ w', p.writer? e'.2 = some w' → (w'.close s).1 ≠ .ok () →
      Text.encode e.1 ≤ Text.encode e'.1) →
    Reports p s (.error (.close e.1 cause))

theorem closeAll_result (p : Pool) (s : Site) (h : (p.sorted.map (·.2)).Nodup) :
    (p.closeAll s).1 =
      Failure.outcome (p.sorted.findSome? fun e => p.closeFailure? s.disk e.2) := by
  have hr := closeEach_result { p with writers := [], claimed := [] } none s h
  rw [Option.none_or, List.findSome?_map] at hr
  refine Eq.trans ?_ (congrArg Failure.outcome hr)
  unfold closeAll
  split <;> next hc => rw [hc]; rfl

theorem Consistent.reports (h : p.Consistent) (hnodup : (p.sorted.map (·.2)).Nodup) (s : Site) :
    p.Reports s (p.closeAll s).1 := by
  have hperm : p.sorted.Perm p.writers := List.mergeSort_perm _ _
  have hresult : ∀ (e : String × WriterId) w, p.writer? e.2 = some w → (w.close s).1 =
      Failure.outcome (p.closeFailure? s.disk e.2) := by
    intro e w hw
    rw [closeFailure?, hw]
    exact w.close_result s
  rw [closeAll_result p s hnodup]
  cases hf : p.sorted.findSome? fun e => p.closeFailure? s.disk e.2 with
  | none =>
    refine .nothing fun e he w hw => ?_
    rw [hresult e w hw, List.findSome?_eq_none_iff.1 hf e (hperm.mem_iff.2 he)]
    rfl
  | some f =>
    obtain ⟨l₁, e, l₂, hl, hfe, hbefore⟩ := List.findSome?_eq_some_iff.1 hf
    have he : e ∈ p.writers := hperm.mem_iff.1 (hl ▸ by simp)
    obtain ⟨w, hw, ht⟩ := h.writer e he
    have hfw : w.closeFailure? s.disk = some f := by simpa [closeFailure?, hw] using hfe
    obtain ⟨cause, rfl⟩ := TableWriter.closeFailure?_table hfw
    rw [ht] at hfe ⊢
    have hclose : (w.close s).1 = .error (.close e.1 cause) :=
      (hresult e w hw).trans (congrArg Failure.outcome hfe)
    refine .least e w cause he hw hclose fun e' he' w' hw' hfails => ?_
    rw [Text.encode_le_encode_iff]
    have hsorted := p.sorted_pairwise
    have hmem := hperm.mem_iff.2 he'
    rw [hl] at hsorted hmem
    rcases List.mem_append.1 hmem with hm | hm
    · refine absurd ?_ hfails
      rw [hresult e' w' hw', hbefore e' hm]
      rfl
    · rcases List.mem_cons.1 hm with rfl | hm
      · exact le_refl _
      · exact (List.pairwise_cons.1 (List.pairwise_append.1 hsorted).2.1).1 e' hm

end Pool
end DumpRouter
