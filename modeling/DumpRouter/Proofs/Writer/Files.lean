import DumpRouter.Proofs.Writer.Pool

/-!
# DumpRouter.Proofs.Writer.Files

The files of a pool. As long as a pool writes to a disk, the file of each table holds what has been
written for this table, and nothing else on the disk changes. No two writers share a file, since
their paths are different names in one directory.

* `Pool.Tracks`: the invariant, for what the pool has made of a disk since it was idle.
* `eq_of_leads`: a place on the disk is the file of one writer only.
* `tracks_writeTable`: a statement is written for a table, which may have no writer yet.
* `tracks_closeAll`: when all writers have been closed each file holds all that was written to it.
-/

namespace DumpRouter

/-- Where one of the paths leads. -/
def Disk.At (d : Disk) (paths : List Path) (l : Location) : Prop :=
  ∃ path ∈ paths, d.Leads path l

/-- The place that a path leads to, if a file can be there. -/
def Disk.spot (d : Disk) (path : Path) : Location :=
  match d.resolve path with
  | .ok (.entry l name _) => l.below name
  | _ => .root

theorem Disk.Leads.spot {d : Disk} {path : Path} {l : Location} (h : d.Leads path l) :
    d.spot path = l := by
  obtain ⟨k, name, hr, -, rfl⟩ := h
  simp [Disk.spot, hr]

namespace Pool

/-- What a pool that has the writers `ws` has made of the disk `d`, if the disk is now `d'` and
`content` has been written for each table. -/
structure Tracks (p : Pool) (old ws : List TableWriter) (d d' : Disk) (content : String → Bytes) :
    Prop where
  serves : p.Serves old ws
  gives : ∀ w ∈ ws, p.Gives w.path
  file : ∀ w ∈ ws, ∃ l, d.Leads w.path l ∧ w.Carries d' l (content w.table)
  fresh : ∀ t, t ∉ ws.map (·.table) → content t = []
  touches : d.Touches (d.At (ws.map (·.path))) d'

/-- One of the paths that the pool gives leads to a device that is full. -/
def Full (p : Pool) (d : Disk) : Prop :=
  ∃ path l, p.Gives path ∧ d.Leads path l ∧ d.node? l = some (.device .full)

/-- What is written for a table after `record` has been written for it. -/
def written (content : String → Bytes) (table : String) (record : Bytes) (t : String) : Bytes :=
  if t = table then content t ++ record else content t

variable {p p' : Pool} {old ws : List TableWriter} {d d' : Disk} {content : String → Bytes}
  {s s' : Site}

theorem gives_congr (h : p'.outputDir = p.outputDir) {path : Path} :
    p'.Gives path ↔ p.Gives path := by
  unfold Gives pathOfStem
  rw [h]

theorem Full.congr (h : p.Full d) (ho : p'.outputDir = p.outputDir) : p'.Full d := by
  obtain ⟨path, l, hg, hl⟩ := h
  exact ⟨path, l, (gives_congr ho).2 hg, hl⟩

theorem gives_inj {p : Pool} {path path' : Path} (h : p.Gives path) (h' : p.Gives path')
    {l : Location} (hl : d.Leads path l) (hl' : d.Leads path' l) : path = path' := by
  obtain ⟨stem, hs, rfl⟩ := h
  obtain ⟨stem', hs', rfl⟩ := h'
  have := Disk.leads_join_inj (plain_sql hs) (plain_sql hs') hl hl'
  rw [pathOfStem, this]
  rfl

theorem getNode_mem {l : Location} {n : Node} {nodes : List (Location × Node)}
    (h : Disk.getNode l nodes = some n) : (l, n) ∈ nodes := by
  induction nodes with
  | nil => cases h
  | cons e nodes ih =>
    obtain ⟨k, m⟩ := e
    unfold Disk.getNode at h
    split at h
    · next hk =>
      cases h
      rw [hk]
      exact List.mem_cons_self
    · exact List.mem_cons_of_mem _ (ih h)

/-- Where only devices called `full` are full, all files of a pool have room. -/
theorem not_full_of_names (p : Pool) {d : Disk} (h : ∀ e ∈ d.nodes, e.2 = .device .full →
    e.1.names.head? = some "full") : ¬ p.Full d := by
  rintro ⟨path, l, ⟨stem, hstem, rfl⟩, hl, hn⟩
  obtain ⟨k, rfl⟩ := Disk.leads_join (plain_sql hstem) hl
  rw [Disk.node?, if_neg (Location.below_ne_root _ _)] at hn
  have hname : stem ++ ".sql" = "full" := by
    simpa [Location.below] using h _ (getNode_mem hn) rfl
  have hsuffix : ".sql".toList <:+ "full".toList := by
    rw [← hname, String.toList_append]
    exact List.suffix_append ..
  exact absurd hsuffix (by decide)

theorem eq_of_leads (h : p.Serves old ws) (hg : ∀ w ∈ ws, p.Gives w.path) {v w : TableWriter}
    (hv : v ∈ ws) (hw : w ∈ ws) {l : Location} (hlv : d.Leads v.path l) (hlw : d.Leads w.path l) :
    v = w :=
  List.inj_on_of_nodup_map h.keys hv hw
    (congrArg Path.key (gives_inj (hg v hv) (hg w hw) hlv hlw))

theorem Idle.tracks (h : p.Idle) (d : Disk) : p.Tracks p.made [] d d fun _ => [] where
  serves := h.serves
  gives := by simp
  file := by simp
  fresh _ _ := rfl
  touches := .refl _ d

theorem Tracks.create (h : p.Tracks old ws d s.disk content) {w : TableWriter}
    (hs : p'.Serves old (ws ++ [w])) (hout : p'.outputDir = p.outputDir)
    (hg : p.Gives w.path) {table : String}
    (hc : TableWriter.create table w.path s = (.ok w, s')) :
    p'.Tracks old (ws ++ [w]) d s'.disk content := by
  obtain ⟨rfl, -, l, hl, ht, hcar⟩ := TableWriter.create_carries hc
  have hl' : d.Leads w.path l := hl.sameTree h.touches.tree.symm
  have hgives : ∀ v ∈ ws ++ [w], p'.Gives v.path := by
    intro v hv
    rw [gives_congr hout]
    rcases List.mem_append.1 hv with hv | hv
    · exact h.gives v hv
    · rw [List.mem_singleton.1 hv]
      exact hg
  have hnew : w.table ∉ ws.map (·.table) := by
    have := hs.tables
    rw [List.map_append, List.nodup_append] at this
    exact fun hm => this.2.2 _ hm w.table (by simp) rfl
  refine ⟨hs, hgives, ?_, ?_, ?_⟩
  · intro v hv
    rcases List.mem_append.1 hv with hv' | hv'
    · obtain ⟨k, hk, hcv⟩ := h.file v hv'
      have hne : k ≠ l := by
        rintro rfl
        have := eq_of_leads hs hgives hv (by simp) hk hl'
        exact hnew (this ▸ List.mem_map_of_mem hv')
      exact ⟨k, hk, hcv.congr (ht.other k hne)⟩
    · rw [List.mem_singleton.1 hv', h.fresh w.table hnew]
      exact ⟨l, hl', hcar⟩
  · intro t ht
    exact h.fresh t fun hm => ht (by rw [List.map_append]; exact List.mem_append_left _ hm)
  · refine (h.touches.mono ?_).trans (ht.mono ?_)
    · rintro k ⟨path, hm, hk⟩
      exact ⟨path, by rw [List.map_append]; exact List.mem_append_left _ hm, hk⟩
    · rintro k rfl
      exact ⟨w.path, by simp, hl'⟩

/-- A writer of a list in which one has been replaced is the new one, or it is another table's. -/
theorem Serves.mem_set (h : p.Serves old ws) {i : Nat} {v w w' : TableWriter}
    (hi : ws[i]? = some w) (ht : w'.table = w.table) (hv : v ∈ ws.set i w') :
    v = w' ∨ v ∈ ws ∧ v.table ≠ w.table := by
  have hmem' : w' ∈ ws.set i w' := List.mem_set (List.getElem?_eq_some_iff.1 hi).1 w'
  have hnodup : ((ws.set i w').map (·.table)).Nodup := by
    rw [Serves.map_set_eq hi ht]
    exact h.tables
  by_cases hvt : v.table = w.table
  · exact .inl (List.inj_on_of_nodup_map hnodup hv hmem' (hvt.trans ht.symm))
  · rcases List.mem_or_eq_of_mem_set hv with hv | rfl
    · exact .inr ⟨hv, hvt⟩
    · exact absurd ht hvt

theorem Tracks.set (h : p.Tracks old ws d d' content) {i : Nat} {w : TableWriter}
    (hi : ws[i]? = some w) {l : Location} (hl : d.Leads w.path l) {record : Bytes}
    {r : Except Failure Unit × TableWriter × Site}
    (hr : w.Leaves d' l (content w.table ++ record) r) (hok : r.1 = .ok ()) :
    Tracks { p with made := p.made.set (old.length + i) r.2.1 } old (ws.set i r.2.1) d r.2.2.disk
      (written content w.table record) := by
  have hmem : w ∈ ws := List.mem_of_getElem? hi
  refine ⟨h.serves.set hi hr.table hr.path, ?_, ?_, ?_, ?_⟩
  · intro v hv
    rcases h.serves.mem_set hi hr.table hv with rfl | ⟨hv, -⟩
    · rw [hr.path]
      exact h.gives w hmem
    · exact h.gives v hv
  · intro v hv
    rcases h.serves.mem_set hi hr.table hv with rfl | ⟨hv, ht⟩
    · refine ⟨l, hr.path ▸ hl, ?_⟩
      rw [written, if_pos hr.table, hr.table]
      exact hr.carries hok
    · obtain ⟨k, hk, hcv⟩ := h.file v hv
      have hne : k ≠ l := by
        rintro rfl
        exact ht (congrArg _ (eq_of_leads h.serves h.gives hv hmem hk hl))
      refine ⟨k, hk, ?_⟩
      rw [written, if_neg ht]
      exact hcv.congr (hr.touches.other k hne)
  · intro t ht
    rw [Serves.map_set_eq hi hr.table] at ht
    have hne : t ≠ w.table := by
      rintro rfl
      exact ht (List.mem_map_of_mem hmem)
    rw [written, if_neg hne]
    exact h.fresh t ht
  · rw [Serves.map_set_eq hi hr.path]
    refine h.touches.trans (hr.touches.mono ?_)
    rintro k rfl
    exact ⟨w.path, List.mem_map_of_mem hmem, hl⟩

theorem Tracks.write (h : p.Tracks old ws d s.disk content) {i : Nat} {w : TableWriter}
    (hi : ws[i]? = some w) (statement : Bytes) {x : Except Failure Unit}
    (hw : p.write (old.length + i) statement s = (x, p', s')) :
    (x = .ok () → ∃ ws', p'.Tracks old ws' d s'.disk
        (written content w.table (statement ++ [10])) ∧
      ws'.map (·.table) = ws.map (·.table)) ∧
      ∀ e, x = .error e → p.Full d := by
  have hmem : w ∈ ws := List.mem_of_getElem? hi
  obtain ⟨l, hl, hcar⟩ := h.file w hmem
  have hr := TableWriter.write_leaves hcar statement
  simp only [Pool.write, onWriter, h.serves.writer?, hi] at hw
  cases hw
  refine ⟨fun hx => ⟨_, h.set hi hl hr hx, Serves.map_set_eq hi hr.table⟩, ?_⟩
  intro e hx
  exact ⟨w.path, l, h.gives w hmem, hl, (h.touches.tree.device _ _).1 (hr.fails e hx)⟩

theorem tracks_writeTable (h : p.Tracks old ws d s.disk content) {table : String}
    {statement : Bytes} {x : Except Failure Unit}
    (hw : p.writeTable table statement s = (x, p', s')) :
    (x = .ok () ∧ ∃ ws',
        p'.Tracks old ws' d s'.disk (written content table (statement ++ [10])) ∧
        ws'.map (·.table) =
          if table ∈ ws.map (·.table) then ws.map (·.table) else ws.map (·.table) ++ [table]) ∨
      (∃ path cause, x = .error (.writerCreate table path cause) ∧ table ∉ ws.map (·.table) ∧
        p' = p ∧ s'.disk = s.disk) ∨
      (∃ e, x = .error e ∧ p.Full d) := by
  unfold writeTable at hw
  cases hg : p.get table s with
  | mk y z =>
    obtain ⟨p₁, s₁⟩ := z
    rw [hg] at hw
    rcases get_cases h.serves hg with ⟨i, w, hi, rfl, rfl, rfl, rfl⟩ | ⟨ht, s₀, hs₀, hnew⟩
    · obtain ⟨hok, herr⟩ := h.write hi statement hw
      cases x with
      | ok _ =>
        obtain ⟨ws', htr, htab⟩ := hok rfl
        have hmem : w.table ∈ ws.map (·.table) := List.mem_map_of_mem (List.mem_of_getElem? hi)
        exact .inl ⟨rfl, ws', htr, by rw [htab, if_pos hmem]⟩
      | error e => exact .inr (.inr ⟨e, rfl, herr e rfl⟩)
    · rcases hnew with ⟨w, hc, rfl, hs₁, hout⟩ | ⟨e, hc, rfl, rfl⟩
      · obtain ⟨rfl, hpath, -⟩ := TableWriter.create_carries hc
        rw [← hpath] at hc
        rw [← hs₀] at h
        have h₁ := h.create hs₁ hout (hpath ▸ p.freePath_gives w.table) hc
        have hi : (ws ++ [w])[ws.length]? = some w := by simp
        obtain ⟨hok, herr⟩ := h₁.write hi statement hw
        cases x with
        | ok _ =>
          obtain ⟨ws', htr, htab⟩ := hok rfl
          exact .inl ⟨rfl, ws', htr, by rw [htab, if_neg ht]; simp⟩
        | error e =>
          exact .inr (.inr ⟨e, rfl, (herr e rfl).congr hout.symm⟩)
      · obtain ⟨⟨cause, rfl⟩, hd⟩ := TableWriter.create_fails hc
        cases hw
        exact .inr (.inl ⟨_, cause, rfl, ht, rfl, hd.trans hs₀⟩)

section Close

variable {place : Path → Location} {id : WriterId} {ids : List WriterId}

/-- The writers `ids` are to be closed: each has taken something, and their files are apart. -/
structure Ready (place : Path → Location) (content : String → Bytes) (p : Pool) (d : Disk)
    (ids : List WriterId) : Prop where
  file : ∀ id ∈ ids, ∃ w, p.writer? id = some w ∧ content w.table ≠ [] ∧
    w.Carries d (place w.path) (content w.table)
  apart : ids.Pairwise fun i j => ∀ v w, p.writer? i = some v → p.writer? j = some w →
    place v.path ≠ place w.path

/-- What has become of the disk `d` when the writers `ids` have been closed, if `failed` was the
first failure before. -/
structure Settled (place : Path → Location) (content : String → Bytes) (p : Pool) (d : Disk)
    (ids : List WriterId) (failed : Option Failure) (r : Option Failure × Pool × Site) : Prop where
  touches : d.Touches (fun l => ∃ id ∈ ids, ∃ w, p.writer? id = some w ∧ l = place w.path)
    r.2.2.disk
  received : r.1 = none → failed = none ∧ ∀ id ∈ ids, ∀ w, p.writer? id = some w →
    r.2.2.disk.Received (place w.path) (content w.table)
  fails : ∀ e, r.1 = some e → failed = some e ∨ ∃ id ∈ ids, ∃ w, p.writer? id = some w ∧
    d.node? (place w.path) = some (.device .full)

/-- What closing the writer `w` comes to, if those of `ids` are closed later. -/
structure Closing (place : Path → Location) (content : String → Bytes) (p : Pool) (d : Disk)
    (w : TableWriter) (ids : List WriterId) (x : Except Failure Unit) (p' : Pool) (d' : Disk) :
    Prop where
  same : ∀ j ∈ ids, p'.writer? j = p.writer? j
  apart : ∀ j ∈ ids, ∀ v, p.writer? j = some v → place w.path ≠ place v.path
  touches : d.Touches (· = place w.path) d'
  received : x = .ok () → d'.Received (place w.path) (content w.table)
  fails : ∀ e, x = .error e → d.node? (place w.path) = some (.device .full)

theorem Ready.closing (h : Ready place content p s.disk (id :: ids)) {x : Except Failure Unit}
    (hx : p.onWriter id s TableWriter.close = (x, p', s')) :
    ∃ w, p.writer? id = some w ∧ Closing place content p s.disk w ids x p' s'.disk := by
  obtain ⟨w, hw, hne, hcar⟩ := h.file id (by simp)
  have hapart := (List.pairwise_cons.1 h.apart).1
  have hcl := closes_onWriter p id s
  rw [hx] at hcl
  simp only [onWriter, hw] at hx
  cases hx
  refine ⟨w, hw, ?_, fun j hj v hv => hapart j hj w v hw hv,
    TableWriter.close_touches hcar, TableWriter.close_received hcar hne,
    fun e he => TableWriter.close_fails hcar he⟩
  intro j hj
  have hji : j ≠ id := by
    rintro rfl
    exact hapart j hj w w hw hw rfl
  rw [hcl.writer, if_neg (by simpa using hji)]

theorem Closing.ready {w : TableWriter} {x : Except Failure Unit}
    (c : Closing place content p d w ids x p' d') (h : Ready place content p d (id :: ids)) :
    Ready place content p' d' ids := by
  refine ⟨?_, ?_⟩
  · intro j hj
    obtain ⟨v, hv, hnv, hcv⟩ := h.file j (List.mem_cons_of_mem _ hj)
    exact ⟨v, (c.same j hj).trans hv, hnv, hcv.congr (c.touches.other _ (c.apart j hj v hv).symm)⟩
  · refine (List.pairwise_cons.1 h.apart).2.imp_of_mem fun {i j} hi hj hij v u hv hu => ?_
    exact hij v u ((c.same i hi).symm.trans hv) ((c.same j hj).symm.trans hu)

theorem Closing.settled {w : TableWriter} {x : Except Failure Unit}
    (c : Closing place content p d w ids x p' d') (hw : p.writer? id = some w)
    {failed failed' : Option Failure} {r : Option Failure × Pool × Site}
    (h : Settled place content p' d' ids failed' r)
    (hok : failed' = none → failed = none ∧ x = .ok ())
    (herr : ∀ e, failed' = some e → failed = some e ∨ x = .error e) :
    Settled place content p d (id :: ids) failed r := by
  refine ⟨?_, ?_, ?_⟩
  · refine (c.touches.mono ?_).trans (h.touches.mono ?_)
    · rintro l rfl
      exact ⟨id, by simp, w, hw, rfl⟩
    · rintro l ⟨j, hj, v, hv, rfl⟩
      exact ⟨j, List.mem_cons_of_mem _ hj, v, (c.same j hj).symm.trans hv, rfl⟩
  · intro hnone
    obtain ⟨hn, hrest⟩ := h.received hnone
    obtain ⟨hf, hx⟩ := hok hn
    refine ⟨hf, ?_⟩
    intro j hj v hv
    rcases List.mem_cons.1 hj with rfl | hj
    · cases hw.symm.trans hv
      refine (c.received hx).congr (h.touches.other _ ?_)
      rintro ⟨i, hi, u, hu, hpu⟩
      exact c.apart i hi u ((c.same i hi).symm.trans hu) hpu
    · exact hrest j hj v ((c.same j hj).trans hv)
  · intro e he
    rcases h.fails e he with hfe | ⟨j, hj, v, hv, hn⟩
    · rcases herr e hfe with hfe | hxe
      · exact .inl hfe
      · exact .inr ⟨id, by simp, w, hw, c.fails e hxe⟩
    · exact .inr ⟨j, List.mem_cons_of_mem _ hj, v, (c.same j hj).symm.trans hv,
        (c.touches.tree.device _ _).1 hn⟩

theorem settled_closeEach (h : Ready place content p s.disk ids) (failed : Option Failure) :
    Settled place content p s.disk ids failed (closeEach p failed s ids) := by
  -- Only the first failure is kept, so the later cases differ in what is known of `failed`.
  fun_induction closeEach p failed s ids with
  | case1 p failed s => exact ⟨.refl _ _, fun hn => ⟨hn, by simp⟩, fun e he => .inl he⟩
  | case2 p failed s id ids p' s' hx ih =>
    obtain ⟨w, hw, c⟩ := h.closing hx
    exact c.settled hw (ih (c.ready h)) (fun hn => ⟨hn, rfl⟩) fun e he => .inl he
  | case3 p s id ids e p' s' hx ih =>
    obtain ⟨w, hw, c⟩ := h.closing hx
    exact c.settled hw (ih (c.ready h)) (fun hn => absurd hn (Option.some_ne_none _))
      fun e' he => .inr (by cases he; rfl)
  | case4 p s id ids e p' s' hx e' ih =>
    obtain ⟨w, hw, c⟩ := h.closing hx
    exact c.settled hw (ih (c.ready h)) (fun hn => absurd hn (Option.some_ne_none _))
      fun e'' he => .inl he

end Close

theorem Tracks.leads (h : p.Tracks old ws d d' content) {w : TableWriter} (hw : w ∈ ws) :
    d.Leads w.path (d.spot w.path) := by
  obtain ⟨l, hl, -⟩ := h.file w hw
  rw [hl.spot]
  exact hl

theorem Tracks.carries (h : p.Tracks old ws d d' content) {w : TableWriter} (hw : w ∈ ws) :
    w.Carries d' (d.spot w.path) (content w.table) := by
  obtain ⟨l, hl, hcar⟩ := h.file w hw
  rw [hl.spot]
  exact hcar

theorem Tracks.spot_inj (h : p.Tracks old ws d d' content) {v w : TableWriter} (hv : v ∈ ws)
    (hw : w ∈ ws) (he : d.spot v.path = d.spot w.path) : v = w :=
  eq_of_leads h.serves h.gives hv hw (h.leads hv) (he ▸ h.leads hw)

theorem Tracks.nodup_spots (h : p.Tracks old ws d d' content) :
    (ws.map fun w => d.spot w.path).Nodup :=
  (List.nodup_map_iff_inj_on (List.Nodup.of_map _ h.serves.tables)).2
    fun _ hv _ hw he => h.spot_inj hv hw he

theorem Tracks.ready (h : p.Tracks old ws d d' content) (hne : ∀ w ∈ ws, content w.table ≠ []) :
    Ready d.spot content { p with writers := [], claimed := [] } d' (p.sorted.map (·.2)) := by
  have hwriter : ∀ id ∈ p.sorted.map (·.2), ∃ i w, id = old.length + i ∧ ws[i]? = some w ∧
      Pool.writer? { p with writers := [], claimed := [] } id = some w := by
    intro id hid
    obtain ⟨hle, hlt⟩ := h.serves.mem_sorted.1 hid
    have hid' : id = old.length + (id - old.length) := (Nat.add_sub_cancel' hle).symm
    have hi : id - old.length < ws.length := (Nat.sub_lt_iff_lt_add' hle).2 hlt
    have hw : ws[id - old.length]? = some ws[id - old.length] := List.getElem?_eq_getElem hi
    refine ⟨id - old.length, ws[id - old.length], hid', hw, ?_⟩
    have := h.serves.writer? (id - old.length)
    rw [← hid', hw] at this
    exact this
  refine ⟨?_, ?_⟩
  · intro id hid
    obtain ⟨i, w, -, hi, hw⟩ := hwriter id hid
    have hmem := List.mem_of_getElem? hi
    exact ⟨w, hw, hne w hmem, h.carries hmem⟩
  · refine h.serves.nodup_sorted.imp_of_mem fun {i j} hi hj hij v w hv hw hvw => ?_
    obtain ⟨m, v', rfl, hm, hv'⟩ := hwriter i hi
    obtain ⟨n, w', rfl, hn, hw'⟩ := hwriter j hj
    cases hv.symm.trans hv'
    cases hw.symm.trans hw'
    have := h.spot_inj (List.mem_of_getElem? hm) (List.mem_of_getElem? hn) hvw
    subst this
    have hlt := (List.getElem?_eq_some_iff.1 hm).1
    have hmn := (List.getElem?_inj hlt (.of_map _ h.serves.tables)).1 (hm.trans hn.symm)
    exact hij (congrArg _ hmn)

/-- When all writers have been closed each file holds all that was written for its table, if there
is room for it. -/
theorem tracks_closeAll (h : p.Tracks old ws d s.disk content)
    (hne : ∀ w ∈ ws, content w.table ≠ []) {x : Except Failure Unit}
    (hc : p.closeAll s = (x, p', s')) :
    d.Touches (d.At (ws.map (·.path))) s'.disk ∧
      (x = .ok () → ∀ w ∈ ws, s'.disk.Received (d.spot w.path) (content w.table)) ∧
      ∀ e, x = .error e → p.Full d := by
  have hset := settled_closeEach (h.ready hne) none
  have hopen : ∀ id ∈ p.sorted.map (·.2), ∀ w,
      Pool.writer? { p with writers := [], claimed := [] } id = some w → w ∈ ws := by
    intro id hid w hw
    obtain ⟨hle, -⟩ := h.serves.mem_sorted.1 hid
    have := h.serves.writer? (id - old.length)
    rw [Nat.add_sub_cancel' hle] at this
    exact List.mem_of_getElem? (this.symm.trans hw)
  have hall : ∀ w ∈ ws, ∃ id ∈ p.sorted.map (·.2),
      Pool.writer? { p with writers := [], claimed := [] } id = some w := by
    intro w hw
    obtain ⟨i, hi⟩ := List.mem_iff_getElem?.1 hw
    have hlt := (List.getElem?_eq_some_iff.1 hi).1
    exact ⟨old.length + i, h.serves.mem_sorted.2 ⟨by omega, by omega⟩,
      (h.serves.writer? i).trans hi⟩
  unfold closeAll at hc
  cases hr : closeEach { p with writers := [], claimed := [] } none s (p.sorted.map (·.2)) with
  | mk y z =>
    rw [hr] at hset hc
    have hd : z.2.disk = s'.disk := by cases y <;> cases hc <;> rfl
    rw [← hd]
    refine ⟨h.touches.trans (hset.touches.mono ?_), ?_, ?_⟩
    · rintro l ⟨id, hid, w, hw, rfl⟩
      have hmem := hopen id hid w hw
      exact ⟨w.path, List.mem_map_of_mem hmem, h.leads hmem⟩
    · intro hx w hw
      obtain ⟨id, hid, hwid⟩ := hall w hw
      cases y with
      | none => exact (hset.received rfl).2 id hid w hwid
      | some e => cases hc; cases hx
    · intro e he
      cases y with
      | none => cases hc; cases he
      | some e' =>
        rcases hset.fails e' rfl with hn | ⟨id, hid, w, hw, hn⟩
        · cases hn
        · have hmem := hopen id hid w hw
          exact ⟨w.path, _, h.gives w hmem, h.leads hmem, (h.touches.tree.device _ _).1 hn⟩

end Pool
end DumpRouter
