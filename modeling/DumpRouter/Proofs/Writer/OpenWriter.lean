import DumpRouter.Proofs.Writer.TableWriter

/-!
# DumpRouter.Proofs.Writer.OpenWriter

What is asked of the writer of a table, and what one call comes to while the writer is open, whether
or not it fails.

* `Buffered.offer`: chunks offered to a buffer until it refuses one, and those that it takes.
* `TableWriter.Call`, `call`: what may be asked of a writer.
* `Open.write`, `Open.flush`: what has been taken is in the file or held, and none of it twice.
* `call_rewrites`: a call reaches the file of its writer only.
* `Open.call_ok`, `Open.close_file`: where there is room nothing fails, and a close leaves all of it
  in the file.
-/

namespace DumpRouter
namespace Buffered

/-- Offers chunks to a buffer until it refuses one. In front are the chunks that it takes. -/
def offer (b : Buffered) (d : Disk) : List Bytes → List Bytes × Except Fault Unit × Buffered × Disk
  | [] => ([], .ok (), b, d)
  | c :: cs =>
    match b.write c d with
    | (.error f, b', d') => ([], .error f, b', d')
    | (.ok (), b', d') => (c :: (offer b' d' cs).1, (offer b' d' cs).2)

variable {b : Buffered} {d : Disk} {c : Bytes}

theorem offer_prefix (b : Buffered) (d : Disk) (cs : List Bytes) : (b.offer d cs).1 <+: cs := by
  fun_induction offer b d cs with
  | case1 => exact List.prefix_rfl
  | case2 => exact List.nil_prefix
  | case3 b d c cs b' d' hw ih => exact (List.prefix_cons_inj c).2 ih

/-- A buffer fails only by refusing a chunk. -/
theorem offer_ok_iff (b : Buffered) (d : Disk) (cs : List Bytes) :
    (b.offer d cs).2.1 = .ok () ↔ (b.offer d cs).1 = cs := by
  fun_induction offer b d cs with
  | case1 => simp
  | case2 => simp
  | case3 b d c cs b' d' hw ih => simpa using ih

theorem offer_stays (b : Buffered) (d : Disk) (cs : List Bytes) :
    b.Stays d (b.offer d cs).2 := by
  fun_induction offer b d cs with
  | case1 b d => exact .unchanged b d _
  | case2 b d c cs f b' d' hw => exact hw ▸ b.write_stays c d
  | case3 b d c cs b' d' hw ih =>
    have hs := b.write_stays c d
    rw [hw] at hs
    exact hs.trans ih

theorem offer_room (h : b.held.size ≤ b.capacity) (d : Disk) (cs : List Bytes) :
    (b.offer d cs).2.2.1.held.size ≤ (b.offer d cs).2.2.1.capacity := by
  fun_induction offer b d cs with
  | case1 => exact h
  | case2 b d c cs f b' d' hw =>
    have := held_write_le h c d
    rwa [hw] at this
  | case3 b d c cs b' d' hw ih =>
    have := held_write_le h c d
    rw [hw] at this
    exact ih this

/-- What the buffer takes stands behind what has gone into it before. -/
theorem offer_carries (h : b.Carries d c) (cs : List Bytes) :
    (b.offer d cs).2.2.1.Carries (b.offer d cs).2.2.2 (c ++ (b.offer d cs).1.flatten) := by
  fun_induction offer b d cs generalizing c with
  | case1 => simpa using h
  | case2 b d chunk cs f b' d' hw =>
    have hrefused := write_refused (f := f) h (congrArg Prod.fst hw)
    rw [hw] at hrefused
    simpa using hrefused
  | case3 b d chunk cs b' d' hw ih =>
    have hl := write_leaves h chunk
    rw [hw] at hl
    simpa using ih (hl.carries rfl)

theorem offer_fails (h : b.Carries d c) {cs : List Bytes} {f : Fault}
    (hf : (b.offer d cs).2.1 = .error f) : d.node? b.handle.location = some (.device .full) := by
  fun_induction offer b d cs generalizing c with
  | case1 => cases hf
  | case2 b d chunk cs f' b' d' hw => exact (write_leaves h chunk).fails f' (by rw [hw])
  | case3 b d chunk cs b' d' hw ih =>
    have hl := write_leaves h chunk
    rw [hw] at hl
    have := ih (hl.carries rfl) hf
    rw [hl.location] at this
    exact (hl.touches.tree.device _ _).1 this

end Buffered

namespace TableWriter

/-- What the user of a writer may ask of it. -/
inductive Call where
  | write (statement : Bytes)
  | flush
  | close
  deriving DecidableEq

namespace Call

/-- The chunks that a call has for the buffer. -/
def chunks : Call → List Bytes
  | .write statement => [statement, [10]]
  | .flush | .close => []

/-- The statement of a call as it stands in the file. -/
def record : Call → List Bytes
  | .write statement => [statement ++ [10]]
  | .flush | .close => []

end Call

def call (w : TableWriter) (s : Site) : Call → Except Failure Unit × TableWriter × Site
  | .write statement => w.write statement s
  | .flush => w.flush s
  | .close => w.close s

/-- The chunks of a call that the buffer takes. -/
def taken (w : TableWriter) (s : Site) (c : Call) : List Bytes :=
  match w.output with
  | none => []
  | some b => (b.offer s.disk c.chunks).1

/-- Whether a statement and the newline behind it have both been taken. -/
def complete (chunks : List Bytes) : Bool := chunks.length == 2

/-- The place of the file that the writer has open. -/
def place? (w : TableWriter) : Option Location := w.output.map (·.handle.location)

variable {w : TableWriter} {s : Site} {l : Location} {b : Buffered} {d : Disk} {c : Bytes}

/-- A statement goes to the buffer as two chunks, and counts if both are taken. -/
theorem write_eq (hb : w.output = some b) (statement : Bytes) (s : Site) :
    w.write statement s =
      match (b.offer s.disk [statement, [10]]).2 with
      | (.error f, b', d') => refuse { w with output := some b' } f (s.setDisk d')
      | (.ok (), b', d') =>
        let w' := { w with output := some b', writes := w.writes + 1 }
        if w'.writes % flushInterval = 0 then w'.flushOutput b' (s.setDisk d')
        else (.ok (), w', s.setDisk d') := by
  unfold write Buffered.offer
  rw [hb]
  dsimp only
  cases b.write statement s.disk with
  | mk x y =>
    cases x with
    | error f => rfl
    | ok _ =>
      dsimp only
      unfold Buffered.offer
      cases y.1.write [10] y.2 with
      | mk x' y' => cases x' <;> rfl

theorem flushOutput_eq (w : TableWriter) (b : Buffered) (s : Site) :
    (w.flushOutput b s).2.1 = { w with output := some (b.flush s.disk).2.1 } ∧
      (w.flushOutput b s).2.2.disk = (b.flush s.disk).2.2 ∧
      ((w.flushOutput b s).1 = .ok () ↔ (b.flush s.disk).1 = .ok ()) := by
  unfold flushOutput refuse
  cases b.flush s.disk with
  | mk x y => cases x <;> simp [Site.note, Site.setDisk]

/-! ## What the writer has open -/

/-- The writer has the file at `l` open through the buffer `b`, and the bytes `c` have gone into
it. -/
structure Open (w : TableWriter) (d : Disk) (l : Location) (c : Bytes) (b : Buffered) : Prop where
  output : w.output = some b
  location : b.handle.location = l
  carries : b.Carries d c
  capacity : b.capacity = bufferSize
  room : b.held.size ≤ b.capacity

/-- A writer whose buffer was `b` is open after an operation that leaves it with the bytes `c`. What
was in the file stays there. -/
structure Goes (b : Buffered) (l : Location) (c : Bytes)
    (r : Except Failure Unit × TableWriter × Site) (b' : Buffered) : Prop where
  opened : r.2.1.Open r.2.2.disk l c b'
  offset : b.handle.offset ≤ b'.handle.offset

theorem Open.flushOutput (h : w.Open s.disk l c b) :
    ∃ b', Goes b l c (w.flushOutput b s) b' ∧ (w.flushOutput b s).2.1.writes = w.writes ∧
      ((w.flushOutput b s).1 = .ok () → b'.held.size = 0) := by
  obtain ⟨hw, hd, hx⟩ := w.flushOutput_eq b s
  have hs := b.flush_stays s.disk
  have hl := Buffered.flush_leaves h.carries
  have hheld := b.held_flush_le s.disk
  refine ⟨(b.flush s.disk).2.1, ⟨⟨?_, ?_, ?_, ?_, ?_⟩, hs.offset⟩, ?_, ?_⟩
  · rw [hw]
  · exact hs.location.trans h.location
  · rw [hd]
    cases hf : b.flush s.disk with
    | mk x y =>
      cases x with
      | ok _ =>
        rw [hf] at hl
        exact hl.carries rfl
      | error f =>
        obtain ⟨hb, hd'⟩ := Buffered.flush_error hf
        rw [hb, hd']
        exact h.carries
  · exact hs.capacity.trans h.capacity
  · rw [hs.capacity]
    exact Nat.le_trans hheld h.room
  · rw [hw]
  · intro hok
    have hok := hx.1 hok
    cases hf : b.flush s.disk with
    | mk x y =>
      rw [hf] at hok
      cases hok
      exact Buffered.held_flush hf

theorem Open.flush (h : w.Open s.disk l c b) :
    ∃ b', Goes b l c (w.flush s) b' ∧ (w.flush s).2.1.writes = w.writes := by
  obtain ⟨b', hgoes, hwrites, -⟩ := h.flushOutput
  unfold TableWriter.flush
  rw [h.output]
  exact ⟨b', hgoes, hwrites⟩

theorem Open.offer (h : w.Open d l c b) (cs : List Bytes) (n : Nat) :
    Open { w with output := some (b.offer d cs).2.2.1, writes := n } (b.offer d cs).2.2.2 l
      (c ++ (b.offer d cs).1.flatten) (b.offer d cs).2.2.1 := by
  have hs := b.offer_stays d cs
  exact ⟨rfl, hs.location.trans h.location, Buffered.offer_carries h.carries cs,
    hs.capacity.trans h.capacity, Buffered.offer_room h.room d cs⟩

/-- What has been taken of a statement has gone into the writer, whether or not the write fails. The
statement counts if all of it has been taken. -/
theorem Open.write (h : w.Open s.disk l c b) (statement : Bytes) :
    ∃ b', Goes b l (c ++ (w.taken s (.write statement)).flatten) (w.write statement s) b' ∧
      (w.write statement s).2.1.writes =
        w.writes + (if complete (w.taken s (.write statement)) then 1 else 0) ∧
      ((w.write statement s).1 = .ok () → (w.writes + 1) % flushInterval = 0 →
        b'.held.size = 0) := by
  have htaken : w.taken s (.write statement) = (b.offer s.disk [statement, [10]]).1 := by
    unfold taken
    rw [h.output]
    rfl
  have hopen := h.offer [statement, [10]]
  have hoffset := (b.offer_stays s.disk [statement, [10]]).offset
  have hok := b.offer_ok_iff s.disk [statement, [10]]
  have hfirst := b.offer_prefix s.disk [statement, [10]]
  rw [htaken, write_eq h.output]
  cases hoffer : b.offer s.disk [statement, [10]] with
  | mk ts r =>
    obtain ⟨x, b', d'⟩ := r
    rw [hoffer] at hopen hoffset hok hfirst
    dsimp only at hopen hoffset hok hfirst ⊢
    cases x with
    | error f =>
      -- one of the two chunks has been refused, so not both are among those taken
      have hts : complete ts = false := by
        refine Bool.eq_false_iff.2 fun hall => ?_
        have := hok.2 (hfirst.eq_of_length (eq_of_beq hall))
        cases this
      refine ⟨b', ⟨hopen w.writes, hoffset⟩, ?_, nofun⟩
      rw [hts]
      rfl
    | ok _ =>
      have hts : complete ts = true := by
        rw [hok.1 rfl]
        rfl
      rw [hts]
      have hopen := hopen (w.writes + 1)
      by_cases hn : (w.writes + 1) % flushInterval = 0
      · dsimp only
        rw [if_pos hn]
        obtain ⟨b'', hgoes, hwrites, hheld⟩ := Open.flushOutput (s := s.setDisk d') hopen
        exact ⟨b'', ⟨hgoes.opened, Nat.le_trans hoffset hgoes.offset⟩, hwrites,
          fun hx _ => hheld hx⟩
      · dsimp only
        rw [if_neg hn]
        exact ⟨b', ⟨hopen, hoffset⟩, rfl, fun _ h0 => absurd h0 hn⟩

/-! ## What a call reaches -/

/-- An operation on the writer `w` writes to the place of its open file only, and leaves it open
there. -/
structure Stays (w : TableWriter) (s : Site) (r : Except Failure Unit × TableWriter × Site) :
    Prop where
  place : r.2.1.place? = w.place?
  rewrites : s.disk.Rewrites (fun l => w.place? = some l) r.2.2.disk

theorem Stays.unchanged {r : Except Failure Unit × TableWriter × Site} (hw : r.2.1 = w)
    (hd : r.2.2.disk = s.disk) : w.Stays s r :=
  ⟨by rw [hw], hd ▸ .refl _ _⟩

theorem Stays.of_buffered (hb : w.output = some b) {x : Except Fault Unit} {b' : Buffered}
    {d' : Disk} (hs : b.Stays s.disk (x, b', d')) {r : Except Failure Unit × TableWriter × Site}
    (hr : r.2.1.output = some b') (hd : r.2.2.disk = d') : w.Stays s r := by
  refine ⟨?_, hd ▸ hs.rewrites.mono ?_⟩
  · rw [place?, place?, hr, hb]
    exact congrArg some hs.location
  · rintro l rfl
    rw [place?, hb]
    rfl

theorem flushOutput_stays (hb : w.output = some b) (s : Site) : w.Stays s (w.flushOutput b s) := by
  obtain ⟨hw, hd, -⟩ := w.flushOutput_eq b s
  exact .of_buffered hb (b.flush_stays s.disk) (congrArg output hw) hd

theorem write_stays (w : TableWriter) (statement : Bytes) (s : Site) :
    w.Stays s (w.write statement s) := by
  cases hb : w.output with
  | none =>
    unfold write
    rw [hb]
    exact .unchanged rfl rfl
  | some b =>
    have hs := b.offer_stays s.disk [statement, [10]]
    rw [write_eq hb]
    cases hoffer : (b.offer s.disk [statement, [10]]).2 with
    | mk x y =>
      rw [hoffer] at hs
      cases x with
      | error f => exact .of_buffered hb hs rfl rfl
      | ok u =>
        cases u
        dsimp only
        split
        · obtain ⟨hw, hd, -⟩ := flushOutput_eq ⟨w.table, w.path, some y.1, w.writes + 1⟩ y.1
            (s.setDisk y.2)
          exact .of_buffered hb (hs.trans (y.1.flush_stays y.2)) (congrArg output hw) hd
        · exact .of_buffered hb hs rfl rfl

theorem flush_stays (w : TableWriter) (s : Site) : w.Stays s (w.flush s) := by
  unfold flush
  split
  · exact .unchanged rfl rfl
  · next b hb => exact flushOutput_stays hb s

theorem close_rewrites (w : TableWriter) (s : Site) :
    s.disk.Rewrites (fun l => w.place? = some l) (w.close s).2.2.disk := by
  cases hb : w.output with
  | none =>
    unfold close
    rw [hb]
    exact .refl _ _
  | some b =>
    rw [disk_close hb]
    refine (b.flush_stays s.disk).rewrites.mono ?_
    rintro l rfl
    rw [place?, hb]
    rfl

theorem call_rewrites (w : TableWriter) (s : Site) (c : Call) :
    s.disk.Rewrites (fun l => w.place? = some l) (w.call s c).2.2.disk := by
  cases c with
  | write statement => exact (w.write_stays statement s).rewrites
  | flush => exact (w.flush_stays s).rewrites
  | close => exact w.close_rewrites s

theorem call_place (w : TableWriter) (s : Site) (c : Call) :
    (w.call s c).2.1.place? = w.place? ∨ (w.call s c).2.1.place? = none := by
  cases c with
  | write statement => exact .inl (w.write_stays statement s).place
  | flush => exact .inl (w.flush_stays s).place
  | close =>
    rw [call, close_writer]
    exact .inr rfl

/-! ## Where there is room -/

theorem Open.carried (h : w.Open d l c b) : w.Carries d l c :=
  ⟨b, h.output, h.location, h.carries⟩

theorem Open.place (h : w.Open d l c b) : w.place? = some l := by
  rw [place?, h.output]
  exact congrArg some h.location

theorem Open.congr (h : w.Open d l c b) {d' : Disk} (hn : d'.node? l = d.node? l) :
    w.Open d' l c b :=
  ⟨h.output, h.location, h.carries.congr (h.location.symm ▸ hn), h.capacity, h.room⟩

theorem Open.call_ok (h : w.Open s.disk l c b) (hfull : s.disk.node? l ≠ some (.device .full))
    (k : Call) : (w.call s k).1 = .ok () := by
  have hfails : ∀ e, (w.call s k).1 = .error e → s.disk.node? l = some (.device .full) := by
    cases k with
    | write statement => exact (write_leaves h.carried statement).fails
    | flush =>
      intro e he
      simp only [TableWriter.call, TableWriter.flush, h.output] at he
      have := (flushOutput_leaves h.carries w).fails e he
      rwa [h.location] at this
    | close => exact fun e he => close_fails h.carried he
  cases hx : (w.call s k).1 with
  | ok u => rfl
  | error e => exact absurd (hfails e hx) hfull

theorem Open.taken_of_file (h : w.Open s.disk l c b)
    (hfile : ∃ content, s.disk.node? l = some (.file content)) (k : Call) :
    w.taken s k = k.chunks := by
  obtain ⟨content, hn⟩ := hfile
  have hok : (b.offer s.disk k.chunks).2.1 = .ok () := by
    cases hx : (b.offer s.disk k.chunks).2.1 with
    | ok u => rfl
    | error f =>
      have hfull := Buffered.offer_fails h.carries hx
      rw [h.location, hn] at hfull
      cases hfull
  rw [taken, h.output]
  exact (b.offer_ok_iff ..).1 hok

/-- What has been flushed is all in the file. -/
theorem Open.settled (h : w.Open d l c b) (hfile : ∃ content, d.node? l = some (.file content))
    (hheld : b.held.size = 0) :
    b.handle.offset = c.length ∧ d.node? l = some (.file (Bytes.pack c)) := by
  obtain ⟨content, hn⟩ := hfile
  rw [← h.location] at hn ⊢
  cases h.carries with
  | file content' node offset bytes =>
    rw [Bytes.unpack_eq_nil hheld, List.append_nil] at bytes
    rw [← bytes]
    refine ⟨by simp [offset], ?_⟩
    rw [node, Bytes.unpack_inj.1 (Bytes.unpack_pack (Bytes.unpack content'))]
  | null node => cases hn.symm.trans node
  | full node => cases hn.symm.trans node

theorem Open.close_file (h : w.Open s.disk l c b)
    (hfile : ∃ content, s.disk.node? l = some (.file content)) :
    (w.close s).2.2.disk.node? l = some (.file (Bytes.pack c)) := by
  have hfile' := ((flushOutput_stays h.output s).rewrites.file_iff l).2 hfile
  obtain ⟨content, hn⟩ := hfile
  obtain ⟨b', hgoes, -, hheld⟩ := h.flushOutput
  obtain ⟨-, hdisk, -⟩ := w.flushOutput_eq b s
  have hflush : (w.flush s).1 = .ok () := h.call_ok (by simp [hn]) .flush
  rw [TableWriter.flush, h.output] at hflush
  rw [disk_close h.output, ← hdisk]
  exact (hgoes.opened.settled hfile' (hheld hflush)).2

/-! ## After a close -/

theorem output_of_isClosed (h : w.isClosed = true) : w.output = none := by
  simpa [isClosed] using h

theorem place_of_isClosed (h : w.isClosed = true) : w.place? = none := by
  rw [place?, output_of_isClosed h]
  rfl

/-- The writer refuses every statement and touches nothing; to flush or to close it succeeds. -/
structure Shut (w : TableWriter) : Prop where
  write : ∀ statement s, (w.write statement s).1 = .error (.write w.table .closed) ∧
    (w.write statement s).2.1 = w ∧ (w.write statement s).2.2.disk = s.disk
  flush : ∀ s, w.flush s = (.ok (), w, s)
  close : ∀ s, w.close s = (.ok (), w, s)

theorem shut_of_isClosed (h : w.isClosed = true) : w.Shut := by
  have hnone := output_of_isClosed h
  refine ⟨write_closed h, fun s => ?_, fun s => ?_⟩
  · rw [TableWriter.flush, hnone]
  · rw [TableWriter.close, hnone]

theorem Shut.call (h : w.Shut) (s : Site) (k : Call) :
    (w.call s k).2.1 = w ∧ (w.call s k).2.2.disk = s.disk ∧
      ((w.call s k).1 = .ok () → k.record = []) := by
  cases k with
  | write statement =>
    obtain ⟨hx, hw, hd⟩ := h.write statement s
    exact ⟨hw, hd, fun hok => nomatch hx.symm.trans hok⟩
  | flush => rw [TableWriter.call, h.flush s]; exact ⟨rfl, rfl, fun _ => rfl⟩
  | close => rw [TableWriter.call, h.close s]; exact ⟨rfl, rfl, fun _ => rfl⟩

/-! ## A new writer -/

theorem create_opens {table : String} {path : Path} {s' : Site}
    (h : create table path s = (.ok w, s')) :
    ∃ l b, s.disk.Leads path l ∧ w.Open s'.disk l [] b ∧ w.writes = 0 := by
  unfold create at h
  split at h
  · next b d hb =>
    cases h
    obtain ⟨hl, -, hc⟩ := Buffered.create_carries hb
    unfold Buffered.create at hb
    split at hb <;> cases hb
    exact ⟨_, _, hl, ⟨rfl, rfl, hc, rfl, Nat.zero_le _⟩, rfl⟩
  · cases h

end TableWriter
end DumpRouter
