import DumpRouter.Proofs.Analysis.Counts

/-!
# DumpRouter.Proofs.Analysis.File

A file that nothing is written to is read as its bytes are, when they come from a script of one
step. So what holds of analysing scripts holds of analysing files.

* `Source.read_file`: one read of the file, and the same read of the script.
* `Reader.Replays`: a reader of the file and a reader of the script at the same place.
* `turn_replays`, `within_replays`, `read_replays`: they stay at the same place, turn by turn and
  call by call.
* `Analyzer.reportFile_eq`: an analysis of the file is an analysis of its bytes.
-/

namespace DumpRouter

/-- What a script has left when a file with the bytes `c` has been read up to `offset`. -/
def Script.Remains (c : Bytes) (offset : Nat) (s : Script) : Prop :=
  s = [.data (c.drop offset)] ∨ s = [] ∧ c.drop offset = []

theorem Script.read_remains {c : Bytes} {offset : Nat} {s : Script} (h : Remains c offset s)
    (n : Nat) :
    ∃ s', s.read n = (.bytes ((c.drop offset).take n), s') ∧
      Remains c (offset + ((c.drop offset).take n).length) s' := by
  have hrest : c.drop (offset + ((c.drop offset).take n).length) = (c.drop offset).drop n := by
    rw [← List.drop_drop, List.length_take]
    rcases Nat.le_total n (c.drop offset).length with hle | hle
    · rw [Nat.min_eq_left hle]
    · rw [Nat.min_eq_right hle, List.drop_length, List.drop_of_length_le hle]
  unfold Remains
  rw [hrest]
  rcases h with rfl | ⟨rfl, hnil⟩
  · cases c.drop offset with
    | nil => exact ⟨[], by simp [read], .inr ⟨rfl, List.drop_nil⟩⟩
    | cons b t => exact ⟨_, rfl, .inl rfl⟩
  · rw [hnil]
    exact ⟨[], by simp [read], .inr ⟨rfl, List.drop_nil⟩⟩

theorem Source.read_file {d : Disk} {l : Location} {c : ByteArray}
    (hnode : d.node? l = some (.file c)) (hsize : c.size ≤ longestFile) (offset n : Nat) :
    (Source.file l offset).read d n =
      (.bytes (((Bytes.unpack c).drop offset).take n),
        .file l (offset + (((Bytes.unpack c).drop offset).take n).length)) := by
  have hall : ((Bytes.unpack c).drop offset).take (longestFile - offset) =
      (Bytes.unpack c).drop offset := by
    apply List.take_of_length_le
    rw [List.length_drop, Bytes.length_unpack]
    omega
  have htake : Bytes.unpack (c.extract offset (offset + min n (longestFile - offset))) =
      ((Bytes.unpack c).drop offset).take n := by
    rw [Bytes.unpack_extract, ← List.take_drop, ← List.take_take, hall]
  simp only [read, hnode, htake]

/-- The input `i` reads a file at `l` with the bytes `c`, and `i'` these bytes from a script. They
are the same but for that. -/
def Input.Replays (l : Location) (c : Bytes) (i i' : Input) : Prop :=
  ∃ offset s, i.source = .file l offset ∧ Script.Remains c offset s ∧
    i' = { i with source := .script s }

/-- Readers of two such inputs at the same place. -/
def Reader.Replays (l : Location) (c : Bytes) (r r' : Reader) : Prop :=
  ∃ i', r.input.Replays l c i' ∧ r' = { r with input := i' }

section Replays

variable {d : Disk} {l : Location} {c : ByteArray} (hnode : d.node? l = some (.file c))
  (hsize : c.size ≤ longestFile)
include hnode hsize

theorem Input.read_replays {i i' : Input} (h : i.Replays l (Bytes.unpack c) i') (n : Nat) :
    ∃ b, (i.read d n).1 = .bytes b ∧ (i'.read d n).1 = .bytes b ∧
      (i.read d n).2.Replays l (Bytes.unpack c) (i'.read d n).2 := by
  obtain ⟨offset, s, hs, hrem, rfl⟩ := h
  obtain ⟨s', hread, hrem'⟩ := Script.read_remains hrem n
  have hfile := Source.read_file hnode hsize offset n
  have hscript : (Source.script s).read d n =
      (.bytes (((Bytes.unpack c).drop offset).take n), .script s') := by
    rw [Source.read, hread]
  unfold Input.read
  rw [hs, hfile]
  dsimp only
  rw [hscript]
  exact ⟨_, rfl, rfl, _, s', rfl, hrem', rfl⟩

namespace Reader

theorem turn_replays {x : Reading} {r' : Reader} (h : x.reader.Replays l (Bytes.unpack c) r') :
    (∃ y y', x.turn d = .inl y ∧
        Reading.turn d { x with reader := r' } = .inl { y with reader := y' } ∧
        y.reader.Replays l (Bytes.unpack c) y') ∨
      ∃ o y y', x.turn d = .inr (o, y) ∧
        Reading.turn d { x with reader := r' } = .inr (o, y') ∧
        y.Replays l (Bytes.unpack c) y' := by
  obtain ⟨i', hi, rfl⟩ := h
  unfold Reading.turn
  dsimp only
  cases x.reader.chunk with
  | nil =>
    obtain ⟨b, hb, hb', hrest⟩ := Input.read_replays hnode hsize hi x.reader.capacity
    dsimp only
    cases hx : x.reader.input.read d x.reader.capacity with
    | mk y j =>
      cases hx' : i'.read d x.reader.capacity with
      | mk y' j' =>
        rw [hx] at hb hrest
        rw [hx'] at hb' hrest
        cases hb
        cases hb'
        cases b with
        | nil => exact .inr ⟨_, _, _, rfl, rfl, j', hrest, rfl⟩
        | cons b t => exact .inl ⟨_, _, rfl, rfl, j', hrest, rfl⟩
  | cons b t =>
    dsimp only
    cases x.state.scan (b :: t) with
    | mk st n =>
      cases n with
      | none => exact .inl ⟨_, _, rfl, rfl, i', hi, rfl⟩
      | some n => exact .inr ⟨_, _, _, rfl, rfl, i', hi, rfl⟩

theorem within_replays (k : Nat) {x : Reading} {r' : Reader}
    (h : x.reader.Replays l (Bytes.unpack c) r') {o : Outcome} {y : Reader}
    (hx : Reading.within d k x = some (o, y)) :
    ∃ y', Reading.within d k { x with reader := r' } = some (o, y') ∧
      y.Replays l (Bytes.unpack c) y' := by
  induction k generalizing x r' with
  | zero => cases hx
  | succ k ih =>
    rw [Reading.within] at hx ⊢
    rcases turn_replays hnode hsize h with ⟨z, z', hz, hz', hrest⟩ | ⟨p, z, z', hz, hz', hrest⟩
    · rw [hz] at hx
      rw [hz']
      exact ih hrest hx
    · rw [hz] at hx
      rw [hz']
      cases hx
      exact ⟨z', rfl, hrest⟩

theorem read_replays {r r' : Reader} (h : r.Replays l (Bytes.unpack c) r') :
    (r'.read d).1 = (r.read d).1 ∧ (r.read d).2.Replays l (Bytes.unpack c) (r'.read d).2 := by
  -- both calls come to their end within the same number of turns
  have hr := @readWithin_read d r _ (Nat.le_max_left r.remaining r'.remaining)
  have hr' := @readWithin_read d r' _ (Nat.le_max_right r.remaining r'.remaining)
  unfold readWithin at hr hr'
  obtain ⟨⟨o, y⟩, hw, hcount⟩ := Option.map_eq_some_iff.1 hr
  obtain ⟨y', hw', i', hi, rfl⟩ := within_replays hnode hsize _ h hw
  rw [hw'] at hr'
  rw [← hcount, ← Option.some.inj hr']
  cases o with
  | statement t => exact ⟨rfl, i', hi, rfl⟩
  | finished => exact ⟨rfl, i', hi, rfl⟩
  | failed f => exact ⟨rfl, i', hi, rfl⟩

end Reader

namespace Analyzer

theorem fold_replays (a : Analyzer) (tables : List TableStats) {s : Site} (hs : s.disk = d)
    {r r' : Reader} (h : r.Replays l (Bytes.unpack c) r') :
    a.fold tables r' s = a.fold tables r s := by
  induction r using Reader.induction_read generalizing tables s r' with
  | _ r ih =>
    subst hs
    obtain ⟨ho, i', ⟨offset, s', hsource, hrem, rfl⟩, hafter⟩ := Reader.read_replays hnode hsize h
    rw [fold_eq, fold_eq a tables r]
    cases hr : r.read s.disk with
    | mk x y =>
      cases hr' : r'.read s.disk with
      | mk x' y' =>
        rw [hr] at ho hsource hafter
        rw [hr'] at ho hafter
        cases ho
        cases hafter
        cases x with
        | finished => rfl
        | failed f => rfl
        | statement t =>
          exact ih _ _ _ hr _ (Site.disk_noteAll _ _) ⟨_, ⟨offset, s', hsource, hrem, rfl⟩, rfl⟩

end Analyzer

end Replays

/-- An analysis of a file is an analysis of its bytes. -/
theorem Analyzer.reportFile_eq {a : Analyzer} {s : Site} {l : Location} {c : ByteArray}
    (hstat : s.disk.stat a.input = .ok (l, .file c)) (hsize : c.size ≤ longestFile) :
    a.reportFile s = a.report (.script [.data (Bytes.unpack c)]) c.size s := by
  obtain ⟨-, hnode⟩ := Disk.leads_of_stat hstat (by simp)
  have hstart : Reader.Replays l (Bytes.unpack c)
      (.new (.new (.file l 0) a.metered) (a.portion.getD (portionFor c.size)))
      (.new (.new (.script [.data (Bytes.unpack c)]) a.metered)
        (a.portion.getD (portionFor c.size))) :=
    ⟨_, ⟨0, _, rfl, .inl rfl, rfl⟩, rfl⟩
  have hfold := fold_replays hnode hsize a [] (Site.disk_note s .analysisStarted) hstart
  unfold reportFile openInput
  rw [hstat]
  dsimp only [Disk.size?, Option.getD]
  unfold report
  dsimp only
  rw [hfold]

end DumpRouter
