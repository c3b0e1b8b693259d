import DumpRouter.Proofs.Writer.Operations

/-!
# DumpRouter.Proofs.Writer.SafePaths

Where the file of a table can be. The names of tables come from the dump, and whatever stands in
them, the path that a pool chooses is one step below its output directory.

* `Harmless`, `SafeName`: the characters that are kept, and the names that are made of them.
* `isSafe_iff`: the characters that a stem keeps are these.
* `freePath_safe`: the chosen path is such a name in the output directory, whatever is claimed.
* `Reachable.outputDir`: no operation moves the output directory.
* `get_below_outputDir`: what this comes to for a pool in use.
-/

namespace DumpRouter

/-- A character that parts no path, is no control character, and is refused by no file system. -/
def Harmless (c : Char) : Prop :=
  c ∉ ['/', '\\', '\x00', ':', '*', '?', '"', '<', '>', '|'] ∧
    0x20 ≤ c.toNat ∧ (c.toNat < 0x7F ∨ 0x9F < c.toNat)

/-- A name with the extension of an SQL file that is not hidden and has harmless characters only. -/
structure SafeName (name : String) : Prop where
  extension : ".sql".toList <:+ name.toList
  front : name.toList.head? ≠ some '.'
  harmless : ∀ c ∈ name.toList, Harmless c

theorem isSafe_iff (c : Char) : FileStem.isSafe c = true ↔ Harmless c := by
  constructor
  · intro h
    simp only [FileStem.isSafe, FileStem.isControl, Bool.not_eq_true', Bool.or_eq_false_iff,
      List.contains_eq_mem, decide_eq_false_iff_not, Bool.and_eq_false_iff] at h
    obtain ⟨hres, hlow, hhigh⟩ := h
    have hnul : c ≠ '\x00' := by
      rintro rfl
      exact hlow (by decide)
    refine ⟨?_, by omega, by omega⟩
    simp only [FileStem.reserved, List.mem_cons, List.not_mem_nil, or_false, not_or] at hres ⊢
    obtain ⟨hslash, hback, hrest⟩ := hres
    exact ⟨hslash, hback, hnul, hrest⟩
  · rintro ⟨hmem, hlow, hhigh⟩
    have hres : c ∉ FileStem.reserved := by
      simp only [FileStem.reserved, List.mem_cons, List.not_mem_nil, or_false, not_or] at hmem ⊢
      obtain ⟨hslash, hback, -, hrest⟩ := hmem
      exact ⟨hslash, hback, hrest⟩
    have hctl : FileStem.isControl c = false := by
      simp [FileStem.isControl]
      omega
    simp [FileStem.isSafe, hres, hctl]

theorem fileStem_ne_empty (table : String) : fileStem table ≠ "" := by
  intro h
  have := congrArg String.toList h
  simp [fileStem, FileStem.ofTable_ne_nil] at this

theorem fileStem_fileStem (table : String) : fileStem (fileStem table) = fileStem table := by
  simp [fileStem, FileStem.ofTable_ofTable]

theorem fileStem_eq_self {table : String} (hne : table ≠ "")
    (hall : ∀ c ∈ table.toList, Harmless c) (hdot : table.toList.head? ≠ some '.') :
    fileStem table = table := by
  have hsafe : ∀ c ∈ table.toList, FileStem.isSafe c = true := fun c hc =>
    (isSafe_iff c).2 (hall c hc)
  rw [fileStem, FileStem.ofTable_eq_self (by simpa using hne) hsafe hdot, String.ofList_toList]

theorem front_fileStem (table : String) : (fileStem table).toList.head? ≠ some '.' := by
  simpa [fileStem] using FileStem.head?_ofTable table.toList

theorem safeName_sql {stem : String} (h : Stem stem) (hdot : stem.toList.head? ≠ some '.') :
    SafeName (stem ++ ".sql") := by
  obtain ⟨c, r, hcons⟩ := List.exists_cons_of_ne_nil h.ne_nil
  refine ⟨?_, ?_, ?_⟩
  · rw [String.toList_append]
    exact List.suffix_append ..
  · rw [hcons] at hdot
    simpa [hcons] using hdot
  · intro d hd
    rw [String.toList_append] at hd
    rcases List.mem_append.1 hd with hd | hd
    · exact (isSafe_iff d).1 (h.safe d hd)
    · have hsql : ".sql".toList.all FileStem.isSafe = true := by decide
      exact (isSafe_iff d).1 (List.all_eq_true.1 hsql d hd)

/-- No dot is in front of a safe name, so it is none of the names of dots. -/
theorem SafeName.plain {name : String} (h : SafeName name) : Path.Plain name := by
  obtain ⟨t, ht⟩ := h.extension
  have hne : ∀ s : String, s.toList.head? = some '.' → name ≠ s := by
    rintro s hs rfl
    exact h.front hs
  refine ⟨?_, ?_, hne "." rfl, hne ".." rfl⟩
  · intro hnil
    simp [hnil] at ht
  · intro hc
    exact (h.harmless '/' hc).1 (by decide)

namespace Pool

variable {p : Pool} {dir : Path}

theorem pathOfStem_safe (p : Pool) {stem : String} (h : Stem stem)
    (hdot : stem.toList.head? ≠ some '.') :
    ∃ name, SafeName name ∧ p.pathOfStem stem = p.outputDir.join ⟨name⟩ :=
  ⟨stem ++ ".sql", safeName_sql h hdot, rfl⟩

/-- The path that a pool chooses is a safe name in its output directory, whatever is claimed. -/
theorem freePath_safe (p : Pool) (table : String) :
    ∃ name, SafeName name ∧ p.freePath table = p.outputDir.join ⟨name⟩ := by
  have hfront := front_fileStem table
  have hown := p.pathOfStem_safe (stem_fileStem table) hfront
  unfold freePath
  split
  · cases hf : (p.candidates table).find? fun c => !p.isClaimed c with
    | none =>
      rw [Option.getD_none]
      exact hown
    | some c =>
      obtain ⟨i, -, rfl⟩ := List.mem_map.1 (List.mem_of_find?_eq_some hf)
      -- a number behind a stem leaves its first character as it is
      obtain ⟨d, r, hcons⟩ := List.exists_cons_of_ne_nil (stem_fileStem table).ne_nil
      rw [Option.getD_some, numbered]
      refine p.pathOfStem_safe (stem_numbered table (i + 2)) ?_
      rw [hcons] at hfront
      simpa [hcons] using hfront
  · exact hown

theorem outputDir_after (p : Pool) (s : Site) (o : Operation) :
    (p.after s o).outputDir = p.outputDir := by
  refine after_keeps (P := fun q => q.outputDir = p.outputDir) ?_ ?_ ?_ rfl s
  · intro q table path s hq _ _ _
    exact (q.outputDir_add table path s).trans hq
  · intro q id s f hq _
    exact (q.outputDir_onWriter id s f).trans hq
  · intro _ q s hq
    exact (q.outputDir_closeAll s).trans hq

theorem Reachable.outputDir (h : p.Reachable dir) : p.outputDir = dir := by
  induction h with
  | new => rfl
  | after o s _ ih => exact (outputDir_after _ s o).trans ih

/-- What comes of an attempt to make a writer for a table at a path: that writer, or a failure to
create it there. -/
structure Makes (table : String) (path : Path) (r : Except Failure WriterId × Pool × Site) :
    Prop where
  made : ∀ id, r.1 = .ok id → ∃ w, r.2.1.writer? id = some w ∧ w.table = table ∧ w.path = path
  refused : ∀ e, r.1 = .error e → ∃ cause, e = .writerCreate table path cause

theorem makes_add (p : Pool) (table : String) (path : Path) (s : Site) :
    Makes table path (p.add table path s) := by
  unfold add
  cases hc : TableWriter.create table path s with
  | mk x s' =>
    cases x with
    | error e =>
      refine ⟨nofun, ?_⟩
      rintro f ⟨⟩
      exact (TableWriter.create_fails hc).1
    | ok w =>
      obtain ⟨ht, hp, -⟩ := TableWriter.create_carries hc
      refine ⟨?_, nofun⟩
      rintro id ⟨⟩
      exact ⟨w, by simp [writer?], ht, hp⟩

theorem makes_get {table : String} (h : p.writers.lookup table = none) (s : Site) :
    Makes table (p.freePath table) (p.get table s) := by
  unfold get
  rw [h]
  exact p.makes_add ..

/-- Whatever a table is called and whatever a pool has been used for, the path that it chooses for
the table is one step below its output directory, with a safe name, and a writer that it makes for
the table is made there. A stem is not empty, is its own stem, and is the name of the table where
that is safe as it is. -/
theorem get_below_outputDir (h : p.Reachable dir) (table : String) :
    (∃ name, SafeName name ∧ p.freePath table = dir.join ⟨name⟩ ∧
        (dir.join ⟨name⟩).components = dir.components ++ [.name name] ∧
        (p.writers.lookup table = none → ∀ s, Makes table (dir.join ⟨name⟩) (p.get table s))) ∧
      fileStem (fileStem table) = fileStem table ∧ fileStem table ≠ "" ∧
      (table ≠ "" → (∀ c ∈ table.toList, Harmless c) → table.toList.head? ≠ some '.' →
        fileStem table = table) := by
  obtain ⟨name, hname, hpath⟩ := p.freePath_safe table
  rw [h.outputDir] at hpath
  refine ⟨⟨name, hname, hpath, ?_, ?_⟩, fileStem_fileStem table, fileStem_ne_empty table,
    fileStem_eq_self⟩
  · exact Path.components_join hname.plain dir
  · intro hl s
    rw [← hpath]
    exact makes_get hl s

/-- A pool in which a table has the file that another table's name would give it. -/
def climbing : Pool := (Pool.new ⟨"out"⟩).after outSite (.get "../etc/passwd")

theorem get_below_outputDir_climbing :
    climbing.Reachable ⟨"out"⟩ ∧ climbing.claimed = ["out/_._etc_passwd.sql"] ∧
      climbing.writers.lookup "..:etc?passwd" = none ∧
      climbing.freePath "..:etc?passwd" = ⟨"out/_._etc_passwd_2.sql"⟩ ∧
      (∃ name, SafeName name ∧ climbing.freePath "..:etc?passwd" = Path.join ⟨"out"⟩ ⟨name⟩ ∧
        (Path.join ⟨"out"⟩ ⟨name⟩).components = [.name "out", .name name] ∧
        Makes "..:etc?passwd" (Path.join ⟨"out"⟩ ⟨name⟩) (climbing.get "..:etc?passwd" outSite)) ∧
      (∀ c ∈ "orders.2024".toList, Harmless c) ∧ fileStem "orders.2024" = "orders.2024" := by
  have hr : climbing.Reachable ⟨"out"⟩ := .after _ _ .new
  have hdir : (⟨"out"⟩ : Path).components = [.name "out"] := by decide +kernel
  have hpool : climbing.claimed = ["out/_._etc_passwd.sql"] ∧
      climbing.writers.lookup "..:etc?passwd" = none ∧
      climbing.freePath "..:etc?passwd" = ⟨"out/_._etc_passwd_2.sql"⟩ := by decide +kernel
  obtain ⟨hclaimed, hnone, hfree⟩ := hpool
  have hsafe : "orders.2024".toList.all FileStem.isSafe = true := by decide +kernel
  have hall : ∀ c ∈ "orders.2024".toList, Harmless c := fun c hc =>
    (isSafe_iff c).1 (List.all_eq_true.1 hsafe c hc)
  obtain ⟨⟨name, hname, hpath, hcomps, hmakes⟩, -⟩ := get_below_outputDir hr "..:etc?passwd"
  obtain ⟨-, -, -, hself⟩ := get_below_outputDir hr "orders.2024"
  rw [hdir] at hcomps
  exact ⟨hr, hclaimed, hnone, hfree, ⟨name, hname, hpath, hcomps, hmakes hnone outSite⟩, hall,
    hself (by decide +kernel) hall (by decide +kernel)⟩

end Pool
end DumpRouter
